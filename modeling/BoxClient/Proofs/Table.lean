import BoxClient.Table
import Mathlib.Data.List.Induction
import Mathlib.Data.List.Nodup
import Mathlib.Data.String.Basic
/-!
Tables stay sorted. In a sorted table no name occurs twice, and a name behind all others is inserted
at the end, so going through a sorted table and inserting gives the table back. A sorted table is
known by what its names find.
-/
namespace BoxClient.Table

variable {α β : Type} {t u : Table α} {name key : String} {a b : α}

theorem mem_names : name ∈ t.names ↔ ∃ a, (name, a) ∈ t := by
  simp [names]

@[simp] theorem find?_eq_none_iff : t.find? name = none ↔ name ∉ t.names := by
  rw [find?, List.lookup_eq_none_iff, names, List.mem_map]
  simp only [bne_iff_ne, ne_eq]
  constructor
  · rintro h ⟨p, hp, rfl⟩
    exact h p hp rfl
  · intro h p hp he
    exact h ⟨p, hp, he.symm⟩

@[simp] theorem find?_append (t u : Table α) (name : String) :
    find? (t ++ u) name = (t.find? name).or (u.find? name) := List.lookup_append

theorem mem_of_find? (h : t.find? name = some a) : (name, a) ∈ t := by
  rw [find?, List.lookup_eq_some_iff] at h
  obtain ⟨before, after, rfl, -⟩ := h
  simp

/-- Where no name is repeated, every entry can be found. -/
theorem find?_of_mem_nodup (h : t.names.Nodup) (hmem : (name, a) ∈ t) :
    t.find? name = some a := by
  induction t with
  | nil => cases hmem
  | cons p t ih =>
    obtain ⟨hhead, htail⟩ := List.nodup_cons.mp h
    rcases List.mem_cons.mp hmem with rfl | hmem
    · exact List.lookup_cons_self
    · have hne : name ≠ p.1 := by
        rintro rfl
        exact hhead (mem_names.mpr ⟨a, hmem⟩)
      rw [find?, List.lookup_cons, beq_false_of_ne hne]
      exact ih htail hmem

theorem find?_eq_some_iff (h : t.names.Nodup) : t.find? name = some a ↔ (name, a) ∈ t :=
  ⟨mem_of_find?, find?_of_mem_nodup h⟩

/-- In what order pairs with different names stand does not matter to what is found. -/
theorem find?_perm (h : t.Perm u) (hnodup : t.names.Nodup) (key : String) :
    t.find? key = u.find? key := by
  have hnodup' : u.names.Nodup := (h.map _).nodup_iff.mp hnodup
  ext a
  rw [find?_eq_some_iff hnodup, find?_eq_some_iff hnodup', h.mem_iff]

theorem sorted_concat : Sorted (t ++ [(name, a)]) ↔ t.Sorted ∧ ∀ p ∈ t, p.1 < name := by
  simp [Sorted, List.pairwise_append]

theorem Sorted.nodup_names (h : t.Sorted) : t.names.Nodup :=
  List.pairwise_map.mpr (h.imp fun hlt => hlt.ne)

theorem find?_of_mem (h : t.Sorted) (hmem : (name, a) ∈ t) : t.find? name = some a :=
  find?_of_mem_nodup h.nodup_names hmem

theorem mem_insert {p : String × α} (h : p ∈ t.insert name a) : p = (name, a) ∨ p ∈ t := by
  induction t with
  | nil => exact .inl (List.mem_singleton.mp h)
  | cons q t ih =>
    rw [insert] at h
    split at h
    · exact List.mem_cons.mp h
    · split at h
      · rcases List.mem_cons.mp h with h | h
        · exact .inl h
        · exact .inr (List.mem_cons_of_mem _ h)
      · rcases List.mem_cons.mp h with rfl | h
        · exact .inr List.mem_cons_self
        · exact (ih h).imp_right (List.mem_cons_of_mem _)

theorem Sorted.insert (h : t.Sorted) (name : String) (a : α) : (t.insert name a).Sorted := by
  induction t with
  | nil => exact List.pairwise_singleton _ _
  | cons q t ih =>
    obtain ⟨hhead, htail⟩ := List.pairwise_cons.mp h
    rw [Table.insert]
    split
    · rename_i hlt
      refine List.pairwise_cons.mpr ⟨fun p hp => ?_, h⟩
      rcases List.mem_cons.mp hp with rfl | hp
      · exact hlt
      · exact hlt.trans (hhead p hp)
    · rename_i hnot
      split
      · rename_i he
        subst he
        exact List.pairwise_cons.mpr ⟨hhead, htail⟩
      · rename_i hne
        refine List.pairwise_cons.mpr ⟨fun p hp => ?_, ih htail⟩
        rcases mem_insert hp with rfl | hp
        · exact lt_of_le_of_ne (not_lt.mp hnot) (Ne.symm hne)
        · exact hhead p hp

/-- A name behind all others goes to the end. -/
theorem insert_last (h : ∀ p ∈ t, p.1 < name) (a : α) : t.insert name a = t ++ [(name, a)] := by
  induction t with
  | nil => rfl
  | cons q t ih =>
    rw [List.forall_mem_cons] at h
    have hnot : ¬ name < q.1 := not_lt.mpr h.1.le
    rw [insert, if_neg hnot, if_neg h.1.ne', ih h.2]
    rfl

theorem find?_cons (name key : String) (a : α) (t : Table α) :
    find? ((name, a) :: t) key = if key = name then some a else t.find? key := by
  rw [find?, List.lookup_cons]
  by_cases h : key = name
  · rw [if_pos h, beq_iff_eq.mpr h]
  · rw [if_neg h, beq_false_of_ne h]
    rfl

theorem find?_insert (t : Table α) (name key : String) (a : α) :
    (t.insert name a).find? key = if key = name then some a else t.find? key := by
  induction t with
  | nil => exact find?_cons name key a []
  | cons p t ih =>
    obtain ⟨name', a'⟩ := p
    rw [insert]
    split
    · exact find?_cons name key a _
    · split
      · rename_i he
        subst he
        rw [find?_cons, find?_cons]
        split <;> rfl
      · rename_i hne
        rw [find?_cons, find?_cons, ih]
        by_cases h : key = name'
        · have hname : key ≠ name := fun he => hne (he.symm.trans h)
          rw [if_pos h, if_neg hname, if_pos h]
        · rw [if_neg h, if_neg h]

@[simp] theorem find?_filter (p : String → Bool) (t : Table α) (key : String) :
    find? (t.filter fun q => p q.1) key = if p key then t.find? key else none := by
  induction t with
  | nil => simp
  | cons q t ih =>
    obtain ⟨name, a⟩ := q
    rw [List.filter_cons]
    by_cases hp : p name = true
    · rw [if_pos hp, find?_cons, find?_cons, ih]
      by_cases h : key = name
      · subst h
        simp [hp]
      · simp [h]
    · rw [if_neg hp, find?_cons, ih]
      by_cases h : key = name
      · subst h
        simp [hp]
      · simp [h]

theorem find?_erase (t : Table α) (name : String) :
    (t.erase name).find? = Function.update t.find? name none := by
  funext key
  rw [erase, find?_filter fun key => decide (key ≠ name), Function.update_apply]
  by_cases h : key = name
  · simp [h]
  · simp [h]

@[simp] theorem find?_mapValues (f : α → β) (t : Table α) (key : String) :
    (t.mapValues f).find? key = (t.find? key).map f := by
  induction t with
  | nil => rfl
  | cons p t ih =>
    have hcons : mapValues f (p :: t) = (p.1, f p.2) :: mapValues f t := rfl
    rw [hcons, find?_cons, ih, find?_cons]
    split <;> rfl

theorem Sorted.filter (h : t.Sorted) (p : String × α → Bool) : Sorted (t.filter p) :=
  List.Pairwise.filter p h

theorem Sorted.mapValues (h : t.Sorted) (f : α → β) : Sorted (Table.mapValues f t) :=
  List.pairwise_map.mpr h

/-- Sorted tables in which every name finds the same are the same. -/
theorem Sorted.ext (ht : t.Sorted) (hu : u.Sorted) (h : ∀ key, t.find? key = u.find? key) :
    t = u := by
  have hmem (p : String × α) : p ∈ t ↔ p ∈ u := by
    constructor
    · intro hp
      have hfind := find?_of_mem ht hp
      rw [h] at hfind
      exact mem_of_find? hfind
    · intro hp
      have hfind := find?_of_mem hu hp
      rw [← h] at hfind
      exact mem_of_find? hfind
  have hperm : List.Perm t u := (List.perm_ext_iff_of_nodup (List.Nodup.of_map _ ht.nodup_names)
    (List.Nodup.of_map _ hu.nodup_names)).mpr hmem
  exact hperm.eq_of_pairwise (fun p q _ _ hpq hqp => absurd hpq hqp.not_gt) ht hu

theorem sorted_insertAll (h : t.Sorted) (ps : List (String × α)) : (t.insertAll ps).Sorted := by
  induction ps generalizing t with
  | nil => exact h
  | cons p ps ih => exact ih (h.insert p.1 p.2)

theorem sorted_ofList (ps : List (String × α)) : (ofList ps).Sorted :=
  sorted_insertAll List.Pairwise.nil ps

theorem ofList_concat (ps : List (String × α)) (name : String) (a : α) :
    ofList (ps ++ [(name, a)]) = (ofList ps).insert name a := by
  rw [ofList, insertAll, List.foldl_append]
  rfl

/-- Entries are left out but not made up. -/
theorem mem_of_mem_ofList {p : String × α} {ps : List (String × α)} (h : p ∈ ofList ps) :
    p ∈ ps := by
  induction ps using List.reverseRecOn with
  | nil => exact h
  | append_singleton ps q ih =>
    rw [ofList_concat] at h
    rcases mem_insert h with rfl | h
    · exact List.mem_append_right _ List.mem_cons_self
    · exact List.mem_append_left _ (ih h)

/-- Going through a sorted table and inserting gives the table back. -/
theorem ofList_of_sorted (h : t.Sorted) : ofList t = t := by
  induction t using List.reverseRecOn with
  | nil => rfl
  | append_singleton t p ih =>
    obtain ⟨hsorted, hlast⟩ := sorted_concat.mp h
    rw [ofList_concat, ih hsorted, insert_last hlast]

/-- Of the members with one name in a list the table from it holds the last. -/
theorem find?_ofList_last (ps : List (String × α)) (key : String) :
    (ofList ps).find? key = find? ps.reverse key := by
  induction ps using List.reverseRecOn with
  | nil => rfl
  | append_singleton ps p ih =>
    rw [ofList_concat, find?_insert, List.reverse_append, List.reverse_singleton,
      List.singleton_append, find?_cons, ih]

/-- What is found from the end is a member whose name does not occur behind it. -/
theorem find?_reverse_eq_some_iff {ps : Table α} :
    find? ps.reverse key = some a ↔
      ∃ before after, ps = before ++ (key, a) :: after ∧ key ∉ names after := by
  rw [find?, List.lookup_eq_some_iff]
  constructor
  · rintro ⟨before, after, he, hnot⟩
    refine ⟨after.reverse, before.reverse, ?_, fun hmem => ?_⟩
    · rw [← List.reverse_reverse ps, he]
      simp
    · obtain ⟨b, hb⟩ := mem_names.mp hmem
      simpa using hnot _ (List.mem_reverse.mp hb)
  · rintro ⟨before, after, rfl, hnot⟩
    refine ⟨after.reverse, before.reverse, by simp, fun p hp => ?_⟩
    have hne : key ≠ p.1 := by
      rintro rfl
      exact hnot (mem_names.mpr ⟨p.2, List.mem_reverse.mp hp⟩)
    simpa using hne

/-- A name that occurs once at most is found the same from both ends. -/
theorem find?_reverse {ps : Table α} (h : ps.names.count key ≤ 1) :
    find? ps.reverse key = ps.find? key := by
  induction ps with
  | nil => rfl
  | cons p ps ih =>
    obtain ⟨name, a⟩ := p
    change (name :: names ps).count key ≤ 1 at h
    rw [List.reverse_cons, find?_append, find?_cons, find?_cons]
    by_cases he : key = name
    · subst he
      rw [List.count_cons_self] at h
      have hnone : find? ps.reverse key = none := by
        rw [find?_eq_none_iff, names, List.map_reverse, List.mem_reverse, ← List.count_eq_zero]
        exact Nat.le_zero.mp (Nat.le_of_succ_le_succ h)
      simp [hnone]
    · rw [List.count_cons_of_ne (Ne.symm he)] at h
      simp [ih h, he]

/-- A table from pairs with different names holds each of them. -/
theorem find?_ofList {ps : Table α} (h : ps.names.Nodup) (key : String) :
    (ofList ps).find? key = ps.find? key := by
  rw [find?_ofList_last, find?_reverse (List.nodup_iff_count_le_one.mp h key)]

/-- Pairs with different names make one table in whatever order. -/
theorem ofList_perm {ps ps' : Table α} (h : ps.Perm ps') (hnodup : ps.names.Nodup) :
    ofList ps = ofList ps' := by
  have hnodup' : ps'.names.Nodup := (h.map _).nodup_iff.mp hnodup
  refine (sorted_ofList ps).ext (sorted_ofList ps') fun key => ?_
  rw [find?_ofList hnodup, find?_ofList hnodup', find?_perm h hnodup]

@[simp] theorem mem_names_ofList {ps : Table α} : name ∈ (ofList ps).names ↔ name ∈ ps.names := by
  rw [← not_iff_not, ← find?_eq_none_iff, find?_ofList_last, find?_eq_none_iff, names,
    List.map_reverse, List.mem_reverse, ← names]

/-- Members are left out by their names before or after they become a table. -/
theorem ofList_filter (p : String → Bool) (ps : Table α) :
    ofList (ps.filter fun q => p q.1) = (ofList ps).filter fun q => p q.1 := by
  refine (sorted_ofList _).ext ((sorted_ofList ps).filter _) fun key => ?_
  rw [find?_ofList_last, find?_filter, find?_ofList_last, ← List.filter_reverse, find?_filter]

end BoxClient.Table
