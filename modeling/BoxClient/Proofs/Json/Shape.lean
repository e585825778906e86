import BoxClient.Proofs.Json.Canonical
/-!
The shape of a value: how deep its containers nest, whether a float occurs in it, and its normal
form, in which every object is sorted. A value that is canonical already is its own normal form.
-/
namespace BoxClient.Json.Value

/-- To prove something of all values, prove it of containers from what they hold. -/
theorem induction {P : Value → Prop} (null : P .null) (boolean : ∀ b, P (.boolean b))
    (number : ∀ n, P (.number n)) (string : ∀ s, P (.string s))
    (array : ∀ vs, (∀ v ∈ vs, P v) → P (.array vs))
    (object : ∀ t, (∀ p ∈ t, P p.2) → P (.object t)) (v : Value) : P v := by
  refine Value.rec (motive_1 := P) (motive_2 := fun vs => ∀ v ∈ vs, P v)
    (motive_3 := fun t => ∀ p ∈ t, P p.2) (motive_4 := fun p => P p.2) null boolean number string
    array object ?_ ?_ ?_ ?_ ?_ v
  · exact fun v hv => nomatch hv
  · exact fun v vs hv hvs => List.forall_mem_cons.mpr ⟨hv, hvs⟩
  · exact fun p hp => nomatch hp
  · exact fun p t hp ht => List.forall_mem_cons.mpr ⟨hp, ht⟩
  · exact fun _ _ hv => hv

mutual

/-- How deep containers nest in a value: the largest number of brackets that are open at one place
of its text. -/
def depth : Value → Nat
  | .array vs => depthOfItems vs + 1
  | .object t => depthOfMembers t + 1
  | _ => 0

def depthOfItems : List Value → Nat
  | [] => 0
  | v :: r => max v.depth (depthOfItems r)

def depthOfMembers : List (String × Value) → Nat
  | [] => 0
  | (_, v) :: r => max v.depth (depthOfMembers r)

end

mutual

/-- Whether a float occurs in a value. -/
def hasFloat : Value → Bool
  | .number (.float _) => true
  | .array vs => hasFloatItem vs
  | .object t => hasFloatMember t
  | _ => false

def hasFloatItem : List Value → Bool
  | [] => false
  | v :: r => v.hasFloat || hasFloatItem r

def hasFloatMember : List (String × Value) → Bool
  | [] => false
  | (_, v) :: r => v.hasFloat || hasFloatMember r

end

/-- No float occurs in the value, and containers nest at most `n` deep. -/
def Fits (n : Nat) (v : Value) : Prop := v.hasFloat = false ∧ v.depth ≤ n

instance (n : Nat) (v : Value) : Decidable (v.Fits n) := inferInstanceAs (Decidable (_ ∧ _))

section
variable {n : Nat} {vs : List Value} {t : Table Value}

theorem fits_items : hasFloatItem vs = false ∧ depthOfItems vs ≤ n ↔ ∀ v ∈ vs, v.Fits n := by
  induction vs with
  | nil => simp [hasFloatItem, depthOfItems]
  | cons v vs ih =>
    rw [List.forall_mem_cons, ← ih, hasFloatItem, depthOfItems, Bool.or_eq_false_iff, max_le_iff,
      Fits]
    tauto

theorem fits_members :
    hasFloatMember t = false ∧ depthOfMembers t ≤ n ↔ ∀ p ∈ t, p.2.Fits n := by
  induction t with
  | nil => simp [hasFloatMember, depthOfMembers]
  | cons p t ih =>
    rw [List.forall_mem_cons, ← ih, hasFloatMember, depthOfMembers, Bool.or_eq_false_iff,
      max_le_iff, Fits]
    tauto

/-- The items of an array fit into one level less. -/
@[simp] theorem fits_array : (Value.array vs).Fits n ↔ ∃ m, n = m + 1 ∧ ∀ v ∈ vs, v.Fits m := by
  simp only [← fits_items]
  cases n <;> simp [Fits, hasFloat, depth]

@[simp] theorem fits_object : (Value.object t).Fits n ↔ ∃ m, n = m + 1 ∧ ∀ p ∈ t, p.2.Fits m := by
  simp only [← fits_members]
  cases n <;> simp [Fits, hasFloat, depth]

@[simp] theorem fits_number {m : Number} : (Value.number m).Fits n ↔ ∀ x, m ≠ .float x := by
  cases m <;> simp [Fits, hasFloat, depth]

end

mutual

/-- The value with every object sorted; of two members with one name the later counts. -/
def normal : Value → Value
  | .array vs => .array (normalItems vs)
  | .object t => .object (Table.ofList (normalMembers t))
  | v => v

def normalItems : List Value → List Value
  | [] => []
  | v :: r => v.normal :: normalItems r

def normalMembers : List (String × Value) → List (String × Value)
  | [] => []
  | (name, v) :: r => (name, v.normal) :: normalMembers r

end

@[simp] theorem normalItems_eq (vs : List Value) : normalItems vs = vs.map normal := by
  induction vs with
  | nil => rfl
  | cons v vs ih => rw [normalItems, ih, List.map_cons]

@[simp] theorem normalMembers_eq (t : Table Value) : normalMembers t = t.mapValues normal := by
  induction t with
  | nil => rfl
  | cons p t ih =>
    rw [normalMembers, ih]
    rfl

theorem normal_mapValues {t : Table Value} (h : ∀ p ∈ t, p.2.normal = p.2) :
    t.mapValues normal = t := by
  refine (List.map_congr_left fun p hp => ?_).trans (List.map_id t)
  rw [h p hp]
  rfl

/-- A canonical value is its own normal form. -/
theorem Canonical.normal_eq {v : Value} (h : v.Canonical) : v.normal = v := by
  induction h with
  | null => rfl
  | boolean b => rfl
  | number n => rfl
  | string s => rfl
  | array _ ih => rw [normal, normalItems_eq, List.map_congr_left ih, List.map_id']
  | object hsorted _ ih =>
    rw [normal, normalMembers_eq, normal_mapValues ih, Table.ofList_of_sorted hsorted]

end BoxClient.Json.Value
