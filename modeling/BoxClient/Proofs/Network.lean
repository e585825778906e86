import BoxClient.Network
import BoxClient.Proofs.Outcome
/-!
Which addresses are dialled: the remembered one first, then the candidates of one answer of the
resolver in their order, up to the first that accepts. So at most one of the dialled addresses
accepts, and that is the one that is connected to.
-/
namespace BoxClient.Network

variable {α : Type} {n : Network α} {cached : Option α} {a : α} {c : Http.Connection}

def accepts (n : Network α) (a : α) : Bool := (n.dial a).isOk

/-- The addresses to try besides the remembered one. A resolver that fails has none. -/
def candidates (n : Network α) : List α :=
  match n.resolve with
  | .ok candidates => candidates
  | .error _ => []

theorem mem_candidates :
    a ∈ n.candidates ↔ ∃ candidates, n.resolve = .ok candidates ∧ a ∈ candidates := by
  rw [candidates]
  cases n.resolve <;> simp

theorem accepts_of_ok (h : n.dial a = .ok c) : n.accepts a = true := by
  rw [accepts, h]
  rfl

theorem accepts_of_error {reason : String} (h : n.dial a = .error reason) :
    n.accepts a = false := by
  rw [accepts, h]
  rfl

theorem exists_dial_of_accepts (h : n.accepts a = true) : ∃ c, n.dial a = .ok c := by
  cases hdial : n.dial a with
  | ok c => exact ⟨c, rfl⟩
  | error reason => rw [accepts_of_error hdial] at h; cases h

theorem exists_reason_of_refuses (h : n.accepts a = false) :
    ∃ reason, n.dial a = .error reason := by
  cases hdial : n.dial a with
  | ok c => rw [accepts_of_ok hdial] at h; cases h
  | error reason => exact ⟨reason, rfl⟩

/-- Candidates that refuse are dialled and passed over. -/
theorem firstAccepting_ok {before after : List α} (hbefore : ∀ b ∈ before, n.accepts b = false)
    (h : n.dial a = .ok c) (reason : String) :
    n.firstAccepting reason (before ++ a :: after) = (.ok (a, c), before ++ [a]) := by
  induction before generalizing reason with
  | nil => simp only [List.nil_append, firstAccepting, h]
  | cons b before ih =>
    rw [List.forall_mem_cons] at hbefore
    obtain ⟨reason', hb⟩ := exists_reason_of_refuses hbefore.1
    simp only [List.cons_append, firstAccepting, hb, ih hbefore.2]

/-- Where nobody accepts, everybody is dialled. -/
theorem firstAccepting_error {candidates : List α} (h : ∀ b ∈ candidates, n.accepts b = false)
    (reason : String) :
    ∃ reason', n.firstAccepting reason candidates = (.error reason', candidates) := by
  induction candidates generalizing reason with
  | nil => exact ⟨reason, rfl⟩
  | cons b candidates ih =>
    rw [List.forall_mem_cons] at h
    obtain ⟨reason', hb⟩ := exists_reason_of_refuses h.1
    obtain ⟨reason'', hrest⟩ := ih h.2 reason'
    exact ⟨reason'', by simp only [firstAccepting, hb, hrest]⟩

theorem connectFresh_ok {before after : List α}
    (hresolve : n.resolve = .ok (before ++ a :: after))
    (hbefore : ∀ b ∈ before, n.accepts b = false) (h : n.dial a = .ok c) (cached : Option α) :
    n.connectFresh cached = ⟨.ok (a, c), some a, 1, before ++ [a]⟩ := by
  have hdial : n.resolveAndDial = (.ok (a, c), before ++ [a]) := by
    rw [resolveAndDial, hresolve]
    split
    · rename_i he
      cases he
    · rename_i he
      simp at he
    · rename_i he
      cases he
      rw [firstAccepting_ok hbefore h]
      rfl
  rw [connectFresh, hdial]

/-- Without a candidate that accepts, the memory stays as it was. -/
theorem connectFresh_error (h : ∀ b ∈ n.candidates, n.accepts b = false) (cached : Option α) :
    ∃ f, n.connectFresh cached = ⟨.error f, cached, 1, n.candidates⟩ := by
  have hdial : ∃ f, n.resolveAndDial = (.error f, n.candidates) := by
    rw [candidates] at h ⊢
    rw [resolveAndDial]
    cases hresolve : n.resolve with
    | error reason => exact ⟨_, rfl⟩
    | ok candidates =>
      rw [hresolve] at h
      cases candidates with
      | nil => exact ⟨_, rfl⟩
      | cons b candidates =>
        obtain ⟨reason, hfirst⟩ := firstAccepting_error h ""
        exact ⟨.unreachable reason, by simp only [hfirst]; rfl⟩
  obtain ⟨f, hdial⟩ := hdial
  exact ⟨f, by rw [connectFresh, hdial]⟩

/-- Without a remembered address that accepts, the resolver is asked. -/
theorem connect_unremembered (h : ∀ a, cached = some a → n.accepts a = false) :
    n.connect cached = { n.connectFresh cached with
      dialled := cached.toList ++ (n.connectFresh cached).dialled } := by
  cases cached with
  | none => rfl
  | some a =>
    obtain ⟨reason, ha⟩ := exists_reason_of_refuses (h a rfl)
    rw [connect, ha]
    rfl

/-- All that connecting can do: it goes to the remembered address, or to the first candidate that
accepts, or nobody accepts. -/
theorem connect_cases (n : Network α) (cached : Option α) :
    (∃ a c, cached = some a ∧ n.dial a = .ok c ∧
      n.connect cached = ⟨.ok (a, c), some a, 0, [a]⟩) ∨
    ((∀ a, cached = some a → n.accepts a = false) ∧
      ∃ before a after c, n.resolve = .ok (before ++ a :: after) ∧
        (∀ b ∈ before, n.accepts b = false) ∧ n.dial a = .ok c ∧
        n.connect cached = ⟨.ok (a, c), some a, 1, cached.toList ++ (before ++ [a])⟩) ∨
    ((∀ a, cached = some a → n.accepts a = false) ∧ (∀ b ∈ n.candidates, n.accepts b = false) ∧
      ∃ f, n.connect cached = ⟨.error f, cached, 1, cached.toList ++ n.candidates⟩) := by
  by_cases hcached : ∀ a, cached = some a → n.accepts a = false
  · right
    rw [connect_unremembered hcached]
    by_cases hrefuse : ∀ b ∈ n.candidates, n.accepts b = false
    · obtain ⟨f, hfresh⟩ := connectFresh_error hrefuse cached
      exact .inr ⟨hcached, hrefuse, f, by rw [hfresh]⟩
    · push Not at hrefuse
      obtain ⟨b, hb, haccepts⟩ := hrefuse
      obtain ⟨candidates, hresolve, hb⟩ := mem_candidates.mp hb
      have hfind : (candidates.find? n.accepts).isSome := by
        rw [List.find?_isSome]
        exact ⟨b, hb, by simpa using haccepts⟩
      obtain ⟨a, ha⟩ := Option.isSome_iff_exists.mp hfind
      obtain ⟨haccepts', before, after, rfl, hbefore⟩ := List.find?_eq_some_iff_append.mp ha
      obtain ⟨c, hdial⟩ := exists_dial_of_accepts haccepts'
      have hbefore' : ∀ b ∈ before, n.accepts b = false := by simpa using hbefore
      exact .inl ⟨hcached, before, a, after, c, hresolve, hbefore', hdial,
        by rw [connectFresh_ok hresolve hbefore' hdial]⟩
  · push Not at hcached
    obtain ⟨a, rfl, haccepts⟩ := hcached
    obtain ⟨c, hdial⟩ := exists_dial_of_accepts (by simpa using haccepts)
    exact .inl ⟨a, c, rfl, hdial, by rw [connect, hdial]⟩

def reached {ε : Type} : Except ε (α × Http.Connection) → List α
  | .ok (a, _) => [a]
  | .error _ => []

theorem filter_accepts_eq_nil {as : List α} (h : ∀ a ∈ as, n.accepts a = false) :
    as.filter n.accepts = [] :=
  List.filter_eq_nil_iff.mpr fun a ha => by simp [h a ha]

theorem filter_accepts_cached (h : ∀ a, cached = some a → n.accepts a = false) :
    cached.toList.filter n.accepts = [] :=
  filter_accepts_eq_nil fun a ha => h a (Option.mem_toList.mp ha)

/-- The only address that is dialled and accepts is the one that is connected to. -/
theorem connect_dialled_accepts (n : Network α) (cached : Option α) :
    (n.connect cached).dialled.filter n.accepts = reached (n.connect cached).result := by
  rcases n.connect_cases cached with ⟨a, c, -, hdial, he⟩ |
    ⟨hcached, before, a, after, c, -, hbefore, hdial, he⟩ | ⟨hcached, hrefuse, f, he⟩
  · rw [he]
    simp [accepts_of_ok hdial, reached]
  · rw [he]
    simp [filter_accepts_cached hcached, filter_accepts_eq_nil hbefore, accepts_of_ok hdial,
      reached]
  · rw [he]
    simp [filter_accepts_cached hcached, filter_accepts_eq_nil hrefuse, reached]

/-- A connection is what its address gave when it was dialled. -/
theorem dial_of_connect (h : (n.connect cached).result = .ok (a, c)) : n.dial a = .ok c := by
  rcases n.connect_cases cached with ⟨a', c', -, hdial, he⟩ |
    ⟨-, _, a', _, c', -, -, hdial, he⟩ | ⟨-, -, f, he⟩
  · rw [he] at h
    cases h
    exact hdial
  · rw [he] at h
    cases h
    exact hdial
  · rw [he] at h
    cases h

end BoxClient.Network
