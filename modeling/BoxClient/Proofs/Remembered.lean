import BoxClient.Proofs.Operation
/-!
The remembered address. A session connects to it as long as it accepts, and otherwise to the first
candidate of the resolver that does. A `Scene` is a session and the network around it; its runs are
all orders in which a client can connect, carry operations out and clear the memory while the
network changes. At every moment of a run the session remembers where it was connected last, if the
memory was not cleared since.
-/
namespace BoxClient

namespace Session

open Http

variable {α : Type} {s : Session α} {n : Network α} {a : α} {c : Connection}

/-- All that connecting can do. -/
theorem connect_cases (s : Session α) (n : Network α) :
    (∃ a c, s.cached = some a ∧ n.dial a = .ok c ∧
      s.connect n = ⟨.ok c, s, 0, some (a, c.written), [a]⟩) ∨
    ((∀ a, s.cached = some a → n.accepts a = false) ∧
      ∃ before a after c, n.resolve = .ok (before ++ a :: after) ∧
        (∀ b ∈ before, n.accepts b = false) ∧ n.dial a = .ok c ∧
        s.connect n = ⟨.ok c, { s with cached := some a }, 1, some (a, c.written),
          s.cached.toList ++ (before ++ [a])⟩) ∨
    ((∀ a, s.cached = some a → n.accepts a = false) ∧ (∀ b ∈ n.candidates, n.accepts b = false) ∧
      ∃ m, s.connect n =
        ⟨.error (.connection m), s, 1, none, s.cached.toList ++ n.candidates⟩) := by
  obtain ⟨options, cached⟩ := s
  rcases n.connect_cases cached with ⟨a, c, rfl, hdial, he⟩ |
    ⟨hcached, before, a, after, c, hresolve, hbefore, hdial, he⟩ | ⟨hcached, hrefuse, f, he⟩
  · exact .inl ⟨a, c, rfl, hdial, by simp only [connect, he]⟩
  · exact .inr (.inl ⟨hcached, before, a, after, c, hresolve, hbefore, hdial,
      by simp only [connect, he]⟩)
  · exact .inr (.inr ⟨hcached, hrefuse, f.message options.endpoint, by simp only [connect, he]⟩)

/-- A memory that is still right saves the resolver. -/
theorem connect_remembered (hcached : s.cached = some a) (h : n.dial a = .ok c) :
    s.connect n = ⟨.ok c, s, 0, some (a, c.written), [a]⟩ := by
  obtain ⟨options, cached⟩ := s
  obtain rfl : cached = some a := hcached
  simp only [connect, Network.connect, h]

/-- Otherwise the first candidate that accepts is the new memory. -/
theorem connect_resolved (hcached : ∀ a, s.cached = some a → n.accepts a = false)
    {before after : List α} (hresolve : n.resolve = .ok (before ++ a :: after))
    (hbefore : ∀ b ∈ before, n.accepts b = false) (h : n.dial a = .ok c) :
    s.connect n = ⟨.ok c, { s with cached := some a }, 1, some (a, c.written),
      s.cached.toList ++ (before ++ [a])⟩ := by
  simp only [connect, Network.connect_unremembered hcached,
    Network.connectFresh_ok hresolve hbefore h]

/-- How a session connects: to the remembered address without asking the resolver if that accepts,
otherwise to the first candidate of one answer of the resolver that does. If none does, that is a
connection error and the session is the same as before. Nobody is dialled but these, in this order.
-/
structure ConnectsInOrder (s : Session α) (n : Network α) : Prop where
  succeeds_iff : (∃ c, (s.connect n).result = .ok c) ↔
    (∃ a, s.cached = some a ∧ n.accepts a = true) ∨
      ∃ candidates, n.resolve = .ok candidates ∧ ∃ a ∈ candidates, n.accepts a = true
  remembered : ∀ a c, s.cached = some a → n.dial a = .ok c →
    s.connect n = ⟨.ok c, s, 0, some (a, c.written), [a]⟩
  resolved : (∀ a, s.cached = some a → n.accepts a = false) →
    ∀ before a after c, n.resolve = .ok (before ++ a :: after) →
      (∀ b ∈ before, n.accepts b = false) → n.dial a = .ok c →
        s.connect n = ⟨.ok c, { s with cached := some a }, 1, some (a, c.written),
          s.cached.toList ++ (before ++ [a])⟩
  failed : ∀ e, (s.connect n).result = .error e →
    ∃ m, e = .connection m ∧ s.connect n =
      ⟨.error (.connection m), s, 1, none, s.cached.toList ++ n.candidates⟩

theorem connectsInOrder (s : Session α) (n : Network α) : s.ConnectsInOrder n where
  succeeds_iff := by
    rcases s.connect_cases n with ⟨a, c, hcached, hdial, he⟩ |
      ⟨-, before, a, after, c, hresolve, -, hdial, he⟩ | ⟨hcached, hrefuse, m, he⟩
    · rw [he]
      exact iff_of_true ⟨c, rfl⟩ (.inl ⟨a, hcached, Network.accepts_of_ok hdial⟩)
    · rw [he]
      exact iff_of_true ⟨c, rfl⟩
        (.inr ⟨_, hresolve, a, List.mem_append_cons_self, Network.accepts_of_ok hdial⟩)
    · rw [he]
      refine iff_of_false nofun ?_
      rintro (⟨a, ha, haccepts⟩ | ⟨candidates, hresolve, a, ha, haccepts⟩)
      · rw [hcached a ha] at haccepts
        cases haccepts
      · rw [hrefuse a (Network.mem_candidates.mpr ⟨candidates, hresolve, ha⟩)] at haccepts
        cases haccepts
  remembered a c := connect_remembered
  resolved hcached before a after c := connect_resolved hcached
  failed e h := by
    rcases s.connect_cases n with ⟨a, c, -, -, he⟩ | ⟨-, before, a, after, c, -, -, -, he⟩ |
      ⟨-, -, m, he⟩
    · rw [he] at h
      cases h
    · rw [he] at h
      cases h
    · rw [he] at h
      cases h
      exact ⟨m, rfl, he⟩

end Session

inductive Event (α : Type) where
  | connect
  /-- A transaction is made on a new connection. -/
  | create
  | perform (op : Operation)
  /-- The memory is cleared. -/
  | forget
  /-- Endpoints go up or down, or the resolver answers something else from now on. -/
  | change (n : Network α)

/-- What an event means for the remembered address. -/
inductive Occurrence (α : Type) where
  | reached (a : α)
  | forgot
  /-- No connection was made. -/
  | nothing

/-- Whether a call was connected, and where to; what it gave in the end does not count. -/
def Call.occurrence {α β : Type} (call : Call α β) : Occurrence α :=
  match call.contact with
  | some (a, _) => .reached a
  | none => .nothing

structure Scene (α : Type) where
  session : Session α
  network : Network α

namespace Scene

variable {α β : Type}

def after (w : Scene α) (call : Call α β) : Scene α × Occurrence α :=
  ({ w with session := call.session }, call.occurrence)

def step (w : Scene α) : Event α → Scene α × Occurrence α
  | .connect => w.after (w.session.connect w.network)
  | .create => w.after (w.session.create w.network)
  | .perform op => w.after (w.session.perform w.network op)
  | .forget => ({ w with session := w.session.forget }, .forgot)
  | .change network => ({ w with network }, .nothing)

/-- The scene after a sequence of events, and what each of them meant for the memory. -/
def run (w : Scene α) : List (Event α) → Scene α × List (Occurrence α)
  | [] => (w, [])
  | event :: events =>
    let (w, o) := w.step event
    let (w, log) := w.run events
    (w, o :: log)

def start (options : Options) (n : Network α) : Scene α := ⟨⟨options, none⟩, n⟩

end Scene

/-- The address was reached, and nothing was reached or forgotten since. -/
def IsLatest {α : Type} (log : List (Occurrence α)) (a : α) : Prop :=
  ∃ before after, log = before ++ .reached a :: after ∧ ∀ o ∈ after, o = .nothing

/-- What is remembered after an occurrence. -/
def Occurrence.update {α : Type} : Occurrence α → (cached : Option α) → Option α
  | reached a, _ => some a
  | forgot, _ => none
  | nothing, cached => cached

section
variable {α : Type} {s : Session α} {n : Network α}

theorem Session.connect_update (s : Session α) (n : Network α) :
    (s.connect n).session.cached = (s.connect n).occurrence.update s.cached := by
  rcases s.connect_cases n with ⟨a, c, hcached, -, he⟩ | ⟨-, _, a, _, c, -, -, -, he⟩ |
    ⟨-, -, m, he⟩
  · rw [he]
    exact hcached
  · rw [he]
    rfl
  · rw [he]
    rfl

/-- A call is connected as an attempt to connect is, whatever becomes of it then. -/
def Session.ConnectsAlike {β : Type} (s : Session α) (n : Network α) (call : Call α β) : Prop :=
  call.session = (s.connect n).session ∧ call.lookups = (s.connect n).lookups ∧
    call.dialled = (s.connect n).dialled ∧ call.occurrence = (s.connect n).occurrence

theorem Session.exchange_connectsAlike (s : Session α) (n : Network α) (method : Http.Method)
    (path : String) (body : Http.Body) (submitted : List Box) :
    s.ConnectsAlike n (s.exchange n method path body submitted) := by
  rw [ConnectsAlike]
  cases hconnect : (n.connect s.cached).result with
  | error f =>
    rw [exchange_unconnected hconnect]
    simp only [connect, hconnect, Call.occurrence, and_self]
  | ok p =>
    rw [exchange_connected hconnect]
    simp only [connect, hconnect, Call.occurrence, and_self]

/-- An operation is refused and does nothing, or it is connected as an attempt to connect is. -/
theorem Session.perform_connectsAlike (s : Session α) (n : Network α) (op : Operation) :
    s.IsQuiet (s.perform n op) ∨ s.ConnectsAlike n (s.perform n op) := by
  rcases s.perform_cases n op with ⟨refusal, -, he⟩ | ⟨m, submitted, f, -, -, he⟩
  · rw [he]
    exact .inl ⟨rfl, rfl, rfl, rfl⟩
  · rw [he]
    exact .inr (s.exchange_connectsAlike n m.method m.path m.body submitted)

theorem Session.perform_update (s : Session α) (n : Network α) (op : Operation) :
    (s.perform n op).session.cached = (s.perform n op).occurrence.update s.cached := by
  rcases s.perform_connectsAlike n op with ⟨-, -, hcontact, hsession⟩ |
    ⟨hsession, -, -, hoccurrence⟩
  · rw [hsession, Call.occurrence, hcontact]
    rfl
  · rw [hsession, hoccurrence]
    exact s.connect_update n

/-- The memory after an event is what the event means for the memory before it. -/
theorem Scene.step_update (w : Scene α) (event : Event α) :
    (w.step event).1.session.cached = (w.step event).2.update w.session.cached := by
  cases event with
  | connect => exact w.session.connect_update w.network
  | create => exact w.session.connect_update w.network
  | perform op => exact w.session.perform_update w.network op
  | forget => rfl
  | change network => rfl

end

section
variable {α : Type} {log : List (Occurrence α)} {o : Occurrence α} {a : α}

@[simp] theorem not_isLatest_nil : ¬ IsLatest [] a := by
  rintro ⟨before, after, he, -⟩
  simp at he

@[simp] theorem isLatest_cons :
    IsLatest (o :: log) a ↔ IsLatest log a ∨ o = .reached a ∧ ∀ o ∈ log, o = .nothing := by
  constructor
  · rintro ⟨before, after, he, hafter⟩
    cases before with
    | nil =>
      injection he with ho hlog
      subst ho hlog
      exact .inr ⟨rfl, hafter⟩
    | cons o' before =>
      injection he with ho hlog
      exact .inl ⟨before, after, hlog, hafter⟩
  · rintro (⟨before, after, rfl, hafter⟩ | ⟨rfl, hlog⟩)
    · exact ⟨o :: before, after, rfl, hafter⟩
    · exact ⟨[], log, rfl, hlog⟩

/-- A run leaves the latest address in the memory, or what was in it if nothing happened to it. -/
theorem Scene.run_cached (w : Scene α) (events : List (Event α)) (a : α) :
    (w.run events).1.session.cached = some a ↔
      IsLatest (w.run events).2 a ∨
        w.session.cached = some a ∧ ∀ o ∈ (w.run events).2, o = .nothing := by
  induction events generalizing w with
  | nil => simp [run]
  | cons event events ih =>
    have hstep := w.step_update event
    rw [run]
    generalize w.step event = after at hstep ⊢
    obtain ⟨w', o⟩ := after
    dsimp only at hstep ⊢
    rw [ih w', hstep, isLatest_cons, List.forall_mem_cons]
    cases o with
    | reached b => simp [Occurrence.update]
    | forgot => simp [Occurrence.update]
    | nothing => simp [Occurrence.update]

end

/-- At every moment of every run a session remembers the address that it was connected to last,
unless the memory was cleared since. Every attempt to connect goes to that address or to the first
candidate that accepts, and so does every operation that is not refused for its arguments. -/
theorem Session.remembers_latest {α : Type} (options : Options) (n : Network α)
    (events : List (Event α)) :
    (∀ a, ((Scene.start options n).run events).1.session.cached = some a ↔
      IsLatest ((Scene.start options n).run events).2 a) ∧
    ∀ (s : Session α) (n : Network α), s.ConnectsInOrder n ∧
      s.ConnectsAlike n (s.create n) ∧
      ∀ op, s.IsQuiet (s.perform n op) ∨ s.ConnectsAlike n (s.perform n op) := by
  refine ⟨fun a => ?_, fun s n => ⟨s.connectsInOrder n, ⟨rfl, rfl, rfl, rfl⟩,
    s.perform_connectsAlike n⟩⟩
  rw [Scene.run_cached]
  exact or_iff_left fun h => nomatch h.1

end BoxClient
