import BoxClient.Proofs.Attempt
import BoxClient.Proofs.Remembered
/-!
Remembering on a steady network. As long as the resolver answers the same and the same addresses
accept, what a session remembers is the first candidate that accepts, so each of its calls ends
like that of a new session. What the memory saves is asking the resolver: it is asked once until
the memory is cleared, or at every attempt if no candidate accepts.
-/
namespace BoxClient

open Http Outcome

namespace Network

variable {α : Type} {n n' : Network α} {a : α}

/-- The resolver gives the same answer, the same addresses accept, and the others refuse for the
same reasons. What is said on a connection may differ. -/
structure LooksLike (n n' : Network α) : Prop where
  resolve : n.resolve = n'.resolve
  dial : ∀ a, Related (fun _ _ => True) (n.dial a) (n'.dial a)

def HasAccepting (n : Network α) : Prop :=
  ∃ candidates, n.resolve = .ok candidates ∧ ∃ a ∈ candidates, n.accepts a = true

def IsFirst (n : Network α) (a : α) : Prop :=
  ∃ before after, n.resolve = .ok (before ++ a :: after) ∧
    (∀ b ∈ before, n.accepts b = false) ∧ n.accepts a = true

theorem IsFirst.hasAccepting (h : n.IsFirst a) : n.HasAccepting := by
  obtain ⟨before, after, hresolve, -, ha⟩ := h
  exact ⟨_, hresolve, a, List.mem_append_cons_self, ha⟩

theorem LooksLike.refl (n : Network α) : n.LooksLike n where
  resolve := rfl
  dial a := (Related.refl (n.dial a)).mono fun _ _ _ => trivial

section
variable (h : n.LooksLike n')
include h

theorem LooksLike.accepts (a : α) : n.accepts a = n'.accepts a := by
  rw [Network.accepts, Network.accepts]
  rcases (h.dial a).error_or_ok with ⟨reason, he, he'⟩ | ⟨c, c', he, he', -⟩
  · rw [he, he']
  · rw [he, he']
    rfl

theorem LooksLike.isFirst_iff : n.IsFirst a ↔ n'.IsFirst a := by
  simp only [IsFirst, h.resolve, h.accepts]

theorem LooksLike.hasAccepting_iff : n.HasAccepting ↔ n'.HasAccepting := by
  simp only [HasAccepting, h.resolve, h.accepts]

/-- The same candidate is found in networks that look alike. -/
theorem LooksLike.firstAccepting (reason : String) (candidates : List α) :
    Related (fun p p' => p.1 = p'.1) (n.firstAccepting reason candidates).1
      (n'.firstAccepting reason candidates).1 := by
  induction candidates generalizing reason with
  | nil => exact rfl
  | cons a candidates ih =>
    rw [Network.firstAccepting, Network.firstAccepting]
    rcases (h.dial a).error_or_ok with ⟨reason', he, he'⟩ | ⟨c, c', he, he', -⟩
    · rw [he, he']
      exact ih reason'
    · rw [he, he']
      exact rfl

theorem LooksLike.resolveAndDial :
    Related (fun p p' => p.1 = p'.1) n.resolveAndDial.1 n'.resolveAndDial.1 := by
  rw [Network.resolveAndDial, Network.resolveAndDial, h.resolve]
  split
  · exact rfl
  · exact rfl
  · exact (h.firstAccepting "" _).mapError ConnectFault.unreachable

end

end Network

namespace Call

variable {α β : Type}

/-- Two calls give the same, and send the same to the same address. -/
structure Agrees (call call' : Call α β) : Prop where
  result : call.result = call'.result
  contact : call.contact = call'.contact

/-- Where a call is connected to, or the error with which it ends without a connection. -/
def destination (call : Call α β) : Option (Except Error α) :=
  match call.contact, call.result with
  | some (a, _), _ => some (.ok a)
  | none, .error e => some (.error e)
  | none, .ok _ => none

section
variable {call call' : Call α Connection}

theorem Agrees.refl (call : Call α β) : call.Agrees call := ⟨rfl, rfl⟩

theorem Agrees.proceed (h : call.Agrees call') (f : Connection → Except Error β × Bytes) :
    (call.proceed f).Agrees (call'.proceed f) := by
  rw [Call.proceed, Call.proceed, h.result]
  split
  · exact ⟨rfl, h.contact⟩
  · exact ⟨rfl, by rw [h.contact]⟩

theorem Agrees.bind (h : call.Agrees call') (f : Connection → Except Error β) :
    (call.bind f).Agrees (call'.bind f) :=
  ⟨congrArg (·.bind f) h.result, h.contact⟩

theorem Agrees.destination_eq (h : call.Agrees call') : call.destination = call'.destination := by
  rw [destination, destination, h.result, h.contact]

end

end Call

namespace Session

variable {α β : Type} {s : Session α} {n n' : Network α} {a : α}

/-- An attempt reaches an address, or it ends with an error. -/
theorem exists_destination (s : Session α) (n : Network α) :
    ∃ ending, (s.connect n).destination = some ending := by
  rcases s.connect_ends n with ⟨reason, he⟩ | ⟨a, c, he⟩
  · rw [he]
    exact ⟨_, rfl⟩
  · rw [he]
    exact ⟨_, rfl⟩

/-- What is done with the connection of an attempt does not change where it goes. -/
theorem destination_proceed (s : Session α) (n : Network α)
    (f : Connection → Except Error β × Bytes) :
    ((s.connect n).proceed f).destination = (s.connect n).destination := by
  rcases s.connect_ends n with ⟨reason, he⟩ | ⟨a, c, he⟩
  · rw [he]
    rfl
  · rw [he]
    rfl

/-- On networks that look the same a session that remembers nothing ends up at the same place. -/
theorem destination_of_looksLike (h : n.LooksLike n') (hs : s.cached = none) :
    (s.connect n).destination = (s.connect n').destination := by
  have hdial := h.resolveAndDial
  simp only [connect, hs, Network.connect, Network.connectFresh]
  generalize n.resolveAndDial = p at hdial ⊢
  generalize n'.resolveAndDial = p' at hdial ⊢
  obtain ⟨outcome, dialled⟩ := p
  obtain ⟨outcome', dialled'⟩ := p'
  rcases hdial.error_or_ok with ⟨f, he, he'⟩ | ⟨⟨a, c⟩, ⟨a', c'⟩, he, he', hp⟩
  · obtain rfl : outcome = .error f := he
    obtain rfl : outcome' = .error f := he'
    rfl
  · obtain rfl : outcome = .ok (a, c) := he
    obtain rfl : outcome' = .ok (a', c') := he'
    obtain rfl : a = a' := hp
    rfl

/-- What the session remembers is the first candidate that accepts. -/
def RemembersFirst (s : Session α) (n : Network α) : Prop :=
  ∀ a, s.cached = some a → n.IsFirst a

/-- To forget the first candidate costs a lookup and no more: the same address is connected to. -/
theorem connect_of_first (hs : s.cached = some a) (hfirst : n.IsFirst a) :
    ∃ c dialled, s.connect n = ⟨.ok c, s, 0, some (a, c.written), [a]⟩ ∧
      s.forget.connect n = ⟨.ok c, s, 1, some (a, c.written), dialled⟩ := by
  obtain ⟨before, after, hresolve, hbefore, ha⟩ := hfirst
  obtain ⟨c, hdial⟩ := Network.exists_dial_of_accepts ha
  have hforgotten : ∀ b, s.forget.cached = some b → n.accepts b = false := by
    rintro b ⟨⟩
  refine ⟨c, before ++ [a], connect_remembered hs hdial, ?_⟩
  rw [connect_resolved hforgotten hresolve hbefore hdial, forget, ← hs]
  rfl

theorem forget_of_cached_none (hs : s.cached = none) : s.forget = s := by
  rw [forget, ← hs]

/-- With a memory that is right an attempt to connect gives what it gives without. -/
theorem connect_agrees (h : s.RemembersFirst n) : (s.connect n).Agrees (s.forget.connect n) := by
  cases hs : s.cached with
  | none =>
    rw [forget_of_cached_none hs]
    exact Call.Agrees.refl _
  | some a =>
    obtain ⟨c, dialled, he, he'⟩ := connect_of_first hs (h a hs)
    rw [he, he']
    exact ⟨rfl, rfl⟩

/-- The resolver is asked exactly if nothing is remembered. -/
theorem connect_lookups (h : s.RemembersFirst n) :
    (s.connect n).lookups = if s.cached.isSome then 0 else 1 := by
  cases hs : s.cached with
  | some a =>
    obtain ⟨c, -, he, -⟩ := connect_of_first hs (h a hs)
    rw [he]
    rfl
  | none =>
    rcases s.connect_cases n with ⟨a, c, hcached, -, -⟩ | ⟨-, before, a, after, c, -, -, -, he⟩ |
      ⟨-, -, m, he⟩
    · rw [hs] at hcached
      cases hcached
    · rw [he]
      rfl
    · rw [he]
      rfl

/-- Connecting keeps the memory right. -/
theorem connect_remembersFirst (h : s.RemembersFirst n) :
    (s.connect n).session.RemembersFirst n := by
  rcases s.connect_cases n with ⟨a, c, -, -, he⟩ |
    ⟨-, before, a, after, c, hresolve, hbefore, hdial, he⟩ | ⟨-, -, m, he⟩
  · rw [he]
    exact h
  · rw [he]
    rintro _ ⟨⟩
    exact ⟨before, after, hresolve, hbefore, Network.accepts_of_ok hdial⟩
  · rw [he]
    exact h

/-- After an attempt something is remembered if a candidate accepts. -/
theorem connect_isSome (hn : n.HasAccepting) : (s.connect n).session.cached.isSome := by
  obtain ⟨candidates, hresolve, a, ha, haccepts⟩ := hn
  rcases s.connect_cases n with ⟨a', c, hcached, -, he⟩ | ⟨-, before, a', after, c, -, -, -, he⟩ |
    ⟨-, hrefuse, m, he⟩
  · rw [he, hcached]
    rfl
  · rw [he]
    rfl
  · rw [hrefuse a (Network.mem_candidates.mpr ⟨candidates, hresolve, ha⟩)] at haccepts
    cases haccepts

@[simp] theorem message_forget (s : Session α) (op : Operation) :
    s.forget.message op = s.message op := by
  cases op <;> rfl

@[simp] theorem conduct_forget (s : Session α) : s.forget.conduct = s.conduct := rfl

/-- With a memory that is right an operation gives what it gives without. -/
theorem answer_agrees (h : s.RemembersFirst n) (op : Operation) :
    (s.answer n op).Agrees (s.forget.answer n op) := by
  cases hm : s.message op with
  | error refusal =>
    rw [answer_of_refused hm, answer_of_refused ((s.message_forget op).trans hm)]
    exact ⟨rfl, rfl⟩
  | ok m =>
    rw [answer_eq_proceed hm, answer_eq_proceed ((s.message_forget op).trans hm), conduct_forget]
    exact (connect_agrees h).proceed _

end Session

variable {α : Type}

/-- Whether an event attempts to connect. An operation does unless its arguments are refused. -/
def Event.attempts (options : Options) : Event α → Bool
  | .connect | .create => true
  | .perform op => ((⟨options, none⟩ : Session α).message op).isOk
  | .forget | .change _ => false

/-- Whatever changes in the network meanwhile, it looks like this. -/
def IsSteady (n : Network α) (events : List (Event α)) : Prop :=
  ∀ n', Event.change n' ∈ events → n'.LooksLike n

section
variable {n : Network α} {event : Event α} {events : List (Event α)}
  (h : IsSteady n (event :: events))
include h

theorem IsSteady.head : ∀ n', event = .change n' → n'.LooksLike n :=
  fun n' he => h n' (he ▸ List.mem_cons_self)

theorem IsSteady.tail : IsSteady n events := fun n' hn' => h n' (List.mem_cons_of_mem _ hn')

end

namespace Scene

/-- The call that an event makes. What it gives is left out, why it fails is not. -/
def call? (w : Scene α) : Event α → Option (Call α Unit)
  | .connect => some ((w.session.connect w.network).bind fun _ => .ok ())
  | .create => some ((w.session.create w.network).bind fun _ => .ok ())
  | .perform op => some (w.session.perform w.network op)
  | .forget | .change _ => none

def lookups (w : Scene α) : List (Event α) → Nat
  | [] => 0
  | event :: events => (w.call? event).elim 0 Call.lookups + (w.step event).1.lookups events

/-- The scene comes about while the network looks like this, from a new session. -/
def IsReached (options : Options) (n : Network α) (w : Scene α) : Prop :=
  ∃ events, IsSteady n events ∧ ((start options n).run events).1 = w

variable {w : Scene α} {event : Event α} {events : List (Event α)} {options : Options}
  {n : Network α}

/-- An event attempts to connect and goes on from there, or it does not ask the resolver and leaves
the session alone, unless it clears the memory. -/
theorem step_cases (w : Scene α) (event : Event α) :
    (event.attempts w.session.options = true ∧
      (∃ f, w.call? event = some ((w.session.connect w.network).proceed f)) ∧
      (w.step event).1 = { w with session := (w.session.connect w.network).session }) ∨
    (event.attempts w.session.options = false ∧ (w.call? event).elim 0 Call.lookups = 0 ∧
      (event ≠ .forget → (w.step event).1.session = w.session)) := by
  cases event with
  | connect =>
    have hcall : w.call? .connect = some ((w.session.connect w.network).bind fun _ => .ok ()) := rfl
    rw [hcall, Session.connect_bind_eq_proceed]
    exact .inl ⟨rfl, ⟨_, rfl⟩, rfl⟩
  | create =>
    have hcall : w.call? .create = some ((w.session.connect w.network).bind fun _ => .ok ()) :=
      congrArg some (Call.bind_bind _ _ _)
    rw [hcall, Session.connect_bind_eq_proceed]
    exact .inl ⟨rfl, ⟨_, rfl⟩, rfl⟩
  | perform op =>
    have hsame : (⟨w.session.options, none⟩ : Session α).message op = w.session.message op :=
      w.session.message_forget op
    have hcall : w.call? (.perform op) = some (w.session.perform w.network op) := rfl
    have hstep : (w.step (.perform op)).1 =
        { w with session := (w.session.perform w.network op).session } := rfl
    rw [Event.attempts, hsame, hcall, hstep, Session.perform]
    cases hm : w.session.message op with
    | error refusal =>
      rw [Session.answer_of_refused hm]
      exact .inr ⟨rfl, rfl, fun _ => rfl⟩
    | ok m =>
      rw [Session.answer_eq_proceed hm, Call.proceed_bind, Call.proceed_session]
      exact .inl ⟨rfl, ⟨_, rfl⟩, rfl⟩
  | forget => exact .inr ⟨rfl, rfl, fun h => absurd rfl h⟩
  | change n' => exact .inr ⟨rfl, rfl, fun _ => rfl⟩

/-- The session has these options, the network looks like this one, and the memory is right. -/
structure Keeps (options : Options) (n : Network α) (w : Scene α) : Prop where
  options : w.session.options = options
  network : w.network.LooksLike n
  first : w.session.RemembersFirst n

theorem Keeps.remembersFirst (h : w.Keeps options n) : w.session.RemembersFirst w.network :=
  fun a ha => h.network.isFirst_iff.mpr (h.first a ha)

theorem step_network (w : Scene α) (event : Event α) :
    (w.step event).1.network = w.network ∨ event = .change (w.step event).1.network := by
  cases event with
  | change n' => exact .inr rfl
  | _ => exact .inl rfl

/-- Whatever happens while the network looks the same, the memory stays right. -/
theorem Keeps.step (h : w.Keeps options n)
    (hsteady : ∀ n', event = .change n' → n'.LooksLike n) : (w.step event).1.Keeps options n := by
  have hnetwork : (w.step event).1.network.LooksLike n := by
    rcases w.step_network event with he | he
    · rw [he]
      exact h.network
    · exact hsteady _ he
  rcases w.step_cases event with ⟨-, -, he⟩ | ⟨-, -, he⟩
  · refine ⟨?_, hnetwork, ?_⟩
    · rw [he]
      exact (w.session.connect_options w.network).trans h.options
    · rw [he]
      intro a ha
      exact h.network.isFirst_iff.mp (Session.connect_remembersFirst h.remembersFirst a ha)
  · by_cases hforget : event = .forget
    · subst hforget
      exact ⟨h.options, hnetwork, nofun⟩
    · refine ⟨?_, hnetwork, ?_⟩
      · rw [he hforget]
        exact h.options
      · rw [he hforget]
        exact h.first

theorem Keeps.run (h : w.Keeps options n) (hsteady : IsSteady n events) :
    (w.run events).1.Keeps options n := by
  induction events generalizing w with
  | nil => exact h
  | cons event events ih => exact ih (h.step hsteady.head) hsteady.tail

theorem IsReached.keeps (h : w.IsReached options n) : w.Keeps options n := by
  obtain ⟨events, hsteady, rfl⟩ := h
  exact Keeps.run ⟨rfl, Network.LooksLike.refl n, nofun⟩ hsteady

/-- An event asks the resolver if it attempts to connect and nothing is remembered. -/
theorem lookups_head (h : w.Keeps options n) : (w.call? event).elim 0 Call.lookups =
    if event.attempts options = true ∧ w.session.cached = none then 1 else 0 := by
  rw [← h.options]
  rcases w.step_cases event with ⟨hattempts, ⟨f, hcall⟩, -⟩ | ⟨hattempts, hlookups, -⟩
  · rw [hattempts, hcall, Option.elim_some, Call.proceed_lookups,
      Session.connect_lookups h.remembersFirst]
    cases w.session.cached <;> simp
  · rw [hattempts, hlookups]
    simp

/-- With a candidate that accepts the resolver is asked once, and not at all if something is
remembered. -/
theorem lookups_le (h : w.Keeps options n) (hsteady : IsSteady n events)
    (hforget : Event.forget ∉ events) (hn : n.HasAccepting) :
    w.lookups events ≤ if w.session.cached = none then 1 else 0 := by
  induction events generalizing w with
  | nil => exact Nat.zero_le _
  | cons event events ih =>
    rw [List.mem_cons, not_or] at hforget
    have htail := ih (h.step hsteady.head) hsteady.tail hforget.2
    rw [lookups, lookups_head h]
    rcases w.step_cases event with ⟨-, -, he⟩ | ⟨hattempts, -, he⟩
    · -- After an attempt something is remembered, so the events behind it ask nothing.
      have hsome := Session.connect_isSome (s := w.session) (h.network.hasAccepting_iff.mpr hn)
      rw [he, if_neg (Option.isSome_iff_ne_none.mp hsome)] at htail
      rw [he, Nat.le_zero.mp htail, Nat.add_zero]
      split
      · rename_i hhead
        rw [if_pos hhead.2]
      · exact Nat.zero_le _
    · -- Without an attempt the bound is left to the events behind it.
      rw [← h.options, hattempts]
      rw [he (Ne.symm hforget.1)] at htail
      simpa using htail

/-- Without one nothing is ever remembered, and the resolver is asked at every attempt. -/
theorem lookups_eq (h : w.Keeps options n) (hsteady : IsSteady n events) (hn : ¬ n.HasAccepting) :
    w.lookups events = events.countP (Event.attempts options) := by
  induction events generalizing w with
  | nil => rfl
  | cons event events ih =>
    have hnone : w.session.cached = none :=
      Option.eq_none_iff_forall_ne_some.mpr fun a ha => hn (h.first a ha).hasAccepting
    rw [lookups, lookups_head h, ih (h.step hsteady.head) hsteady.tail, List.countP_cons,
      Nat.add_comm]
    simp [hnone]

end Scene

/-- At every moment of every run on a steady network a session gives what a new session gives, with
the same bytes sent to the same address. Every attempt to connect ends at the address that a new
session reaches at the start, or with the same error. From that moment on, until the memory is
cleared, the resolver is asked once at most if some candidate accepts, and at every attempt
otherwise. -/
theorem Session.remembering_agrees {options : Options} {n : Network α} {w : Scene α}
    (h : w.IsReached options n) :
    let new : Session α := ⟨options, none⟩
    ((w.session.connect w.network).Agrees (new.connect w.network) ∧
      (w.session.create w.network).Agrees (new.create w.network) ∧
      ∀ op, (w.session.answer w.network op).Agrees (new.answer w.network op)) ∧
    (∃ ending, (new.connect n).destination = some ending ∧
      ∀ event : Event α, event.attempts options = true →
        ∃ call, w.call? event = some call ∧ call.destination = some ending) ∧
    ∀ events, IsSteady n events → Event.forget ∉ events →
      (n.HasAccepting → w.lookups events ≤ 1) ∧
      (¬ n.HasAccepting → w.lookups events = events.countP (Event.attempts options)) := by
  intro new
  have hkeeps := h.keeps
  have hnew : w.session.forget = new := by rw [forget, hkeeps.options]
  have hconnect : (w.session.connect w.network).Agrees (new.connect w.network) :=
    hnew ▸ connect_agrees hkeeps.remembersFirst
  obtain ⟨ending, hending⟩ := new.exists_destination n
  refine ⟨⟨hconnect, hconnect.bind _, fun op => hnew ▸ answer_agrees hkeeps.remembersFirst op⟩,
    ⟨ending, hending, fun event hattempts => ?_⟩,
    fun events hsteady hforget => ⟨fun hn => ?_, fun hn => ?_⟩⟩
  · rcases w.step_cases event with ⟨-, ⟨f, hcall⟩, -⟩ | ⟨hnone, -, -⟩
    · refine ⟨_, hcall, ?_⟩
      rw [destination_proceed, hconnect.destination_eq,
        destination_of_looksLike hkeeps.network rfl, hending]
    · rw [hkeeps.options, hattempts] at hnone
      cases hnone
  · refine le_trans (Scene.lookups_le hkeeps hsteady hforget hn) ?_
    split
    · exact Nat.le_refl 1
    · exact Nat.zero_le 1
  · exact Scene.lookups_eq hkeeps hsteady hn

/-- A session that has been connected past a dead candidate, twice and with a refused lookup
between, and one that finds nobody. -/
theorem Session.remembering_agrees_dead_first :
    let dial : Bool → Except String Connection :=
      fun a => if a then .ok { inlet := .ofBytes [] } else .error "refused"
    let n : Network Bool := ⟨dial, .ok [false, true, true]⟩
    let dead : Network Bool := ⟨dial, .ok [false, false]⟩
    let events : List (Event Bool) := [.connect, .perform (.get []), .perform (.get ["a"])]
    let w := ((Scene.start {} n).run events).1
    let w' := ((Scene.start {} dead).run events).1
    (w.IsReached {} n ∧ w.session.cached = some true ∧
      (∃ call, w.call? .create = some call ∧ call.destination = some (.ok true)) ∧
      w.lookups events ≤ 1) ∧
    w'.IsReached {} dead ∧ w'.lookups events = 2 := by
  intro dial n dead events w w'
  have hreached : w.IsReached {} n := ⟨events, by simp [IsSteady, events], rfl⟩
  have hreached' : w'.IsReached {} dead := ⟨events, by simp [IsSteady, events], rfl⟩
  have haccepting : n.HasAccepting := ⟨[false, true, true], rfl, true, by decide, rfl⟩
  have hdead : ¬ dead.HasAccepting := by
    rintro ⟨candidates, hresolve, a, ha, haccepts⟩
    cases hresolve
    obtain rfl : a = false := by simpa using ha
    cases haccepts
  obtain ⟨-, ⟨ending, hending, hends⟩, hlookups⟩ := remembering_agrees hreached
  obtain ⟨-, -, hlookups'⟩ := remembering_agrees hreached'
  cases hending
  exact ⟨⟨hreached, by decide +kernel, hends .create rfl,
    (hlookups events (by simp [IsSteady, events]) (by simp [events])).1 haccepting⟩, hreached',
    (hlookups' events (by simp [IsSteady, events]) (by simp [events])).2 hdead⟩

end BoxClient
