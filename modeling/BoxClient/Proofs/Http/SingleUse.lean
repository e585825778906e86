import BoxClient.Proofs.Http.Transaction
/-!
A transaction is good for one request and one response. An `Exchange` is a transaction together with
the response that was read from it; its runs are all orders in which a client can send, read, close
and consume. Actions that are refused leave a new exchange as it is, so every run is a stretch of
idle actions, then the first that counts, then actions that cannot write any more.
-/
namespace BoxClient.Http

open Outcome

/-- A transaction and the response that was read from it and is not consumed yet. -/
structure Exchange where
  transaction : Transaction
  held : Option Response := none

namespace Exchange

inductive Action where
  | send (r : Request)
  | read
  | close
  /-- Consumes the held response as a value. -/
  | json
  /-- Consumes the held response as bytes, if it is a stream. -/
  | body
  | drop

def Action.givesUp : Action → Bool
  | .read | .close => true
  | _ => false

/-- Actions that leave a new exchange as it is. -/
def Action.Idle : Action → Prop
  | .send r => ∃ refusal, r.encode = .error refusal
  | .read | .close => False
  | .json | .body | .drop => True

def consume (x : Exchange) (f : Transaction → Response → Transaction) : Exchange :=
  match x.held with
  | none => x
  | some response => ⟨f x.transaction response, none⟩

def step (x : Exchange) : Action → Exchange
  | .send r => { x with transaction := (x.transaction.send r).2 }
  | .read =>
    match x.transaction.read with
    | (.ok response, transaction) => ⟨transaction, some response⟩
    | (.error _, transaction) => { x with transaction }
  | .close => { x with transaction := x.transaction.close.2 }
  | .json => x.consume fun t response => (t.json response).2
  | .body => x.consume fun t response => (t.body response).2
  | .drop => x.consume Transaction.drop

def run (x : Exchange) (actions : List Action) : Exchange := actions.foldl step x

def start (c : Connection) (decoder : Option Decoder) : Exchange :=
  ⟨{ connection := c, decoder }, none⟩

@[simp] theorem run_append (x : Exchange) (before after : List Action) :
    x.run (before ++ after) = (x.run before).run after := List.foldl_append

/-- An exchange in which nothing can be written any more. -/
def Spent (x : Exchange) : Prop := x.transaction.sent = true ∨ x.transaction.isOpen = false

/-- Between two moments of an exchange nothing was written, and a connection that was gone did not
come back. -/
structure Settled (x y : Exchange) : Prop where
  written : y.transaction.connection.written = x.transaction.connection.written
  sent : y.transaction.sent = x.transaction.sent
  closed : x.transaction.isOpen = false → y.transaction.isOpen = false

theorem Settled.refl (x : Exchange) : Settled x x := ⟨rfl, rfl, id⟩

theorem Settled.trans {x y z : Exchange} (h : Settled x y) (h' : Settled y z) : Settled x z :=
  ⟨h'.written.trans h.written, h'.sent.trans h.sent, fun hc => h'.closed (h.closed hc)⟩

theorem Settled.spent {x y : Exchange} (h : Settled x y) (hx : x.Spent) : y.Spent :=
  hx.imp (fun hs => h.sent.trans hs) h.closed

@[simp] theorem step_read (x : Exchange) : (x.step .read).transaction = x.transaction.read.2 := by
  simp only [step]
  split
  · rename_i h
    rw [h]
  · rename_i h
    rw [h]

theorem consume_none {x : Exchange} (h : x.held = none)
    (f : Transaction → Response → Transaction) : x.consume f = x := by
  rw [consume, h]

@[simp] theorem consume_held (x : Exchange) (f : Transaction → Response → Transaction) :
    (x.consume f).held = none := by
  rw [consume]
  cases h : x.held with
  | none => exact h
  | some response => rfl

/-- Consuming a response may release the connection, and does nothing else to it. -/
theorem consume_settled (x : Exchange) {f : Transaction → Response → Transaction}
    (hf : ∀ t response, f t response = t ∨ f t response = t.release) :
    Settled x (x.consume f) := by
  have hsame : (x.consume f).transaction = x.transaction ∨
      (x.consume f).transaction = x.transaction.release := by
    rw [consume]
    cases x.held with
    | none => exact .inl rfl
    | some response => exact hf x.transaction response
  rcases hsame with h | h
  · exact ⟨by rw [h], by rw [h], fun hc => by rw [h, hc]⟩
  · exact ⟨by rw [h]; rfl, by rw [h]; rfl, fun _ => by rw [h]; rfl⟩

theorem json_transaction (t : Transaction) (response : Response) :
    (t.json response).2 = t ∨ (t.json response).2 = t.release := by
  rw [Transaction.json]
  cases response.body with
  | decoded v => exact .inl rfl
  | stream => exact .inr rfl

theorem body_transaction (t : Transaction) (response : Response) :
    (t.body response).2 = t ∨ (t.body response).2 = t.release := by
  rw [Transaction.body]
  cases response.body with
  | decoded v => exact .inl rfl
  | stream => exact .inr rfl

theorem drop_transaction (t : Transaction) (response : Response) :
    t.drop response = t ∨ t.drop response = t.release := by
  rw [Transaction.drop]
  cases response.body with
  | decoded v => exact .inl rfl
  | stream => exact .inr rfl

theorem step_settled {x : Exchange} (h : x.Spent) (a : Action) : Settled x (x.step a) := by
  cases a with
  | send r =>
    obtain ⟨e, he, -⟩ := Transaction.send_spent h r
    have hsame : x.step (.send r) = x := by rw [step, he]
    rw [hsame]
    exact Settled.refl x
  | read =>
    obtain ⟨hclosed, hsent, hwritten⟩ := x.transaction.read_settles
    rw [← step_read] at hclosed hsent hwritten
    exact ⟨hwritten, hsent, fun _ => hclosed⟩
  | close =>
    obtain ⟨hclosed, hsent, hwritten⟩ := x.transaction.close_settles
    exact ⟨hwritten, hsent, fun _ => hclosed⟩
  | json => exact consume_settled x json_transaction
  | body => exact consume_settled x body_transaction
  | drop => exact consume_settled x drop_transaction

/-- Once nothing can be written any more, nothing is, and the connection does not come back. -/
theorem run_settled {x : Exchange} (h : x.Spent) (actions : List Action) :
    Settled x (x.run actions) := by
  induction actions generalizing x with
  | nil => exact Settled.refl x
  | cons a actions ih =>
    have hstep := step_settled h a
    exact hstep.trans (ih (hstep.spent h))

/-- While the connection is in the transaction no response was read from it. -/
def Unread (x : Exchange) : Prop := x.transaction.isOpen = true → x.held = none

/-- Reading and closing give the connection up, and nothing else does. -/
theorem step_isOpen {x : Exchange} (h : x.Unread) (a : Action) :
    (x.step a).transaction.isOpen = (x.transaction.isOpen && !a.givesUp) := by
  -- Consuming releases the connection too, but as long as it is there nothing is held.
  have hconsume {f : Transaction → Response → Transaction}
      (hf : ∀ t response, f t response = t ∨ f t response = t.release) :
      (x.consume f).transaction.isOpen = x.transaction.isOpen := by
    cases hopen : x.transaction.isOpen with
    | true => rw [consume_none (h hopen), hopen]
    | false => exact (consume_settled x hf).closed hopen
  cases a with
  | send r => simp [step, Action.givesUp]
  | read => simp [x.transaction.read_settles.1, Action.givesUp]
  | close => simp [step, x.transaction.close_settles.1, Action.givesUp]
  | json => simp [step, hconsume json_transaction, Action.givesUp]
  | body => simp [step, hconsume body_transaction, Action.givesUp]
  | drop => simp [step, hconsume drop_transaction, Action.givesUp]

/-- Reading takes the connection out of the transaction, so this stays true. -/
theorem step_unread {x : Exchange} (h : x.Unread) (a : Action) : (x.step a).Unread := by
  intro hopen
  rw [step_isOpen h, Bool.and_eq_true] at hopen
  cases a with
  | send r => exact h hopen.1
  | read => cases hopen.2
  | close => cases hopen.2
  | json => exact consume_held x _
  | body => exact consume_held x _
  | drop => exact consume_held x _

/-- A connection stays until an action gives it up. -/
theorem run_isOpen {x : Exchange} (h : x.Unread) (actions : List Action) :
    (x.run actions).transaction.isOpen = true ↔
      x.transaction.isOpen = true ∧ ∀ a ∈ actions, a.givesUp = false := by
  induction actions generalizing x with
  | nil => simp [run]
  | cons a actions ih =>
    have htail := ih (step_unread h a)
    rw [step_isOpen h] at htail
    simp only [run, List.foldl_cons, List.forall_mem_cons] at htail ⊢
    rw [htail, Bool.and_eq_true, Bool.not_eq_true', and_assoc]

theorem start_unread (c : Connection) (decoder : Option Decoder) : (start c decoder).Unread :=
  fun _ => rfl

/-- Idle actions leave no trace. -/
theorem run_idle (c : Connection) (decoder : Option Decoder) {actions : List Action}
    (h : ∀ a ∈ actions, a.Idle) : (start c decoder).run actions = start c decoder := by
  induction actions with
  | nil => rfl
  | cons a actions ih =>
    rw [List.forall_mem_cons] at h
    have hsame : (start c decoder).step a = start c decoder := by
      cases a with
      | send r =>
        obtain ⟨refusal, hrefusal⟩ := h.1
        simp [step, start, Transaction.send, hrefusal]
      | read => exact h.1.elim
      | close => exact h.1.elim
      | json => rfl
      | body => rfl
      | drop => rfl
    rw [run, List.foldl_cons, hsame]
    exact ih h.2

/-- Actions that are not all idle have a first that is not. -/
theorem exists_first_not_idle {actions : List Action} (h : ∃ a ∈ actions, ¬ a.Idle) :
    ∃ before a after, actions = before ++ a :: after ∧ (∀ b ∈ before, b.Idle) ∧ ¬ a.Idle := by
  induction actions with
  | nil => simp at h
  | cons a actions ih =>
    by_cases ha : a.Idle
    · have htail : ∃ b ∈ actions, ¬ b.Idle := by
        obtain ⟨b, hb, hnot⟩ := h
        rcases List.mem_cons.mp hb with rfl | hb
        · exact absurd ha hnot
        · exact ⟨b, hb, hnot⟩
      obtain ⟨before, b, after, rfl, hbefore, hb⟩ := ih htail
      exact ⟨a :: before, b, after, rfl, List.forall_mem_cons.mpr ⟨ha, hbefore⟩, hb⟩
    · exact ⟨[], a, actions, rfl, by simp, ha⟩

/-- An action that is not idle sends an accepted request or gives up the connection. -/
theorem not_idle_cases {a : Action} (h : ¬ a.Idle) :
    (∃ r bs, a = .send r ∧ r.encode = .ok bs) ∨ a.givesUp = true := by
  cases a with
  | send r =>
    cases hencode : r.encode with
    | error refusal => exact absurd ⟨refusal, hencode⟩ h
    | ok bs => exact .inl ⟨r, bs, rfl, hencode⟩
  | read => exact .inr rfl
  | close => exact .inr rfl
  | json => exact absurd trivial h
  | body => exact absurd trivial h
  | drop => exact absurd trivial h

theorem step_givesUp (x : Exchange) {a : Action} (h : a.givesUp = true) :
    (x.step a).transaction.isOpen = false ∧ (x.step a).transaction.sent = x.transaction.sent ∧
      (x.step a).transaction.connection.written = x.transaction.connection.written := by
  cases a with
  | read =>
    rw [step_read]
    exact x.transaction.read_settles
  | close => exact x.transaction.close_settles
  | _ => cases h

/-- The first request that is accepted while the connection is there, the actions before it, and
its bytes. -/
def FirstRequest (actions before : List Action) (r : Request) (bs : Bytes) : Prop :=
  (∃ after, actions = before ++ .send r :: after) ∧ (∀ a ∈ before, a.Idle) ∧ r.encode = .ok bs

section
variable (c : Connection) (decoder : Option Decoder) {actions : List Action}

/-- Whatever follows the first request, what the peer took of its bytes is all that is written. -/
theorem run_firstRequest {before : List Action} {r : Request} {bs : Bytes}
    (h : FirstRequest actions before r bs) :
    ((start c decoder).run actions).transaction.sent = true ∧
      ((start c decoder).run actions).transaction.connection.written = c.written ++ c.takes bs := by
  obtain ⟨⟨after, rfl⟩, hbefore, hencode⟩ := h
  obtain ⟨flushes, hsnd⟩ := (start c decoder).transaction.transmit_snd bs
  rw [← Transaction.send_eq_transmit rfl rfl hencode] at hsnd
  have hsent : ((start c decoder).step (.send r)).transaction.sent = true := by rw [step, hsnd]
  have hsettled := run_settled (.inl hsent) after
  rw [run_append, run_idle c decoder hbefore]
  refine ⟨hsettled.sent.trans hsent, hsettled.written.trans ?_⟩
  rw [step, hsnd]
  rfl

/-- A run is idle, or has a first request, or gives the connection up before one. -/
theorem run_cases (actions : List Action) :
    (∀ a ∈ actions, a.Idle) ∨ (∃ before r bs, FirstRequest actions before r bs) ∨
      (((start c decoder).run actions).transaction.isOpen = false ∧
        ((start c decoder).run actions).transaction.connection.written = c.written) := by
  by_cases hidle : ∃ a ∈ actions, ¬ a.Idle
  · obtain ⟨before, a, after, rfl, hbefore, ha⟩ := exists_first_not_idle hidle
    rcases not_idle_cases ha with ⟨r, bs, rfl, hencode⟩ | ha
    · exact .inr (.inl ⟨before, r, bs, ⟨after, rfl⟩, hbefore, hencode⟩)
    · obtain ⟨hclosed, -, hwritten⟩ := step_givesUp (start c decoder) ha
      have hsettled := run_settled (.inr hclosed) after
      rw [run_append, run_idle c decoder hbefore]
      exact .inr (.inr ⟨hsettled.closed hclosed, hsettled.written.trans hwritten⟩)
  · refine .inl fun a ha => ?_
    by_contra hnot
    exact hidle ⟨a, ha, hnot⟩

/-- Without a first request nothing is written. -/
theorem run_no_firstRequest (h : ∀ before r bs, ¬ FirstRequest actions before r bs) :
    ((start c decoder).run actions).transaction.connection.written = c.written := by
  rcases run_cases c decoder actions with hidle | ⟨before, r, bs, hfirst⟩ | hgiven
  · rw [run_idle c decoder hidle]
    rfl
  · exact absurd hfirst (h before r bs)
  · exact hgiven.2

/-- After an action that counts nothing can be sent. -/
theorem run_spent (h : ∃ a ∈ actions, ¬ a.Idle) : ((start c decoder).run actions).Spent := by
  rcases run_cases c decoder actions with hidle | ⟨before, r, bs, hfirst⟩ | hgiven
  · obtain ⟨a, ha, hnot⟩ := h
    exact absurd (hidle a ha) hnot
  · exact .inl (run_firstRequest c decoder hfirst).1
  · exact .inr hgiven.1

end

/-- What a transaction comes to that is used once: the state `x` after these actions on a new one.
-/
structure SingleUse (c : Connection) (decoder : Option Decoder) (actions : List Action)
    (x : Exchange) : Prop where
  /-- What is written is part of the first request, and all of it if that one went through. -/
  written : ∀ before r bs, FirstRequest actions before r bs →
    ∃ bs', x.transaction.connection.written = c.written ++ bs' ∧ bs' <+: bs ∧
      ((((start c decoder).run before).transaction.send r).1 = .ok () → bs' = bs)
  unwritten : (∀ before r bs, ¬ FirstRequest actions before r bs) →
    x.transaction.connection.written = c.written
  /-- After the first request, a reading or a closing every request fails and changes nothing. Its
  arguments are blamed only if they are bad and nothing was sent. -/
  spent : (∃ a ∈ actions, ¬ a.Idle) → ∀ r, ∃ e,
    x.transaction.send r = (.error e, x.transaction) ∧
      ((∃ m, e = .protocol m) ∨
        ((∀ before r' bs, ¬ FirstRequest actions before r' bs) ∧
          ∃ refusal, r.encode = .error refusal ∧ e = .refused refusal))
  /-- A refusal of the arguments changes nothing. -/
  refused : ∀ r reason t, x.transaction.send r = (.error (.invalidArgument reason), t) →
    t = x.transaction
  /-- Up to the first action that counts a request goes through if the peer takes it. -/
  fresh : (∀ a ∈ actions, a.Idle) → x = start c decoder ∧
    ∀ r bs, r.encode = .ok bs → ((x.transaction.send r).1 = .ok () ↔
      (∀ n, c.room = some n → bs.length ≤ n) ∧ c.flushFailure = none)
  isOpen : x.transaction.isOpen = true ↔ ∀ a ∈ actions, a.givesUp = false
  /-- The connection never comes back. -/
  gone : ∀ later, x.transaction.isOpen = false → (x.run later).transaction.isOpen = false
  /-- After the first reading or closing nothing is read. -/
  unread : (∃ a ∈ actions, a.givesUp = true) →
    ∃ m, x.transaction.read = (.error (.protocol m), x.transaction)

/-- A transaction is good for one request and one response, in whatever order it is used, whatever
its peer does and wherever it fails. -/
theorem run_singleUse (c : Connection) (decoder : Option Decoder) (actions : List Action) :
    SingleUse c decoder actions ((start c decoder).run actions) := by
  have hopen : ((start c decoder).run actions).transaction.isOpen = true ↔
      ∀ a ∈ actions, a.givesUp = false :=
    (run_isOpen (start_unread c decoder) actions).trans (and_iff_right rfl)
  constructor
  case written =>
    intro before r bs hfirst
    refine ⟨c.takes bs, (run_firstRequest c decoder hfirst).2, c.takes_prefix bs, fun hok => ?_⟩
    obtain ⟨-, hbefore, hencode⟩ := hfirst
    rw [run_idle c decoder hbefore, Transaction.send_eq_transmit rfl rfl hencode,
      Transaction.transmit_eq_ok_iff] at hok
    exact hok.1
  case unwritten => exact run_no_firstRequest c decoder
  case spent =>
    intro hcounts r
    obtain ⟨e, hsend, he⟩ := Transaction.send_spent (run_spent c decoder hcounts) r
    refine ⟨e, hsend, he.imp_right fun ⟨hsent, hrefused⟩ => ⟨?_, hrefused⟩⟩
    intro before r' bs hfirst
    rw [(run_firstRequest c decoder hfirst).1] at hsent
    cases hsent
  case refused =>
    intro r reason t h
    exact Transaction.send_invalidArgument h
  case fresh =>
    intro hidle
    rw [run_idle c decoder hidle]
    refine ⟨rfl, fun r bs hencode => ?_⟩
    rw [Transaction.send_eq_transmit rfl rfl hencode, Transaction.transmit_eq_ok_iff,
      Connection.takes_eq_iff]
    rfl
  case isOpen => exact hopen
  case gone =>
    intro later hclosed
    exact (run_settled (.inr hclosed) later).closed hclosed
  case unread =>
    intro h
    obtain ⟨a, ha, hgives⟩ := h
    have hclosed : ((start c decoder).run actions).transaction.isOpen = false := by
      rw [← Bool.not_eq_true, hopen]
      intro hall
      rw [hall a ha] at hgives
      cases hgives
    exact ⟨_, Transaction.read_closed hclosed⟩

end Exchange
end BoxClient.Http
