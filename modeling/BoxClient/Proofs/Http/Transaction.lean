import BoxClient.Proofs.Http.Delivery
import Mathlib.Data.List.TakeDrop
/-!
What one operation of a transaction does. Each operation has one lemma that says it all, and the
others read from that what they need: what sending writes and when it goes through, what reading
gives, and that reading and closing leave no connection behind.
-/
namespace BoxClient.Http

open Outcome

namespace Connection

def takes (c : Connection) (bs : Bytes) : Bytes :=
  match c.room with
  | none => bs
  | some n => bs.take n

theorem takes_prefix (c : Connection) (bs : Bytes) : c.takes bs <+: bs := by
  rw [takes]
  cases c.room with
  | none => exact List.prefix_refl bs
  | some n => exact List.take_prefix n bs

theorem takes_eq_iff (c : Connection) (bs : Bytes) :
    c.takes bs = bs ↔ ∀ n, c.room = some n → bs.length ≤ n := by
  rw [takes]
  cases c.room with
  | none => simp
  | some n => simp

/-- A write takes room and leaves a record, and changes nothing else. -/
theorem write_snd (c : Connection) (bs : Bytes) :
    (c.write bs).2 = { c with
      room := c.room.map (· - (c.takes bs).length), written := c.written ++ c.takes bs } := by
  cases c with
  | mk inlet room writeFailure flushFailure shutdownFailure written flushes shutdowns =>
    rw [write, takes]
    cases room with
    | none => rfl
    | some n => dsimp only; split <;> rfl

@[simp] theorem write_eq_ok_iff (c : Connection) (bs : Bytes) :
    (c.write bs).1 = .ok () ↔ c.takes bs = bs := by
  rw [write, takes]
  cases hroom : c.room with
  | none => simp
  | some n =>
    have hshort : (bs.take n).length < bs.length ↔ ¬ bs.take n = bs := by
      rw [List.take_eq_self_iff, List.length_take]
      omega
    simp only [hshort]
    by_cases h : bs.take n = bs
    · simp [h]
    · simp [h]

end Connection

namespace Transaction

/-- All that transmitting does to a transaction, flushing apart. -/
theorem transmit_snd (t : Transaction) (bs : Bytes) :
    ∃ flushes, (t.transmit bs).2 = { t with
      connection := { t.connection with
        room := t.connection.room.map (· - (t.connection.takes bs).length)
        written := t.connection.written ++ t.connection.takes bs
        flushes }
      sent := true } := by
  have hwrite := t.connection.write_snd bs
  rw [transmit]
  rcases h : t.connection.write bs with ⟨outcome, c⟩
  rw [h] at hwrite
  obtain rfl : c = _ := hwrite
  cases outcome with
  | error reason => exact ⟨t.connection.flushes, rfl⟩
  | ok u => exact ⟨t.connection.flushes + 1, rfl⟩

/-- A request goes through if the peer takes all of it and flushing does not fail. -/
@[simp] theorem transmit_eq_ok_iff (t : Transaction) (bs : Bytes) :
    (t.transmit bs).1 = .ok () ↔
      t.connection.takes bs = bs ∧ t.connection.flushFailure = none := by
  have hok := t.connection.write_eq_ok_iff bs
  have hwrite := t.connection.write_snd bs
  rw [transmit]
  split
  · rename_i h
    rw [h] at hok
    have htakes : ¬ t.connection.takes bs = bs := by simpa using hok
    simp [htakes]
  · rename_i c h
    rw [h] at hok hwrite
    dsimp only at hwrite
    have hflush : c.flushFailure = t.connection.flushFailure := by rw [hwrite]
    rw [← hok, ← hflush]
    simp only [Connection.flush]
    cases c.flushFailure <;> simp [Connection.outcome]

theorem transmit_error {t : Transaction} {bs : Bytes} {e : Error}
    (h : (t.transmit bs).1 = .error e) : ∃ reason, e = .io reason := by
  rw [transmit] at h
  split at h
  · cases h
    exact ⟨_, rfl⟩
  · simp only [mapError_eq_error] at h
    obtain ⟨reason, -, rfl⟩ := h
    exact ⟨reason, rfl⟩

/-- All that sending can do. -/
theorem send_cases (t : Transaction) (r : Request) :
    (t.sent = true ∧ t.send r = (.error alreadySent, t)) ∨
    (t.sent = false ∧ ∃ refusal, r.encode = .error refusal ∧
      t.send r = (.error (.refused refusal), t)) ∨
    (t.sent = false ∧ t.isOpen = false ∧ (∃ bs, r.encode = .ok bs) ∧
      t.send r = (.error closed, t)) ∨
    (t.sent = false ∧ t.isOpen = true ∧ ∃ bs, r.encode = .ok bs ∧ t.send r = t.transmit bs) := by
  rw [send]
  cases hsent : t.sent with
  | true => exact .inl ⟨rfl, rfl⟩
  | false =>
    cases hencode : r.encode with
    | error refusal => exact .inr (.inl ⟨rfl, refusal, rfl, rfl⟩)
    | ok bs =>
      cases hopen : t.isOpen with
      | false => exact .inr (.inr (.inl ⟨rfl, rfl, ⟨bs, rfl⟩, rfl⟩))
      | true => exact .inr (.inr (.inr ⟨rfl, rfl, bs, rfl, rfl⟩))

/-- A refusal of the arguments changes nothing. -/
theorem send_invalidArgument {t t' : Transaction} {r : Request} {reason : String}
    (h : t.send r = (.error (.invalidArgument reason), t')) : t' = t := by
  rcases send_cases t r with ⟨-, he⟩ | ⟨-, _, -, he⟩ | ⟨-, -, -, he⟩ | ⟨-, -, bs, -, he⟩
  · rw [he] at h
    cases h
  · rw [he] at h
    injection h with _ h
    exact h.symm
  · rw [he] at h
    cases h
  · rw [he] at h
    obtain ⟨_, hio⟩ := transmit_error (congrArg Prod.fst h)
    cases hio

/-- A new transaction transmits a request that is accepted. -/
theorem send_eq_transmit {t : Transaction} {r : Request} {bs : Bytes} (hsent : t.sent = false)
    (hopen : t.isOpen = true) (h : r.encode = .ok bs) : t.send r = t.transmit bs := by
  simp [send, hsent, hopen, h]

/-- Once something was sent, or the connection is gone, sending fails and changes nothing. -/
theorem send_spent {t : Transaction} (h : t.sent = true ∨ t.isOpen = false) (r : Request) :
    ∃ e, t.send r = (.error e, t) ∧
      ((∃ m, e = .protocol m) ∨
        (t.sent = false ∧ ∃ refusal, r.encode = .error refusal ∧ e = .refused refusal)) := by
  rcases send_cases t r with ⟨-, he⟩ | ⟨hsent, refusal, hrefusal, he⟩ | ⟨-, -, -, he⟩ |
    ⟨hsent, hopen, -⟩
  · exact ⟨_, he, .inl ⟨_, rfl⟩⟩
  · exact ⟨_, he, .inr ⟨hsent, refusal, hrefusal, rfl⟩⟩
  · exact ⟨_, he, .inl ⟨_, rfl⟩⟩
  · rw [hsent, hopen] at h
    rcases h with h | h <;> cases h

/-- Sending never costs the connection, not even when it fails. -/
@[simp] theorem send_isOpen (t : Transaction) (r : Request) : (t.send r).2.isOpen = t.isOpen := by
  rcases send_cases t r with ⟨-, he⟩ | ⟨-, _, -, he⟩ | ⟨-, -, -, he⟩ | ⟨-, -, bs, -, he⟩
  · rw [he]
  · rw [he]
  · rw [he]
  · obtain ⟨flushes, hsnd⟩ := t.transmit_snd bs
    rw [he, hsnd]
    rfl

theorem read_open {t : Transaction} (h : t.isOpen = true) : t.read = t.receive := if_pos h

theorem read_closed {t : Transaction} (h : t.isOpen = false) : t.read = (.error closed, t) := by
  rw [read, h]
  rfl

/-- Bodies are decoded as JSON, if they are decoded. -/
def DecodesJson (t : Transaction) : Prop :=
  ∀ decode, t.decoder = some decode → decode = Json.decode

def handOn (t : Transaction) (inlet : Inlet) : Transaction :=
  { t with connection := { t.connection with inlet }, holder := .response }

section
variable {t : Transaction} {head : Head} {inlet : Inlet}

/-- A head that cannot be read costs the connection. -/
theorem receive_error {e : Error} (h : readHead t.connection.inlet = .error e) :
    t.receive = (.error e, t.release) := by
  rw [receive, h]

/-- Without a decoder the stream is handed on behind its head. -/
theorem receive_stream (hraw : t.decoder = none)
    (h : readHead t.connection.inlet = .ok (head, inlet)) :
    t.receive = (.ok ⟨head, .stream⟩, t.handOn inlet) := by
  rw [receive, h]
  simp [hraw, handOn]

/-- With a decoder the body is read to its end, and the connection released either way. -/
theorem receive_decoded {decode : Decoder} (hdecoder : t.decoder = some decode)
    (h : readHead t.connection.inlet = .ok (head, inlet)) :
    t.receive = ((decodeRest decode inlet).map fun v => ⟨head, .decoded v⟩, t.release) := by
  rw [receive, h]
  simp [hdecoder]

end

/-- The rest of a stream is read from the view. -/
theorem body_stream (t : Transaction) (head : Head) :
    (t.body ⟨head, .stream⟩).1 =
      (t.connection.inlet.delivery.rest.mapError Error.io).map .inr := by
  rw [← Inlet.rest_eq]
  rfl

theorem decodeRest_eq (decode : Decoder) (i : Inlet) :
    decodeRest decode i = (i.delivery.rest.mapError Error.io).bind decode := by
  rw [← Inlet.rest_eq]
  rfl

theorem json_stream (t : Transaction) (head : Head) :
    (t.json ⟨head, .stream⟩).1 =
      (t.connection.inlet.delivery.rest.mapError Error.io).bind Json.decode :=
  decodeRest_eq Json.decode t.connection.inlet

/-- Reading leaves no connection behind in the transaction, and writes nothing. -/
theorem read_settles (t : Transaction) :
    t.read.2.isOpen = false ∧ t.read.2.sent = t.sent ∧
      t.read.2.connection.written = t.connection.written := by
  cases hopen : t.isOpen with
  | false =>
    rw [read_closed hopen]
    exact ⟨hopen, rfl, rfl⟩
  | true =>
    rw [read_open hopen]
    cases h : readHead t.connection.inlet with
    | error e =>
      rw [receive_error h]
      exact ⟨rfl, rfl, rfl⟩
    | ok p =>
      cases hdecoder : t.decoder with
      | none =>
        rw [receive_stream hdecoder h]
        exact ⟨rfl, rfl, rfl⟩
      | some decode =>
        rw [receive_decoded hdecoder h]
        exact ⟨rfl, rfl, rfl⟩

theorem close_settles (t : Transaction) :
    t.close.2.isOpen = false ∧ t.close.2.sent = t.sent ∧
      t.close.2.connection.written = t.connection.written := by
  rw [close]
  split
  · exact ⟨rfl, rfl, rfl⟩
  · rename_i hopen
    exact ⟨by simpa using hopen, rfl, rfl⟩

end Transaction

end BoxClient.Http
