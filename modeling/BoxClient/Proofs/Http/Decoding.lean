import BoxClient.Proofs.Http.Response
import BoxClient.Proofs.Json.Canonical
/-!
Decoding early or late. A transaction that decodes reads the body inside of reading the response;
one that does not hands the stream on, part of it buffered, and the body is read when the response
is consumed. Either way it is the head and then the rest of one stream, and what fails first
decides.
-/
namespace BoxClient.Http

open Outcome

namespace Transaction

/-- Reads a response and consumes it as a value: its head and the value, and the transaction after
both steps. -/
def readJson (t : Transaction) : Except Error (Head × Json.Value) × Transaction :=
  match t.read with
  | (.error e, t) => (.error e, t)
  | (.ok response, t) => ((t.json response).1.map fun v => (response.head, v), (t.json response).2)

section
variable {t : Transaction} {head : Head} {v : Json.Value} {e : Error}

/-- Whether bodies are decoded or not, it is the head and the rest of the stream that are read, and
nobody holds the stream then. -/
theorem readJson_eq (hopen : t.isOpen = true) (hjson : t.DecodesJson) :
    t.readJson.1 = (readHead t.connection.inlet >>= fun p =>
      (decodeRest Json.decode p.2).map fun v => (p.1, v)) ∧ t.readJson.2.isReleased = true := by
  rw [readJson, read_open hopen]
  cases hread : readHead t.connection.inlet with
  | error e =>
    rw [receive_error hread]
    exact ⟨rfl, rfl⟩
  | ok p =>
    cases hdecoder : t.decoder with
    | none =>
      rw [receive_stream hdecoder hread]
      exact ⟨rfl, rfl⟩
    | some decode =>
      rw [receive_decoded hdecoder hread, hjson decode hdecoder, ok_bind]
      cases decodeRest Json.decode p.2 <;> exact ⟨rfl, rfl⟩

/-- The bytes begin with a head within the limit, and this is behind it. -/
def HasHead (bytes : Bytes) (head : Head) (rest : Bytes) : Prop :=
  ∃ bs, bytes = bs ++ rest ∧ bs.length ≤ headLimit ∧ IsHead bs head

/-- A body is decoded only once the stream has ended without a failure. -/
theorem decodeRest_eq_ok_iff {i : Inlet} :
    decodeRest Json.decode i = .ok v ↔
      i.delivery.failure = none ∧ Json.decode i.delivery.bytes = .ok v := by
  rw [decodeRest_eq, Delivery.rest]
  cases i.delivery.failure <;> simp [Except.bind]

theorem decodeRest_eq_error_iff {i : Inlet} :
    decodeRest Json.decode i = .error e ↔
      (∃ reason, i.delivery.failure = some reason ∧ e = .io reason) ∨
      i.delivery.failure = none ∧ Json.decode i.delivery.bytes = .error e := by
  rw [decodeRest_eq, Delivery.rest]
  cases i.delivery.failure <;> simp [Except.bind, eq_comm]

/-- A value is read from a stream that does not fail and has a head and the text of the value. -/
theorem readJson_eq_ok_iff (hopen : t.isOpen = true) (hjson : t.DecodesJson) :
    t.readJson.1 = .ok (head, v) ↔ t.connection.inlet.delivery.failure = none ∧
      ∃ rest, HasHead t.connection.inlet.delivery.bytes head rest ∧ Json.decode rest = .ok v := by
  rw [(readJson_eq hopen hjson).1, bind_eq_ok]
  constructor
  · rintro ⟨⟨head', i⟩, hread, h⟩
    cases hrest : decodeRest Json.decode i with
    | error e => rw [hrest] at h; cases h
    | ok v' =>
      rw [hrest] at h
      cases h
      obtain ⟨hend, hv⟩ := decodeRest_eq_ok_iff.mp hrest
      obtain ⟨bs, hhead, hlimit, hbytes, hfailure⟩ := isHead_of_readHead hread
      exact ⟨hfailure.symm.trans hend, _, ⟨bs, hbytes, hlimit, hhead⟩, hv⟩
  · rintro ⟨hend, rest, ⟨bs, hbytes, hlimit, hhead⟩, hv⟩
    obtain ⟨i, hread, hi⟩ := readHead_of_isHead hhead hlimit hbytes
    refine ⟨(head, i), hread, ?_⟩
    rw [decodeRest_eq_ok_iff.mpr ⟨by rw [hi, hend], by rw [hi, hv]⟩]
    rfl

/-- Without a head the protocol is broken or the stream has failed. Behind a head the stream fails,
or what it delivers is not the text of a value. -/
theorem readJson_error (hopen : t.isOpen = true) (hjson : t.DecodesJson)
    (h : t.readJson.1 = .error e) :
    (¬ ∃ head rest, HasHead t.connection.inlet.delivery.bytes head rest) ∧
      ((∃ m, e = .protocol m) ∨
        ∃ reason, t.connection.inlet.delivery.failure = some reason ∧ e = .io reason) ∨
    ∃ head rest, HasHead t.connection.inlet.delivery.bytes head rest ∧
      ((∃ reason, t.connection.inlet.delivery.failure = some reason ∧ e = .io reason) ∨
        t.connection.inlet.delivery.failure = none ∧ Json.decode rest = .error e ∧
          ∃ m, e = .serialization m) := by
  rw [(readJson_eq hopen hjson).1, bind_eq_error] at h
  rcases h with hread | ⟨⟨head, i⟩, hread, h⟩
  · refine .inl ⟨?_, (readHead_blamed hread).imp_left fun ⟨f, hf⟩ => ⟨f.message, hf⟩⟩
    rintro ⟨head, rest, bs, hbytes, hlimit, hhead⟩
    obtain ⟨i, hread', -⟩ := readHead_of_isHead hhead hlimit hbytes
    rw [hread'] at hread
    cases hread
  · obtain ⟨bs, hhead, hlimit, hbytes, hfailure⟩ := isHead_of_readHead hread
    refine .inr ⟨head, _, ⟨bs, hbytes, hlimit, hhead⟩, ?_⟩
    cases hrest : decodeRest Json.decode i with
    | ok v => rw [hrest] at h; cases h
    | error e' =>
      rw [hrest] at h
      cases h
      rw [← hfailure]
      rcases decodeRest_eq_error_iff.mp hrest with hio | ⟨hend, hv⟩
      · exact .inl hio
      · exact .inr ⟨hend, hv, Json.decode_error hv⟩

end

/-- Whether a transaction decodes bodies makes no difference to what comes of reading a response and
consuming it as a value: the same head and value or the same error, and a stream that is let go.
What that is the stream decides: a value if it has a head and the text of one and does not fail,
else what is wrong first. -/
theorem readJson_decodes {t : Transaction} (hopen : t.isOpen = true) :
    let eager : Transaction := { t with decoder := some Json.decode }
    let late : Transaction := { t with decoder := none }
    let delivery := t.connection.inlet.delivery
    eager.readJson.1 = late.readJson.1 ∧
    eager.readJson.2.isReleased = true ∧ late.readJson.2.isReleased = true ∧
    (∀ head v, eager.readJson.1 = .ok (head, v) ↔ delivery.failure = none ∧
      ∃ rest, HasHead delivery.bytes head rest ∧ Json.decode rest = .ok v) ∧
    ∀ e, eager.readJson.1 = .error e →
      (¬ ∃ head rest, HasHead delivery.bytes head rest) ∧
        ((∃ m, e = .protocol m) ∨ ∃ reason, delivery.failure = some reason ∧ e = .io reason) ∨
      ∃ head rest, HasHead delivery.bytes head rest ∧
        ((∃ reason, delivery.failure = some reason ∧ e = .io reason) ∨
          delivery.failure = none ∧ Json.decode rest = .error e ∧ ∃ m, e = .serialization m) := by
  intro eager late delivery
  have heager : eager.isOpen = true := hopen
  have hlate : late.isOpen = true := hopen
  have hjson : eager.DecodesJson := fun _ h => (Option.some.inj h).symm
  have hjson' : late.DecodesJson := nofun
  refine ⟨(readJson_eq heager hjson).1.trans (readJson_eq hlate hjson').1.symm,
    (readJson_eq heager hjson).2, (readJson_eq hlate hjson').2,
    fun head v => readJson_eq_ok_iff heager hjson, fun e => readJson_error heager hjson⟩

/-- A value torn in two, and a stream that fails inside of a body. -/
theorem readJson_decodes_torn :
    let whole := [.bytes (Utf8.encode "HTTP/1.0 200 OK\r\n\n[1"), .bytes (Utf8.encode ",2]")]
    let cut := [.bytes (Utf8.encode "HTTP/1.0 200 OK\n\n[1"), .failure "reset"]
    let one : Json.Value := .number (.natural 1)
    let two : Json.Value := .number (.natural 2)
    (ofArrivals (some Json.decode) whole).readJson.1 = .ok (⟨200, "OK", []⟩, .array [one, two]) ∧
      (ofArrivals none whole).readJson.1 = .ok (⟨200, "OK", []⟩, .array [one, two]) ∧
      (ofArrivals (some Json.decode) cut).readJson.1 = .error (.io "reset") ∧
      (ofArrivals none cut).readJson.1 = .error (.io "reset") ∧
      (ofArrivals none cut).readJson.2.isReleased = true := by
  intro whole cut one two
  have hwhole : (ofArrivals (some Json.decode) whole).readJson.1 =
      .ok (⟨200, "OK", []⟩, .array [one, two]) := by decide +kernel
  have hcut : (ofArrivals (some Json.decode) cut).readJson.1 = .error (.io "reset") := by
    decide +kernel
  obtain ⟨hsame, -⟩ := readJson_decodes (t := ofArrivals (some Json.decode) whole) rfl
  obtain ⟨hsame', -, hreleased, -⟩ := readJson_decodes (t := ofArrivals (some Json.decode) cut) rfl
  exact ⟨hwhole, hsame.symm.trans hwhole, hcut, hsame'.symm.trans hcut, hreleased⟩

end Transaction
end BoxClient.Http
