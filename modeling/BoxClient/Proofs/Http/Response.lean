import BoxClient.Proofs.Http.HeadGrammar
import BoxClient.Proofs.Http.Headers
import BoxClient.Proofs.Http.Transaction
/-!
What reading a response gives. It depends on the bytes that the stream delivers and on how the
stream ends, not on the pieces; it succeeds without a decoder exactly on a head within the limit;
and the rest of the stream begins with the byte behind the head.
-/
namespace BoxClient.Http

open Outcome

namespace Transaction

def ofArrivals (decoder : Option Decoder) (arrivals : List Arrival) : Transaction :=
  { connection := { inlet := ⟨[], arrivals⟩ }, decoder }

/-- Two transactions that are told the same read the same, in whatever pieces it arrives. Without a
decoder the rest of the stream is the same too: what the stream delivers behind the head, or the
failure that ends it. -/
theorem read_eq_of_delivery_eq {t u : Transaction} (ht : t.isOpen = true) (hu : u.isOpen = true)
    (hdecoder : t.decoder = u.decoder)
    (hsame : t.connection.inlet.delivery = u.connection.inlet.delivery) :
    t.read.1 = u.read.1 ∧
    (t.decoder = none → ∀ response, t.read.1 = .ok response →
      (t.read.2.body response).1 = (u.read.2.body response).1 ∧
      (t.read.2.json response).1 = (u.read.2.json response).1 ∧
      ∃ bs rest, IsHead bs response.head ∧ t.connection.inlet.delivery.bytes = bs ++ rest ∧
        (t.connection.inlet.delivery.failure = none →
          (t.read.2.body response).1 = .ok (.inr rest)) ∧
        ∀ reason, t.connection.inlet.delivery.failure = some reason →
          (t.read.2.body response).1 = .error (.io reason)) := by
  have hheads := readHead_related hsame
  rw [read_open ht, read_open hu]
  cases hx : readHead t.connection.inlet with
  | error e =>
    cases hy : readHead u.connection.inlet with
    | ok q => rw [hx, hy] at hheads; exact hheads.elim
    | error e' =>
      rw [hx, hy] at hheads
      obtain rfl : e = e' := hheads
      rw [receive_error hx, receive_error hy]
      exact ⟨rfl, fun _ response h => nomatch h⟩
  | ok p =>
    cases hy : readHead u.connection.inlet with
    | error e' => rw [hx, hy] at hheads; exact hheads.elim
    | ok q =>
      obtain ⟨head, i⟩ := p
      obtain ⟨head', j⟩ := q
      rw [hx, hy] at hheads
      obtain ⟨hhead, hview⟩ := hheads
      obtain rfl : head = head' := hhead
      change i.delivery = j.delivery at hview
      cases hd : t.decoder with
      | some decode =>
        rw [receive_decoded hd hx, receive_decoded (hdecoder.symm.trans hd) hy]
        rw [decodeRest_eq, decodeRest_eq, hview]
        exact ⟨rfl, fun h => nomatch h⟩
      | none =>
        rw [receive_stream hd hx, receive_stream (hdecoder.symm.trans hd) hy]
        refine ⟨rfl, fun _ response h => ?_⟩
        cases h
        obtain ⟨bs, hhead, -, hbytes, hfailure⟩ := isHead_of_readHead hx
        simp only [body_stream, json_stream, handOn, ← hview, Delivery.rest]
        refine ⟨trivial, trivial, bs, i.delivery.bytes, hhead, hbytes, fun hnone => ?_,
          fun reason hsome => ?_⟩
        · rw [hfailure, hnone]
          rfl
        · rw [hfailure, hsome]
          rfl

/-- A line end may be torn apart. -/
theorem read_eq_across_line_end :
    let t := ofArrivals none
      [.bytes (Utf8.encode "HTTP/1.0 200 OK\r"), .bytes (Utf8.encode "\n\nh"), .failure "reset"]
    let u := ofArrivals none [.bytes (Utf8.encode "HTTP/1.0 200 OK\r\n\nh"), .failure "reset"]
    t.isOpen = true ∧ u.isOpen = true ∧ t.decoder = u.decoder ∧
      t.connection.inlet.delivery = u.connection.inlet.delivery ∧ t.read.1 = u.read.1 ∧
      (t.read.2.body ⟨⟨200, "OK", []⟩, .stream⟩).1 =
        (u.read.2.body ⟨⟨200, "OK", []⟩, .stream⟩).1 := by
  intro t u
  have hsame : t.connection.inlet.delivery = u.connection.inlet.delivery := by decide
  have hok : t.read.1 = .ok ⟨⟨200, "OK", []⟩, .stream⟩ := by decide
  obtain ⟨hread, hbody⟩ := @read_eq_of_delivery_eq t u rfl rfl rfl hsame
  exact ⟨rfl, rfl, rfl, hsame, hread, (hbody rfl _ hok).1⟩

/-- Where the stream does not fail and bodies are not decoded, a response is read exactly if the
bytes begin with a head within the limit. It has the status, the reason and the headers of that
head, a header is looked up as the first of its name, and the bytes behind the head remain. Anything
else breaks the protocol. -/
theorem read_ok_iff_isHead {t : Transaction} (hopen : t.isOpen = true) (hraw : t.decoder = none)
    (hend : t.connection.inlet.delivery.failure = none) :
    ((∃ response, t.read.1 = .ok response) ↔
      ∃ bs rest head, t.connection.inlet.delivery.bytes = bs ++ rest ∧ bs.length ≤ headLimit ∧
        IsHead bs head) ∧
    (∀ bs rest head, t.connection.inlet.delivery.bytes = bs ++ rest → bs.length ≤ headLimit →
      IsHead bs head →
        t.read.1 = .ok ⟨head, .stream⟩ ∧ (t.read.2.body ⟨head, .stream⟩).1 = .ok (.inr rest) ∧
        ∀ name value, head.headers.get? name = some value ↔
          ∃ before found after, head.headers = before ++ (found, value) :: after ∧
            SameName found name ∧ ∀ h ∈ before, ¬ SameName h.1 name) ∧
    ∀ e, t.read.1 = .error e → ∃ m, e = .protocol m := by
  rw [read_open hopen]
  refine ⟨⟨?_, ?_⟩, ?_, ?_⟩
  · intro h
    obtain ⟨response, h⟩ := h
    cases hx : readHead t.connection.inlet with
    | error e =>
      rw [receive_error hx] at h
      cases h
    | ok p =>
      obtain ⟨bs, hhead, hlength, hbytes, -⟩ := isHead_of_readHead hx
      exact ⟨bs, p.2.delivery.bytes, p.1, hbytes, hlength, hhead⟩
  · intro h
    obtain ⟨bs, rest, head, hbytes, hlength, hhead⟩ := h
    obtain ⟨inlet, hread, -⟩ := readHead_of_isHead hhead hlength hbytes
    rw [receive_stream hraw hread]
    exact ⟨_, rfl⟩
  · intro bs rest head hbytes hlength hhead
    obtain ⟨inlet, hread, hrest⟩ := readHead_of_isHead hhead hlength hbytes
    rw [receive_stream hraw hread]
    refine ⟨rfl, ?_, fun name value => get?_eq_some_iff⟩
    simp only [body_stream, handOn, hrest, hend]
    rfl
  · intro e h
    cases hx : readHead t.connection.inlet with
    | error e' =>
      rw [receive_error hx] at h
      obtain ⟨f, rfl⟩ := readHead_error hend hx
      cases h
      exact ⟨_, rfl⟩
    | ok p =>
      rw [receive_stream hraw hx] at h
      cases h

/-- A head with one header, and two bytes behind it. -/
theorem read_isHead_greeting :
    let t := ofArrivals none [.bytes (Utf8.encode "HTTP/1.0 200 OK\r\nLang: en\n\nhi")]
    let head : Head := ⟨200, "OK", [("Lang", "en")]⟩
    t.isOpen = true ∧ t.decoder = none ∧ t.connection.inlet.delivery.failure = none ∧
      t.read.1 = .ok ⟨head, .stream⟩ ∧
      (t.read.2.body ⟨head, .stream⟩).1 = .ok (.inr (Utf8.encode "hi")) := by
  intro t head
  have hstatus : IsLine (Utf8.encode "HTTP/1.0 200 OK\r\n") "HTTP/1.0 200 OK".toList :=
    ⟨Utf8.encode "HTTP/1.0 200 OK\r", by decide, by decide, by decide⟩
  have hline : IsLine (Utf8.encode "Lang: en\n") "Lang: en".toList :=
    ⟨Utf8.encode "Lang: en", by decide, by decide, by decide⟩
  have hheader : IsHeader "Lang: en".toList ("Lang", "en") :=
    ⟨"Lang".toList, " en".toList, by decide, by decide, ⟨'L', by decide, by decide⟩, by decide⟩
  have hhead : IsHead (Utf8.encode "HTTP/1.0 200 OK\r\nLang: en\n\n") head :=
    ⟨_, [_], Utf8.encode "\n", by decide, ⟨_, hstatus, by decide⟩,
      .cons ⟨_, hline, hheader⟩ .nil, ⟨[], by decide, by decide, by decide⟩⟩
  obtain ⟨-, hread, -⟩ := read_ok_iff_isHead (t := t) rfl rfl rfl
  obtain ⟨hok, hbody, -⟩ := hread _ (Utf8.encode "hi") head (by decide) (by decide) hhead
  exact ⟨rfl, rfl, rfl, hok, hbody⟩

end Transaction
end BoxClient.Http
