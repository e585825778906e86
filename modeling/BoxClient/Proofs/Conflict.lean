import BoxClient.Proofs.Payload
/-!
Conflicts that a batch ends in. Neither the connection nor the form of a reply is ever reported as
one, so a conflict comes from a report in the reply to this batch. No id is twice in a batch that
was accepted, so a box of it is named with the revision at which it was submitted.
-/
namespace BoxClient

open Http Json Outcome

namespace Session

variable {α : Type} {s : Session α} {n : Network α} {boxes : List Box}

section
variable {c : Connection} {r : Request}

/-- The server is not blamed for an exchange that does not come to a value. -/
theorem converse_not_server {e : Error} (h : (converse (newTransaction c) r).1 = .error e) :
    e.isServerError = false := by
  cases hencode : r.encode with
  | error refusal =>
    rw [converse_refused hencode] at h
    cases h
    rfl
  | ok bs =>
    rcases (converse_accepted hencode (c := c)).2 with ⟨-, -, hread⟩ | ⟨-, reason, hfails⟩
    · rw [hread] at h
      exact (((failsAs_readHead _).bind fun p => failsAs_decodeRest p.2) e h).not_server
    · rw [hfails] at h
      cases h
      rfl

/-- A value that comes back is what follows the head of the reply. -/
theorem converse_eq_ok {v : Value} (h : (converse (newTransaction c) r).1 = .ok v) :
    (readHead c.inlet >>= fun p => Transaction.decodeRest Json.decode p.2) = .ok v := by
  cases hencode : r.encode with
  | error refusal =>
    rw [converse_refused hencode] at h
    cases h
  | ok bs =>
    rcases (converse_accepted hencode (c := c)).2 with ⟨-, -, hread⟩ | ⟨-, reason, hfails⟩
    · rwa [hread] at h
    · rw [hfails] at h
      cases h

end

/-- The session gets a connection on which a reply of this value arrives. -/
def Hears (s : Session α) (n : Network α) (v : Value) : Prop :=
  ∃ a c, (n.connect s.cached).result = .ok (a, c) ∧
    (readHead c.inlet >>= fun p => Transaction.decodeRest Json.decode p.2) = .ok v

/-- An error of the server is a report on the reply. -/
theorem hears_of_exchange {method : Method} {path : String} {body : Body} {e : Error}
    (h : (s.exchange n method path body boxes).result = .error e) (he : e.isServerError = true) :
    ∃ v, s.Hears n v ∧ Report.check v boxes = .error e := by
  cases hconnect : (n.connect s.cached).result with
  | error fault =>
    rw [exchange_unconnected hconnect] at h
    cases h
    cases he
  | ok p =>
    obtain ⟨a, c⟩ := p
    rw [exchange_connected hconnect] at h
    rcases bind_eq_error.mp h with h | ⟨v, hv, h⟩
    · rw [converse_not_server h] at he
      cases he
    · rcases bind_eq_error.mp h with h | ⟨_, -, h⟩
      · exact ⟨v, ⟨a, c, hconnect, converse_eq_ok hv⟩, h⟩
      · cases h

/-- A conflict of a batch is a report on its reply, and a box of the batch is named with the
revision at which it was submitted. -/
theorem store_conflict {id : String} {revision : UInt64}
    (h : (s.store n boxes).result = .error (.versionConflict id revision)) :
    ∃ v, s.Hears n v ∧ Report.check v boxes = .error (.versionConflict id revision) ∧
      ∀ box ∈ boxes, box.id = id → box.revision = revision := by
  rw [store] at h
  cases hmessage : storeMessage boxes with
  | error refusal =>
    rw [hmessage] at h
    cases h
  | ok message =>
    rw [hmessage] at h
    obtain ⟨v, hv, hcheck⟩ := hears_of_exchange h rfl
    refine ⟨v, hv, hcheck, fun box hbox hid => ?_⟩
    obtain ⟨-, hnodup, -⟩ := storeMessage_eq_ok_iff.mp hmessage
    obtain ⟨report, -, -, hexpected⟩ := Report.check_eq_conflict_iff.mp hcheck
    rcases hexpected with ⟨before, box', after, rfl, -, hid', rfl⟩ | ⟨hnone, -⟩
    · have hids : ((before ++ box' :: after).map Box.id).Nodup := by
        simpa [Table.names, Function.comp_def] using hnodup
      have hsame : box = box' :=
        List.inj_on_of_nodup_map hids hbox (by simp) (hid.trans hid'.symm)
      rw [hsame]
    · exact absurd hid (hnone box hbox)

end Session

namespace Report

variable {α : Type}

/-- A reply reports nothing if it is no object or has not the key of errors; it is a conflict if its
error is the text of conflicts or a list in which a report has that error; and any other report is
an error of the server. A conflict has the id and the revision that the deciding report and the
batch give it, so reports that are no conflicts may be put in, left out or moved. Where storing a
batch ends in a conflict, that is a report on the reply, and a box of the batch is named with the
revision at which it was submitted. -/
theorem check_classifies (reply : Value) (submitted : List Box) (s : Session α) (n : Network α) :
    (check reply submitted = .ok () ↔ ¬ IsReport reply) ∧
    ((∃ id revision, check reply submitted = .error (.versionConflict id revision)) ↔
      TellsConflict reply) ∧
    ((∃ m, check reply submitted = .error (.server m)) ↔
      IsReport reply ∧ ¬ TellsConflict reply) ∧
    (∀ id revision, check reply submitted = .error (.versionConflict id revision) ↔
      ∃ report, Decides reply report ∧ IsConflictId report submitted id ∧
        IsExpected report submitted id revision) ∧
    (∀ reply' reports reports', reply.member? errorKey = some (.array reports) →
      reply'.member? errorKey = some (.array reports') → (∃ report ∈ reports, Conflicts report) →
      reports.filter (Conflicts ·) = reports'.filter (Conflicts ·) →
        check reply submitted = check reply' submitted) ∧
    ∀ id revision, (s.store n submitted).result = .error (.versionConflict id revision) →
      ∃ v, s.Hears n v ∧ check v submitted = .error (.versionConflict id revision) ∧
        ∀ box ∈ submitted, box.id = id → box.revision = revision :=
  ⟨check_eq_ok_iff, exists_conflict_iff, exists_server_iff, fun _ _ => check_eq_conflict_iff,
    fun _ _ _ => check_eq_of_filter_eq, fun _ _ => Session.store_conflict⟩

/-- A conflict of one box in a batch of two, reported behind another error and by the older keys:
the revision is the one submitted, and it is the same with other reports around it. And a conflict
that a stored batch ends in. -/
theorem check_classifies_batch :
    let report : Value :=
      .object [("__id__", .string "a"), ("__rev__", .number (.natural 2)),
        ("error", .string "conflict")]
    let other : Value := .object [("error", .string "Internal error")]
    let reply (reports : List Value) : Value := .object [("error", .array reports)]
    let boxes : List Box := [⟨"a", 0, [], []⟩, ⟨"b", 7, [], []⟩]
    let s : Session Unit := ⟨{}, none⟩
    let n := Network.replying
      (Utf8.encode "\x7b\"error\":\"conflict\",\"_id\":\"b\",\"_rev\":9\x7d")
    check (reply [other, report]) boxes = .error (.versionConflict "a" 0) ∧
      check (reply [report, .null, other]) boxes = .error (.versionConflict "a" 0) ∧
      (∃ m, check (reply [.null, other]) boxes = .error (.server m)) ∧
      (s.store n boxes).result = .error (.versionConflict "b" 7) ∧
      ∀ box ∈ boxes, box.id = "b" → box.revision = 7 := by
  intro report other reply boxes s n
  obtain ⟨-, -, -, hconflict, hsame, hstored⟩ :=
    check_classifies (reply [other, report]) boxes s n
  obtain ⟨-, -, hserver, -⟩ := check_classifies (reply [.null, other]) boxes s n
  have hcheck : check (reply [other, report]) boxes = .error (.versionConflict "a" 0) :=
    (hconflict "a" 0).mpr ⟨report, @Decides.first _ [other] [] _ rfl (by decide) rfl,
      .inl (.inr ⟨rfl, rfl⟩), .inl ⟨[], _, _, rfl, by simp, rfl, rfl⟩⟩
  have hstore : (s.store n boxes).result = .error (.versionConflict "b" 7) := by decide +kernel
  obtain ⟨v, -, -, hrevision⟩ := hstored "b" 7 hstore
  refine ⟨hcheck, ?_, hserver.mpr ⟨?_, ?_⟩, hstore, hrevision⟩
  · rw [← hsame (reply [report, .null, other]) _ _ rfl rfl ⟨report, by simp, rfl⟩ (by decide)]
    exact hcheck
  · exact ⟨_, rfl, by decide⟩
  · rintro (h | ⟨reports, hreports, r, hr, hconflicts⟩)
    · cases h
    · cases hreports
      have hnone : ∀ r ∈ [Value.null, other], ¬ Conflicts r := by decide
      exact hnone r hr hconflicts

end Report
end BoxClient
