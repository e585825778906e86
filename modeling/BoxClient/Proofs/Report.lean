import BoxClient.Proofs.Table
import BoxClient.Report
/-!
Reports of the server, classified. What makes a reply a conflict is one report: the reply itself, or
the first in its list that says so. The id and the revision of the error come from that report and
from the batch, so the other reports do not matter. Any other report is an error of the server.
-/
namespace BoxClient

open Json

namespace Report

def IsReport (reply : Value) : Prop := ∃ t, reply = .object t ∧ errorKey ∈ Table.names t

def Conflicts (report : Value) : Prop := report.member? errorKey = some (.string conflict)

instance (report : Value) : Decidable (Conflicts report) := inferInstanceAs (Decidable (_ = _))

/-- The reply tells of a conflict, in so many words or in one of a list of reports. -/
def TellsConflict (reply : Value) : Prop :=
  Conflicts reply ∨ ∃ reports, reply.member? errorKey = some (.array reports) ∧
    ∃ report ∈ reports, Conflicts report

/-- The report that makes a reply a conflict. -/
inductive Decides (reply : Value) : Value → Prop
  | whole : Conflicts reply → Decides reply reply
  | first {before after : List Value} {report : Value} :
      reply.member? errorKey = some (.array (before ++ report :: after)) →
      (∀ r ∈ before, ¬ Conflicts r) → Conflicts report → Decides reply report

/-- The report has this value under a key, or under the older key if it does not have that one. -/
def Has (report : Value) (key olderKey : String) (v : Value) : Prop :=
  report.member? key = some v ∨ report.member? key = none ∧ report.member? olderKey = some v

def NamesId (report : Value) (id : String) : Prop := Has report Box.idKey olderIdKey (.string id)

def NamesRevision (report : Value) (revision : UInt64) : Prop :=
  Has report Box.revisionKey olderRevisionKey (.number (.natural revision))

/-- The id of a conflict: the one in the report, or else that of the only box of the batch. -/
def IsConflictId (report : Value) (submitted : List Box) (id : String) : Prop :=
  NamesId report id ∨ (∀ named, ¬ NamesId report named) ∧
    ((∃ box, submitted = [box] ∧ id = box.id) ∨ submitted.length ≠ 1 ∧ id = "")

/-- The revision that was expected of a box: the one at which the first box with the id was
submitted, or if there is none, the one in the report. -/
def IsExpected (report : Value) (submitted : List Box) (id : String) (revision : UInt64) : Prop :=
  (∃ before box after, submitted = before ++ box :: after ∧ (∀ b ∈ before, b.id ≠ id) ∧
    box.id = id ∧ revision = box.revision) ∨
  (∀ box ∈ submitted, box.id ≠ id) ∧
    (NamesRevision report revision ∨ (∀ named, ¬ NamesRevision report named) ∧ revision = 0)

section
variable {reply report v : Value} {reports : List Value} {submitted : List Box} {id : String}
  {revision : UInt64}

@[simp] theorem string?_eq_some_iff {s : String} : v.string? = some s ↔ v = .string s := by
  cases v <;> simp [Value.string?]

@[simp] theorem natural?_eq_some_iff {n : UInt64} :
    v.natural? = some n ↔ v = .number (.natural n) := by
  cases v with
  | number m => cases m <;> simp [Value.natural?]
  | _ => simp [Value.natural?]

@[simp] theorem isConflict_iff : isConflict report = true ↔ Conflicts report := by
  simp [isConflict, Option.bind_eq_some_iff, Conflicts]

/-- Looking under both keys finds a value that reads as asked for. -/
theorem or_bind_eq_some_iff {β : Type} {read : Value → Option β} {value : β → Value}
    (hread : ∀ v b, read v = some b ↔ v = value b) {key olderKey : String} {b : β} :
    ((report.member? key).or (report.member? olderKey)).bind read = some b ↔
      Has report key olderKey (value b) := by
  simp only [Option.bind_eq_some_iff, hread, exists_eq_right, Option.or_eq_some_iff, Has]

theorem id?_eq_some_iff : id? report = some id ↔ NamesId report id :=
  or_bind_eq_some_iff fun _ _ => string?_eq_some_iff

theorem revision?_eq_some_iff : revision? report = some revision ↔ NamesRevision report revision :=
  or_bind_eq_some_iff fun _ _ => natural?_eq_some_iff

theorem soleId?_eq_some_iff :
    soleId? submitted = some id ↔ ∃ box, submitted = [box] ∧ id = box.id := by
  match submitted with
  | [] => simp [soleId?]
  | [box] => simp [soleId?, eq_comm]
  | _ :: _ :: _ => simp [soleId?]

theorem soleId?_ne_some_iff : (∀ id, soleId? submitted ≠ some id) ↔ submitted.length ≠ 1 := by
  match submitted with
  | [] => simp [soleId?]
  | [box] => simp [soleId?]
  | _ :: _ :: _ => simp [soleId?]

/-- The first box with an id, by its revision. -/
theorem find?_revision_eq_some_iff :
    (submitted.find? (·.id = id)).map Box.revision = some revision ↔
      ∃ before box after, submitted = before ++ box :: after ∧ (∀ b ∈ before, b.id ≠ id) ∧
        box.id = id ∧ revision = box.revision := by
  simp only [Option.map_eq_some_iff, List.find?_eq_some_iff_append, decide_eq_true_eq,
    Bool.not_eq_true', decide_eq_false_iff_not]
  constructor
  · rintro ⟨box, ⟨hid, before, after, he, hbefore⟩, hrevision⟩
    exact ⟨before, box, after, he, hbefore, hid, hrevision.symm⟩
  · rintro ⟨before, box, after, he, hbefore, hid, hrevision⟩
    exact ⟨box, ⟨hid, before, after, he, hbefore⟩, hrevision.symm⟩

theorem find?_revision_ne_some_iff :
    (∀ revision, (submitted.find? (·.id = id)).map Box.revision ≠ some revision) ↔
      ∀ box ∈ submitted, box.id ≠ id := by
  rw [← Option.eq_none_iff_forall_ne_some, Option.map_eq_none_iff, List.find?_eq_none]
  simp only [decide_eq_true_eq, ne_eq]

/-- What is found first, or what takes its place. -/
theorem or_getD_eq_iff {β : Type} {x y : Option β} {b₀ b : β} :
    (x.or y).getD b₀ = b ↔
      x = some b ∨ (∀ b', x ≠ some b') ∧ (y = some b ∨ (∀ b', y ≠ some b') ∧ b = b₀) := by
  cases x <;> cases y <;> simp [eq_comm]

/-- The id comes from the report before the batch, the revision from the batch before the report. -/
theorem conflictError_eq_iff :
    conflictError report submitted = .versionConflict id revision ↔
      IsConflictId report submitted id ∧ IsExpected report submitted id revision := by
  have hid : ((id? report).or (soleId? submitted)).getD "" = id ↔
      IsConflictId report submitted id := by
    rw [or_getD_eq_iff, soleId?_eq_some_iff, soleId?_ne_some_iff]
    simp only [IsConflictId, ne_eq, id?_eq_some_iff]
  have hrevision : (((submitted.find? (·.id = id)).map Box.revision).or
      (revision? report)).getD 0 = revision ↔ IsExpected report submitted id revision := by
    rw [or_getD_eq_iff, find?_revision_eq_some_iff, find?_revision_ne_some_iff]
    simp only [IsExpected, ne_eq, revision?_eq_some_iff]
  rw [← hid, ← hrevision, conflictError, Error.versionConflict.injEq]
  refine and_congr_right fun he => ?_
  rw [he]

theorem check_ok (h : v.member? errorKey = none) (submitted : List Box) :
    check v submitted = .ok () := by
  rw [check, h]

/-- A conflict is that of the report that decides. -/
theorem check_decided (h : Decides reply report) :
    check reply submitted = .error (conflictError report submitted) := by
  cases h with
  | whole h =>
    rw [check, h]
    exact if_pos rfl
  | @first before after _ hreports hbefore hreport =>
    have hfind : (before ++ report :: after).find? isConflict = some report := by
      refine List.find?_eq_some_iff_append.mpr ⟨isConflict_iff.mpr hreport, before, after, rfl,
        fun r hr => ?_⟩
      rw [Bool.not_eq_true', ← Bool.not_eq_true, isConflict_iff]
      exact hbefore r hr
    rw [check, hreports]
    dsimp only
    rw [hfind]

/-- In a list the first report on a conflict is the one that counts. -/
theorem tellsConflict_iff : TellsConflict reply ↔ ∃ report, Decides reply report := by
  constructor
  · rintro (h | ⟨reports, hreports, hsome⟩)
    · exact ⟨reply, .whole h⟩
    · cases hfind : reports.find? isConflict with
      | none =>
        obtain ⟨report, hmem, hreport⟩ := hsome
        exact absurd (isConflict_iff.mpr hreport) (List.find?_eq_none.mp hfind report hmem)
      | some report =>
        obtain ⟨hreport, before, after, rfl, hbefore⟩ := List.find?_eq_some_iff_append.mp hfind
        refine ⟨report, .first hreports (fun r hr => ?_) (isConflict_iff.mp hreport)⟩
        simpa [← isConflict_iff] using hbefore r hr
  · rintro ⟨report, h | ⟨hreports, -, hreport⟩⟩
    · exact .inl h
    · exact .inr ⟨_, hreports, report, by simp, hreport⟩

theorem isReport_iff : IsReport reply ↔ ∃ v, reply.member? errorKey = some v := by
  rw [← not_iff_not]
  cases reply <;> simp [IsReport, Value.member?, ← Option.eq_none_iff_forall_ne_some,
    Table.find?_eq_none_iff]

/-- A report of anything else is an error of the server. -/
theorem check_undecided (h : reply.member? errorKey = some v) (hnone : ¬ TellsConflict reply)
    (submitted : List Box) : ∃ m, check reply submitted = .error (.server m) := by
  rw [check, h]
  cases v with
  | string s =>
    have hs : ¬ s = conflict := fun he => hnone (.inl (by rw [Conflicts, h, he]))
    exact ⟨s, if_neg hs⟩
  | array reports =>
    have hfind : reports.find? isConflict = none := by
      refine List.find?_eq_none.mpr fun report hmem hreport => hnone (.inr ?_)
      exact ⟨reports, h, report, hmem, isConflict_iff.mp hreport⟩
    dsimp only
    rw [hfind]
    exact ⟨_, rfl⟩
  | null => exact ⟨_, rfl⟩
  | boolean b => exact ⟨_, rfl⟩
  | number m => exact ⟨_, rfl⟩
  | object members => exact ⟨_, rfl⟩

/-- All that a reply can be. -/
theorem check_cases (reply : Value) (submitted : List Box) :
    (¬ IsReport reply ∧ ¬ TellsConflict reply ∧ check reply submitted = .ok ()) ∨
    (IsReport reply ∧ TellsConflict reply ∧ ∃ report, Decides reply report ∧
      check reply submitted = .error (conflictError report submitted)) ∨
    (IsReport reply ∧ ¬ TellsConflict reply ∧ ∃ m, check reply submitted = .error (.server m)) := by
  by_cases htells : TellsConflict reply
  · have hreport : IsReport reply := by
      rw [isReport_iff]
      rcases htells with h | ⟨reports, h, -⟩
      · exact ⟨_, h⟩
      · exact ⟨_, h⟩
    obtain ⟨report, hdecides⟩ := tellsConflict_iff.mp htells
    exact .inr (.inl ⟨hreport, htells, report, hdecides, check_decided hdecides⟩)
  · cases h : reply.member? errorKey with
    | none =>
      have hreport : ¬ IsReport reply := by simp [isReport_iff, h]
      exact .inl ⟨hreport, htells, check_ok h submitted⟩
    | some v =>
      have hreport : IsReport reply := isReport_iff.mpr ⟨v, h⟩
      exact .inr (.inr ⟨hreport, htells, check_undecided h htells submitted⟩)

/-- A value with the key of errors is an error of the server. -/
theorem check_error (h : reply.member? errorKey = some v) (submitted : List Box) :
    ∃ e, check reply submitted = .error e ∧ e.isServerError = true := by
  rcases check_cases reply submitted with ⟨hnone, -, -⟩ | ⟨-, -, report, -, he⟩ | ⟨-, -, m, he⟩
  · exact absurd (isReport_iff.mpr ⟨v, h⟩) hnone
  · exact ⟨_, he, rfl⟩
  · exact ⟨_, he, rfl⟩

/-- Only a report keeps a reply from passing. -/
theorem check_eq_ok_iff : check reply submitted = .ok () ↔ ¬ IsReport reply := by
  rcases check_cases reply submitted with ⟨h, -, he⟩ | ⟨h, -, report, -, he⟩ | ⟨h, -, m, he⟩ <;>
    simp [h, he]

theorem exists_conflict_iff :
    (∃ id revision, check reply submitted = .error (.versionConflict id revision)) ↔
      TellsConflict reply := by
  rcases check_cases reply submitted with ⟨-, h, he⟩ | ⟨-, h, report, -, he⟩ | ⟨-, h, m, he⟩
  · simp [h, he]
  · exact iff_of_true ⟨_, _, he⟩ h
  · simp [h, he]

theorem exists_server_iff : (∃ m, check reply submitted = .error (.server m)) ↔
    IsReport reply ∧ ¬ TellsConflict reply := by
  rcases check_cases reply submitted with ⟨h, -, he⟩ | ⟨-, h, report, -, he⟩ | ⟨h, h', he⟩
  · simp [h, he]
  · simp [h, he, conflictError]
  · exact iff_of_true he ⟨h, h'⟩

/-- Which report decides, and what it is about, is a conflict known by. -/
theorem check_eq_conflict_iff : check reply submitted = .error (.versionConflict id revision) ↔
    ∃ report, Decides reply report ∧ IsConflictId report submitted id ∧
      IsExpected report submitted id revision := by
  simp only [← conflictError_eq_iff]
  constructor
  · intro h
    rcases check_cases reply submitted with ⟨-, -, he⟩ | ⟨-, -, report, hreport, he⟩ | ⟨-, -, m, he⟩
    · rw [he] at h
      cases h
    · rw [he] at h
      injection h with h
      exact ⟨report, hreport, h⟩
    · rw [he] at h
      cases h
  · rintro ⟨report, hreport, he⟩
    rw [check_decided hreport, he]

/-- Of a list of reports the first conflict decides. -/
theorem decides_of_filter {rest : List Value} (h : reply.member? errorKey = some (.array reports))
    (hconflicts : reports.filter (Conflicts ·) = report :: rest) : Decides reply report := by
  obtain ⟨before, after, rfl, hbefore, hreport, -⟩ := List.filter_eq_cons_iff.mp hconflicts
  exact .first h (fun r hr => by simpa using hbefore r hr) (by simpa using hreport)

/-- Lists with the same conflicts in the same order make the same error. -/
theorem check_eq_of_filter_eq {reply' : Value} {reports' : List Value}
    (h : reply.member? errorKey = some (.array reports))
    (h' : reply'.member? errorKey = some (.array reports'))
    (hsome : ∃ report ∈ reports, Conflicts report)
    (hsame : reports.filter (Conflicts ·) = reports'.filter (Conflicts ·)) :
    check reply submitted = check reply' submitted := by
  obtain ⟨report, hmem, hreport⟩ := hsome
  cases hconflicts : reports.filter (Conflicts ·) with
  | nil => exact absurd hreport (by simpa using List.filter_eq_nil_iff.mp hconflicts report hmem)
  | cons report rest =>
    rw [check_decided (decides_of_filter h hconflicts),
      check_decided (decides_of_filter h' (hsame.symm.trans hconflicts))]

end

end Report
end BoxClient
