import BoxClient.Box.Basic
import BoxClient.Error
/-!
Errors that the server reports inside a reply. A reply is a report if it is an object with the key
`error`; its value is a text, a list of reports on single boxes, or anything else. The text
`conflict` says that a box was stored at the wrong revision, and one such report in a list outweighs
the others. Reports name their box by `_id` and `_rev`, or by the older `__id__` and `__rev__`.
-/
namespace BoxClient.Report

open Json

def errorKey : String := "error"
def olderIdKey : String := "__id__"
def olderRevisionKey : String := "__rev__"

def conflict : String := "conflict"

def isConflict (report : Value) : Bool :=
  (report.member? errorKey).bind Value.string? = some conflict

/-- The id that a report names. The older key counts only in the absence of the newer. -/
def id? (report : Value) : Option String :=
  ((report.member? Box.idKey).or (report.member? olderIdKey)).bind Value.string?

def revision? (report : Value) : Option UInt64 :=
  ((report.member? Box.revisionKey).or (report.member? olderRevisionKey)).bind Value.natural?

/-- One report in words: its text, led by the id if it has one. -/
def describe (report : Value) : String :=
  let message :=
    match report.member? errorKey with
    | some (.string s) => s
    | some v => v.text
    | none => report.text
  match id? report with
  | some id => id ++ ": " ++ message
  | none => message

/-- The id of the only box, if a single one was submitted. -/
def soleId? : List Box → Option String
  | [box] => some box.id
  | _ => none

/-- The conflict that a report tells of. The revision is the one that was submitted for the box,
else the one in the report. -/
def conflictError (report : Value) (submitted : List Box) : Error :=
  let id := ((id? report).or (soleId? submitted)).getD ""
  let submittedRevision? := (submitted.find? (·.id = id)).map Box.revision
  .versionConflict id ((submittedRevision?.or (revision? report)).getD 0)

/-- Turns a reply that is a report into the error it stands for. -/
def check (reply : Value) (submitted : List Box) : Except Error Unit :=
  match reply.member? errorKey with
  | none => .ok ()
  | some (.string s) =>
    if s = conflict then .error (conflictError reply submitted) else .error (.server s)
  | some (.array reports) =>
    match reports.find? isConflict with
    | some report => .error (conflictError report submitted)
    | none => .error (.server ("; ".intercalate (reports.map describe)))
  | some v => .error (.server v.text)

end BoxClient.Report
