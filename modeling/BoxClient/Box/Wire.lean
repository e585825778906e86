import BoxClient.Box.Basic
import BoxClient.Json.Form
/-!
Boxes as JSON objects: the three keys of the protocol beside the fields. Written directly the keys
of the protocol come first; `toValue` sorts all keys together. Reading takes any key that is not the
protocol's as a field and checks nothing else.
-/
namespace BoxClient.Box

open Json

/-- The members in the order in which a box is written. -/
def members (box : Box) : List (String × Value) :=
  (idKey, .string box.id) ::
  (revisionKey, .number (.natural box.revision)) ::
  (indexKey, .array (box.index.map .string)) :: box.fields

def text (box : Box) : String := (Value.object box.members).text

def toValue (box : Box) : Value := .object (Table.ofList box.members)

/-- A box part way through its members. -/
structure Draft where
  id : Option String := none
  revision : Option UInt64 := none
  index : Option (List String) := none
  fields : Table Value := []

namespace Draft

/-- The box whose members are all there. An id must be among them. -/
def finish (d : Draft) : Except Misfit Box :=
  match d.id with
  | none => .error (.missingField idKey)
  | some id => .ok ⟨id, d.revision.getD 0, d.index.getD [], d.fields⟩

def read (depth : Nat) (d : Draft) (key : String) : Reader Draft := fun bs =>
  if key = idKey then do
    let (id, r) ← fill key d.id .string depth bs
    .ok ({ d with id }, r)
  else if key = revisionKey then do
    let (revision, r) ← fill key d.revision .uint64 depth bs
    .ok ({ d with revision }, r)
  else if key = indexKey then do
    let (index, r) ← fill key d.index (.list .string) depth bs
    .ok ({ d with index }, r)
  else do
    let (fields, r) ← entry (Value.reader depth) d.fields key bs
    .ok ({ d with fields }, r)

def take (d : Draft) (key : String) (v : Value) : Except Misfit Draft :=
  if key = idKey then return { d with id := ← fillOfValue key d.id .string v }
  else if key = revisionKey then
    return { d with revision := ← fillOfValue key d.revision .uint64 v }
  else if key = indexKey then
    return { d with index := ← fillOfValue key d.index (.list .string) v }
  else return { d with fields := d.fields.insert key v }

end Draft

def readMembers (depth : Nat) : Reader Box := fun bs => do
  let (d, r) ← objectOf (Draft.read depth) {} bs
  match d.finish with
  | .ok box => .ok (box, r)
  | .error m => .error (.unfit m r)

def form : Form Box where
  read depth bs :=
    match skipSpace bs with
    | 0x7b :: r => nested readMembers depth (0x7b :: r)
    | bs => mismatch "struct Document" bs
  ofValue
    | .object t => do (← t.foldlM (fun d p => Draft.take d p.1 p.2) {}).finish
    | v => .error (.invalidType (.ofValue v) "struct Document")

end BoxClient.Box
