import BoxClient.Json.Form
import BoxClient.Query.Basic
/-!
Queries as JSON. They are written as objects, without the page numbers that are not set. They are
read from objects, where keys that are not a query's count for nothing, and from lists of the fields
in order.
-/
namespace BoxClient.Query

open Json

def templatesKey : String := "_templates"
def countKey : String := "_count"
def offsetKey : String := "_offset"

/-- The member for a page number that may be unset. -/
def pageMember (key : String) : Option UInt32 → List (String × Value)
  | none => []
  | some n => [(key, .number (.natural n.toUInt64))]

def templatesValue (q : Query) : Value := .array (q.templates.map .object)

/-- The members in the order in which a query is written. -/
def members (q : Query) : List (String × Value) :=
  (templatesKey, q.templatesValue) ::
    (pageMember countKey q.count ++ pageMember offsetKey q.offset)

def text (q : Query) : String := (Value.object q.members).text

def toValue (q : Query) : Value := .object (Table.ofList q.members)

/-- A query part way through its members. -/
structure Draft where
  templates : Option (List Template) := none
  count : Option (Option UInt32) := none
  offset : Option (Option UInt32) := none

namespace Draft

def finish (d : Draft) : Query := ⟨d.templates.getD [], d.count.getD none, d.offset.getD none⟩

def read (depth : Nat) (d : Draft) (key : String) : Reader Draft := fun bs =>
  if key = templatesKey then do
    let (templates, r) ← fill key d.templates (.list .table) depth bs
    .ok ({ d with templates }, r)
  else if key = countKey then do
    let (count, r) ← fill key d.count (.optional .uint32) depth bs
    .ok ({ d with count }, r)
  else if key = offsetKey then do
    let (offset, r) ← fill key d.offset (.optional .uint32) depth bs
    .ok ({ d with offset }, r)
  else do
    let (_, r) ← ignored bs
    .ok (d, r)

def take (d : Draft) (key : String) (v : Value) : Except Misfit Draft :=
  if key = templatesKey then
    return { d with templates := ← fillOfValue key d.templates (.list .table) v }
  else if key = countKey then
    return { d with count := ← fillOfValue key d.count (.optional .uint32) v }
  else if key = offsetKey then
    return { d with offset := ← fillOfValue key d.offset (.optional .uint32) v }
  else return d

end Draft

def readMembers (depth : Nat) : Reader Query := fun bs => do
  let (d, r) ← objectOf (Draft.read depth) {} bs
  .ok (d.finish, r)

def readItems (depth : Nat) : Reader Query := fun bs => do
  let (templates, r) ← item? ((Form.list .table).read depth) true bs
  let (count, r) ← item? ((Form.optional .uint32).read depth) false r
  let (offset, r) ← item? ((Form.optional .uint32).read depth) false r
  let (_, r) ← closeArray r
  .ok (Draft.finish ⟨templates, count, offset⟩, r)

def ofItems (vs : List Value) : Except Misfit Query := do
  let templates ← itemOfValue? (.list .table) vs 0
  let count ← itemOfValue? (.optional .uint32) vs 1
  let offset ← itemOfValue? (.optional .uint32) vs 2
  checkLength 3 vs
  return Draft.finish ⟨templates, count, offset⟩

def form : Form Query where
  read depth bs :=
    match skipSpace bs with
    | 0x7b :: r => nested readMembers depth (0x7b :: r)
    | 0x5b :: r => nested readItems depth (0x5b :: r)
    | bs => mismatch "struct Query" bs
  ofValue
    | .object t => return (← t.foldlM (fun d p => Draft.take d p.1 p.2) {}).finish
    | .array vs => ofItems vs
    | v => .error (.invalidType (.ofValue v) "struct Query")

end BoxClient.Query
