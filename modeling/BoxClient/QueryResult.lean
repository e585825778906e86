import BoxClient.Box.Wire
/-!
What the server answers to one query: the boxes on the page that was asked for, how many they are,
and how many boxes match in all. It is read from an object or from a list of the fields in order.
-/
namespace BoxClient

structure QueryResult where
  count : UInt64 := 0
  total : UInt64 := 0
  data : List Box := []
  deriving DecidableEq

namespace QueryResult

open Json

def countKey : String := "_count"
def totalKey : String := "_total"
def dataKey : String := "_data"

def text (result : QueryResult) : String :=
  (Value.object [
    (countKey, .number (.natural result.count)),
    (totalKey, .number (.natural result.total)),
    (dataKey, .array (result.data.map fun box => .object box.members))]).text

def toValue (result : QueryResult) : Value :=
  .object (Table.ofList [
    (countKey, .number (.natural result.count)),
    (totalKey, .number (.natural result.total)),
    (dataKey, .array (result.data.map Box.toValue))])

/-- A result part way through its members. -/
structure Draft where
  count : Option UInt64 := none
  total : Option UInt64 := none
  data : Option (List Box) := none

namespace Draft

def finish (d : Draft) : QueryResult := ⟨d.count.getD 0, d.total.getD 0, d.data.getD []⟩

def read (depth : Nat) (d : Draft) (key : String) : Reader Draft := fun bs =>
  if key = countKey then do
    let (count, r) ← fill key d.count .uint64 depth bs
    .ok ({ d with count }, r)
  else if key = totalKey then do
    let (total, r) ← fill key d.total .uint64 depth bs
    .ok ({ d with total }, r)
  else if key = dataKey then do
    let (data, r) ← fill key d.data (.list Box.form) depth bs
    .ok ({ d with data }, r)
  else do
    let (_, r) ← ignored bs
    .ok (d, r)

def take (d : Draft) (key : String) (v : Value) : Except Misfit Draft :=
  if key = countKey then return { d with count := ← fillOfValue key d.count .uint64 v }
  else if key = totalKey then return { d with total := ← fillOfValue key d.total .uint64 v }
  else if key = dataKey then return { d with data := ← fillOfValue key d.data (.list Box.form) v }
  else return d

end Draft

def readMembers (depth : Nat) : Reader QueryResult := fun bs => do
  let (d, r) ← objectOf (Draft.read depth) {} bs
  .ok (d.finish, r)

def readItems (depth : Nat) : Reader QueryResult := fun bs => do
  let (count, r) ← item? (Form.uint64.read depth) true bs
  let (total, r) ← item? (Form.uint64.read depth) false r
  let (data, r) ← item? ((Form.list Box.form).read depth) false r
  let (_, r) ← closeArray r
  .ok (Draft.finish ⟨count, total, data⟩, r)

def ofItems (vs : List Value) : Except Misfit QueryResult := do
  let count ← itemOfValue? .uint64 vs 0
  let total ← itemOfValue? .uint64 vs 1
  let data ← itemOfValue? (.list Box.form) vs 2
  checkLength 3 vs
  return Draft.finish ⟨count, total, data⟩

def form : Form QueryResult where
  read depth bs :=
    match skipSpace bs with
    | 0x7b :: r => nested readMembers depth (0x7b :: r)
    | 0x5b :: r => nested readItems depth (0x5b :: r)
    | bs => mismatch "struct QueryResult" bs
  ofValue
    | .object t => return (← t.foldlM (fun d p => Draft.take d p.1 p.2) {}).finish
    | .array vs => ofItems vs
    | v => .error (.invalidType (.ofValue v) "struct QueryResult")

end QueryResult
end BoxClient
