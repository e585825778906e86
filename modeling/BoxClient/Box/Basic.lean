import BoxClient.Refusal
/-!
Boxes: documents with an id, a revision, the names of the fields that the server should index, and
fields of the application. The editing operations refuse the keys that belong to the protocol.
-/
namespace BoxClient

structure Box where
  id : String
  /-- The revision last seen; zero for a box that the server does not hold yet. -/
  revision : UInt64
  index : List String
  fields : Table Json.Value
  deriving DecidableEq

namespace Box

def idKey : String := "_id"
def revisionKey : String := "_rev"
def indexKey : String := "_index"

def reservedKeys : List String := [idKey, revisionKey, indexKey]

def isReserved (name : String) : Bool := reservedKeys.contains name

def new (id : String) (revision : UInt64) : Except Refusal Box :=
  if id = "" then .error .emptyId else .ok ⟨id, revision, [], []⟩

def get? (box : Box) (field : String) : Option Json.Value := box.fields.find? field

/-- Sets a field; with the box comes the value that was there before. -/
def insert (box : Box) (field : String) (v : Json.Value) :
    Except Refusal (Option Json.Value × Box) :=
  if isReserved field then .error (.reservedKey field)
  else .ok (box.get? field, { box with fields := box.fields.insert field v })

/-- Sets a field as a link of a chain, which goes on with the box. -/
def withField (box : Box) (field : String) (v : Json.Value) : Except Refusal Box :=
  (box.insert field v).map (·.2)

def erase (box : Box) (field : String) : Option Json.Value × Box :=
  (box.get? field, { box with fields := box.fields.erase field })

/-- Asks for an index on a field; a name that is there already stays in its place. -/
def addIndex (box : Box) (field : String) : Except Refusal Box :=
  if field = "" then .error .emptyIndexName
  else if isReserved field then .error (.reservedKey field)
  else if field ∈ box.index then .ok box
  else .ok { box with index := box.index ++ [field] }

def addIndexes (box : Box) (names : List String) : Except Refusal Box := names.foldlM addIndex box

def insertAll (box : Box) (fields : List (String × Json.Value)) : Except Refusal Box :=
  fields.foldlM (fun box p => box.withField p.1 p.2) box

/-- A box to store: the id is checked first, then the index names, then the fields. -/
def prepare (id : String) (revision : UInt64) (index : List String)
    (fields : List (String × Json.Value)) : Except Refusal Box := do
  let box ← new id revision
  let box ← box.addIndexes index
  box.insertAll fields

end Box
end BoxClient
