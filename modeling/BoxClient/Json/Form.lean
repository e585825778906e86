import BoxClient.Json.Skip
/-!
Reading a type from JSON. A `Form` does it on two routes: from a text, where a misfit has a place,
and from a value that is already read, where it has none. On the text route a container that does
not fit is reported in front of it and a scalar behind it. A record is gathered in a draft with a
slot for each of its fields.
-/
namespace BoxClient.Json

structure Form (α : Type) where
  /-- From a text in which containers may nest `depth` deep. -/
  read : (depth : Nat) → Reader α
  ofValue : Value → Except Misfit α

def mismatch {α : Type} (expected : String) : Reader α := fun bs =>
  match skipSpace bs with
  | 0x5b :: r => .error (.unfit (.invalidType .sequence expected) (0x5b :: r))
  | 0x7b :: r => .error (.unfit (.invalidType .map expected) (0x7b :: r))
  | bs => do
    let (v, r) ← Value.readerOver none bs
    .error (.unfit (.invalidType (.ofValue v) expected) r)

/-- Opens a container in front of which reading stands, if the depth allows. -/
def nested {α : Type} (inside : (depth : Nat) → Reader α) : (depth : Nat) → Reader α
  | 0, bs => .error (.next .tooDeep bs)
  | depth + 1, bs => inside depth bs.tail

namespace Form

variable {α : Type}

def string : Form String where
  read _ bs :=
    match skipSpace bs with
    | 0x22 :: r => Json.string r
    | bs => mismatch "a string" bs
  ofValue
    | .string s => .ok s
    | v => .error (.invalidType (.ofValue v) "a string")

/-- The number an integer literal stands for, where `convert` has it in range. -/
def convertNumber (expected : String) (convert : UInt64 → Option α) : Number → Except Misfit α
  | .natural n =>
    match convert n with
    | some a => .ok a
    | none => .error (.invalidValue (.number (.natural n)) expected)
  | .negative m => .error (.invalidValue (.number (.negative m)) expected)
  | .float x => .error (.invalidType (.number (.float x)) expected)

/-- An unsigned integer that `convert` has in range. -/
def unsigned (expected : String) (convert : UInt64 → Option α) : Form α where
  read _ bs :=
    match skipSpace bs with
    | b :: r =>
      if b = 0x2d || isDigit b then do
        let (n, r) ← number (b :: r)
        match convertNumber expected convert n with
        | .ok a => .ok (a, r)
        | .error m => .error (.unfit m r)
      else mismatch expected (b :: r)
    | [] => mismatch expected []
  ofValue
    | .number n => convertNumber expected convert n
    | v => .error (.invalidType (.ofValue v) expected)

def uint64 : Form UInt64 := unsigned "u64" some

def uint32 : Form UInt32 :=
  unsigned "u32" fun n => if n.toNat < Nat.pow 2 32 then some n.toUInt32 else none

def list (item : Form α) : Form (List α) where
  read depth bs :=
    match skipSpace bs with
    | 0x5b :: r => nested (fun depth => arrayOf (item.read depth)) depth (0x5b :: r)
    | bs => mismatch "a sequence" bs
  ofValue
    | .array vs => vs.mapM item.ofValue
    | v => .error (.invalidType (.ofValue v) "a sequence")

def table : Form (Table Value) where
  read depth bs :=
    match skipSpace bs with
    | 0x7b :: r => nested (fun depth => objectOf (entry (Value.reader depth)) []) depth (0x7b :: r)
    | bs => mismatch "a map" bs
  ofValue
    | .object t => .ok t
    | v => .error (.invalidType (.ofValue v) "a map")

def optional (form : Form α) : Form (Option α) where
  read depth bs :=
    match skipSpace bs with
    | 0x6e :: r => do
      let (_, r) ← word [0x75, 0x6c, 0x6c] r
      .ok (none, r)
    | bs => do
      let (a, r) ← form.read depth bs
      .ok (some a, r)
  ofValue
    | .null => .ok none
    | v => some <$> form.ofValue v

end Form

/-- An object whose values all have one form, from a value. -/
def tableOfValue {α : Type} (form : Form α) : Value → Except Misfit (Table α)
  | .object t => t.mapM fun (name, v) => do return (name, ← form.ofValue v)
  | v => .error (.invalidType (.ofValue v) "a map")

/-- The report on a key that was there before. Space behind the key counts as read, and so does a
brace if that is next. -/
def repeated (name : String) (bs : Bytes) : Fault :=
  match skipSpace bs with
  | 0x7d :: r => .unfit (.duplicateField name) r
  | r => .unfit (.duplicateField name) r

def fill {α : Type} (name : String) (slot : Option α) (form : Form α) (depth : Nat) :
    Reader (Option α) := fun bs =>
  match slot with
  | some _ => .error (repeated name bs)
  | none => do
    let (_, r) ← colon bs
    let (a, r) ← form.read depth r
    .ok (some a, r)

def fillOfValue {α : Type} (name : String) (slot : Option α) (form : Form α) (v : Value) :
    Except Misfit (Option α) :=
  match slot with
  | some _ => .error (.duplicateField name)
  | none => some <$> form.ofValue v

/-- The colon and the value of a member that no field takes. -/
def ignored : Reader Unit := fun bs => do
  let (_, r) ← colon bs
  Skip.value r

/-- The item at a place of a list that stands for a record, unless the list ends before it. -/
def itemOfValue? {α : Type} (form : Form α) (vs : List Value) (place : Nat) :
    Except Misfit (Option α) :=
  match vs[place]? with
  | some v => some <$> form.ofValue v
  | none => .ok none

/-- A list that stands for a record has at most one item for each field. -/
def checkLength (fields : Nat) (vs : List Value) : Except Misfit Unit :=
  if fields < vs.length then .error (.surplus vs.length) else .ok ()

def Form.readText {α : Type} (form : Form α) (text : Bytes) : Except Fault α :=
  whole (form.read nestingLimit) text

end BoxClient.Json
