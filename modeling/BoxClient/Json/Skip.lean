import BoxClient.Json.Reader
/-!
Passing over a value that nobody asked for. Only its outer form is checked: strings may hold any
bytes and lone surrogates, numbers may be out of range, and nesting is not limited. The reports
differ from those of a reader in places: after a comma a value or a key is missing, there is no
trailing comma.
-/
namespace BoxClient.Json.Skip

def escape : Reader Unit
  | [] => .error (.here .endInString [])
  | b :: r =>
    if b = 0x75 then do
      let (_, r) ← hexQuad r
      .ok ((), r)
    else if [0x22, 0x5c, 0x2f, 0x62, 0x66, 0x6e, 0x72, 0x74].contains b then .ok ((), r)
    else .error (.here .badEscape r)

/-- The rest of a string, from behind its opening quote; a control character stays unread. -/
def string : (rounds : Bytes) → Reader Unit
  | [], bs => .error (.here .endInString bs)
  | _ :: _, [] => .error (.here .endInString [])
  | _ :: rounds, b :: r =>
    if b = 0x22 then .ok ((), r)
    else if b = 0x5c then do
      let (_, r) ← escape r
      string rounds r
    else if b < 0x20 then .error (.here .controlCharacter (b :: r))
    else string rounds r

def exponent : Reader Unit := fun bs =>
  match (exponentSign bs).2 with
  | [] => .error (.here .badNumber [])
  | b :: r => if isDigit b then .ok ((), skipDigits r) else .error (.here .badNumber r)

def tailOfDigits : Reader Unit
  | b :: r => if isExponentMark b then exponent r else .ok ((), b :: r)
  | [] => .ok ((), [])

def fraction : Reader Unit
  | b :: r => if isDigit b then tailOfDigits (skipDigits r) else .error (.next .badNumber (b :: r))
  | [] => .error (.next .badNumber [])

def tailOfInteger : Reader Unit
  | b :: r => if b = 0x2e then fraction r else tailOfDigits (b :: r)
  | [] => .ok ((), [])

def number : Reader Unit
  | [] => .error (.here .badNumber [])
  | b :: r =>
    if b = 0x30 then
      match r with
      | b' :: _ => if isDigit b' then .error (.next .badNumber r) else tailOfInteger r
      | [] => .ok ((), [])
    else if isDigit b then tailOfInteger (skipDigits r)
    else .error (.here .badNumber r)

def items (value : Reader Unit) : (rounds : Bytes) → Reader Unit
  | [], bs => .error (.next .endInList bs)
  | _ :: rounds, bs =>
    match skipSpace bs with
    | [] => .error (.next .endInList [])
    | b :: r =>
      if b = 0x5d then .ok ((), r)
      else if b = 0x2c then do
        let (_, r) ← value r
        items value rounds r
      else .error (.next .noListSeparator (b :: r))

def array (value : Reader Unit) : Reader Unit := fun bs =>
  match skipSpace bs with
  | [] => .error (.next .endInList [])
  | b :: r =>
    if b = 0x5d then .ok ((), r)
    else do
      let (_, r) ← value (b :: r)
      items value r r

def member (value : Reader Unit) : Reader Unit := fun bs =>
  match skipSpace bs with
  | [] => .error (.next .endInObject [])
  | b :: r =>
    if b = 0x22 then do
      let (_, r) ← string r r
      let (_, r) ← colon r
      value r
    else .error (.next .keyNotString (b :: r))

def members (value : Reader Unit) : (rounds : Bytes) → Reader Unit
  | [], bs => .error (.next .endInObject bs)
  | _ :: rounds, bs =>
    match skipSpace bs with
    | [] => .error (.next .endInObject [])
    | b :: r =>
      if b = 0x7d then .ok ((), r)
      else if b = 0x2c then do
        let (_, r) ← member value r
        members value rounds r
      else .error (.next .noObjectSeparator (b :: r))

def object (value : Reader Unit) : Reader Unit := fun bs =>
  match skipSpace bs with
  | [] => .error (.next .endInObject [])
  | b :: r =>
    if b = 0x7d then .ok ((), r)
    else do
      let (_, r) ← member value (b :: r)
      members value r r

/-- A value, where `inside` passes over the values that it holds. -/
def valueOver (inside : Reader Unit) : Reader Unit := fun bs =>
  match skipSpace bs with
  | [] => .error (.next .endInValue [])
  | b :: r =>
    if b = 0x6e then word [0x75, 0x6c, 0x6c] r
    else if b = 0x74 then word [0x72, 0x75, 0x65] r
    else if b = 0x66 then word [0x61, 0x6c, 0x73, 0x65] r
    else if b = 0x2d then number r
    else if isDigit b then number (b :: r)
    else if b = 0x22 then string r r
    else if b = 0x5b then array inside r
    else if b = 0x7b then object inside r
    else .error (.next .noValue (b :: r))

/-- Passes over a value in which containers nest less deep than `levels` is long. -/
def valueWithin : (levels : Bytes) → Reader Unit
  | [], bs => .error (.next .endInValue bs)
  | _ :: levels, bs => valueOver (valueWithin levels) bs

/-- Passes over a value. A container takes at least a byte, so the bytes left bound the levels. -/
def value : Reader Unit := fun bs => valueWithin bs bs

end BoxClient.Json.Skip
