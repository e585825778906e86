import BoxClient.Error
import BoxClient.Http.Connection
import BoxClient.Json.Shown
/-!
Reading the head of a response from a connection. All lines of a head share one budget of bytes;
when it is used up nothing more is read.
-/
namespace BoxClient.Http

def HeadFault.error (f : HeadFault) : Error := .protocol f.message

def dropLineEnd (bs : Bytes) : Bytes :=
  match bs.reverse with
  | 0x0a :: 0x0d :: r => r.reverse
  | 0x0a :: r => r.reverse
  | _ => bs

/-- The line that the bytes of a stream make within a budget; `none` if there was no byte. -/
def readLine (budget : Nat) (bs : Bytes) : Except HeadFault (Option (List Char)) :=
  if bs = [] then .ok none
  else if bs.getLast? ≠ some 0x0a then .error (if bs.length = budget then .tooLarge else .cutInLine)
  else
    match Utf8.chars (dropLineEnd bs) with
    | (line, []) => .ok (some line)
    | _ => .error .notUtf8

/-- The next line of a head, what is left of the budget, and the rest of the stream. -/
def nextLine (budget : Nat) (i : Inlet) : Except Error (Option (List Char) × Nat × Inlet) := do
  let (bs, i) ← (i.line budget).mapError Error.io
  let line ← (readLine budget bs).mapError HeadFault.error
  return (line, budget - bs.length, i)

/-- The header lines up to the empty one. A line takes a byte at least, so more rounds than the
budget has bytes are enough. -/
def headerLines : (rounds budget : Nat) → Inlet → Except Error (Headers × Inlet)
  | 0, _, _ => throw (HeadFault.error .cutBetweenLines)
  | rounds + 1, budget, i => do
    match ← nextLine budget i with
    | (none, _, _) => throw (HeadFault.error .cutBetweenLines)
    | (some [], _, i) => return ([], i)
    | (some line, budget, i) =>
      let h ← (readHeaderLine line).mapError HeadFault.error
      let (hs, i) ← headerLines rounds budget i
      return (h :: hs, i)

def readHead (i : Inlet) : Except Error (Head × Inlet) := do
  match ← nextLine headLimit i with
  | (none, _, _) => throw (HeadFault.error .empty)
  | (some line, budget, i) =>
    let (status, reason) ← (readStatusLine line).mapError HeadFault.error
    let (headers, i) ← headerLines (budget + 1) budget i
    return (⟨status, reason, headers⟩, i)

/-- What a response carries: a value, if the transaction decodes bodies, or the rest of the stream.
-/
inductive ResponseBody where
  | decoded (v : Json.Value)
  | stream
  deriving DecidableEq

def ResponseBody.shown : ResponseBody → String
  | decoded v => "Decoded(" ++ v.shown ++ ")"
  | stream => "Stream(..)"

structure Response where
  head : Head
  body : ResponseBody
  deriving DecidableEq

end BoxClient.Http
