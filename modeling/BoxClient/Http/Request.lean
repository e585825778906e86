import BoxClient.Http.Body
import BoxClient.Refusal
import BoxClient.Text.Utf8
/-!
Requests and their bytes on the wire: a request line, one line for each header, an empty line, the
body. A request that would not read back the same way is refused.
-/
namespace BoxClient.Http

inductive Method where
  | get
  | post
  | put
  | delete
  deriving DecidableEq, Repr

def Method.text : Method → String
  | get => "GET"
  | post => "POST"
  | put => "PUT"
  | delete => "DELETE"

abbrev Header := String × String

structure Request where
  method : String
  path : String
  headers : List Header := []
  body : Body := .empty

def isLineBreak (c : Char) : Bool := c = '\r' || c = '\n'

/-- Tokens are not empty and stay on one line. -/
def checkToken (part : HeadPart) (token : String) : Except Refusal Unit :=
  if token = "" ∨ token.toList.any isLineBreak then .error (.illegalToken part token) else .ok ()

def crlf : Bytes := [0x0d, 0x0a]

def version : String := "HTTP/1.0"

namespace Request

def line (r : Request) : Except Refusal Bytes := do
  checkToken .method r.method
  checkToken .path r.path
  if r.method.toList.contains ' ' ∨ r.path.toList.contains ' ' then
    throw (.spaceInRequestLine r.method r.path)
  return Utf8.encode (r.method ++ " " ++ r.path ++ " " ++ version) ++ crlf

def headerLine (h : Header) : Except Refusal Bytes := do
  checkToken .headerName h.1
  if h.2.toList.any isLineBreak then throw (.lineBreakInHeader h.1)
  return Utf8.encode (h.1 ++ ": " ++ h.2) ++ crlf

def encode (r : Request) : Except Refusal Bytes := do
  let line ← r.line
  let headerLines ← r.headers.mapM headerLine
  return line ++ headerLines.flatten ++ crlf ++ r.body.bytes

end Request
end BoxClient.Http
