import BoxClient.Json.Fault
import BoxClient.Refusal
/-!
How a call of the client can fail, by who is at fault: the caller, the network, the form of the
reply, or the server itself.
-/
namespace BoxClient

inductive Error where
  | invalidArgument (reason : String)
  | connection (reason : String)
  | protocol (reason : String)
  | server (reason : String)
  /-- A box was stored at another revision than the server holds. -/
  | versionConflict (id : String) (expected : UInt64)
  | io (reason : String)
  | serialization (reason : String)
  deriving DecidableEq

namespace Error

def message : Error → String
  | invalidArgument reason => "Invalid argument: " ++ reason
  | connection reason => "Connection error: " ++ reason
  | protocol reason => "Protocol error: " ++ reason
  | server reason => "Server error: " ++ reason
  | versionConflict id expected =>
    "Expected revision " ++ toString expected ++ " of box '" ++ id ++ "'"
  | io reason => "IO error: " ++ reason
  | serialization reason => "Serialization error: " ++ reason

/-- Whether the server itself reported it. -/
def isServerError : Error → Bool
  | server _ | versionConflict .. => true
  | _ => false

def refused (r : Refusal) : Error := .invalidArgument r.message

def unreadable (text : Bytes) (f : Json.Fault) : Error := .serialization (f.message text)

def unfit (m : Json.Misfit) : Error := .serialization m.message

@[simp] theorem isServerError_refused (r : Refusal) : (refused r).isServerError = false := rfl

@[simp] theorem isServerError_unreadable (text : Bytes) (f : Json.Fault) :
    (unreadable text f).isServerError = false := rfl

@[simp] theorem isServerError_unfit (m : Json.Misfit) : (unfit m).isServerError = false := rfl

end Error

end BoxClient
