import BoxClient.Error
import BoxClient.Json.Form
/-!
Decoding as the client reports it: every fault of a text and every misfit of a value is a
serialization error, a fault with its place in the text.
-/
namespace BoxClient.Json

def decode (text : Bytes) : Except Error Value :=
  (Value.read text).mapError (Error.unreadable text)

def Form.decode {α : Type} (form : Form α) (text : Bytes) : Except Error α :=
  (form.readText text).mapError (Error.unreadable text)

def Form.decodeValue {α : Type} (form : Form α) (v : Value) : Except Error α :=
  (form.ofValue v).mapError Error.unfit

end BoxClient.Json
