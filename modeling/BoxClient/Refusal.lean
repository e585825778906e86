import BoxClient.Json.Writer
import BoxClient.Text.Escaped
/-!
Why an argument of the client's API is refused. A refusal is decided from the arguments alone.
-/
namespace BoxClient

/-- The parts of a request head that must be a token. -/
inductive HeadPart where
  | method
  | path
  | headerName
  deriving DecidableEq, Repr

def HeadPart.text : HeadPart → String
  | method => "method"
  | path => "path"
  | headerName => "header name"

inductive Refusal where
  | emptyBase
  | emptyId
  | emptyIndexName
  | reservedKey (name : String)
  | noBoxes
  | repeatedBox (id : String)
  | noIds
  | templateNotObject (v : Json.Value)
  | noTemplates
  | zeroCount
  | noQueries
  | badQueryName (name : String)
  | repeatedQuery (name : String)
  | illegalToken (part : HeadPart) (token : String)
  | spaceInRequestLine (method path : String)
  | lineBreakInHeader (name : String)
  deriving DecidableEq

def Refusal.message : Refusal → String
  | emptyBase => "Base name must not be empty"
  | emptyId => "Box id must not be empty"
  | emptyIndexName => "Index field name must not be empty"
  | reservedKey name => "'" ++ name ++ "' is a reserved box key"
  | noBoxes => "No boxes to store"
  | repeatedBox id => "Box '" ++ id ++ "' appears twice in one store"
  | noIds => "No ids to look up"
  | templateNotObject v => "Query template must be an object, found " ++ v.text
  | noTemplates => "Query has no templates"
  | zeroCount => "Query count must be positive"
  | noQueries => "No queries in request"
  | badQueryName name => "Query name '" ++ name ++ "' must be non-empty and not start with '_'"
  | repeatedQuery name => "Query name '" ++ name ++ "' used twice"
  | illegalToken part token => "Illegal " ++ part.text ++ " '" ++ Text.escape .bare token ++ "'"
  | spaceInRequestLine method path => "Illegal request line '" ++ method ++ " " ++ path ++ "'"
  | lineBreakInHeader name => "Illegal value for header '" ++ name ++ "'"

end BoxClient
