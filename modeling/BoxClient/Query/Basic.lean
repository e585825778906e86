import BoxClient.Refusal
/-!
Queries: a list of templates, each naming values that a box must have in its fields, and the page of
the matches that is wanted.
-/
namespace BoxClient

abbrev Template := Table Json.Value

structure Query where
  templates : List Template := []
  /-- At most so many boxes. -/
  count : Option UInt32 := none
  /-- Skips so many matches. -/
  offset : Option UInt32 := none
  deriving DecidableEq

namespace Query

/-- Adds the template of the given values; of two for one field the later counts. -/
def addFilters (q : Query) (filters : List (String × Json.Value)) : Query :=
  { q with templates := q.templates ++ [Table.ofList filters] }

/-- Adds a template given as a value. -/
def addTemplate (q : Query) : Json.Value → Except Refusal Query
  | .object t => .ok { q with templates := q.templates ++ [t] }
  | v => .error (.templateNotObject v)

def withCount (q : Query) (n : UInt32) : Query := { q with count := some n }

def withOffset (q : Query) (n : UInt32) : Query := { q with offset := some n }

/-- Whether the server would take the query. -/
def validate (q : Query) : Except Refusal Unit :=
  if q.templates = [] then .error .noTemplates
  else if q.count = some 0 then .error .zeroCount
  else .ok ()

/-- A query with one template, or with none if there are no filters. -/
def prepare (filters : List (String × Json.Value)) : Query :=
  if filters = [] then {} else Query.addFilters {} filters

end Query
end BoxClient
