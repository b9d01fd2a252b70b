/-
  EventFlow.Agent.SearchTool — the tool that searches one index.
-/

import EventFlow.Services

namespace EventFlow

structure SearchTool where
  name : String
  description : String
  /-- The id of the index. -/
  index : String
  deriving DecidableEq, Inhabited

namespace SearchTool

def lowered (word : List Char) : List Char := word.map Text.toLower

def titled : List Char → List Char
  | [] => []
  | c :: rest => Text.toUpper c :: lowered rest

def joinWords : List (List Char) → List Char
  | [] => []
  | first :: rest => lowered first ++ rest.flatMap titled

/-- A name for calling, from a label: its words joined, each but the first with a capital.
An underscore goes before a leading digit; a label without letters and digits gives none. -/
def callName (label : String) : String :=
  match joinWords (Text.runs Text.isAlphanumeric label.toList) with
  | [] => ""
  | c :: rest => String.ofList (if Text.isDigit c then '_' :: c :: rest else c :: rest)

def defaultName : String := "searchIndex"

/-- The tool of an attached index that is selected. -/
def ofSpec? (spec : ToolSpec) : Option SearchTool :=
  if spec.isIndex then
    (Text.nonEmpty spec.selectedIndex).map fun index =>
      { name := if (callName spec.name).isEmpty then defaultName else callName spec.name
        description :=
          if (Text.trim spec.description.toList).isEmpty then "Search index named " ++ spec.name
          else spec.description
        index }
  else none

/-- One query, as text. -/
def inputSchema : Json :=
  .obj [
    ("properties", .obj [("query", .obj [
      ("description", .str "The query to search the index with."), ("type", .str "string")])]),
    ("required", .arr [.str "query"]), ("type", .str "object")]

def definition (t : SearchTool) : ToolDefinition := ⟨t.name, t.description, inputSchema⟩

def inputShape : Shape String :=
  ⟨"SearchInput", [.of "query" .required Reader.text fun a _ => a]⟩

def readInput (input : Json) : Result String :=
  (Reader.ofJson (inputShape.read "") input).mapError fun fault =>
    .toolInputInvalid fault.message

/-- The passages as a model is shown them. -/
def report (passages : List Passage) : String :=
  (Json.obj [("nodes", .arr (passages.map Passage.toJson))]).sorted.compact

def execute {σ : Type} (t : SearchTool) (retrieve : RetrievalService σ) :
    Service σ Json ToolResult := fun input s =>
  match readInput input with
  | .error f => (.error f, s)
  | .ok query =>
    match retrieve (t.index, query) s with
    | (.error f, s) => (.error (.toolFailed t.name f.message), s)
    | (.ok passages, s) => (.ok { content := report passages }, s)

end SearchTool
end EventFlow
