/-
  EventFlow.Agent.Retrieval — searching indexes kept by a retrieval site.

  The site wants to know the project of a key before it searches. What it finds is read
  as far as it can be read.
-/

import EventFlow.Http.Exchange
import EventFlow.Services

namespace EventFlow

structure RetrievalClient where
  /-- Without slashes at its end. -/
  baseUrl : String
  apiKey : String
  topK : Nat := 10
  deriving DecidableEq, Inhabited

structure Project where
  id : String
  organization : String
  deriving DecidableEq, Inhabited

structure Pipeline where
  id : String
  name : String := ""
  deriving DecidableEq, Inhabited

namespace Project

def shape : Shape Project where
  title := "Project"
  slots :=
    [ .of "id" .required Reader.text fun a s => { s with id := a },
      .of "organization_id" .required Reader.text fun a s => { s with organization := a } ]

def read : Reader Project := shape.read ⟨"", ""⟩

end Project

namespace Pipeline

def shape : Shape Pipeline where
  title := "Pipeline"
  slots :=
    [ .of "id" .required Reader.text fun a s => { s with id := a },
      .of "name" .defaulted Reader.text fun a s => { s with name := a } ]

def read : Reader Pipeline := shape.read { id := "" }

def toJson (p : Pipeline) : Json := .obj [("id", .str p.id), ("name", .str p.name)]

end Pipeline

namespace RetrievalClient

variable {σ : Type}

def new (baseUrl apiKey : String) : RetrievalClient :=
  { baseUrl := String.ofList (Text.trimRightBy (· = '/') baseUrl.toList), apiKey }

/-- At least one passage is asked for. -/
def withTopK (c : RetrievalClient) (topK : Nat) : RetrievalClient := { c with topK := max topK 1 }

def call (c : RetrievalClient) (method : Method) (path : String) : Call :=
  { method, address := c.baseUrl ++ path, headers := [Call.bearer c.apiKey] }

/-- What a request for JSON brings. -/
def fetch {α : Type} (request : Call) (read : Reader α) (net : Network σ) (s : σ) :
    Result α × σ :=
  match request.send net s with
  | (.error reason, s) => (.error (.retrievalFailed reason), s)
  | (.ok response, s) => ((Call.decode read response).mapError .retrievalFailed, s)

def project (c : RetrievalClient) (net : Network σ) (s : σ) : Result Project × σ :=
  match fetch (c.call .get "/api/v1/projects/current") Project.read net s with
  | (.error _, s) =>
    (.error (.retrievalFailed "Could not retrieve project or organization ID"), s)
  | found => found

def pipelines (c : RetrievalClient) (project : String) (net : Network σ) (s : σ) :
    Result (List Pipeline) × σ :=
  fetch (c.call .get ("/api/v1/pipelines?project_id=" ++ project)) (Reader.list Pipeline.read)
    net s

/-! ## Passages -/

def bodyShape : Shape (String × Json) where
  title := "NodeBody"
  slots :=
    [ .of "text" .defaulted Reader.text fun a s => (a, s.2),
      .of "metadata" .defaulted Reader.json fun a s => (s.1, a) ]

def passageShape : Shape Passage where
  title := "ScoredNode"
  slots :=
    [ .of "node" .defaulted (bodyShape.read ("", .null))
        fun a s => { s with text := a.1, metadata := a.2 },
      .of "score" .defaulted (Reader.option Reader.double) fun a s => { s with score := a } ]

def passagesShape : Shape (List Passage) where
  title := "RetrieveResponse"
  slots := [.of "nodes" .defaulted (Reader.list (passageShape.read {})) fun a _ => a]

/-- The passages of a response; none if it does not read. -/
def readPassages (text : String) : List Passage :=
  match Reader.ofText (passagesShape.read []) text with
  | .ok passages => passages
  | .error _ => []

def searchBody (c : RetrievalClient) (index query : String) : Json :=
  .obj [("mode", .str "full"), ("query", .str query), ("pipelines", .arr [.obj [
    ("name", .str index), ("description", .str ""), ("pipeline_id", .str index),
    ("preset_retrieval_parameters", .obj [("dense_similarity_top_k", .nat c.topK)])]])]

def searchCall (c : RetrievalClient) (p : Project) (index query : String) : Call :=
  { c.call .post "/api/v1/retrievers/retrieve" with
    form := [("project_id", p.id), ("organization_id", p.organization)]
    body := some (c.searchBody index query) }

def retrieve (c : RetrievalClient) (net : Network σ) : RetrievalService σ :=
  fun (index, query) s =>
    match c.project net s with
    | (.error f, s) => (.error f, s)
    | (.ok p, s) =>
      match (c.searchCall p index query).send net s with
      | (.error reason, s) => (.error (.retrievalFailed reason), s)
      | (.ok response, s) => (.ok (readPassages response.text), s)

end RetrievalClient
end EventFlow
