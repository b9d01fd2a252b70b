/-
  EventFlow.Program.Render — the text of a generated program.

  The sections stand a blank line apart, and empty ones are left out. The code of a tool
  is a template whose places are filled one after the other.
-/

import EventFlow.Binary.Shortest
import EventFlow.Program.Plan

namespace EventFlow

namespace Import

def render (i : Import) : String :=
  "import \x7b " ++ Text.join ", " i.names ++ " \x7d from " ++ Program.literal i.package ++ ";"

end Import

namespace IndexTool

def baseUrl : String := "https://api.cloud.llamaindex.ai"

def template : String :=
  Text.join "\n"
    [ "const __FUNC__ = async (\x7b query \x7d: \x7b query: string \x7d) => \x7b",
      "    const headers = \x7b",
      "        Authorization: `Bearer $\x7bLLAMACLOUD_API_KEY\x7d`,",
      "        \"Content-Type\": \"application/json\",",
      "    \x7d;",
      "    const projectResponse = await fetch(\"__BASE_URL__/api/v1/projects/current\", \x7b headers \x7d);",
      "    if (!projectResponse.ok) \x7b",
      "        return \"Could not retrieve project or organization ID\";",
      "    \x7d",
      "    const project = await projectResponse.json();",
      "    const url = `__BASE_URL__/api/v1/retrievers/retrieve?project_id=$\x7bproject.id\x7d&organization_id=$\x7bproject.organization_id\x7d`;",
      "    const response = await fetch(url, \x7b",
      "        method: \"POST\",",
      "        headers,",
      "        body: JSON.stringify(\x7b",
      "            mode: \"full\",",
      "            query,",
      "            pipelines: [",
      "                \x7b",
      "                    name: __NAME__,",
      "                    description: __DESCRIPTION__,",
      "                    pipeline_id: __INDEX_CONST__,",
      "                    preset_retrieval_parameters: \x7b dense_similarity_top_k: __TOP_K__ \x7d,",
      "                \x7d,",
      "            ],",
      "        \x7d),",
      "    \x7d);",
      "    const data = await response.json();",
      "    return JSON.stringify(data);",
      "\x7d;",
      "",
      "const __TOOL__ = tool(__FUNC__, \x7b",
      "    name: __NAME__,",
      "    description: __DESCRIPTION__,",
      "    parameters: z.object(\x7b",
      "        query: z.string(\x7b description: \"The query to search the index\" \x7d),",
      "    \x7d),",
      "\x7d);" ]

/-- The places of the template with what goes there, in the order of filling. -/
def places (t : IndexTool) (topK : Nat) : List (String × String) :=
  [ ("__FUNC__", t.functionName), ("__TOOL__", t.toolName),
    ("__INDEX_CONST__", t.indexConstant), ("__NAME__", Program.literal t.callName),
    ("__DESCRIPTION__", Program.literal t.description), ("__TOP_K__", toString topK),
    ("__BASE_URL__", baseUrl) ]

/-- Fills the places one by one; a place also counts where filled-in text brought it. -/
def fill (places : List (String × String)) (text : List Char) : List Char :=
  places.foldl (fun text (place, value) => Text.replaceAll place.toList value.toList text) text

def render (t : IndexTool) (topK : Nat) : String :=
  String.ofList (fill (t.places topK) template.toList)

end IndexTool

namespace Constant

/-- A temperature stands without an exponent. -/
def numberLayout : NumberLayout := ⟨fun _ => true, false⟩

def numberText (x : Single) : String := String.ofList (numberLayout.write .single x.value)

def value : Constant → String
  | retrievalKey (some key) => Program.literal key
  | retrievalKey none => "process.env." ++ retrievalKeyConstant ++ " ?? \"\""
  | index t => Program.literal t.index
  | providerKey _ key => Program.literal key
  | model m keyed =>
    "new " ++ m.provider.className ++ "(\x7b model: " ++ Program.literal m.modelId ++
      ", temperature: " ++ numberText m.temperature ++
      (if keyed then ", apiKey: " ++ m.provider.keyConstant else "") ++ " \x7d)"

def render (c : Constant) : String := "const " ++ c.name ++ " = " ++ c.value ++ ";"

end Constant

namespace Handler

def sending (event value : String) : String :=
  "    return " ++ event ++ ".with(" ++ value ++ ");"

/-- The lines between the braces of the handler. -/
def body : Action → List String
  | .forward event => [sending event "ctx.data"]
  | .ask request prompt => [sending request (Program.literal prompt)]
  | .consult model tools systemPrompt event =>
    [ "    const configuredAgent = agent(\x7b",
      "        llm: " ++ model ++ ",",
      "        tools: [" ++ Text.join ", " tools ++ "]," ] ++
    (systemPrompt.map fun p => "        systemPrompt: " ++ Program.literal p ++ ",").toList ++
    [ "    \x7d);",
      "    const result = await configuredAgent.run(ctx.data);",
      sending event "result.data.result" ]

def parameters : Action → String
  | .ask .. => "()"
  | _ => "(ctx)"

def render (h : Handler) : String :=
  Text.join "\n"
    (["workflow.handle([" ++ Text.join ", " h.triggers ++ "], async " ++ parameters h.action ++
      " => \x7b"] ++ body h.action ++ ["\x7d);"])

end Handler

namespace Answer

def render (a : Answer) : List String :=
  [ "        \x7d else if (" ++ a.request ++ ".include(event)) \x7b",
    "            const input = await readline.question(event.data);",
    "            sendEvent(" ++ a.event ++ ".with(input));" ]

end Answer

namespace Program

def renderEvent (name : String) : String := "const " ++ name ++ " = workflowEvent<any>();"

/-- The driver: starts the workflow and handles what it sends out. -/
def driver (p : Program) : String :=
  Text.join "\n"
    (["const \x7b stream, sendEvent \x7d = workflow.createContext();"] ++
      (if p.readsInput then
        [ "const readline = createInterface(\x7b",
          "    input: process.stdin,",
          "    output: process.stdout,",
          "\x7d);" ]
      else []) ++
      [ "",
        "sendEvent(" ++ startEvent ++ ".with());",
        "",
        "(async () => \x7b",
        "    for await (const event of stream) \x7b",
        "        if (" ++ stopEvent ++ ".include(event)) \x7b",
        "            break;" ] ++
      p.answers.flatMap Answer.render ++
      [ "        \x7d",
        "    \x7d" ] ++
      (if p.readsInput then ["    readline.close();"] else []) ++
      ["\x7d)();"])

def sections (p : Program) : List String :=
  [ Text.join "\n" (p.imports.map Import.render),
    Text.join "\n" (p.constants.map Constant.render),
    "const workflow = createWorkflow();",
    Text.join "\n\n" (p.tools.map fun t => t.render p.topK),
    Text.join "\n" (p.events.map renderEvent),
    Text.join "\n\n" (p.handlers.map Handler.render),
    p.driver ]

def render (p : Program) : String :=
  Text.join "\n\n" (p.sections.filter fun s => !s.isEmpty) ++ "\n"

end Program

namespace Workflow

/-- The program text of a workflow. -/
def generate (w : Workflow) : String :=
  if w.steps.isEmpty then "// empty workflow" else w.program.render

end Workflow
end EventFlow
