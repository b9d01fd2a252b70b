/-
  EventFlow.Program.Plan — the program for a workflow.

  Names are given in the order in which things are first needed: providers, models and
  tools as the steps use them, events as the steps wait for them or set them off. A name
  that is taken gets the first number that makes it new.
-/

import EventFlow.Program.Basic

namespace EventFlow

/-- The first of a list of names that is not taken: the name itself, then numbered from
two. One of them is free, because there is one more of them than there are taken names. -/
def freshName (taken : List String) (separator base : String) : String :=
  let numbered := (List.range taken.length).map fun i => base ++ separator ++ toString (i + 2)
  ((base :: numbered).find? fun name => !taken.contains name).getD base

namespace Step

/-- The events of a step: those it waits for, then those it sets off. -/
def events (s : Step) : List Event := s.accepted ++ s.emitted

def agent? (s : Step) : Option PromptAgentConfig :=
  match s.config with
  | .promptAgent c => some c
  | _ => none

end Step

namespace Workflow

/-! ## Events -/

/-- The constants of events, in the order of first mention. -/
abbrev EventNames := List (Event × String)

def nameEvent (names : EventNames) (e : Event) : EventNames :=
  if names.any (·.1 = e) then names
  else
    names ++ [(e, freshName ([Program.startEvent, Program.stopEvent] ++ names.map (·.2)) "_"
      e.ident)]

def eventNames (w : Workflow) : EventNames :=
  (w.steps.flatMap Step.events).foldl nameEvent []

def EventNames.get (names : EventNames) (e : Event) : String :=
  ((names.find? (·.1 = e)).map (·.2)).getD e.ident

/-- The constant of the event that asks for the input that `e` will carry. -/
def EventNames.request (names : EventNames) (e : Event) : String :=
  "need_input_for_" ++ names.get e

/-- The events that a step brings into the program: its own, and a request for input. -/
def EventNames.ofStep (names : EventNames) (s : Step) : List String :=
  s.events.map names.get ++
    match s.kind, s.singleEmit? with
    | .userInput, some e => [names.request e]
    | _, _ => []

def addOnce (names : List String) (name : String) : List String :=
  if names.contains name then names else names ++ [name]

def eventConstants (w : Workflow) (names : EventNames) : List String :=
  ([Program.startEvent, Program.stopEvent] ++ w.steps.flatMap names.ofStep).foldl addOnce []

/-! ## Providers and models -/

/-- The provider of the model named for a step, or else of the usual model; a name that
tells nothing means the first provider. -/
def providerFor (w : Workflow) (llm : Option String) : Provider :=
  (Provider.ofModelName? ((Text.nonEmpty llm).getD w.settings.defaultLlm)).getD .openAi

def stepProvider? (w : Workflow) (s : Step) : Option Provider :=
  match s.config with
  | .promptAgent c => some (w.providerFor c.llm)
  | .promptLlm c => some (w.providerFor c.llm)
  | _ => none

def addProvider (ps : List Provider) (p : Provider) : List Provider :=
  if ps.contains p then ps else ps ++ [p]

def providers (w : Workflow) : List Provider :=
  (w.steps.filterMap w.stepProvider?).foldl addProvider []

/-- The model that an agent asks for. -/
def agentModelId (p : Provider) (c : PromptAgentConfig) : String :=
  (Text.nonEmpty c.model).getD p.defaultModel

def findModel? (models : List ModelInstance) (p : Provider) (modelId : String) :
    Option ModelInstance :=
  models.find? fun m => m.provider = p && m.modelId = modelId

/-- The name that a model id suggests. -/
def modelStem (modelId : String) : String :=
  let name := Program.camelCase modelId
  if name.isEmpty then "llm" else name

/-- Agents that ask for one model of one provider share an instance. -/
def addModel (w : Workflow) (models : List ModelInstance) (c : PromptAgentConfig) :
    List ModelInstance :=
  let p := w.providerFor c.llm
  let modelId := agentModelId p c
  if (findModel? models p modelId).isSome then models
  else
    models ++ [{
      name := freshName (models.map (·.name)) "" (modelStem modelId)
      provider := p
      modelId
      temperature := c.temperature.getD defaultTemperature }]

/-- The agents among the steps. -/
def agents (w : Workflow) : List PromptAgentConfig := w.steps.filterMap Step.agent?

def models (w : Workflow) : List ModelInstance := w.agents.foldl w.addModel []

/-! ## Tools -/

/-- Keeps index tools, the first of each id, that have an index selected. `seen` holds
the ids met so far. -/
def indexToolsFrom (seen : List String) : List ToolSpec → List IndexTool
  | [] => []
  | spec :: rest =>
    if !spec.isIndex || seen.contains spec.id then indexToolsFrom seen rest
    else
      match Text.nonEmpty spec.selectedIndex with
      | some index => ⟨spec, index⟩ :: indexToolsFrom (spec.id :: seen) rest
      | none => indexToolsFrom (spec.id :: seen) rest

def indexTools (w : Workflow) : List IndexTool := indexToolsFrom [] (w.agents.flatMap (·.tools))

def findTool? (tools : List IndexTool) (spec : ToolSpec) : Option IndexTool :=
  tools.find? (·.spec.id = spec.id)

/-! ## Sections -/

def readsInput (w : Workflow) : Bool := w.steps.any (·.kind = .userInput)

def imports (w : Workflow) (providers : List Provider) (tools : List IndexTool) : List Import :=
  .workflowCore :: (if w.agents.isEmpty then [] else [.agent]) ++ providers.map .provider ++
    (if tools.isEmpty then [] else [.tool, .schema]) ++ (if w.readsInput then [.readline] else [])

def constants (w : Workflow) (providers : List Provider) (models : List ModelInstance)
    (tools : List IndexTool) : List Constant :=
  (match Text.nonEmpty w.settings.retrievalKey with
    | some key => [.retrievalKey (some key)]
    | none => if tools.isEmpty then [] else [.retrievalKey none]) ++
  tools.map .index ++
  (providers.filterMap fun p => (w.settings.apiKey p).map (.providerKey p)) ++
  models.map fun m => .model m (w.settings.apiKey m.provider).isSome

/-- The model of the agent's step; of steps with one id the last decides. -/
def modelName (w : Workflow) (models : List ModelInstance) (id : String) : String :=
  match (w.steps.reverse.filterMap fun s =>
      if s.id = id then s.agent? else none).head? with
  | some c =>
    let p := w.providerFor c.llm
    ((findModel? models p (agentModelId p c)).map (·.name)).getD "llm"
  | none => "llm"

def triggers (names : EventNames) (s : Step) : List String :=
  if s.kind = .start then [Program.startEvent] else s.accepted.map names.get

/-- What the step's handler does, if the step has one: it ends the workflow or has one
way on. -/
def action? (w : Workflow) (names : EventNames) (models : List ModelInstance)
    (tools : List IndexTool) (s : Step) : Option Action :=
  match s.config, s.emits with
  | .stop _, _ => some (.forward Program.stopEvent)
  | .agentTool _, _ => none
  | .userInput c, some (.single e) => some (.ask (names.request e) c.promptText)
  | .promptAgent c, some (.single e) =>
    some (.consult (w.modelName models s.id)
      ((c.tools.filterMap (findTool? tools)).map (·.toolName))
      (Text.nonEmpty c.systemPrompt) (names.get e))
  | _, some (.single e) => some (.forward (names.get e))
  | _, _ => none

def handler? (w : Workflow) (names : EventNames) (models : List ModelInstance)
    (tools : List IndexTool) (s : Step) : Option Handler :=
  match triggers names s with
  | [] => none
  | ts => (w.action? names models tools s).map fun action => ⟨ts, action⟩

def answer? (names : EventNames) (s : Step) : Option Answer :=
  match s.kind, s.singleEmit? with
  | .userInput, some e => some ⟨names.request e, names.get e⟩
  | _, _ => none

/-- The program of a workflow. -/
def program (w : Workflow) : Program :=
  let names := w.eventNames
  let providers := w.providers
  let models := w.models
  let tools := w.indexTools
  { imports := w.imports providers tools
    constants := w.constants providers models tools
    tools
    topK := w.settings.retrievalTopK.toNat
    events := w.eventConstants names
    handlers := w.steps.filterMap (w.handler? names models tools)
    readsInput := w.readsInput
    answers := w.steps.filterMap (answer? names) }

end Workflow
end EventFlow
