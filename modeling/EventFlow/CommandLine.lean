/-
  EventFlow.CommandLine — what each command does.

  A command reads its files in a fixed order, the configuration first, and stops at the
  first trouble. A file that holds a graph, which its edges tell, and a file that holds a
  workflow are taken alike wherever a workflow is wanted; only compiling insists on a
  graph.
-/

import EventFlow.Agent
import EventFlow.CommandLine.Arguments
import EventFlow.CommandLine.Report
import EventFlow.Compilation
import EventFlow.Graph.Codec
import EventFlow.Model.Client
import EventFlow.Program.Render
import EventFlow.Run.Session
import EventFlow.Settings.Config
import EventFlow.Workflow.Codec

namespace EventFlow.CommandLine

def versionText : String := "agentflow 0.1.0\n"

def usage : String :=
  "Usage: agentflow [--config FILE] [--tool-configs FILE] COMMAND\n\n" ++
  "  compile GRAPH [--order bfs|dfs] [--output FILE]   print the workflow of a graph\n" ++
  "  generate FILE [--order bfs|dfs] [--output FILE]   print the program of a workflow\n" ++
  "  run FILE [--input TEXT]                           run a workflow\n" ++
  "  config                                            show the configuration\n"

def Halt.report : Halt → Report
  | .version => { output := versionText }
  | .help => { output := usage }
  | .misuse => { code := 2, messages := usage }

def orTrouble {α : Type} (r : Result α) : Except Trouble α := r.mapError Trouble.ofFailure

/-! ## Files -/

/-- The configuration in a file; without the file, what the environment holds. -/
def loadConfig (env : Environment) (files : Files) (path : String) : Result AppConfig :=
  match files path with
  | .ok text => AppConfig.ofToml env text
  | .error _ => .ok (AppConfig.ofEnvironment env)

/-- The tool settings in a file; without a path there are none. -/
def loadToolConfigs (files : Files) (path : Option String) : Result ToolConfigs :=
  match path with
  | none => .ok .empty
  | some path =>
    match files path with
    | .ok text => ToolConfigs.ofJsonText text
    | .error _ => .error (.configNotFound path)

structure Setup where
  config : AppConfig
  files : Files
  toolConfigs : Option String := none
  order : SearchOrder := .breadthFirst

namespace Setup

def compile (s : Setup) (g : Graph) : Result Workflow := do
  let configs ← loadToolConfigs s.files s.toolConfigs
  g.compile s.config.settings configs s.order

/-- The workflow of a graph's file. -/
def compileFile (s : Setup) (path : String) : Except Trouble Workflow :=
  let graph : Result Graph := match s.files path with
    | .ok text => Graph.ofJsonText text
    | .error fault => .error (.fileAccess fault.message)
  match graph with
  | .ok g => orTrouble (s.compile g)
  | .error f => .error ((Trouble.ofFailure f).during ("reading graph " ++ path))

/-- The workflow that a text holds, as a graph or as it is. -/
def workflowOfText (s : Setup) (text : String) : Except Trouble Workflow :=
  match Reader.ofText Reader.json text with
  | .error fault => .error ⟨fault.message, []⟩
  | .ok value =>
    if (value.field? "edges").isSome then orTrouble ((Graph.ofJsonText text).bind s.compile)
    else orTrouble (Workflow.ofJsonText text)

/-- The workflow of a file, as a graph or as it is. -/
def loadWorkflow (s : Setup) (path : String) : Except Trouble Workflow :=
  match s.files path with
  | .ok text => s.workflowOfText text
  | .error fault => .error ((Trouble.mk fault.message []).during ("reading " ++ path))

end Setup

/-! ## Commands -/

/-- What a command comes to: a report, or a workflow that is to be run. -/
inductive Work where
  | report (r : Report)
  | play (config : AppConfig) (workflow : Workflow) (payload : Option String)

def Command.work (command : Command) (s : Setup) : Except Trouble Work :=
  match command with
  | .compile graph order output => do
    let w ← { s with order }.compileFile graph
    return .report (.ofText output w.toJson.pretty)
  | .generate input order output => do
    let w ← { s with order }.loadWorkflow input
    return .report (.ofText output w.generate)
  | .run input payload => do
    return .play s.config (← s.loadWorkflow input) payload
  | .showConfig => .ok (.report (.ofText none s.config.masked.toToml.pretty))

/-- Reads the files of a command and does its work. -/
def Invocation.work (i : Invocation) (env : Environment) (files : Files) : Work :=
  let work := do
    let config ← orTrouble (loadConfig env files i.config)
    i.command.work { config, files, toolConfigs := i.toolConfigs }
  match work with
  | .ok work => work
  | .error t => .report (.ofTrouble t)

/-- What arguments come to. -/
def work (env : Environment) (files : Files) (args : List String) : Work :=
  match parse env args with
  | .ok i => i.work env files
  | .error halt => .report halt.report

/-! ## Runs -/

variable {σ τ : Type}

/-- Models over the network, and agents that call them. -/
def services (config : AppConfig) (net : Network σ) : Services σ :=
  let model := (Router.overNetwork net).complete
  { chat := ChatService.ofModel model
    agent := AgentRuntime.run
      { limits := config.agent, site := config.retrieval, model, network := net } }

def interpreter (config : AppConfig) (net : Network σ) (w : Workflow) : Interpreter σ :=
  { workflow := w, services := services config net, maxTokens := config.agent.maxTokens }

/-- What is shown of an event: values as output, steps as messages. -/
def shown : RunEvent → Report
  | .nodeEntered node kind => { messages := "-> " ++ node ++ " [" ++ kind.name ++ "]\n" }
  | .nodeCompleted node value =>
    { output := "[" ++ node ++ "] " ++ value.plainText ++ "\n" }
  | _ => {}

def progress (events : List RunEvent) : Report :=
  (events.map shown).foldl Report.andThen {}

/-- How the program ends after a run. -/
def ending (r : Result Outcome) (status : RunStatus) : Report :=
  match r with
  | .error f => .ofTrouble (.ofFailure f)
  | .ok (.failed error) => .ofTrouble ⟨"workflow failed: " ++ error, []⟩
  | .ok _ => { messages := "Run " ++ status.name ++ "\n" }

/-- Starts a run when there is a payload for it; without one it starts when it is driven. -/
def start (i : Interpreter σ) (payload : Option String) (fuel : Nat) (s : Session σ) :
    Option (Session σ) :=
  match payload with
  | none => some s
  | some text => (i.run fuel (.str text) s).map (·.2)

/-- Runs a workflow to the end. -/
def play (i : Interpreter σ) (payload : Option String) (input : InputChannel τ) (fuel : Nat)
    (world : σ) (t : τ) : Option Report := do
  let s ← start i payload fuel ⟨{ runId := "" }, world, []⟩
  let (outcome, s, _) ← i.drive input fuel s t
  return (progress s.events).andThen (ending outcome s.state.status)

def notATerminal : Failure := .fileAccess "not a terminal"

/-- Nobody answers. -/
def noTerminal : InputChannel τ := fun _ t => (.error notATerminal, t)

end EventFlow.CommandLine
