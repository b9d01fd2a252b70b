/-
  EventFlow.Main — the program: its arguments, files, environment and terminal.

  No transport is built in, so a request is never delivered.
-/

import EventFlow.CommandLine

open EventFlow EventFlow.CommandLine

namespace EventFlow.Terminal

def faultOf : IO.Error → FileFault
  | .noFileOrDirectory .. => .absent
  | .inappropriateType .. => .folder
  | .permissionDenied .. => .denied
  | e => .other (toString e)

def readFile (path : String) : IO (String × Except FileFault String) := do
  try
    return (path, .ok (← IO.FS.readFile path))
  catch e => return (path, .error (faultOf e))

def readFiles (paths : List String) : IO Files := do
  let texts ← paths.mapM readFile
  return fun path => (texts.lookup path).getD (.error .absent)

def readEnvironment (names : List String) : IO Environment := do
  let values ← names.mapM fun name => return (name, ← IO.getEnv name)
  return fun name => (values.lookup name).join

/-- The files that a command reads. -/
def filesOf (i : Invocation) : List String :=
  let input := match i.command with
    | .compile path .. | .generate path .. | .run path _ => [path]
    | .showConfig => []
  i.config :: i.toolConfigs.toList ++ input

def say (r : Report) : IO Unit := do
  (← IO.getStdout).putStr r.output
  (← IO.getStdout).flush
  (← IO.getStderr).putStr r.messages

/-- Puts out a report and gives its exit code. -/
def deliver (r : Report) : IO UInt32 := do
  let written ← match r.file with
    | none => pure r
    | some (path, text) =>
      try
        IO.FS.writeFile path text
        pure r
      catch e => pure (Report.unwritten (faultOf e))
  say written
  return written.code.toUInt32

def network : Network Unit := fun _ w => (none, w)

/-- The limit for the visits between two answers. -/
def fuel : Nat := 1000000000

/-- Runs a workflow, and asks at the terminal whenever an answer is needed. `told` counts
the events shown so far. -/
partial def converse (i : Interpreter Unit) (s : Session Unit) (told : Nat)
    (answers : List String) : IO UInt32 := do
  match i.drive Script.input fuel s { replies := answers.map .ok } with
  | none => deliver (.ofTrouble ⟨"the run does not come to an end", []⟩)
  | some (outcome, s, _) =>
    say (progress (s.events.drop told))
    match i.outcome? s.state with
    | some (.awaitingInput _ prompt) =>
      let input ← IO.getStdin
      if ← input.isTty then
        (← IO.getStderr).putStr (prompt ++ ": ")
        let line ← input.getLine
        converse i s s.events.length [String.ofList (line.toList.filter (· ≠ '\n'))]
      else deliver (ending (.error notATerminal) s.state.status)
    | _ => deliver (ending outcome s.state.status)

def perform : Work → IO UInt32
  | .report r => deliver r
  | .play config w payload => do
    let i := interpreter config network w
    match start i payload fuel ⟨{ runId := "run" }, (), []⟩ with
    | none => deliver (.ofTrouble ⟨"the run does not come to an end", []⟩)
    | some s => converse i s 0 []

end EventFlow.Terminal

open EventFlow.Terminal

def main (args : List String) : IO UInt32 := do
  match parse (← readEnvironment ["AGENTFLOW_CONFIG"]) args with
  | .error halt => deliver halt.report
  | .ok i =>
    let files ← readFiles (filesOf i)
    let references := match files i.config with
      | .ok text => Environment.references text.toList
      | .error _ => AppConfig.keyNames
    perform (i.work (← readEnvironment references) files)
