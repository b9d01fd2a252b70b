/-
  EventFlow.CommandLine.Arguments — reading the arguments of the program.

  Arguments are read from left to right, and the first one that does not fit ends the
  reading. The value of an option is the next argument, or stands in the same one: behind
  an equals sign or, after a letter, right away. An argument that begins with a hyphen is
  no value by itself, and behind two hyphens every argument is a plain word.
-/

import EventFlow.Compilation.Reach
import EventFlow.Settings.Environment

namespace EventFlow.CommandLine

inductive Command where
  | compile (graph : String) (order : SearchOrder) (output : Option String)
  | generate (input : String) (order : SearchOrder) (output : Option String)
  | run (input : String) (payload : Option String)
  | showConfig
  deriving DecidableEq, Inhabited

structure Invocation where
  config : String
  toolConfigs : Option String
  command : Command
  deriving DecidableEq, Inhabited

inductive Halt where
  | version | help | misuse
  deriving DecidableEq, Inhabited

structure Flag where
  name : String
  letter : Option Char := none
  allows : String → Bool := fun _ => true

/-- What may stand in one part of the arguments. -/
structure Grammar where
  flags : List Flag
  /-- How many words there are, unless a word ends the part. -/
  words : Nat := 0
  endsAtWord : Bool := false
  tellsVersion : Bool := false

structure Given where
  values : List (String × String) := []
  words : List String := []
  deriving Inhabited

namespace Given

def value? (g : Given) (name : String) : Option String :=
  (g.values.find? (·.1 = name)).map (·.2)

/-- An option is given once, and its value has to be one. -/
def put (g : Given) (flag : Flag) (value : String) : Except Halt Given :=
  if (g.value? flag.name).isSome || !flag.allows value then .error .misuse
  else .ok { g with values := g.values ++ [(flag.name, value)] }

end Given

/-- How an argument reads, whatever the others are. -/
inductive Reading where
  | word
  | divider
  | halt (why : Halt)
  | option (flag : Flag) (value : Option String)

namespace Grammar

/-- A word names a file, so it is not empty. -/
def addWord (l : Grammar) (g : Given) (word : String) : Except Halt Given :=
  if g.words.length < l.words && !word.isEmpty then .ok { g with words := g.words ++ [word] }
  else .error .misuse

/-- An option by its name, and the value behind an equals sign. -/
def readName (l : Grammar) (arg : List Char) : Reading :=
  let name := String.ofList (arg.takeWhile (· ≠ '='))
  let value := match arg.dropWhile (· ≠ '=') with
    | _ :: value => some (String.ofList value)
    | [] => none
  if name = "help" && value.isNone then .halt .help
  else if name = "version" && l.tellsVersion && value.isNone then .halt .version
  else match l.flags.find? (·.name = name) with
    | some flag => .option flag value
    | none => .halt .misuse

/-- An option by its letter, and the value right behind. -/
def readLetter (l : Grammar) (letter : Char) (rest : List Char) : Reading :=
  let value := match rest with
    | [] => none
    | '=' :: value => some (String.ofList value)
    | value => some (String.ofList value)
  if letter = 'h' then .halt .help
  else if letter = 'V' && l.tellsVersion then .halt .version
  else match l.flags.find? (·.letter = some letter) with
    | some flag => .option flag value
    | none => .halt .misuse

def read (l : Grammar) (arg : String) : Reading :=
  match arg.toList with
  | ['-', '-'] => .divider
  | '-' :: '-' :: rest => l.readName rest
  | '-' :: letter :: rest => l.readLetter letter rest
  | _ => .word

/-- Reads a part of the arguments, and tells what is left when a word ends it. -/
def scan (l : Grammar) : List String → Given → Except Halt (Given × List String)
  | [], g => .ok (g, [])
  | arg :: rest, g =>
    match l.read arg with
    | .halt why => .error why
    | .divider => (rest.foldlM l.addWord g).map fun g => (g, [])
    | .word =>
      if l.endsAtWord then .ok (g, arg :: rest)
      else (l.addWord g arg).bind (scan l rest)
    | .option flag (some value) => (g.put flag value).bind (scan l rest)
    | .option flag none =>
      match rest with
      | [] => .error .misuse
      | value :: rest =>
        match l.read value with
        | .word => (g.put flag value).bind (scan l rest)
        | _ => .error .misuse

end Grammar

/-! ## The options of the program -/

def isPath (s : String) : Bool := !s.isEmpty

def orders : List (String × SearchOrder) := [("bfs", .breadthFirst), ("dfs", .depthFirst)]

def toolConfigsFlag : Flag := { name := "tool-configs", allows := isPath }

def configFlag : Flag := { name := "config", letter := some 'c', allows := isPath }

def orderFlag : Flag :=
  { name := "order", allows := fun s => orders.any (·.1 = s) }

def outputFlag : Flag := { name := "output", letter := some 'o', allows := isPath }

/-- What stands before the command. -/
def opening : Grammar :=
  { flags := [configFlag, toolConfigsFlag], endsAtWord := true, tellsVersion := true }

def Given.order (g : Given) : SearchOrder :=
  ((g.value? "order").bind fun name => orders.lookup name).getD .breadthFirst

/-- A command by its name: what follows the name, and what comes of it. -/
structure Verb where
  name : String
  flags : List Flag
  words : Nat
  command : Given → Option Command

def verbs : List Verb :=
  [ { name := "compile", flags := [orderFlag, outputFlag], words := 1,
      command := fun g => g.words.head?.map fun graph =>
        .compile graph g.order (g.value? "output") },
    { name := "generate", flags := [orderFlag, outputFlag], words := 1,
      command := fun g => g.words.head?.map fun input =>
        .generate input g.order (g.value? "output") },
    { name := "run", flags := [{ name := "input" }], words := 1,
      command := fun g => g.words.head?.map fun input => .run input (g.value? "input") },
    { name := "config", flags := [], words := 0, command := fun _ => some .showConfig } ]

def verb? (name : String) : Option Verb := verbs.find? (·.name = name)

def Verb.grammar (v : Verb) : Grammar :=
  { flags := toolConfigsFlag :: v.flags, words := v.words }

/-- Help is for the program or for one of its commands. -/
def helpOn : List String → Halt
  | [] => .help
  | [name] => if (verb? name).isSome || name = "help" then .help else .misuse
  | _ => .misuse

/-- The file of the configuration unless it is named. -/
def configPath (env : Environment) : String :=
  (env "AGENTFLOW_CONFIG").getD "agentflow.toml"

/-- Reads all arguments. -/
def parse (env : Environment) (args : List String) : Except Halt Invocation := do
  let (top, rest) ← opening.scan args {}
  match rest with
  | [] => .error .misuse
  | "help" :: rest => .error (helpOn rest)
  | name :: rest =>
    let some verb := verb? name | .error .misuse
    let (given, _) ← verb.grammar.scan rest {}
    let some command := verb.command given | .error .misuse
    let config := (top.value? "config").getD (configPath env)
    if isPath config then
      return {
        config
        toolConfigs := given.value? "tool-configs" <|> top.value? "tool-configs"
        command }
    else .error .misuse

end EventFlow.CommandLine
