/-
  EventFlow.CommandLine.Report — what the program puts out, and how it tells of trouble.
-/

import EventFlow.Failure

namespace EventFlow.CommandLine

inductive FileFault where
  | absent | folder | notFolder | denied
  | other (reason : String)
  deriving DecidableEq, Inhabited

def FileFault.message : FileFault → String
  | absent => "No such file or directory (os error 2)"
  | folder => "Is a directory (os error 21)"
  | notFolder => "Not a directory (os error 20)"
  | denied => "Permission denied (os error 13)"
  | other reason => reason

/-- The texts of the files that can be read. -/
abbrev Files := String → Except FileFault String

/-- What went wrong, and its causes, each followed by its own cause. -/
structure Trouble where
  message : String
  causes : List String := []
  deriving DecidableEq, Inhabited

namespace Trouble

/-- A failure that only passes on what another part of the program said has that for its
cause. -/
def ofFailure (f : Failure) : Trouble :=
  match f with
  | .fileAccess reason | .invalidJson reason => ⟨f.message, [reason]⟩
  | _ => ⟨f.message, []⟩

/-- Trouble on the way to something. -/
def during (task : String) (t : Trouble) : Trouble := ⟨task, t.message :: t.causes⟩

/-- Lines after the first start in the same column as the first. -/
def indented (first others text : String) : String :=
  first ++ String.ofList (Text.replaceAll "\n".toList ("\n" ++ others).toList text.toList)

/-- One cause stands alone, several are numbered. -/
def causeLines (causes : List String) : List String :=
  match causes with
  | [cause] => [indented "    " "    " cause]
  | causes => causes.zipIdx.map fun (cause, i) =>
      let number := toString i
      indented ("".pushn ' ' (5 - number.length) ++ number ++ ": ") "       " cause

def render (t : Trouble) : String :=
  "Error: " ++ t.message ++
    (if t.causes.isEmpty then "" else "\n\nCaused by:\n" ++ Text.join "\n" (causeLines t.causes)) ++
    "\n"

end Trouble

/-- What the program leaves behind: an exit code, its output, what it tells the one who
called it, and at most one file. -/
structure Report where
  code : Nat := 0
  output : String := ""
  messages : String := ""
  file : Option (String × String) := none
  deriving DecidableEq, Inhabited

namespace Report

def ofTrouble (t : Trouble) : Report := { code := 1, messages := t.render }

/-- Puts a text into a file or, without one, out as lines. -/
def ofText (path : Option String) (text : String) : Report :=
  match path with
  | some path => { file := some (path, text) }
  | none => { output := text ++ "\n" }

/-- What is left behind when the file could not be written. -/
def unwritten (fault : FileFault) : Report := ofTrouble ⟨fault.message, []⟩

/-- One report after the other; the code is that of the later one. -/
def andThen (first second : Report) : Report :=
  { code := second.code
    output := first.output ++ second.output
    messages := first.messages ++ second.messages
    file := second.file <|> first.file }

end Report
end EventFlow.CommandLine
