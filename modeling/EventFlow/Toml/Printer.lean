/-
  EventFlow.Toml.Printer — writing TOML: texts, whole numbers and tables of them.

  A table is written as a header, its plain entries, and then its tables, each under a
  header of its own. A text is written in the first form that can hold it as it stands,
  and with escapes only if there is none.
-/

import EventFlow.Json.Printer
import EventFlow.Text.Basic
import EventFlow.Toml.Basic

namespace EventFlow.Toml

/-! ## Texts -/

/-- A control character, tabs and line feeds apart. -/
def isControl (c : Char) : Bool :=
  (c.toNat < 0x20 && c ≠ '\t' && c ≠ '\n') || c.toNat = 0x7F

/-- Three quotes in a row. -/
def hasRun (quote : Char) : List Char → Bool
  | a :: b :: c :: rest =>
    (a = quote && b = quote && c = quote) || hasRun quote (b :: c :: rest)
  | _ => false

def upperHex (n : Nat) : Char :=
  if n < 10 then Char.ofNat (0x30 + n) else Char.ofNat (0x41 + (n - 10))

/-- The characters between `"` quotes. Over lines, line feeds stand as they are and only
the third quote in a row is escaped; `run` counts the quotes just written. -/
def basicChars (lines : Bool) (run : Nat) : List Char → List Char
  | [] => []
  | c :: rest =>
    if c = '"' then
      if lines && run < 2 then '"' :: basicChars lines (run + 1) rest
      else '\\' :: '"' :: basicChars lines 0 rest
    else if c = '\n' && lines then c :: basicChars lines 0 rest
    else escapedChar c ++ basicChars lines 0 rest
where
  escapedChar (c : Char) : List Char :=
    if c = '\\' then ['\\', '\\']
    else if c = '\n' then ['\\', 'n']
    else if c = '\t' then ['\\', 't']
    else if c = '\r' then ['\\', 'r']
    else if c.toNat = 8 then ['\\', 'b']
    else if c.toNat = 12 then ['\\', 'f']
    else if isControl c then
      ['\\', 'u', '0', '0', upperHex (c.toNat / 16), upperHex (c.toNat % 16)]
    else [c]

def textChars (s : List Char) : List Char :=
  let lines := s.contains '\n'
  let opening : List Char := if lines then ['\n'] else []
  let quotes (c : Char) := List.replicate 3 c
  if s.any isControl then escaped lines s
  else if !s.contains '\\' && !s.contains '"' && !lines then
    '"' :: basicChars false 0 s ++ ['"']
  else if !s.contains '\'' && !lines then '\'' :: s ++ ['\'']
  else if !s.contains '\\' && !hasRun '"' s then
    quotes '"' ++ opening ++ basicChars true 0 s ++ quotes '"'
  else if !hasRun '\'' s then quotes '\'' ++ opening ++ s ++ quotes '\''
  else escaped lines s
where
  escaped (lines : Bool) (s : List Char) : List Char :=
    if lines then
      List.replicate 3 '"' ++ ['\n'] ++ basicChars true 0 s ++ List.replicate 3 '"'
    else '"' :: basicChars false 0 s ++ ['"']

/-! ## Tables -/

/-- A value that stands on the line of its key. Only texts and whole numbers are written. -/
def plain? : Toml → Option String
  | .text s => some (String.ofList (textChars s.toList))
  | .int n => some (String.ofList (Json.numberText (.int n)))
  | _ => none

def plainLines (entries : Entries) : String :=
  String.join (entries.filterMap fun (k, v) => (plain? v).map fun t => k ++ " = " ++ t ++ "\n")

mutual

/-- A table and the tables in it, each a block of lines. -/
def blocks (path : List String) : Toml → List String
  | .table _ entries =>
    let body := plainLines entries
    let header := if path.isEmpty then "" else "[" ++ Text.join "." path ++ "]\n"
    let own := if path.isEmpty && body.isEmpty then [] else [header ++ body]
    own ++ innerBlocks path entries
  | _ => []

def innerBlocks (path : List String) : Entries → List String
  | [] => []
  | (k, v) :: rest => blocks (path ++ [k]) v ++ innerBlocks path rest

end

/-- The text of a table whose keys are bare words. -/
def pretty (v : Toml) : String := Text.join "\n" (blocks [] v)

end EventFlow.Toml
