/-
  EventFlow.Json.Outline — a JSON text as a reader meets it.

  A text is read from left to right and the first fault met is the one reported, be it a
  slip of syntax or a value of the wrong kind; what follows is never looked at. So a text
  becomes an outline: its values in the order of the text, repeated keys kept, and the
  place where the syntax breaks kept as a value (`broken`) or as the end of a list or
  object (`Close.cut`, with the text that stands there). Readers walk the outline and
  report whatever they reach first.

  A value that no reader wants is only skipped, by looser rules: a number of any size, a
  text with half a surrogate pair and any depth of nesting pass (`skipFault?`).

  A value tree is an outline without faults (`ofJson`). A list remembers where it comes
  from, because surplus items of a record in list form are refused in different words.
-/

import EventFlow.Json.Fault

namespace EventFlow

/-- How a list or an object ends. -/
inductive Close where
  /-- With its bracket. -/
  | bracket
  /-- Before its bracket: what stands there neither continues nor ends it. -/
  | cut (rest : List Char)
  /-- A list of a value tree. -/
  | tree
  /-- A list that was set aside until the alternatives of a choice are tried. -/
  | setAside
  /-- A list whose surplus items do not matter. -/
  | lenient
  deriving Inhabited

/-- A key, or the fault that reading it meets. -/
abbrev Key := Except SyntaxFault String

inductive Outline where
  | null
  | bool (value : Bool)
  | num (value : JsonNumber)
  /-- A number beyond the range of a double. -/
  | hugeNum
  | str (value : String)
  /-- A text that can be skipped but not read. -/
  | faultyStr (fault : SyntaxFault)
  /-- `deep`: nested in more lists and objects than a reader follows. -/
  | arr (deep : Bool) (items : List Outline) (close : Close)
  | obj (deep : Bool) (fields : List (Key × Outline)) (close : Close)
  /-- No value: the character that stands there, and the faults that reading and
  skipping meet. -/
  | broken (lead : Option Char) (read skip : SyntaxFault)
  deriving Inhabited

namespace Outline

def isSpace (c : Char) : Bool := c = ' ' || c = '\n' || c = '\t' || c = '\r'

def skipSpace (s : List Char) : List Char := s.dropWhile isSpace

/-! ## Text literals -/

def hexValue? (c : Char) : Option Nat :=
  if Text.isDigit c then some (c.toNat - 0x30)
  else if 'a' ≤ c && c ≤ 'f' then some (c.toNat - 0x61 + 10)
  else if 'A' ≤ c && c ≤ 'F' then some (c.toNat - 0x41 + 10)
  else none

def hexUnit? (a b c d : Char) : Option Nat := do
  return (((← hexValue? a) * 16 + (← hexValue? b)) * 16 + (← hexValue? c)) * 16 + (← hexValue? d)

/-- The fault of an escape with fewer than four characters after it: four bytes that are
no digits are a bad escape, fewer are an early end. -/
def shortEscape (rest : List Char) : SyntaxFault :=
  if 4 ≤ Text.utf8Length rest then .badEscape else .endInString

def simpleEscape? (c : Char) : Option Char :=
  match c with
  | '"' => some '"'
  | '\\' => some '\\'
  | '/' => some '/'
  | 'b' => some (Char.ofNat 8)
  | 'f' => some (Char.ofNat 12)
  | 'n' => some '\n'
  | 'r' => some '\r'
  | 't' => some '\t'
  | _ => none

def isLeading (n : Nat) : Bool := 0xD800 ≤ n && n ≤ 0xDBFF
def isTrailing (n : Nat) : Bool := 0xDC00 ≤ n && n ≤ 0xDFFF

def paired (high low : Nat) : Char :=
  Char.ofNat ((high - 0xD800) * 0x400 + (low - 0xDC00) + 0x10000)

/-- Reads up to the closing quote. `acc` holds what was read, last character first. -/
def readText (acc : List Char) : List Char → Except SyntaxFault String
  | [] => .error .endInString
  | '"' :: _ => .ok (String.ofList acc.reverse)
  | '\\' :: 'u' :: a :: b :: c :: d :: rest =>
    match hexUnit? a b c d with
    | none => .error .badEscape
    | some n =>
      if isTrailing n then .error .loneSurrogate
      else if isLeading n then
        match rest with
        | [] => .error .endInString
        | ['\\'] => .error .endInString
        | '\\' :: 'u' :: a' :: b' :: c' :: d' :: rest' =>
          match hexUnit? a' b' c' d' with
          | none => .error .badEscape
          | some m =>
            if isTrailing m then readText (paired n m :: acc) rest'
            else .error .loneSurrogate
        | '\\' :: 'u' :: short => .error (shortEscape short)
        | _ => .error .surrogateCutShort
      else readText (Char.ofNat n :: acc) rest
  | '\\' :: 'u' :: short => .error (shortEscape short)
  | '\\' :: c :: rest =>
    match simpleEscape? c with
    | some e => readText (e :: acc) rest
    | none => .error .badEscape
  | ['\\'] => .error .endInString
  | c :: rest => if c.toNat < 32 then .error .controlCharacter else readText (c :: acc) rest

/-- Skips up to and over the closing quote; escapes are only counted out. -/
def skipText : List Char → Except SyntaxFault (List Char)
  | [] => .error .endInString
  | '"' :: rest => .ok rest
  | '\\' :: 'u' :: a :: b :: c :: d :: rest =>
    if (hexUnit? a b c d).isSome then skipText rest else .error .badEscape
  | '\\' :: 'u' :: short => .error (shortEscape short)
  | '\\' :: c :: rest => if (simpleEscape? c).isSome then skipText rest else .error .badEscape
  | ['\\'] => .error .endInString
  | c :: rest => if c.toNat < 32 then .error .controlCharacter else skipText rest

def readFault (s : List Char) (otherwise : SyntaxFault) : SyntaxFault :=
  match readText [] s with
  | .error f => f
  | .ok _ => otherwise

/-! ## Faults at the end of a list or object -/

/-- What reading one more item of a list meets. -/
def listFault : List Char → SyntaxFault
  | [] => .endInList
  | ',' :: rest => if (skipSpace rest).isEmpty then .endInValue else .trailingComma
  | _ => .expectedListEnd

def listSkipFault : List Char → SyntaxFault
  | [] => .endInList
  | ',' :: rest => if (skipSpace rest).isEmpty then .endInValue else .expectedValue
  | _ => .expectedListEnd

/-- What closing a list meets for a reader that has all its items. -/
def listEndFault : List Char → SyntaxFault
  | [] => .endInList
  | ',' :: rest => if (skipSpace rest).head? = some ']' then .trailingComma else .trailingCharacters
  | _ => .trailingCharacters

/-- What reading one more key of an object meets; `first` if it has none yet. -/
def objectFault (first : Bool) : List Char → SyntaxFault
  | [] => .endInObject
  | '"' :: rest => if first then readFault rest .endInString else .expectedObjectEnd
  | ',' :: rest =>
    if first then .keyNotText
    else match skipSpace rest with
      | [] => .endInValue
      | '}' :: _ => .trailingComma
      | '"' :: text => readFault text .endInString
      | _ => .keyNotText
  | _ => if first then .keyNotText else .expectedObjectEnd

def objectSkipFault (first : Bool) : List Char → SyntaxFault
  | [] => .endInObject
  | '"' :: rest =>
    if first then (match skipText rest with | .error f => f | .ok _ => .endInString)
    else .expectedObjectEnd
  | ',' :: rest =>
    if first then .keyNotText
    else match skipSpace rest with
      | [] => .endInObject
      | '"' :: text => (match skipText text with | .error f => f | .ok _ => .endInString)
      | _ => .keyNotText
  | _ => if first then .keyNotText else .expectedObjectEnd

/-! ## Skipping -/

mutual

/-- The fault that skipping the value meets, if any. -/
def skipFault? : Outline → Option SyntaxFault
  | .arr _ items close =>
    match skipFaultItems? items with
    | some f => some f
    | none => match close with
      | .cut rest => some (listSkipFault rest)
      | _ => none
  | .obj _ fields close =>
    match skipFaultFields? fields with
    | some f => some f
    | none => match close with
      | .cut rest => some (objectSkipFault fields.isEmpty rest)
      | _ => none
  | .broken _ _ skip => some skip
  | _ => none

def skipFaultItems? : List Outline → Option SyntaxFault
  | [] => none
  | v :: rest =>
    match skipFault? v with
    | some f => some f
    | none => skipFaultItems? rest

def skipFaultFields? : List (Key × Outline) → Option SyntaxFault
  | [] => none
  | (_, v) :: rest =>
    match skipFault? v with
    | some f => some f
    | none => skipFaultFields? rest

end

/-! ## Value trees -/

mutual

/-- A value tree as an outline; `close` tells where its lists come from. -/
def ofTree (close : Close) : Json → Outline
  | .null => .null
  | .bool b => .bool b
  | .num n => .num n
  | .str s => .str s
  | .arr items => .arr false (ofTreeItems close items) close
  | .obj fields => .obj false (ofTreeFields close fields) .bracket

def ofTreeItems (close : Close) : List Json → List Outline
  | [] => []
  | v :: rest => ofTree close v :: ofTreeItems close rest

def ofTreeFields (close : Close) : List (String × Json) → List (Key × Outline)
  | [] => []
  | (k, v) :: rest => (.ok k, ofTree close v) :: ofTreeFields close rest

end

def ofJson (v : Json) : Outline := ofTree .tree v

end Outline
end EventFlow
