/-
  EventFlow.Json.Printer — JSON text: without blanks, and set out over lines with two
  spaces per level.

  A text is quoted with the short escapes where JSON has one, other characters below
  U+0020 as four hexadecimal digits, everything else as it is.
-/

import EventFlow.Binary.Shortest
import EventFlow.Json.Basic

namespace EventFlow.Json

/-- A double stands without an exponent from five places after the point to sixteen
digits before it. -/
def doubleLayout : NumberLayout := ⟨fun p => -5 ≤ p && p ≤ 15, true⟩

def singleLayout : NumberLayout := ⟨fun p => -6 ≤ p && p ≤ 12, true⟩

def numberText : JsonNumber → List Char
  | .int (.ofNat n) => NumberLayout.digitsOf n
  | .int (.negSucc n) => '-' :: NumberLayout.digitsOf (n + 1)
  | .double x => doubleLayout.write .double x
  | .single x => singleLayout.write .single x

def hexDigit (n : Nat) : Char :=
  if n < 10 then Char.ofNat (0x30 + n) else Char.ofNat (0x61 + (n - 10))

def escaped (c : Char) : List Char :=
  if c = '"' then ['\\', '"']
  else if c = '\\' then ['\\', '\\']
  else if c = '\n' then ['\\', 'n']
  else if c = '\r' then ['\\', 'r']
  else if c = '\t' then ['\\', 't']
  else if c.toNat = 8 then ['\\', 'b']
  else if c.toNat = 12 then ['\\', 'f']
  else if c.toNat < 32 then
    ['\\', 'u', '0', '0', hexDigit (c.toNat / 16), hexDigit (c.toNat % 16)]
  else [c]

def quoted (s : String) : List Char := '"' :: s.toList.flatMap escaped ++ ['"']

/-- The text of a quoted string literal. -/
def quote (s : String) : String := String.ofList (quoted s)

mutual

def compactChars : Json → List Char
  | .null => ['n', 'u', 'l', 'l']
  | .bool true => ['t', 'r', 'u', 'e']
  | .bool false => ['f', 'a', 'l', 's', 'e']
  | .num n => numberText n
  | .str s => quoted s
  | .arr [] => ['[', ']']
  | .arr (v :: rest) => '[' :: (compactChars v ++ compactItems rest)
  | .obj [] => ['{', '}']
  | .obj ((k, v) :: rest) => '{' :: (quoted k ++ ':' :: (compactChars v ++ compactFields rest))

/-- The items after the first, and the closing bracket. -/
def compactItems : List Json → List Char
  | [] => [']']
  | v :: rest => ',' :: (compactChars v ++ compactItems rest)

def compactFields : List (String × Json) → List Char
  | [] => ['}']
  | (k, v) :: rest => ',' :: (quoted k ++ ':' :: (compactChars v ++ compactFields rest))

end

def compact (v : Json) : String := String.ofList (compactChars v)

/-- A line break and the indentation of a level. -/
def newline (level : Nat) : List Char := '\n' :: List.replicate (2 * level) ' '

mutual

def prettyChars (level : Nat) : Json → List Char
  | .null => ['n', 'u', 'l', 'l']
  | .bool true => ['t', 'r', 'u', 'e']
  | .bool false => ['f', 'a', 'l', 's', 'e']
  | .num n => numberText n
  | .str s => quoted s
  | .arr [] => ['[', ']']
  | .arr (v :: rest) =>
    '[' :: (newline (level + 1) ++ prettyChars (level + 1) v ++ prettyItems level rest)
  | .obj [] => ['{', '}']
  | .obj ((k, v) :: rest) =>
    '{' :: (newline (level + 1) ++ quoted k ++ ':' :: ' ' ::
      (prettyChars (level + 1) v ++ prettyFields level rest))

def prettyItems (level : Nat) : List Json → List Char
  | [] => newline level ++ [']']
  | v :: rest => ',' :: (newline (level + 1) ++ prettyChars (level + 1) v ++ prettyItems level rest)

def prettyFields (level : Nat) : List (String × Json) → List Char
  | [] => newline level ++ ['}']
  | (k, v) :: rest =>
    ',' :: (newline (level + 1) ++ quoted k ++ ':' :: ' ' ::
      (prettyChars (level + 1) v ++ prettyFields level rest))

end

def pretty (v : Json) : String := String.ofList (prettyChars 0 v)

end EventFlow.Json
