/-
  EventFlow.Json.Scanner — from a text to its outline.

  The scanner decides nothing about faults: it stops where the syntax breaks, and the
  outline holds what stands there. Lists and objects nested 128 deep are marked.
-/

import EventFlow.Json.Outline

namespace EventFlow.Outline

/-- The deepest nesting a reader follows. -/
def depthLimit : Nat := 127

/-! ## Literals and numbers -/

/-- The rest of a word such as `null`. -/
def scanWord (lead : Char) (value : Outline) : List Char → List Char → Outline × Option (List Char)
  | [], s => (value, some s)
  | w :: word, c :: s =>
    if w = c then scanWord lead value word s
    else (.broken (some lead) .expectedIdent .expectedIdent, none)
  | _ :: _, [] => (.broken (some lead) .endInValue .endInValue, none)

/-- Digits as a number: `acc` shifted and extended. -/
def digitsValue (acc : Nat) (ds : List Char) : Nat :=
  ds.foldl (fun n c => n * 10 + (c.toNat - 0x30)) acc

/-- An integer that fits 64 bits stays one; minus zero and all others become doubles. -/
def integerOf (negative : Bool) (n : Nat) : Outline :=
  if negative then
    if n = 0 then .num (.double (.finite true 0 0))
    else if Int64.minValue.toInt ≤ -n then .num (.int (-n))
    else ofDouble (BinaryFormat.double.ofDecimal true n 0)
  else if n < UInt64.size then .num (.int n)
  else ofDouble (BinaryFormat.double.ofDecimal false n 0)
where
  ofDouble (x : Binary) : Outline := if x.isFinite then .num (.double x) else .hugeNum

def decimalOf (negative : Bool) (digits : Nat) (exponent : Int) : Outline :=
  let x := BinaryFormat.double.ofDecimal negative digits exponent
  if x.isFinite then .num (.double x) else .hugeNum

/-- A number that breaks off: what is missing is a digit. -/
def cutNumber (lead : Char) (rest : List Char) : Outline × Option (List Char) :=
  (.broken (some lead) (if rest.isEmpty then .endInValue else .badNumber) .badNumber, none)

/-- The exponent part, after the digits of the mantissa. -/
def scanExponent (lead : Char) (negative : Bool) (digits : Nat) (places : Nat) (s : List Char) :
    Outline × Option (List Char) :=
  let (down, s) := match s with
    | '+' :: r => (false, r)
    | '-' :: r => (true, r)
    | r => (false, r)
  let ds := s.takeWhile Text.isDigit
  let rest := s.dropWhile Text.isDigit
  if ds.isEmpty then cutNumber lead rest
  else
    let e : Int := digitsValue 0 ds
    (decimalOf negative digits ((if down then -e else e) - places), some rest)

/-- What may follow the digits of the whole part. -/
def scanFraction (lead : Char) (negative : Bool) (whole : Nat) (s : List Char) :
    Outline × Option (List Char) :=
  match s with
  | '.' :: r =>
    let ds := r.takeWhile Text.isDigit
    let rest := r.dropWhile Text.isDigit
    if ds.isEmpty then cutNumber lead rest
    else
      let digits := digitsValue whole ds
      match rest with
      | 'e' :: r' | 'E' :: r' => scanExponent lead negative digits ds.length r'
      | _ => (decimalOf negative digits (-(ds.length : Int)), some rest)
  | 'e' :: r | 'E' :: r => scanExponent lead negative whole 0 r
  | _ => (integerOf negative whole, some s)

/-- A number after its sign. -/
def scanNumber (lead : Char) (negative : Bool) (s : List Char) : Outline × Option (List Char) :=
  let ds := s.takeWhile Text.isDigit
  let rest := s.dropWhile Text.isDigit
  match ds with
  | [] => cutNumber lead rest
  | '0' :: _ :: _ => (.broken (some lead) .badNumber .badNumber, none)
  | _ => scanFraction lead negative (digitsValue 0 ds) rest

/-- A text after its opening quote. -/
def scanText (s : List Char) : Outline × Option (List Char) :=
  match skipText s with
  | .error f => (.broken (some '"') (readFault s f) f, none)
  | .ok rest =>
    match readText [] s with
    | .ok t => (.str t, some rest)
    | .error f => (.faultyStr f, some rest)

/-! ## Values -/

mutual

/-- The value at the start of the text and the text after it, unless the syntax breaks
inside the value. Each of these functions takes a character or hands over to one that
does, at most two steps later, so three times the length of the text is fuel enough. -/
def scanValue : Nat → Nat → List Char → Outline × Option (List Char)
  | 0, _, _ => (.broken none .endInValue .endInValue, none)
  | fuel + 1, depth, s =>
    match skipSpace s with
    | [] => (.broken none .endInValue .endInValue, none)
    | 'n' :: r => scanWord 'n' .null ['u', 'l', 'l'] r
    | 't' :: r => scanWord 't' (.bool true) ['r', 'u', 'e'] r
    | 'f' :: r => scanWord 'f' (.bool false) ['a', 'l', 's', 'e'] r
    | '"' :: r => scanText r
    | '-' :: r => scanNumber '-' true r
    | '[' :: r =>
      let (items, close, rest) := scanItems fuel (depth + 1) true r
      (.arr (depthLimit < depth + 1) items close, rest)
    | '{' :: r =>
      let (fields, close, rest) := scanFields fuel (depth + 1) true r
      (.obj (depthLimit < depth + 1) fields close, rest)
    | c :: r =>
      if Text.isDigit c then scanNumber c false (c :: r)
      else (.broken (some c) .expectedValue .expectedValue, none)

def scanItems : Nat → Nat → Bool → List Char → List Outline × Close × Option (List Char)
  | 0, _, _, _ => ([], .cut [], none)
  | fuel + 1, depth, first, s =>
    match skipSpace s, first with
    | [], _ => ([], .cut [], none)
    | ']' :: r, _ => ([], .bracket, some r)
    | ',' :: r, false =>
      match skipSpace r with
      | [] | ']' :: _ => ([], .cut (',' :: r), none)
      | r' => scanItem fuel depth r'
    | r, true => scanItem fuel depth r
    | r, false => ([], .cut r, none)

/-- One item and the items after it. -/
def scanItem : Nat → Nat → List Char → List Outline × Close × Option (List Char)
  | 0, _, _ => ([], .cut [], none)
  | fuel + 1, depth, s =>
    match scanValue fuel depth s with
    | (v, none) => ([v], .cut [], none)
    | (v, some r) =>
      let (items, close, rest) := scanItems fuel depth false r
      (v :: items, close, rest)

def scanFields : Nat → Nat → Bool → List Char →
    List (Key × Outline) × Close × Option (List Char)
  | 0, _, _, _ => ([], .cut [], none)
  | fuel + 1, depth, first, s =>
    match skipSpace s, first with
    | [], _ => ([], .cut [], none)
    | '}' :: r, _ => ([], .bracket, some r)
    | '"' :: r, true => scanField fuel depth ('"' :: r) r
    | ',' :: r, false =>
      match skipSpace r with
      | '"' :: r' => scanField fuel depth (',' :: r) r'
      | _ => ([], .cut (',' :: r), none)
    | r, _ => ([], .cut r, none)

/-- One entry, from inside the quotes of its key, and the entries after it. `whole` is
the text from where the entry begins. -/
def scanField : Nat → Nat → List Char → List Char →
    List (Key × Outline) × Close × Option (List Char)
  | 0, _, _, _ => ([], .cut [], none)
  | fuel + 1, depth, whole, s =>
    match skipText s with
    | .error _ => ([], .cut whole, none)
    | .ok afterKey =>
      let key := readText [] s
      match skipSpace afterKey with
      | ':' :: r =>
        match scanValue fuel depth r with
        | (v, none) => ([(key, v)], .cut [], none)
        | (v, some r') =>
          let (fields, close, rest) := scanFields fuel depth false r'
          ((key, v) :: fields, close, rest)
      | [] => ([(key, .broken none .endInObject .endInObject)], .cut [], none)
      | _ => ([(key, .broken none .expectedColon .expectedColon)], .cut [], none)

end

/-- The outline of a text, and what follows its value if the value is whole. -/
def scan (s : List Char) : Outline × Option (List Char) := scanValue (3 * s.length + 3) 0 s

end EventFlow.Outline
