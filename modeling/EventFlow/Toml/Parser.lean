/-
  EventFlow.Toml.Parser — reading TOML 1.0.

  Every reader takes characters from the front and returns the rest, or nothing if the
  text does not follow the grammar. Values nest at most 79 deep, and a key has at most 79
  parts. The nesting of values and the items of a list are followed with a bound that the
  length of the text exceeds: each step takes a character.
-/

import EventFlow.Json.Scanner
import EventFlow.Toml.Basic

namespace EventFlow.Toml

abbrev Parse (α : Type) := List Char → Option (α × List Char)

def depthLimit : Nat := 80

/-! ## Blanks, comments and line ends -/

def isBlank (c : Char) : Bool := c = ' ' || c = '\t'

def skipBlanks (s : List Char) : List Char := s.dropWhile isBlank

/-- A character that a comment or a literal text may hold. -/
def isPlain (c : Char) : Bool := c = '\t' || (0x20 ≤ c.toNat && c.toNat ≠ 0x7F)

def skipComment : List Char → List Char
  | '#' :: rest => rest.dropWhile isPlain
  | s => s

def lineEnd? : List Char → Option (List Char)
  | '\n' :: rest => some rest
  | '\r' :: '\n' :: rest => some rest
  | _ => none

/-- Skips blanks and line ends. -/
def skipSpace : List Char → List Char
  | '\r' :: '\n' :: rest => skipSpace rest
  | c :: rest => if isBlank c || c = '\n' then skipSpace rest else c :: rest
  | [] => []

/-- What may stand between a statement and the next line. -/
def endLine (s : List Char) : Option (List Char) :=
  match skipComment (skipBlanks s) with
  | [] => some []
  | rest => lineEnd? rest

/-- Blanks, comments and line ends, as between the items of a list. -/
def skipLines : Nat → List Char → List Char
  | 0, s => s
  | fuel + 1, s =>
    match skipBlanks s with
    | '#' :: rest =>
      match lineEnd? (rest.dropWhile isPlain) with
      | some rest => skipLines fuel rest
      | none => '#' :: rest
    | rest =>
      match lineEnd? rest with
      | some rest => skipLines fuel rest
      | none => rest

/-! ## Texts -/

def hexNumber? (ds : List Char) : Option Nat :=
  ds.foldlM (fun n c => (Outline.hexValue? c).map (n * 16 + ·)) 0

/-- A character by its number; surrogates have none. -/
def scalar? (n : Nat) : Option Char := if n.isValidChar then some (Char.ofNat n) else none

/-- An escape, after its backslash. -/
def escape : Parse Char
  | 'b' :: r => some (Char.ofNat 8, r)
  | 't' :: r => some ('\t', r)
  | 'n' :: r => some ('\n', r)
  | 'f' :: r => some (Char.ofNat 12, r)
  | 'r' :: r => some ('\r', r)
  | '"' :: r => some ('"', r)
  | '\\' :: r => some ('\\', r)
  | 'u' :: a :: b :: c :: d :: r => do
    return (← scalar? (← hexNumber? [a, b, c, d]), r)
  | 'U' :: a :: b :: c :: d :: e :: f :: g :: h :: r => do
    return (← scalar? (← hexNumber? [a, b, c, d, e, f, g, h]), r)
  | _ => none

/-- The text after an opening `"`. `acc` holds what was read, last character first. -/
def basicText : Nat → List Char → Parse String
  | 0, _, _ => none
  | _ + 1, acc, '"' :: r => some (String.ofList acc.reverse, r)
  | fuel + 1, acc, '\\' :: r => do
    let (c, r) ← escape r
    basicText fuel (c :: acc) r
  | fuel + 1, acc, c :: r => if isPlain c then basicText fuel (c :: acc) r else none
  | _ + 1, _, [] => none

def literalText (s : List Char) : Option (String × List Char) :=
  match s.dropWhile (fun c => isPlain c && c ≠ '\'') with
  | '\'' :: rest => some (String.ofList (s.takeWhile (fun c => isPlain c && c ≠ '\'')), rest)
  | _ => none

/-- A text over several lines, up to three of its quotes; as many as two more belong to
the text. -/
def blockText (quote : Char) (escapes : Bool) : Nat → List Char → Parse String
  | 0, _, _ => none
  | _ + 1, _, [] => none
  | fuel + 1, acc, c :: r =>
    if c = quote then
      match r with
      | c1 :: c2 :: r' =>
        if c1 = quote && c2 = quote then
          let extra := (r'.takeWhile (· = quote)).length
          if 2 < extra then none
          else some (String.ofList (acc.reverse ++ List.replicate extra quote), r'.drop extra)
        else blockText quote escapes fuel (c :: acc) r
      | _ => blockText quote escapes fuel (c :: acc) r
    else if c = '\\' && escapes then
      match lineEnd? (skipBlanks r) with
      | some r' => blockText quote escapes fuel acc (skipSpace r')
      | none =>
        match escape r with
        | some (e, r') => blockText quote escapes fuel (e :: acc) r'
        | none => none
    else
      match lineEnd? (c :: r) with
      | some r' => blockText quote escapes fuel ('\n' :: acc) r'
      | none => if isPlain c then blockText quote escapes fuel (c :: acc) r else none

/-- Drops the line end that may follow the opening quotes of a text over lines. -/
def openBlock (s : List Char) : List Char := (lineEnd? s).getD s

/-- A text on one line, by its opening quote. -/
def lineText : Parse String
  | '"' :: r => basicText (r.length + 1) [] r
  | '\'' :: r => literalText r
  | _ => none

def anyText : Parse String
  | '"' :: '"' :: '"' :: r => blockText '"' true (r.length + 1) [] (openBlock r)
  | '\'' :: '\'' :: '\'' :: r => blockText '\'' false (r.length + 1) [] (openBlock r)
  | s => lineText s

/-! ## Keys -/

def isKeyChar (c : Char) : Bool := Text.isAlphanumeric c || c = '-' || c = '_'

def keyPart (s : List Char) : Option (String × List Char) :=
  match s with
  | '"' :: _ | '\'' :: _ => lineText s
  | _ =>
    let word := s.takeWhile isKeyChar
    if word.isEmpty then none else some (String.ofList word, s.drop word.length)

/-- A key: the parts before the last, and the last. Blanks may stand around each. -/
def keyPath : Nat → Parse (List String × String)
  | 0, _ => none
  | fuel + 1, s => do
    let (part, r) ← keyPart (skipBlanks s)
    match skipBlanks r with
    | '.' :: r => do
      let ((path, last), r) ← keyPath fuel r
      return ((part :: path, last), r)
    | r => return (([], part), r)

def key : Parse (List String × String) := keyPath (depthLimit - 1)

/-! ## Numbers -/

/-- Digits with single underscores between them. -/
def digits (isDigit : Char → Bool) : Nat → Parse (List Char)
  | 0, _ => none
  | fuel + 1, c :: r =>
    if isDigit c then
      match r with
      | '_' :: r' => do
        let (ds, rest) ← digits isDigit fuel r'
        return (c :: ds, rest)
      | d :: _ =>
        if isDigit d then do
          let (ds, rest) ← digits isDigit fuel r
          return (c :: ds, rest)
        else some ([c], r)
      | [] => some ([c], [])
    else none
  | _ + 1, [] => none

def decimals (s : List Char) : Option (List Char × List Char) :=
  digits Text.isDigit (s.length + 1) s

def sign (s : List Char) : Bool × List Char :=
  match s with
  | '+' :: r => (false, r)
  | '-' :: r => (true, r)
  | _ => (false, s)

/-- Whole digits: without a leading zero unless it is all. -/
def whole (s : List Char) : Option (List Char × List Char) :=
  match s with
  | '0' :: r => some (['0'], r)
  | _ => decimals s

def value (base : Nat) (ds : List Char) : Nat :=
  ds.foldl (fun n c => n * base + (Outline.hexValue? c).getD 0) 0

/-- An integer that fits 64 bits, its sign among them. -/
def fits (n : Int) : Option Toml :=
  if Int64.minValue.toInt ≤ n && n ≤ Int64.maxValue.toInt then some (.int n) else none

def exponent : Parse Int
  | 'e' :: r | 'E' :: r => do
    let (down, r) := sign r
    let (ds, r) ← decimals r
    let n : Int := value 10 ds
    return (if down then -n else n, r)
  | _ => none

/-- A number with a point or an exponent; one beyond the range is refused. -/
def readFloat (s : List Char) : Option (Toml × List Char) := do
  let (negative, r) := sign s
  match r with
  | 'i' :: 'n' :: 'f' :: r => return (.float (some (.infinite negative)), r)
  | 'n' :: 'a' :: 'n' :: r => return (.float none, r)
  | _ =>
    let (ds, r) ← whole r
    let (places, power, r) ← match r with
      | '.' :: r => do
        let (fs, r) ← decimals r
        match r with
        | 'e' :: _ | 'E' :: _ => do
          let (e, r) ← exponent r
          pure (fs, e, r)
        | _ => pure (fs, (0 : Int), r)
      | _ => do
        let (e, r) ← exponent r
        pure ([], e, r)
    let x := BinaryFormat.double.ofDecimal negative (value 10 (ds ++ places))
      (power - places.length)
    if x.isFinite then return (.float (some x), r) else none

def readInteger (s : List Char) : Option (Toml × List Char) :=
  match s with
  | '0' :: 'x' :: r => based 16 (fun c => (Outline.hexValue? c).isSome) r
  | '0' :: 'o' :: r => based 8 (fun c => '0' ≤ c && c ≤ '7') r
  | '0' :: 'b' :: r => based 2 (fun c => c = '0' || c = '1') r
  | _ => do
    let (negative, r) := sign s
    let (ds, r) ← whole r
    let n : Int := value 10 ds
    return (← fits (if negative then -n else n), r)
where
  based (base : Nat) (isDigit : Char → Bool) (r : List Char) : Option (Toml × List Char) := do
    let (ds, rest) ← digits isDigit (r.length + 1) r
    return (← fits (value base ds), rest)

/-! ## Dates and times -/

/-- Exactly `n` digits. -/
def fixedDigits (n : Nat) (s : List Char) : Option (Nat × List Char) :=
  let ds := s.take n
  if ds.length = n && ds.all Text.isDigit then some (value 10 ds, s.drop n) else none

def inRange (low high : Nat) (n : Nat) : Option Unit := if low ≤ n && n ≤ high then some () else none

def mark (c : Char) : Parse Unit
  | d :: r => if d = c then some ((), r) else none
  | [] => none

def daysIn (year month : Nat) : Nat :=
  if month = 2 then
    if (year % 4 = 0 && year % 100 ≠ 0) || year % 400 = 0 then 29 else 28
  else if month = 4 || month = 6 || month = 9 || month = 11 then 30
  else 31

def date (s : List Char) : Option (Unit × List Char) := do
  let (year, r) ← fixedDigits 4 s
  let (_, r) ← mark '-' r
  let (month, r) ← fixedDigits 2 r
  inRange 1 12 month
  let (_, r) ← mark '-' r
  let (day, r) ← fixedDigits 2 r
  inRange 1 (daysIn year month) day
  return ((), r)

def clock (s : List Char) : Option (Unit × List Char) := do
  let (hour, r) ← fixedDigits 2 s
  inRange 0 23 hour
  let (_, r) ← mark ':' r
  let (minute, r) ← fixedDigits 2 r
  inRange 0 59 minute
  let (_, r) ← mark ':' r
  let (second, r) ← fixedDigits 2 r
  inRange 0 60 second
  match r with
  | '.' :: r' =>
    let rest := r'.dropWhile Text.isDigit
    if rest.length < r'.length then return ((), rest) else return ((), r)
  | _ => return ((), r)

/-- The distance from universal time, if there is one. -/
def offset (s : List Char) : Option (Unit × List Char) :=
  match s with
  | 'Z' :: r | 'z' :: r => some ((), r)
  | '+' :: r | '-' :: r => do
    let (hour, r) ← fixedDigits 2 r
    inRange 0 23 hour
    let (_, r) ← mark ':' r
    let (minute, r) ← fixedDigits 2 r
    inRange 0 59 minute
    return ((), r)
  | _ => some ((), s)

def readTime (s : List Char) : Option (Toml × List Char) := do
  let rest ← match date s with
    | some (_, r) =>
      match r with
      | 'T' :: r' | 't' :: r' | ' ' :: r' =>
        match clock r' with
        | some (_, r'') => (offset r'').map (·.2)
        | none => some r
      | _ => some r
    | none => (clock s).map (·.2)
  return (.time (String.ofList (s.take (s.length - rest.length))), rest)

def readNumber (s : List Char) : Option (Toml × List Char) :=
  (readTime s).orElse fun _ => (readFloat s).orElse fun _ => readInteger s

/-! ## Values -/

def word (w : String) (v : Toml) (s : List Char) : Option (Toml × List Char) :=
  if w.toList.isPrefixOf s then some (v, s.drop w.length) else none

mutual

/-- A value at a depth of nesting. -/
def parseValue : Nat → Nat → Parse Toml
  | 0, _, _ => none
  | fuel + 1, depth, s =>
    match s with
    | '"' :: _ | '\'' :: _ => (anyText s).map fun (t, r) => (.text t, r)
    | '[' :: r =>
      if depthLimit ≤ depth + 1 then none
      else do
        let (items, r) ← parseItems fuel (depth + 1) r
        return (.list items, r)
    | '{' :: r =>
      if depthLimit ≤ depth + 1 then none
      else
        match skipBlanks r with
        | '}' :: r => some (.table .braces [], r)
        | _ => do
          let (entries, r) ← parsePairs fuel (depth + 1) [] r
          return (.table .braces entries, r)
    | 't' :: _ => word "true" (.bool true) s
    | 'f' :: _ => word "false" (.bool false) s
    | 'i' :: _ | 'n' :: _ => readFloat s
    | c :: _ => if c = '+' || c = '-' || Text.isDigit c then readNumber s else none
    | [] => none

/-- The items of a list and its closing bracket; a comma may follow the last. -/
def parseItems : Nat → Nat → Parse (List Toml)
  | 0, _, _ => none
  | fuel + 1, depth, s =>
    match skipLines (s.length + 1) s with
    | ']' :: r => some ([], r)
    | r => do
      let (v, r) ← parseValue fuel depth r
      match skipLines (r.length + 1) r with
      | ',' :: r => do
        let (items, r) ← parseItems fuel depth r
        return (v :: items, r)
      | ']' :: r => return ([v], r)
      | _ => none

/-- The entries of a table between braces and its closing brace. -/
def parsePairs : Nat → Nat → Entries → Parse Entries
  | 0, _, _, _ => none
  | fuel + 1, depth, entries, s => do
    let ((path, last), r) ← key s
    let (_, r) ← mark '=' r
    let (v, r) ← parseValue fuel depth (skipBlanks r)
    let entries ← insert path last v .braces entries
    match skipBlanks r with
    | ',' :: r => parsePairs fuel depth entries r
    | '}' :: r => return (entries, r)
    | _ => none

end

/-! ## The whole text -/

/-- The text read so far, and the table that entries go to: the keys that lead there. -/
structure Draft where
  root : Entries
  current : List String

def Draft.add (d : Draft) (path : List String) (last : String) (v : Toml) : Option Draft := do
  let root ← within false (fun origin entries => insert path last v origin entries) d.current
    .header d.root
  return { d with root }

/-- One line that is neither blank nor a comment. -/
def statement (d : Draft) (s : List Char) : Option (Draft × List Char) :=
  match s with
  | '[' :: '[' :: r => do
    let ((path, last), r) ← key r
    let (_, r) ← mark ']' r
    let (_, r) ← mark ']' r
    let root ← openNext path last d.root
    return (⟨root, path ++ [last]⟩, ← endLine r)
  | '[' :: r => do
    let ((path, last), r) ← key r
    let (_, r) ← mark ']' r
    let root ← openTable path last d.root
    return (⟨root, path ++ [last]⟩, ← endLine r)
  | _ => do
    let ((path, last), r) ← key s
    let (_, r) ← mark '=' r
    let r := skipBlanks r
    let (v, r) ← parseValue (2 * r.length + 2) 0 r
    let d ← d.add path last v
    return (d, ← endLine r)

/-- Line after line. -/
def statements : Nat → Draft → List Char → Option Entries
  | 0, _, _ => none
  | fuel + 1, d, s =>
    match skipBlanks s with
    | [] => some d.root
    | '#' :: r => do statements fuel d (← endLine ('#' :: r))
    | r =>
      match lineEnd? r with
      | some r => statements fuel d r
      | none => do
        let (d, r) ← statement d r
        statements fuel d r

/-- The table that a text describes; a byte order mark may stand before it. -/
def parse? (text : String) : Option Toml :=
  let s := match text.toList with
    | c :: r => if c.toNat = 0xFEFF then r else c :: r
    | [] => []
  (statements (s.length + 1) ⟨[], []⟩ s).map (.table .header)

end EventFlow.Toml
