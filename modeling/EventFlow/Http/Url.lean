/-
  EventFlow.Http.Url — web addresses: reading, tidying up and writing them.

  An address is read as browsers read it: blanks around it and line ends in it do not
  matter, a backslash counts as a slash, the steps `.` and `..` of a path are taken, and
  characters that an address may not hold are written by their bytes. Hosts are names in
  ASCII, numbers with four parts, or in brackets.
-/

import EventFlow.Text.Basic

namespace EventFlow

structure Url where
  scheme : String
  /-- Host and socket number, if the address names any. Only those of the web are looked into. -/
  host : Option String
  path : String
  query : Option String := none
  fragment : Option String := none
  deriving DecidableEq, Inhabited

namespace Url

/-! ## Percent signs -/

def upperHex (n : Nat) : Char :=
  if n < 10 then Char.ofNat (0x30 + n) else Char.ofNat (0x41 + (n - 10))

def percentByte (b : UInt8) : List Char :=
  ['%', upperHex (b.toNat / 16), upperHex (b.toNat % 16)]

def percentChar (c : Char) : List Char := (String.utf8EncodeChar c).flatMap percentByte

/-- Writes by their bytes the characters of a set and all that are not ASCII. -/
def encode (set : Char → Bool) (s : List Char) : List Char :=
  s.flatMap fun c => if 0x80 ≤ c.toNat || set c then percentChar c else [c]

def isControl (c : Char) : Bool := c.toNat < 0x20 || c.toNat = 0x7F

def inFragment (c : Char) : Bool := isControl c || " \"<>`".contains c

def inPath (c : Char) : Bool := inFragment c || "#?\x7b\x7d".contains c

def inQuery (c : Char) : Bool := isControl c || " \"#<>'".contains c

/-- One text of a form: blanks become plus signs. -/
def formEncode (s : String) : List Char :=
  s.toList.flatMap fun c =>
    if c = ' ' then ['+']
    else if Text.isAlphanumeric c || "*-._".contains c then [c]
    else percentChar c

/-- The query of a form. -/
def formQuery (fields : List (String × String)) : String :=
  Text.join "&" (fields.map fun (k, v) =>
    String.ofList (formEncode k ++ '=' :: formEncode v))

/-! ## Paths -/

def isSlash (c : Char) : Bool := c = '/' || c = '\\'

/-- The pieces between slashes. -/
def pieces : List Char → List (List Char)
  | [] => [[]]
  | c :: rest =>
    if isSlash c then [] :: pieces rest
    else match pieces rest with
      | [] => [[c]]
      | p :: ps => (c :: p) :: ps

/-- A dot may be written by its byte. -/
def plainDots (s : List Char) : List Char :=
  Text.replaceAll ['%', '2', 'e'] ['.'] (s.map Text.toLower)

/-- Takes the steps of a path; `done` holds the pieces that stay, the last one first. -/
def takeSteps (done : List (List Char)) : List (List Char) → List (List Char)
  | [] => done.reverse
  | p :: rest =>
    let dots := plainDots p
    let ends := rest.isEmpty
    if dots = ['.', '.'] then
      takeSteps (if ends then [] :: done.drop 1 else done.drop 1) rest
    else if dots = ['.'] then takeSteps (if ends then [] :: done else done) rest
    else takeSteps (encode inPath p :: done) rest

def readPath (s : List Char) : String :=
  let s := match s with
    | c :: rest => if isSlash c then rest else c :: rest
    | [] => []
  String.ofList ((takeSteps [] (pieces s)).flatMap fun p => '/' :: p)

/-! ## Hosts -/

def isHostChar (c : Char) : Bool :=
  !isControl c && !" #/:<>?@[\\]^|%".contains c && c.toNat < 0x80

def digits? (s : List Char) : Option Nat :=
  if !s.isEmpty && s.all Text.isDigit then
    some (s.foldl (fun n c => n * 10 + (c.toNat - 0x30)) 0)
  else none

def decimal (n : Nat) : String := toString n

/-- Four numbers below 256, or no host in numbers. -/
def readNumbers (parts : List (List Char)) : Option String :=
  match parts.map digits? with
  | [some a, some b, some c, some d] =>
    if a < 256 && b < 256 && c < 256 && d < 256 then
      some (Text.join "." [decimal a, decimal b, decimal c, decimal d])
    else none
  | _ => none

def splitAt (c : Char) : List Char → List (List Char)
  | [] => [[]]
  | d :: rest =>
    match splitAt c rest with
    | [] => [[d]]
    | p :: ps => if d = c then [] :: p :: ps else (d :: p) :: ps

def readHost (s : List Char) : Option String :=
  if s.isEmpty then none
  else if s.head? = some '[' then
    if s.getLast? = some ']' then some (String.ofList (s.map Text.toLower)) else none
  else if s.all isHostChar then
    let name := s.map Text.toLower
    let parts := splitAt '.' name
    match parts.getLast? with
    | some last => if (digits? last).isSome then readNumbers parts else some (String.ofList name)
    | none => none
  else none

def usualSocket (scheme : String) : Nat := if scheme = "https" then 443 else 80

/-- Host and socket number; the usual one is left out. -/
def readAuthority (scheme : String) (s : List Char) : Option String := do
  let s := (s.reverse.takeWhile (· ≠ '@')).reverse
  let isOpen := s.head? = some '['
  let host := if isOpen then s.takeWhile (· ≠ ']') ++ [']'] else s.takeWhile (· ≠ ':')
  let rest := s.drop host.length
  let name ← readHost host
  match rest with
  | [] | [':'] => return name
  | ':' :: number =>
    let n ← digits? number
    if 65535 < n then none
    else return if n = usualSocket scheme then name else name ++ ":" ++ decimal n
  | _ => none

/-! ## Whole addresses -/

def isAround (c : Char) : Bool := c.toNat ≤ 0x20

def isSchemeChar (c : Char) : Bool := Text.isAlphanumeric c || c = '+' || c = '-' || c = '.'

/-- What stands before the first character of a set, and the rest. -/
def cutAt (stops : Char → Bool) (s : List Char) : List Char × List Char :=
  (s.takeWhile fun c => !stops c, s.dropWhile fun c => !stops c)

def after (mark : Char) (set : Char → Bool) (s : List Char) : Option String :=
  match s with
  | c :: rest => if c = mark then some (String.ofList (encode set rest)) else none
  | [] => none

/-- Reads an address; nothing comes of a text that is none. -/
def parse? (text : String) : Option Url := do
  let s := (Text.trimBy isAround text.toList).filter fun c => !"\t\n\r".contains c
  let (scheme, rest) := cutAt (fun c => !isSchemeChar c) s
  let first ← scheme.head?
  if !(Text.isUpper first || Text.isLower first) || rest.head? ≠ some ':' then none
  else
    let scheme := String.ofList (scheme.map Text.toLower)
    let (front, behind) := cutAt (· = '#') (rest.drop 1)
    let fragment := after '#' inFragment behind
    let (front, asked) := cutAt (· = '?') front
    let query := after '?' inQuery asked
    if scheme = "http" || scheme = "https" then
      let (authority, path) := cutAt isSlash (front.dropWhile isSlash)
      let host ← readAuthority scheme authority
      return ⟨scheme, some host, readPath path, query, fragment⟩
    else
      let (host, path) := match front with
        | '/' :: '/' :: '/' :: _ => (none, front)
        | '/' :: '/' :: host :: rest =>
          let (host, path) := cutAt (· = '/') (host :: rest)
          (some (String.ofList (encode isControl host)), path)
        | _ => (none, front)
      return ⟨scheme, host, String.ofList (encode isControl path), query, fragment⟩

def isWeb (u : Url) : Bool := u.scheme = "http" || u.scheme = "https"

/-- Path and query, as a server is asked for them. -/
def target (u : Url) : String := u.path ++ (u.query.map ("?" ++ ·)).getD ""

def text (u : Url) : String :=
  u.scheme ++ ":" ++ (u.host.map ("//" ++ ·)).getD "" ++ u.target ++
    (u.fragment.map ("#" ++ ·)).getD ""

/-- The address with the fields of a form added to its query. -/
def withForm (u : Url) (fields : List (String × String)) : Url :=
  let added := formQuery fields
  { u with query := some (match Text.nonEmpty u.query with
    | some q => q ++ "&" ++ added
    | none => added) }

end Url
end EventFlow
