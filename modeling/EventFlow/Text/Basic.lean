/-
  EventFlow.Text.Basic — the operations on character lists that the other modules share:
  trimming blanks, ASCII case, filling a template, joining lines.

  A blank is a character with the Unicode property White_Space; core's own test knows
  the ASCII ones only. Case changes are ASCII: every name the program derives from a
  text keeps ASCII letters and digits only, so no other letter is ever changed.
-/

namespace EventFlow.Text

/-- The twenty-five characters with the property White_Space. -/
def isBlank (c : Char) : Bool :=
  let n := c.toNat
  (9 ≤ n && n ≤ 13) || n == 0x20 || n == 0x85 || n == 0xA0 || n == 0x1680 ||
    (0x2000 ≤ n && n ≤ 0x200A) || n == 0x2028 || n == 0x2029 || n == 0x202F ||
    n == 0x205F || n == 0x3000

def isUpper (c : Char) : Bool := 'A' ≤ c && c ≤ 'Z'
def isLower (c : Char) : Bool := 'a' ≤ c && c ≤ 'z'
def isDigit (c : Char) : Bool := '0' ≤ c && c ≤ '9'
def isAlphanumeric (c : Char) : Bool := isUpper c || isLower c || isDigit c

def toLower (c : Char) : Char := if isUpper c then Char.ofNat (c.toNat + 32) else c
def toUpper (c : Char) : Char := if isLower c then Char.ofNat (c.toNat - 32) else c

def trimRightBy (drop : Char → Bool) (s : List Char) : List Char :=
  (s.reverse.dropWhile drop).reverse

def trimBy (drop : Char → Bool) (s : List Char) : List Char :=
  trimRightBy drop (s.dropWhile drop)

def trim (s : List Char) : List Char := trimBy isBlank s

/-- Replaces from left to right; what was put in is not looked at again. The counter
skips the rest of an occurrence. -/
def replaceFrom (needle value : List Char) : Nat → List Char → List Char
  | _, [] => []
  | skip + 1, _ :: rest => replaceFrom needle value skip rest
  | 0, c :: rest =>
    if needle.isPrefixOf (c :: rest) then
      value ++ replaceFrom needle value (needle.length - 1) rest
    else c :: replaceFrom needle value 0 rest

/-- Every occurrence of a non-empty `needle`, in the text as it stands, becomes `value`. -/
def replaceAll (needle value text : List Char) : List Char := replaceFrom needle value 0 text

/-- The maximal runs of characters that satisfy `keep`. `word` holds the run being read,
last character first. -/
def runsFrom (keep : Char → Bool) (word : List Char) : List Char → List (List Char)
  | [] => if word.isEmpty then [] else [word.reverse]
  | c :: rest =>
    if keep c then runsFrom keep (c :: word) rest
    else if word.isEmpty then runsFrom keep [] rest
    else word.reverse :: runsFrom keep [] rest

def runs (keep : Char → Bool) (s : List Char) : List (List Char) := runsFrom keep [] s

def join (sep : String) (parts : List String) : String := sep.intercalate parts

/-- Bytes of the UTF-8 form. -/
def utf8Length (s : List Char) : Nat := s.foldl (fun n c => n + c.utf8Size) 0

def startsWith (s : String) (start : String) : Bool := start.toList.isPrefixOf s.toList

/-- A text that is present and not empty. -/
def nonEmpty : Option String → Option String
  | some s => if s.isEmpty then none else some s
  | none => none

end EventFlow.Text
