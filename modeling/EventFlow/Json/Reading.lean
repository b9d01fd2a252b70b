/-
  EventFlow.Json.Reading — readers of plain values.

  A reader takes an outline to a value or to the first fault it meets. A value of the
  wrong kind is refused at its first character, so a list or an object counts as such
  however it goes on; a number or a text has to be whole before it can be the wrong one.
-/

import EventFlow.Json.Scanner

namespace EventFlow

abbrev Reader (α : Type) := Outline → Except JsonFault α

namespace Reader

def syntaxFault {α : Type} (fault : SyntaxFault) : Except JsonFault α := .error (.inText fault)

def dataFault {α : Type} (fault : DataFault) : Except JsonFault α := .error (.inData fault)

def wrongType {α : Type} (found : Unexpected) (expected : String) : Except JsonFault α :=
  dataFault (.invalidType found expected)

/-- Refuses a value that is not what was expected. -/
def mismatch {α : Type} (expected : String) : Reader α
  | .null => wrongType .null expected
  | .bool b => wrongType (.bool b) expected
  | .num n => wrongType (.number n) expected
  | .hugeNum => syntaxFault .numberTooLarge
  | .str s => wrongType (.text s) expected
  | .faultyStr f => syntaxFault f
  | .arr .. => wrongType .sequence expected
  | .obj .. => wrongType .map expected
  | .broken _ f _ => syntaxFault f

def text : Reader String
  | .str s => .ok s
  | v => mismatch "a string" v

def bool : Reader Bool
  | .bool b => .ok b
  | v => mismatch "a boolean" v

/-- A whole number below `bound`. -/
def natural (bound : Nat) (expected : String) : Reader Nat
  | .num (.int n) =>
    if 0 ≤ n && n < bound then .ok n.toNat
    else dataFault (.invalidValue (.number (.int n)) expected)
  | v => mismatch expected v

def natural32 : Reader Nat := natural UInt32.size "u32"

def natural64 : Reader Nat := natural UInt64.size "u64"

/-- A count of things in memory. -/
def size : Reader Nat := natural UInt64.size "usize"

/-- A number, before it is moved into a format. -/
def number (expected : String) : Reader Binary
  | .num (.int n) => .ok (Binary.ofParts (n < 0) n.natAbs 0)
  | .num (.double x) => .ok x
  | .num (.single x) => .ok x
  | v => mismatch expected v

def double : Reader Binary := fun v => (number "f64" v).map BinaryFormat.double.ofBinary

def single : Reader Single := fun v => (number "f32" v).map Single.ofBinary

def option {α : Type} (read : Reader α) : Reader (Option α)
  | .null => .ok none
  | v => (read v).map some

/-- The items in order; a list that breaks off fails after its last item. -/
def readItems {α : Type} (read : Reader α) : List Outline → Close → Except JsonFault (List α)
  | [], .cut rest => syntaxFault (Outline.listFault rest)
  | [], _ => .ok []
  | v :: rest, close => do
    let a ← read v
    let as ← readItems read rest close
    return a :: as

def list {α : Type} (read : Reader α) : Reader (List α)
  | .arr deep items close =>
    if deep then syntaxFault .tooDeep else readItems read items close
  | v => mismatch "a sequence" v

def key : Key → Except JsonFault String
  | .ok k => .ok k
  | .error f => syntaxFault f

/-- The entries in order, repeated keys kept. `first` holds before the first entry. -/
def readEntries {α : Type} (read : Reader α) (first : Bool) :
    List (Key × Outline) → Close → Except JsonFault (List (String × α))
  | [], .cut rest => syntaxFault (Outline.objectFault first rest)
  | [], _ => .ok []
  | (k, v) :: rest, close => do
    let name ← key k
    let a ← read v
    let entries ← readEntries read false rest close
    return (name, a) :: entries

/-- A map by key; of two entries with one key the later wins. -/
def map {α : Type} (read : Reader α) : Reader (Dictionary α)
  | .obj deep fields close =>
    if deep then syntaxFault .tooDeep
    else (readEntries read true fields close).map .ofEntries
  | v => mismatch "a map" v

/-! ## Values of any kind -/

mutual

/-- The value tree that an outline stands for, its objects as they are written. -/
def tree : Reader Json
  | .null => .ok .null
  | .bool b => .ok (.bool b)
  | .num n => .ok (.num n)
  | .hugeNum => syntaxFault .numberTooLarge
  | .str s => .ok (.str s)
  | .faultyStr f => syntaxFault f
  | .arr true _ _ => syntaxFault .tooDeep
  | .arr false items close => (treeItems items close).map .arr
  | .obj true _ _ => syntaxFault .tooDeep
  | .obj false fields close => (treeFields true fields close).map .obj
  | .broken _ f _ => syntaxFault f

def treeItems : List Outline → Close → Except JsonFault (List Json)
  | [], .cut rest => syntaxFault (Outline.listFault rest)
  | [], _ => .ok []
  | v :: rest, close => do
    let a ← tree v
    let as ← treeItems rest close
    return a :: as

def treeFields (first : Bool) :
    List (Key × Outline) → Close → Except JsonFault (List (String × Json))
  | [], .cut rest => syntaxFault (Outline.objectFault first rest)
  | [], _ => .ok []
  | (k, v) :: rest, close => do
    let name ← key k
    let a ← tree v
    let entries ← treeFields false rest close
    return (name, a) :: entries

end

/-- A free-form value, the keys of its objects sorted. -/
def json : Reader Json := fun v => (tree v).map Json.sorted

/-- A value read in full before it is known what it has to be. -/
def setAside : Reader Outline := fun v => (tree v).map (Outline.ofTree .setAside)

/-- Reads a whole text: blanks may follow the value, nothing else. -/
def ofText {α : Type} (read : Reader α) (s : String) : Except JsonFault α := do
  let (outline, rest) := Outline.scan s.toList
  let value ← read outline
  match rest with
  | some r => if (Outline.skipSpace r).isEmpty then return value else syntaxFault .trailingCharacters
  | none => return value

/-- Reads a value tree. -/
def ofJson {α : Type} (read : Reader α) (v : Json) : Except JsonFault α := read (Outline.ofJson v)

end Reader
end EventFlow
