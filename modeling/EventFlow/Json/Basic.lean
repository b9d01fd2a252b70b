/-
  EventFlow.Json.Basic — JSON values.

  An object keeps its entries in the order in which they are written. Where the program
  fixes the order (its own records) that is the order of declaration; a free-form value
  has its keys sorted by code point, each once (`sorted`), so two free-form values are
  the same exactly if they print the same.
-/

import EventFlow.Binary.Single
import EventFlow.Dictionary

namespace EventFlow

/-- `int` for the integers that fit 64 bits, signed or not; every other number is a
`double`. A `single` only arises where a record is written. -/
inductive JsonNumber where
  | int (value : Int)
  | double (value : Binary)
  | single (value : Binary)
  deriving DecidableEq, Inhabited

inductive Json where
  | null
  | bool (value : Bool)
  | num (value : JsonNumber)
  | str (value : String)
  | arr (items : List Json)
  | obj (fields : List (String × Json))
  deriving Inhabited

namespace Json

def ofDictionary (d : Dictionary Json) : Json := .obj d.entries

mutual

/-- The value with the keys of all its objects sorted. -/
def sorted : Json → Json
  | .arr items => .arr (sortedItems items)
  | .obj fields => ofDictionary (.ofEntries (sortedEntries fields))
  | v => v

def sortedItems : List Json → List Json
  | [] => []
  | v :: rest => sorted v :: sortedItems rest

def sortedEntries : List (String × Json) → List (String × Json)
  | [] => []
  | (k, v) :: rest => (k, sorted v) :: sortedEntries rest

end

def nat (n : Nat) : Json := .num (.int n)

/-- A number outside the finite range is written as null. -/
def ofDouble (x : Binary) : Json := if x.isFinite then .num (.double x) else .null

def ofSingle (x : Single) : Json :=
  if x.value.isFinite then .num (.single x.value) else .null

/-- A number of single precision, written as a double. -/
def ofWidened (x : Single) : Json := ofDouble x.value

def ofOption {α : Type} (f : α → Json) : Option α → Json
  | some a => f a
  | none => .null

/-- An entry that is left out when there is nothing to write. -/
def entry? {α : Type} (key : String) (f : α → Json) : Option α → List (String × Json)
  | some a => [(key, f a)]
  | none => []

/-- The entry of an object, if the value is one. -/
def field? (key : String) : Json → Option Json
  | .obj fields => (fields.find? (·.1 = key)).map (·.2)
  | _ => none

def isNull : Json → Bool
  | .null => true
  | _ => false

end Json
end EventFlow
