/-
  EventFlow.Json.Record — readers of records.

  A record is written as an object or, less often, as a list of its fields in order. Its
  shape lists the fields once, for both forms: the name, other names that are also
  understood, whether the field may be missing, and where its value goes. An object may
  hold fields that the record does not know, but a field twice is a fault.
-/

import EventFlow.Json.Reading

namespace EventFlow

/-- What a missing field means. -/
inductive Need where
  | required
  /-- May be missing from an object, but not from a list. -/
  | optional
  /-- May be missing from both: it then has its usual value. -/
  | defaulted
  deriving DecidableEq

structure Slot (σ : Type) where
  name : String
  aliases : List String := []
  need : Need := .required
  store : Outline → σ → Except JsonFault σ

/-- A field whose reader and place are given apart. -/
def Slot.of {σ α : Type} (name : String) (need : Need) (read : Reader α) (put : α → σ → σ)
    (aliases : List String := []) : Slot σ :=
  { name, aliases, need, store := fun v s => (read v).map (put · s) }

structure Shape (σ : Type) where
  title : String
  slots : List (Slot σ)

namespace Shape

variable {σ : Type}

def expected (shape : Shape σ) : String := "struct " ++ shape.title

/-- The expectation named when a list has too few fields. -/
def expectedLength (shape : Shape σ) : String :=
  shape.expected ++ " with " ++ toString shape.slots.length ++
    (if shape.slots.length = 1 then " element" else " elements")

def slot? (slots : List (Slot σ)) (name : String) : Option (Slot σ) :=
  slots.find? (fun s => s.name = name || s.aliases.contains name)

/-- The object form. `seen` names the fields met so far. -/
def readFields (slots : List (Slot σ)) (first : Bool) :
    List (Key × Outline) → Close → List String → σ → Except JsonFault (List String × σ)
  | [], .cut rest, _, _ => Reader.syntaxFault (Outline.objectFault first rest)
  | [], _, seen, acc => .ok (seen, acc)
  | (k, v) :: rest, close, seen, acc => do
    let name ← Reader.key k
    match slot? slots name with
    | none =>
      match Outline.skipFault? v with
      | some f => Reader.syntaxFault f
      | none => readFields slots false rest close seen acc
    | some slot =>
      if seen.contains slot.name then Reader.dataFault (.duplicate slot.name)
      else
        let acc ← slot.store v acc
        readFields slots false rest close (slot.name :: seen) acc

/-- The first field that must not be missing and is. -/
def firstMissing? (slots : List (Slot σ)) (seen : List String) : Option String :=
  (slots.find? (fun s => s.need = .required && !seen.contains s.name)).map (·.name)

/-- What surplus items of a list mean, `taken` of its `n` items being wanted. -/
def surplus (close : Close) (taken n : Nat) (acc : σ) : Except JsonFault σ :=
  match close with
  | .tree => Reader.dataFault (.invalidLength n "fewer elements in array")
  | .setAside =>
    Reader.dataFault (.invalidLength n
      (toString taken ++ (if taken = 1 then " element" else " elements") ++ " in sequence"))
  | .lenient => .ok acc
  | _ => Reader.syntaxFault .trailingCharacters

/-- The list form, from field number `i` on. -/
def readItems (shape : Shape σ) : List (Slot σ) → Nat → List Outline → Close → σ →
    Except JsonFault σ
  | [], _, [], .cut rest, _ => Reader.syntaxFault (Outline.listEndFault rest)
  | [], _, [], _, acc => .ok acc
  | [], i, more, close, acc => surplus close i (i + more.length) acc
  | _, _, [], .cut rest, _ => Reader.syntaxFault (Outline.listFault rest)
  | slot :: slots, i, [], close, acc =>
    if slot.need = .defaulted then readItems shape slots (i + 1) [] close acc
    else Reader.dataFault (.invalidLength i shape.expectedLength)
  | slot :: slots, i, v :: rest, close, acc => do
    let acc ← slot.store v acc
    readItems shape slots (i + 1) rest close acc

/-- Reads a record; `blank` has the values of fields that are missing. -/
def read (shape : Shape σ) (blank : σ) : Reader σ
  | .obj deep fields close =>
    if deep then Reader.syntaxFault .tooDeep
    else do
      let (seen, acc) ← readFields shape.slots true fields close [] blank
      match firstMissing? shape.slots seen with
      | some name => Reader.dataFault (.missing name)
      | none => return acc
  | .arr deep items close =>
    if deep then Reader.syntaxFault .tooDeep
    else readItems shape shape.slots 0 items close blank
  | v => Reader.mismatch shape.expected v

end Shape
end EventFlow
