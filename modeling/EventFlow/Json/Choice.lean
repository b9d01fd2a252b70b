/-
  EventFlow.Json.Choice — readers of values that are one of several things.

  A bare choice is written as its name, or as an object with the name as its only key and
  null as its value. A tagged choice is an object whose tag names the alternative; the
  other fields are read once the tag is known, wherever it stands. An untagged choice is
  whatever alternative fits first.
-/

import EventFlow.Json.Record

namespace EventFlow.Reader

/-! ## Bare choices -/

def variant {α : Type} (known : List (String × α)) (name : String) : Except JsonFault α :=
  match known.find? (·.1 = name) with
  | some (_, a) => .ok a
  | none => dataFault (.unknownVariant name (known.map (·.1)))

def unit : Reader Unit
  | .null => .ok ()
  | v => mismatch "unit" v

/-- What stands before the closing bracket of an object that has had its one entry. -/
def loneEntryFault : List Char → SyntaxFault
  | [] => .endInObject
  | _ => .expectedValue

/-- A name out of a list of them. -/
def choice {α : Type} (known : List (String × α)) : Reader α
  | .str s => variant known s
  | .faultyStr f => syntaxFault f
  | .broken none f _ => syntaxFault f
  | .broken (some '"') f _ => syntaxFault f
  | .obj true _ _ => syntaxFault .tooDeep
  | .obj false [] (.cut rest) =>
    match rest.head? with
    | some '"' => syntaxFault (Outline.objectFault true rest)
    | _ => mismatch "variant identifier" (Outline.scan rest).1
  | .obj false ((k, v) :: more) close => do
    let name ← key k
    let a ← variant known name
    unit v
    match more, close with
    | [], .cut rest => syntaxFault (loneEntryFault rest)
    | [], _ => return a
    | _, _ => syntaxFault .expectedValue
  | _ => syntaxFault .expectedValue

/-! ## Tagged choices -/

/-- The alternatives of a tagged choice by their tags, and what any other tag means, if
it means anything. -/
structure Alternatives (α : Type) where
  known : List (String × Reader α)
  other : Option (Reader α) := none

def Alternatives.get {α : Type} (alts : Alternatives α) (tag : String) :
    Except JsonFault (Reader α) :=
  match alts.other with
  | some read => .ok (((alts.known.find? (·.1 = tag)).map (·.2)).getD read)
  | none => variant alts.known tag

def Alternatives.ofTag {α : Type} (alts : Alternatives α) : Reader (Reader α)
  | .str s => alts.get s
  | v => mismatch "variant identifier" v

/-- The fields of an object, parted into the alternative that the tag names and the rest. -/
def splitTag {α : Type} (tag : String) (alts : Alternatives α) (first : Bool) :
    List (Key × Outline) → Close → Option (Reader α) →
      Except JsonFault (Option (Reader α) × List (Key × Outline))
  | [], .cut rest, _ => syntaxFault (Outline.objectFault first rest)
  | [], _, found => .ok (found, [])
  | (k, v) :: rest, close, found => do
    let name ← key k
    if name = tag then
      if found.isSome then dataFault (.duplicate tag)
      else
        let read ← alts.ofTag v
        splitTag tag alts false rest close (some read)
    else
      let content ← setAside v
      let (found, others) ← splitTag tag alts false rest close found
      return (found, (.ok name, content) :: others)

/-- An object with a tag, or a list that starts with it. Each alternative reads what is
left as an object or a list that was set aside. -/
def tagged {α : Type} (title tag : String) (alts : Alternatives α) : Reader α
  | .obj deep fields close =>
    if deep then syntaxFault .tooDeep
    else do
      match ← splitTag tag alts true fields close none with
      | (some read, others) => read (.obj false others .bracket)
      | (none, _) => dataFault (.missing tag)
  | .arr deep items close =>
    if deep then syntaxFault .tooDeep
    else match items, close with
      | [], .cut rest => syntaxFault (Outline.listFault rest)
      | [], _ => dataFault (.missing tag)
      | v :: rest, close => do
        let read ← alts.ofTag v
        let others ← treeItems rest close
        read (.arr false (Outline.ofTreeItems .setAside others) .setAside)
  | v => mismatch ("internally tagged enum " ++ title) v

/-- An alternative without fields of its own: other fields do not matter, items do. -/
def nothing {α : Type} (a : α) : Reader α
  | .arr _ items close =>
    if items.isEmpty then .ok a else Shape.surplus close 0 items.length a
  | _ => .ok a

/-! ## Untagged choices -/

/-- The first alternative that fits a value which was set aside. -/
def untagged {α : Type} (title : String) (alternatives : List (Reader α)) : Reader α := fun v => do
  let content ← setAside v
  match alternatives.findSome? (fun read => (read content).toOption) with
  | some a => return a
  | none => dataFault (.noAlternative title)

end EventFlow.Reader
