/-
  EventFlow.Toml.Basic — TOML values, and adding to a table.

  A table remembers how it came to be, because that decides who may still add to it: a
  header may open a table that other headers only passed through, dotted keys may add to
  tables that dotted keys made, and a table between braces is closed.
-/

import EventFlow.Json.Outline

namespace EventFlow

/-- How a table came to be. -/
inductive Origin where
  /-- It has a header of its own, or is the whole text. -/
  | header
  /-- Headers of tables inside it imply it. -/
  | implied
  /-- Dotted keys imply it. -/
  | dotted
  /-- It stands between braces. -/
  | braces
  deriving DecidableEq, Inhabited

inductive Toml where
  | text (value : String)
  | int (value : Int)
  /-- None is what is not a number. -/
  | float (value : Option Binary)
  | bool (value : Bool)
  /-- A date, a time or both, as written. -/
  | time (written : String)
  | list (items : List Toml)
  | table (origin : Origin) (entries : List (String × Toml))
  /-- The tables of one repeated header, the last one first. -/
  | tables (last : List (String × Toml)) (earlier : List Toml)
  deriving Inhabited

namespace Toml

abbrev Entries := List (String × Toml)

def get? (key : String) (entries : Entries) : Option Toml :=
  (entries.find? (·.1 = key)).map (·.2)

/-- Puts a value under a key, in the place of the old one if there is one. -/
def set (key : String) (value : Toml) : Entries → Entries
  | [] => [(key, value)]
  | (k, v) :: rest => if k = key then (key, value) :: rest else (k, v) :: set key value rest

/-- Changes the table that the keys lead to. Tables on the way that do not exist are
made; of a repeated header the last table is meant. Dotted keys do not lead into tables
with a header. -/
def within (dotted : Bool) (change : Origin → Entries → Option Entries) :
    List String → Origin → Entries → Option Entries
  | [], origin, entries => change origin entries
  | key :: path, _, entries =>
    match get? key entries with
    | none => do
      let origin := if dotted then .dotted else .implied
      let inner ← within dotted change path origin []
      return set key (.table origin inner) entries
    | some (.table origin inner) =>
      if origin = .braces || (dotted && origin = .header) then none
      else do
        let inner ← within dotted change path origin inner
        return set key (.table origin inner) entries
    | some (.tables last earlier) => do
      let last ← within dotted change path .header last
      return set key (.tables last earlier) entries
    | some _ => none

/-- Adds a value under a key, dotted or not, that must be new. -/
def insert (path : List String) (key : String) (value : Toml) (origin : Origin)
    (entries : Entries) : Option Entries :=
  within true (fun origin entries =>
    if (origin = .dotted) = path.isEmpty then none
    else if (get? key entries).isSome then none
    else some (set key value entries)) path origin entries

/-- Opens the table of a header. -/
def openTable (path : List String) (key : String) (root : Entries) : Option Entries :=
  within false (fun _ entries =>
    match get? key entries with
    | none => some (set key (.table .header []) entries)
    | some (.table .implied inner) => some (set key (.table .header inner) entries)
    | some _ => none) path .header root

/-- Opens one more table of a repeated header. -/
def openNext (path : List String) (key : String) (root : Entries) : Option Entries :=
  within false (fun _ entries =>
    match get? key entries with
    | none => some (set key (.tables [] []) entries)
    | some (.tables last earlier) =>
      some (set key (.tables [] (.table .header last :: earlier)) entries)
    | some _ => none) path .header root

mutual

/-- The value as an outline, for the readers of records. No reader of a text, a whole
number or a truth value takes a time, or what is not a number. -/
def outline : Toml → Outline
  | .text s => .str s
  | .int n => .num (.int n)
  | .float x => .num (.double (x.getD (.infinite false)))
  | .bool b => .bool b
  | .time written => .obj false [(.ok "time", .str written)] .bracket
  | .list items => .arr false (outlineItems items) .lenient
  | .table _ entries => .obj false (outlineEntries entries) .bracket
  | .tables last earlier =>
    .arr false ((outlineItems earlier).reverse ++ [.obj false (outlineEntries last) .bracket])
      .lenient

def outlineItems : List Toml → List Outline
  | [] => []
  | v :: rest => outline v :: outlineItems rest

def outlineEntries : Entries → List (Key × Outline)
  | [] => []
  | (k, v) :: rest => (.ok k, outline v) :: outlineEntries rest

end

end Toml
end EventFlow
