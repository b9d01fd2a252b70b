/-
  EventFlow.Proofs.Agent.Retrieval — a response is read in full or not at all.

  The passages of a response are a list in a record, and what the record does not know is passed over. But a
  list is read only if all its items are, and a text that is not read has no passages. So an entry that
  cannot be read takes all others with it, wherever it stands, and what is left looks like a search that
  found nothing (`passage_lost`). An entry that only lacks something can be read.

  Proved:
  - `toOption_readItems`: a list is read as its items are, one by one, if all of them are.
  - `readFields_unknown`: a record passes over what it does not know.
  - `ofText_passages`: a response is read as the list of its entries.
  - `entry_recovers`: an entry has the text, the score and the metadata that are in it.
  - `readPassages_entries`: all passages or none, and when these are the passages that can be read.
-/

import EventFlow.Agent.Retrieval
import EventFlow.Proofs.Json.Yields
import EventFlow.Proofs.Json.Number

namespace EventFlow

/-! ## Lists and records -/

namespace Reader

variable {α : Type}

theorem toOption_readItems (read : Reader α) {close : Close} (whole : Whole close) (items : List Outline) :
    (readItems read items close).toOption = items.mapM fun o => (read o).toOption := by
  induction items with
  | nil =>
    cases close with
    | cut rest => exact absurd rfl (whole rest)
    | _ => rfl
  | cons o items ih =>
    rw [readItems, List.mapM_cons, ← ih]
    cases read o with
    | error f => rfl
    | ok a => cases readItems read items close <;> rfl

end Reader

namespace Shape

variable {σ : Type}

/-- What stands under a name that the record does not know, and can be passed over. -/
def Unknown (slots : List (Slot σ)) (e : Key × Outline) : Prop :=
  ∃ name, e.1 = .ok name ∧ slot? slots name = none ∧ Outline.skipFault? e.2 = none

theorem readFields_unknown {slots : List (Slot σ)} {close : Close} {seen : List String} {acc : σ}
    {fields : List (Key × Outline)} (unknown : ∀ e ∈ fields, Unknown slots e) (first : Bool) (rest : List (Key × Outline)) :
    readFields slots first (fields ++ rest) close seen acc = readFields slots (first && fields.isEmpty) rest close seen acc := by
  induction fields generalizing first with
  | nil => simp
  | cons e fields ih =>
    obtain ⟨name, key, foreign, passes⟩ := unknown e List.mem_cons_self
    obtain ⟨k, v⟩ := e
    subst key
    have others := ih (fun e he => unknown e (List.mem_cons_of_mem _ he)) false
    rw [Bool.false_and] at others
    rw [List.cons_append, readFields, List.isEmpty_cons, Bool.and_false, ← others]
    simp only [Reader.key, bind, Except.bind, foreign, passes]

end Shape

section

variable {α β : Type} {f : α → Option β} {as : List α}

theorem mapM_eq_filterMap (all : ∀ a ∈ as, (f a).isSome = true) : as.mapM f = some (as.filterMap f) := by
  induction as with
  | nil => rfl
  | cons a as ih =>
    obtain ⟨b, here⟩ := Option.isSome_iff_exists.mp (all a List.mem_cons_self)
    rw [List.mapM_cons, here, ih fun a ha => all a (List.mem_cons_of_mem _ ha), List.filterMap_cons_some here]
    rfl

theorem mapM_eq_none {a : α} (member : a ∈ as) (fails : f a = none) : as.mapM f = none := by
  induction as with
  | nil => cases member
  | cons b as ih =>
    rw [List.mapM_cons]
    rcases List.mem_cons.mp member with rfl | member
    · rw [fails]
      rfl
    · rw [ih member]
      cases f b <;> rfl

end

namespace RetrievalClient

open Outline

/-! ## Entries -/

def passage? (entry : Outline) : Option Passage := (passageShape.read {} entry).toOption

/-- An entry as it is written: a text and metadata under `node`, and a score. Each part may be left out. -/
def entry (node : Option (Option String × Option Json)) (score : Option Binary) : Json :=
  .obj (Json.entry? "node" (fun b => .obj (Json.entry? "text" .str b.1 ++ Json.entry? "metadata" id b.2)) node ++
    Json.entry? "score" .ofDouble score)

theorem body_recovers {n : Nat} (text : Option String) {metadata : Option Json} (settled : ∀ m ∈ metadata, m.Settled n) :
    Reader.Recovers (bodyShape.read ("", .null)) (n + 1)
      (.obj (Json.entry? "text" .str text ++ Json.entry? "metadata" id metadata)) (text.getD "", metadata.getD .null) := by
  refine Shape.recovers ⟨by decide, by simp [bodyShape, Slot.apart_of]⟩ ?_
  rw [← List.append_nil (Json.entry? "metadata" ..)]
  refine .perhaps nofun ?_ (by rintro rfl; rfl) (.perhaps nofun ?_ (by rintro rfl; rfl) .nil)
  case refine_1 =>
    rintro t rfl
    exact .text t
  case refine_2 =>
    rintro m rfl
    exact .json (settled m rfl).sorted (settled m rfl).readable

theorem score_recovers {n : Nat} {x : Binary} (holds : BinaryFormat.double.Holds x) (finite : x.isFinite = true) :
    Reader.Recovers (Reader.option Reader.double) n (.ofDouble x) (some x) := by
  have reads (close : Close) : Reader.double (ofTree close (.num (.double x))) = .ok x :=
    congrArg Except.ok (BinaryFormat.ofBinary_eq (by decide) (by decide) holds)
  have recovers : Reader.Recovers Reader.double n (.num (.double x)) x :=
    ⟨fun close _ => reads close, fun close _ => reads close, .num (readsBack_double holds finite)⟩
  rw [Json.ofDouble, if_pos finite]
  exact recovers.option nofun

/-- An entry has the text, the score and the metadata that are in it, and has an empty text, no score or no
    metadata if they are left out. -/
theorem entry_recovers {node : Option (Option String × Option Json)} {score : Option Binary} {n : Nat}
    (settled : ∀ b ∈ node, ∀ m ∈ b.2, m.Settled n) (double : ∀ x ∈ score, BinaryFormat.double.Holds x ∧ x.isFinite = true) :
    Reader.Recovers (passageShape.read {}) (n + 2) (entry node score)
      { text := (node.bind (·.1)).getD "", score, metadata := (node.bind (·.2)).getD .null } := by
  refine Shape.recovers ⟨by decide, by simp [passageShape, Slot.apart_of]⟩ ?_
  rw [← List.append_nil (Json.entry? "score" ..)]
  refine .perhaps (x := ((node.bind (·.1)).getD "", (node.bind (·.2)).getD .null)) nofun ?_ (by rintro rfl; rfl)
    (.perhaps (x := score) nofun ?_ (by rintro rfl; rfl) .nil)
  case refine_1 =>
    rintro ⟨text, metadata⟩ rfl
    exact body_recovers text (settled _ rfl)
  case refine_2 =>
    rintro x rfl
    exact score_recovers (double x rfl).1 (double x rfl).2

theorem passage?_of_recovers {v : Json} {p : Passage} {n : Nat} (h : Reader.Recovers (passageShape.read {}) n v p) :
    passage? (ofTree .bracket v) = some p := congrArg Except.toOption (h.written .bracket Reader.whole_bracket)

/-! ## Responses -/

/-- The text is an object with a list of these entries under `nodes`. What else is in the object can be passed over. -/
def Lists (text : String) (entries : List Outline) : Prop :=
  ∃ before after rest,
    scan text.toList = (.obj false (before ++ (.ok "nodes", .arr false entries .bracket) :: after) .bracket, some rest) ∧
    skipSpace rest = [] ∧ ∀ e ∈ before ++ after, Shape.Unknown passagesShape.slots e

def response (entries : List Json) : String := (Json.obj [("nodes", .arr entries)]).compact

theorem lists_response {entries : List Json} (readable : ∀ v ∈ entries, v.Readable (depthLimit - 2)) :
    Lists (response entries) (entries.map (ofTree .bracket)) := by
  have list : (Json.arr entries).Readable (depthLimit - 2 + 1) := .arr readable
  have whole : (Json.obj [("nodes", .arr entries)]).Readable depthLimit := .obj (List.forall_mem_singleton.mpr list)
  refine ⟨[], [], [], ?_, rfl, nofun⟩
  rw [response, scan_compact whole.legible, ofTreeIn_zero whole.depth_le, ofTree, ofTreeFields, ofTreeFields, ofTree,
    ofTreeItems_eq_map]
  rfl

theorem ofText_passages {text : String} {entries : List Outline} (lists : Lists text entries) :
    Reader.ofText (passagesShape.read []) text = Reader.readItems (passageShape.read {}) entries .bracket := by
  obtain ⟨before, after, rest, scanned, blank, unknown⟩ := lists
  have front : ∀ e ∈ before, Shape.Unknown passagesShape.slots e := fun e he => unknown e (List.mem_append_left _ he)
  have back : ∀ e ∈ after, Shape.Unknown passagesShape.slots e := fun e he => unknown e (List.mem_append_right _ he)
  have record : passagesShape.read [] (.obj false (before ++ (.ok "nodes", .arr false entries .bracket) :: after) .bracket) =
      Reader.readItems (passageShape.read {}) entries .bracket := by
    have known : Shape.slot? passagesShape.slots "nodes" =
        some (.of "nodes" .defaulted (Reader.list (passageShape.read {})) fun a _ => a) := rfl
    have last (seen : List String) (passages : List Passage) :
        Shape.readFields passagesShape.slots false after .bracket seen passages = .ok (seen, passages) := by
      rw [← List.append_nil after, Shape.readFields_unknown back]
      rfl
    have list : Reader.list (passageShape.read {}) (.arr false entries .bracket) =
        Reader.readItems (passageShape.read {}) entries .bracket := rfl
    rw [Shape.read, if_neg Bool.false_ne_true, Shape.readFields_unknown front, Shape.readFields, ← list]
    simp only [Reader.key, bind, Except.bind, known, Slot.of, List.contains_nil, Bool.false_eq_true, if_false]
    cases Reader.list (passageShape.read {}) (.arr false entries .bracket) with
    | error f => rfl
    | ok passages =>
      simp only [Except.map, last]
      rfl
  rw [Reader.ofText, scanned]
  simp only [bind, Except.bind, record, blank]
  cases Reader.readItems (passageShape.read {}) entries .bracket <;> rfl

theorem readPassages_eq {text : String} {entries : List Outline} (lists : Lists text entries) :
    readPassages text = (entries.mapM passage?).getD [] := by
  have all := Reader.toOption_readItems (passageShape.read {}) Reader.whole_bracket entries
  rw [readPassages, ofText_passages lists]
  show _ = (entries.mapM fun o => (passageShape.read {} o).toOption).getD []
  rw [← all]
  cases Reader.readItems (passageShape.read {}) entries .bracket <;> rfl

/-- All passages of a response are read, in their order, or none is. So the passages that can be read by themselves
    are returned just if all entries can be read, or none can. An entry can be read if it is written as an entry, and
    has the text, the score and the metadata that were written. -/
theorem readPassages_entries {text : String} {entries : List Outline} (lists : Lists text entries) :
    (∀ (node : Option (Option String × Option Json)) (score : Option Binary) (n : Nat),
      (∀ b ∈ node, ∀ m ∈ b.2, m.Settled n) → (∀ x ∈ score, BinaryFormat.double.Holds x ∧ x.isFinite = true) →
      passage? (ofTree .bracket (entry node score)) =
        some { text := (node.bind (·.1)).getD "", score, metadata := (node.bind (·.2)).getD .null }) ∧
    ((∀ e ∈ entries, (passage? e).isSome = true) → readPassages text = entries.filterMap passage?) ∧
    ((∃ e ∈ entries, passage? e = none) → readPassages text = []) ∧
    (readPassages text = entries.filterMap passage? ↔
      (∀ e ∈ entries, (passage? e).isSome = true) ∨ ∀ e ∈ entries, passage? e = none) := by
  have every (all : ∀ e ∈ entries, (passage? e).isSome = true) : readPassages text = entries.filterMap passage? := by
    rw [readPassages_eq lists, mapM_eq_filterMap all, Option.getD_some]
  have none' (some' : ∃ e ∈ entries, passage? e = none) : readPassages text = [] := by
    obtain ⟨e, he, fails⟩ := some'
    rw [readPassages_eq lists, mapM_eq_none he fails, Option.getD_none]
  refine ⟨fun node score n settled double => passage?_of_recovers (entry_recovers settled double), every, none',
    fun same => ?_, ?_⟩
  · by_cases all : ∀ e ∈ entries, (passage? e).isSome = true
    · exact .inl all
    · obtain ⟨e, he, fails⟩ : ∃ e ∈ entries, passage? e = none := by simpa using all
      rw [none' ⟨e, he, fails⟩] at same
      exact .inr (List.filterMap_eq_nil_iff.mp same.symm)
  · rintro (all | nothing)
    · exact every all
    · have empty : entries.filterMap passage? = [] := List.filterMap_eq_nil_iff.mpr nothing
      cases entries with
      | nil => exact every nofun
      | cons e entries => rw [empty, none' ⟨e, List.mem_cons_self, nothing e List.mem_cons_self⟩]

def half : Binary := .finite false 1 (-1)

theorem half_holds : ∀ x ∈ some half, BinaryFormat.double.Holds x ∧ x.isFinite = true := by
  rintro x ⟨⟩
  exact ⟨.inr ⟨rfl, by decide, by decide, by decide⟩, rfl⟩

def refunds : Json := entry (some (some "Refunds within 30 days", some (.obj [("file", .str "a.md")]))) (some half)

def scored : Json := entry none (some half)

/-- An entry with a text that is no text. -/
def textless : Json := .obj [("node", .obj [("text", .null)])]

theorem refunds_recovers : Reader.Recovers (passageShape.read {}) (depthLimit - 2) refunds
    { text := "Refunds within 30 days", score := some half, metadata := .obj [("file", .str "a.md")] } := by
  refine entry_recovers (n := depthLimit - 4) ?_ half_holds
  rintro b ⟨⟩ m ⟨⟩
  exact ⟨rfl, .obj (List.forall_mem_singleton.mpr (.str _))⟩

theorem scored_recovers : Reader.Recovers (passageShape.read {}) (depthLimit - 2) scored { score := some half } :=
  entry_recovers (n := depthLimit - 4) nofun half_holds

theorem passages_read : Lists (response [refunds, scored]) ([refunds, scored].map (ofTree .bracket)) ∧
    readPassages (response [refunds, scored]) =
      [{ text := "Refunds within 30 days", score := some half, metadata := .obj [("file", .str "a.md")] },
       { text := "", score := some half, metadata := .null }] := by
  have readable : ∀ v ∈ [refunds, scored], v.Readable (depthLimit - 2) := by
    simp [refunds_recovers.readable, scored_recovers.readable]
  have first := passage?_of_recovers refunds_recovers
  have second := passage?_of_recovers scored_recovers
  refine ⟨lists_response readable, ?_⟩
  rw [(readPassages_entries (lists_response readable)).2.1 (by simp [first, second])]
  simp [first, second]

/-- The first entry can be read and is not returned. -/
theorem passage_lost : Lists (response [refunds, textless]) ([refunds, textless].map (ofTree .bracket)) ∧
    passage? (ofTree .bracket refunds) =
      some { text := "Refunds within 30 days", score := some half, metadata := .obj [("file", .str "a.md")] } ∧
    readPassages (response [refunds, textless]) = [] := by
  have readable : ∀ v ∈ [refunds, textless], v.Readable (depthLimit - 2) := by
    have node : (Json.obj [("text", .null)]).Readable (depthLimit - 4 + 1) := .obj (List.forall_mem_singleton.mpr .null)
    have bad : textless.Readable (depthLimit - 4 + 2) := .obj (List.forall_mem_singleton.mpr node)
    exact List.forall_mem_cons.mpr ⟨refunds_recovers.readable, List.forall_mem_singleton.mpr bad⟩
  have lists := lists_response readable
  refine ⟨lists, passage?_of_recovers refunds_recovers, ?_⟩
  rw [readPassages_eq lists, mapM_eq_none (a := ofTree .bracket textless) (by simp) rfl, Option.getD_none]

end RetrievalClient
end EventFlow
