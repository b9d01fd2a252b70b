/-
  EventFlow.Proofs.Json.Layout — values are read as they were written, however they are set out.

  The compact text and the text set out over lines differ only in the blanks between items and behind
  colons. `Spacing` says where a layout leaves blanks; both texts are cases of one printer
  (`compactChars_eq`, `prettyChars_eq`). The scanner looks at nothing but what stands behind blanks, so
  a value is scanned from any layout, if its numbers are read back (`Json.Legible`). What it is scanned
  to is the value as it was written, with a mark on the lists and objects that nest too deep
  (`Outline.ofTreeIn`), so without any if the value does not (`Json.depth`).

  Proved:
  - `scanValue_chars`: a value in any layout and what stands behind it, by induction on the value.
  - `scan_compact` / `scan_pretty`: the two layouts that are written.
-/

import EventFlow.Proofs.Json.Text

namespace EventFlow

/-! ## Values -/

namespace Json

inductive Legible : Json → Prop
  | null : Legible .null
  | bool (b : Bool) : Legible (.bool b)
  | num {n : JsonNumber} (reads : n.ReadsBack) : Legible (.num n)
  | str (s : String) : Legible (.str s)
  | arr {items : List Json} (each : ∀ v ∈ items, Legible v) : Legible (.arr items)
  | obj {fields : List (String × Json)} (each : ∀ e ∈ fields, Legible e.2) : Legible (.obj fields)

mutual

/-- In how many lists and objects a value nests at most. -/
def depth : Json → Nat
  | .arr items => depthItems items + 1
  | .obj fields => depthFields fields + 1
  | _ => 0

def depthItems : List Json → Nat
  | [] => 0
  | v :: rest => max (depth v) (depthItems rest)

def depthFields : List (String × Json) → Nat
  | [] => 0
  | (_, v) :: rest => max (depth v) (depthFields rest)

end

theorem depthItems_le {n : Nat} {items : List Json} (each : ∀ v ∈ items, v.depth ≤ n) : depthItems items ≤ n := by
  induction items with
  | nil => exact Nat.zero_le n
  | cons v rest ih =>
    rw [depthItems]
    exact Nat.max_le.mpr ⟨each v List.mem_cons_self, ih fun w member => each w (List.mem_cons_of_mem _ member)⟩

theorem depthFields_le {n : Nat} {fields : List (String × Json)} (each : ∀ e ∈ fields, e.2.depth ≤ n) :
    depthFields fields ≤ n := by
  induction fields with
  | nil => exact Nat.zero_le n
  | cons e rest ih =>
    rw [depthFields]
    exact Nat.max_le.mpr ⟨each e List.mem_cons_self, ih fun f member => each f (List.mem_cons_of_mem _ member)⟩

end Json

namespace Outline

mutual

/-- The outline of a value that stands in `depth` lists and objects. -/
def ofTreeIn (depth : Nat) : Json → Outline
  | .null => .null
  | .bool b => .bool b
  | .num n => .num n
  | .str s => .str s
  | .arr items => .arr (depthLimit < depth + 1) (ofTreeItemsIn (depth + 1) items) .bracket
  | .obj fields => .obj (depthLimit < depth + 1) (ofTreeFieldsIn (depth + 1) fields) .bracket

def ofTreeItemsIn (depth : Nat) : List Json → List Outline
  | [] => []
  | v :: rest => ofTreeIn depth v :: ofTreeItemsIn depth rest

def ofTreeFieldsIn (depth : Nat) : List (String × Json) → List (Key × Outline)
  | [] => []
  | (k, v) :: rest => (.ok k, ofTreeIn depth v) :: ofTreeFieldsIn depth rest

end

mutual

/-- A value that does not nest too deep has no marks. -/
theorem ofTreeIn_eq : (v : Json) → ∀ {depth : Nat}, depth + v.depth ≤ depthLimit → ofTreeIn depth v = ofTree .bracket v
  | .null, _, _ | .bool _, _, _ | .num _, _, _ | .str _, _, _ => rfl
  | .arr items, depth, shallow => by
    rw [Json.depth] at shallow
    rw [ofTreeIn, ofTree, ofTreeItemsIn_eq items (by omega), decide_eq_false (by omega)]
  | .obj fields, depth, shallow => by
    rw [Json.depth] at shallow
    rw [ofTreeIn, ofTree, ofTreeFieldsIn_eq fields (by omega), decide_eq_false (by omega)]

theorem ofTreeItemsIn_eq : (items : List Json) → ∀ {depth : Nat}, depth + Json.depthItems items ≤ depthLimit →
    ofTreeItemsIn depth items = ofTreeItems .bracket items
  | [], _, _ => rfl
  | v :: rest, depth, shallow => by
    rw [Json.depthItems] at shallow
    rw [ofTreeItemsIn, ofTreeItems, ofTreeIn_eq v (by omega), ofTreeItemsIn_eq rest (by omega)]

theorem ofTreeFieldsIn_eq : (fields : List (String × Json)) → ∀ {depth : Nat},
    depth + Json.depthFields fields ≤ depthLimit → ofTreeFieldsIn depth fields = ofTreeFields .bracket fields
  | [], _, _ => rfl
  | (k, v) :: rest, depth, shallow => by
    rw [Json.depthFields] at shallow
    rw [ofTreeFieldsIn, ofTreeFields, ofTreeIn_eq v (by omega), ofTreeFieldsIn_eq rest (by omega)]

end

end Outline

/-! ## Layouts -/

structure Spacing where
  /-- Before an item, an entry or a closing bracket, by its level. -/
  gap : Nat → List Char
  /-- Behind the colon of an entry. -/
  pause : List Char
  gap_blank : ∀ level, ∀ c ∈ gap level, Outline.isSpace c = true
  pause_blank : ∀ c ∈ pause, Outline.isSpace c = true

namespace Spacing

def compact : Spacing := ⟨fun _ => [], [], nofun, nofun⟩

def pretty : Spacing where
  gap := Json.newline
  pause := [' ']
  gap_blank := by
    intro level c member
    rcases List.mem_cons.mp member with rfl | member
    · rfl
    · rw [List.eq_of_mem_replicate member]
      rfl
  pause_blank := by
    intro c member
    rw [List.mem_singleton.mp member]
    rfl

variable (sp : Spacing)

mutual

def chars (level : Nat) : Json → List Char
  | .null => ['n', 'u', 'l', 'l']
  | .bool true => ['t', 'r', 'u', 'e']
  | .bool false => ['f', 'a', 'l', 's', 'e']
  | .num n => Json.numberText n
  | .str s => Json.quoted s
  | .arr [] => ['[', ']']
  | .arr (v :: rest) => '[' :: (sp.gap (level + 1) ++ (chars (level + 1) v ++ items level rest))
  | .obj [] => ['{', '}']
  | .obj ((k, v) :: rest) =>
    '{' :: (sp.gap (level + 1) ++ (Json.quoted k ++ ':' :: (sp.pause ++ (chars (level + 1) v ++ fields level rest))))

def items (level : Nat) : List Json → List Char
  | [] => sp.gap level ++ [']']
  | v :: rest => ',' :: (sp.gap (level + 1) ++ (chars (level + 1) v ++ items level rest))

def fields (level : Nat) : List (String × Json) → List Char
  | [] => sp.gap level ++ ['}']
  | (k, v) :: rest =>
    ',' :: (sp.gap (level + 1) ++ (Json.quoted k ++ ':' :: (sp.pause ++ (chars (level + 1) v ++ fields level rest))))

end

end Spacing

namespace Json

mutual

theorem compactChars_eq (level : Nat) : (v : Json) → compactChars v = Spacing.compact.chars level v
  | .null | .bool true | .bool false | .num _ | .str _ | .arr [] | .obj [] => rfl
  | .arr (v :: rest) => by
    rw [compactChars, Spacing.chars, compactChars_eq (level + 1) v, compactItems_eq level rest]
    rfl
  | .obj ((k, v) :: rest) => by
    rw [compactChars, Spacing.chars, compactChars_eq (level + 1) v, compactFields_eq level rest]
    rfl

theorem compactItems_eq (level : Nat) : (items : List Json) → compactItems items = Spacing.compact.items level items
  | [] => rfl
  | v :: rest => by
    rw [compactItems, Spacing.items, compactChars_eq (level + 1) v, compactItems_eq level rest]
    rfl

theorem compactFields_eq (level : Nat) : (fields : List (String × Json)) →
    compactFields fields = Spacing.compact.fields level fields
  | [] => rfl
  | (k, v) :: rest => by
    rw [compactFields, Spacing.fields, compactChars_eq (level + 1) v, compactFields_eq level rest]
    rfl

end

mutual

theorem prettyChars_eq (level : Nat) : (v : Json) → prettyChars level v = Spacing.pretty.chars level v
  | .null | .bool true | .bool false | .num _ | .str _ | .arr [] | .obj [] => by rw [prettyChars, Spacing.chars]
  | .arr (v :: rest) => by
    rw [prettyChars, Spacing.chars, prettyChars_eq (level + 1) v, prettyItems_eq level rest, List.append_assoc]
    rfl
  | .obj ((k, v) :: rest) => by
    rw [prettyChars, Spacing.chars, prettyChars_eq (level + 1) v, prettyFields_eq level rest, List.append_assoc]
    rfl

theorem prettyItems_eq (level : Nat) : (items : List Json) → prettyItems level items = Spacing.pretty.items level items
  | [] => by rw [prettyItems, Spacing.items]; rfl
  | v :: rest => by
    rw [prettyItems, Spacing.items, prettyChars_eq (level + 1) v, prettyItems_eq level rest, List.append_assoc]
    rfl

theorem prettyFields_eq (level : Nat) : (fields : List (String × Json)) →
    prettyFields level fields = Spacing.pretty.fields level fields
  | [] => by rw [prettyFields, Spacing.fields]; rfl
  | (k, v) :: rest => by
    rw [prettyFields, Spacing.fields, prettyChars_eq (level + 1) v, prettyFields_eq level rest, List.append_assoc]
    rfl

end

end Json

namespace Outline

/-! ## Blanks -/

theorem skipSpace_idem (s : List Char) : skipSpace (skipSpace s) = skipSpace s :=
  List.dropWhile_idempotent isSpace s

theorem skipSpace_blanks {blanks : List Char} (blank : ∀ c ∈ blanks, isSpace c = true) (s : List Char) :
    skipSpace (blanks ++ s) = skipSpace s := List.dropWhile_append_of_pos blank

theorem scanValue_skipSpace (fuel depth : Nat) (s : List Char) :
    scanValue fuel depth (skipSpace s) = scanValue fuel depth s := by
  cases fuel with
  | zero => rw [scanValue, scanValue]
  | succ fuel => rw [scanValue, scanValue, skipSpace_idem]

theorem scanItems_skipSpace (fuel depth : Nat) (first : Bool) (s : List Char) :
    scanItems fuel depth first (skipSpace s) = scanItems fuel depth first s := by
  cases fuel with
  | zero => rw [scanItems, scanItems]
  | succ fuel => simp only [scanItems.eq_def, skipSpace_idem]

theorem scanFields_skipSpace (fuel depth : Nat) (first : Bool) (s : List Char) :
    scanFields fuel depth first (skipSpace s) = scanFields fuel depth first s := by
  cases fuel with
  | zero => rw [scanFields, scanFields]
  | succ fuel => simp only [scanFields.eq_def, skipSpace_idem]

section

variable {blanks : List Char} (blank : ∀ c ∈ blanks, isSpace c = true)

include blank

theorem scanValue_blanks (fuel depth : Nat) (s : List Char) :
    scanValue fuel depth (blanks ++ s) = scanValue fuel depth s := by
  rw [← scanValue_skipSpace, skipSpace_blanks blank, scanValue_skipSpace]

theorem scanItems_end (fuel depth : Nat) (first : Bool) (rest : List Char) :
    scanItems (fuel + 1) depth first (blanks ++ ']' :: rest) = ([], .bracket, some rest) := by
  rw [← scanItems_skipSpace, skipSpace_blanks blank, scanItems_skipSpace, scanItems.eq_def]
  cases first <;> rfl

theorem scanFields_end (fuel depth : Nat) (first : Bool) (rest : List Char) :
    scanFields (fuel + 1) depth first (blanks ++ '}' :: rest) = ([], .bracket, some rest) := by
  rw [← scanFields_skipSpace, skipSpace_blanks blank, scanFields_skipSpace, scanFields.eq_def]
  cases first <;> rfl

theorem scanFields_first (fuel depth : Nat) (s : List Char) :
    scanFields (fuel + 1) depth true (blanks ++ '"' :: s) = scanField fuel depth ('"' :: s) s := by
  rw [← scanFields_skipSpace, skipSpace_blanks blank, scanFields_skipSpace, scanFields.eq_def]
  rfl

theorem scanFields_next (fuel depth : Nat) (s : List Char) :
    scanFields (fuel + 1) depth false (',' :: (blanks ++ '"' :: s)) =
      scanField fuel depth (',' :: (blanks ++ '"' :: s)) s := by
  have comma : skipSpace (',' :: (blanks ++ '"' :: s)) = ',' :: (blanks ++ '"' :: s) := rfl
  have quote : skipSpace ('"' :: s) = '"' :: s := rfl
  rw [scanFields.eq_def]
  simp only [comma, skipSpace_blanks blank, quote]

/-- Blanks go on with no number. -/
theorem stops_blanks {rest : List Char} (stops : Stops rest) : Stops (blanks ++ rest) := by
  cases blanks with
  | nil => exact stops
  | cons b blanks =>
    intro c first
    cases first
    have space : isSpace b = true := blank b List.mem_cons_self
    simp only [isSpace, Bool.or_eq_true, decide_eq_true_eq] at space
    rcases space with ((rfl | rfl) | rfl) | rfl <;> decide

end

/-! ## Lists and objects -/

theorem scanValue_list {fuel depth : Nat} {s : List Char} {items : List Outline} {close : Close}
    {rest : Option (List Char)} (h : scanItems fuel (depth + 1) true s = (items, close, rest)) :
    scanValue (fuel + 1) depth ('[' :: s) = (.arr (depthLimit < depth + 1) items close, rest) := by
  have bracket : skipSpace ('[' :: s) = '[' :: s := rfl
  rw [scanValue]
  simp only [bracket, h]

theorem scanValue_object {fuel depth : Nat} {s : List Char} {fields : List (Key × Outline)} {close : Close}
    {rest : Option (List Char)} (h : scanFields fuel (depth + 1) true s = (fields, close, rest)) :
    scanValue (fuel + 1) depth ('{' :: s) = (.obj (depthLimit < depth + 1) fields close, rest) := by
  have brace : skipSpace ('{' :: s) = '{' :: s := rfl
  rw [scanValue]
  simp only [brace, h]

theorem scanItems_first {s t : List Char} {c : Char} (begins : skipSpace s = c :: t) (goesOn : c ≠ ']')
    (fuel depth : Nat) : scanItems (fuel + 1) depth true s = scanItem fuel depth (skipSpace s) := by
  rw [scanItems.eq_def]
  simp only [begins]
  split
  · next same => cases same
  · next same => exact absurd (List.cons.inj same).1 goesOn
  · contradiction
  · rfl
  · contradiction

theorem scanItems_next {s t : List Char} {c : Char} (begins : skipSpace s = c :: t) (goesOn : c ≠ ']')
    (fuel depth : Nat) : scanItems (fuel + 1) depth false (',' :: s) = scanItem fuel depth (skipSpace s) := by
  have comma : skipSpace (',' :: s) = ',' :: s := rfl
  rw [scanItems.eq_def]
  simp only [comma, begins]
  split
  · next same => cases same
  · next same => exact absurd (List.cons.inj same).1 goesOn
  · rfl

theorem scanItem_value {s r : List Char} {fuel depth : Nat} {v : Outline} (value : scanValue fuel depth s = (v, some r))
    {items : List Outline} {close : Close} {rest : Option (List Char)}
    (others : scanItems fuel depth false r = (items, close, rest)) :
    scanItem (fuel + 1) depth (skipSpace s) = (v :: items, close, rest) := by
  rw [scanItem, scanValue_skipSpace, value]
  simp only [others]

theorem scanField_value {r : List Char} {fuel depth : Nat} {v : Outline} (key : String) (whole s : List Char)
    (value : scanValue fuel depth s = (v, some r)) {fields : List (Key × Outline)} {close : Close}
    {rest : Option (List Char)} (others : scanFields fuel depth false r = (fields, close, rest)) :
    scanField (fuel + 1) depth whole (key.toList.flatMap Json.escaped ++ '"' :: ':' :: s) =
      ((.ok key, v) :: fields, close, rest) := by
  have colon : skipSpace (':' :: s) = ':' :: s := rfl
  rw [scanField, skipText_quoted]
  simp only [colon, value, others, readText_quoted, List.reverse_nil, List.nil_append, String.ofList_toList]

/-! ## Reading what was written -/

variable (sp : Spacing)

/-- A value begins with a character that ends no list. -/
theorem begins {v : Json} (legible : v.Legible) (level : Nat) :
    ∃ c t, c ≠ ']' ∧ ∀ rest, skipSpace (sp.gap level ++ (sp.chars level v ++ rest)) = c :: (t ++ rest) := by
  simp only [skipSpace_blanks (sp.gap_blank level)]
  cases legible with
  | null => exact ⟨'n', _, by decide, fun _ => rfl⟩
  | bool b => cases b <;> exact ⟨_, _, by decide, fun _ => rfl⟩
  | str s => exact ⟨'"', _, by decide, fun _ => rfl⟩
  | @arr items _ => cases items <;> exact ⟨'[', _, by decide, fun _ => rfl⟩
  | @obj fields _ => cases fields <;> exact ⟨'{', _, by decide, fun _ => rfl⟩
  | @num n reads =>
    cases h : skipSpace (Json.numberText n) with
    | nil =>
      rw [JsonNumber.ReadsBack, scan, scanValue, h] at reads
      cases reads
    | cons c t =>
      refine ⟨c, t, ?_, skipSpace_append h⟩
      rintro rfl
      rw [JsonNumber.ReadsBack, scan, scanValue, h] at reads
      cases reads

theorem length_items_pos (level : Nat) (items : List Json) : 0 < (sp.items level items).length := by
  cases items with
  | nil =>
    rw [Spacing.items, List.length_append]
    exact Nat.succ_pos _
  | cons v items => exact Nat.succ_pos _

theorem stops_items (level : Nat) (items : List Json) (rest : List Char) : Stops (sp.items level items ++ rest) := by
  cases items with
  | nil =>
    rw [Spacing.items, List.append_assoc]
    refine stops_blanks (sp.gap_blank level) ?_
    intro c first
    cases first
    decide
  | cons v items =>
    intro c first
    cases first
    decide

theorem stops_fields (level : Nat) (fields : List (String × Json)) (rest : List Char) :
    Stops (sp.fields level fields ++ rest) := by
  cases fields with
  | nil =>
    rw [Spacing.fields, List.append_assoc]
    refine stops_blanks (sp.gap_blank level) ?_
    intro c first
    cases first
    decide
  | cons e fields =>
    intro c first
    cases first
    decide

mutual

/-- A value and what stands behind it. Each function of the scanner takes a character or hands over
    to one that does, so three times the length of the value is fuel enough. -/
theorem scanValue_chars : (v : Json) → v.Legible → ∀ (level fuel depth : Nat) (rest : List Char),
    3 * (sp.chars level v).length ≤ fuel + 1 → Stops rest →
    scanValue (fuel + 1) depth (sp.chars level v ++ rest) = (ofTreeIn depth v, some rest)
  | .null, _, level, fuel, depth, rest, _, _ => by rw [scanValue]; rfl
  | .bool true, _, level, fuel, depth, rest, _, _ => by rw [scanValue]; rfl
  | .bool false, _, level, fuel, depth, rest, _, _ => by rw [scanValue]; rfl
  | .str s, _, level, fuel, depth, rest, _, _ => by
    have text : sp.chars level (.str s) ++ rest = '"' :: (s.toList.flatMap Json.escaped ++ '"' :: rest) := by
      simp [Spacing.chars, Json.quoted]
    rw [text, scanValue]
    exact scanText_quoted s rest
  | .num n, legible, level, fuel, depth, rest, _, stops => by
    cases legible with
    | num reads => exact scanValue_number stops reads
  | .arr [], _, level, fuel, depth, rest, enough, _ => by
    simp only [Spacing.chars, List.length_cons, List.length_nil] at enough
    obtain ⟨fuel, rfl⟩ := Nat.exists_eq_add_of_le' (show 1 ≤ fuel by omega)
    refine scanValue_list ?_
    exact @scanItems_end [] (List.forall_mem_nil _) fuel _ true rest
  | .arr (v :: items), .arr each, level, fuel, depth, rest, enough, _ => by
    simp only [Spacing.chars, List.length_cons, List.length_append] at enough
    have closes := length_items_pos sp level items
    obtain ⟨fuel, rfl⟩ := Nat.exists_eq_add_of_le' (show 3 ≤ fuel by omega)
    obtain ⟨c, t, goesOn, first⟩ := begins sp (each v List.mem_cons_self) (level + 1)
    have value := scanValue_chars v (each v List.mem_cons_self) (level + 1) fuel (depth + 1)
      (sp.items level items ++ rest) (by omega) (stops_items sp level items rest)
    have others := scanItems_chars items (fun w h => each w (List.mem_cons_of_mem _ h)) level fuel (depth + 1) rest
      (by omega)
    rw [← scanValue_blanks (sp.gap_blank (level + 1))] at value
    rw [Spacing.chars, List.cons_append, List.append_assoc, List.append_assoc]
    refine scanValue_list ?_
    rw [scanItems_first (first _) goesOn]
    exact scanItem_value value others
  | .obj [], _, level, fuel, depth, rest, enough, _ => by
    simp only [Spacing.chars, List.length_cons, List.length_nil] at enough
    obtain ⟨fuel, rfl⟩ := Nat.exists_eq_add_of_le' (show 1 ≤ fuel by omega)
    refine scanValue_object ?_
    exact @scanFields_end [] (List.forall_mem_nil _) fuel _ true rest
  | .obj ((k, v) :: fields), .obj each, level, fuel, depth, rest, enough, _ => by
    simp only [Spacing.chars, List.length_cons, List.length_append] at enough
    obtain ⟨fuel, rfl⟩ := Nat.exists_eq_add_of_le' (show 3 ≤ fuel by omega)
    have value := scanValue_chars v (each (k, v) List.mem_cons_self) (level + 1) fuel (depth + 1)
      (sp.fields level fields ++ rest) (by omega) (stops_fields sp level fields rest)
    have others := scanFields_chars fields (fun e h => each e (List.mem_cons_of_mem _ h)) level fuel (depth + 1) rest
      (by omega)
    have text : sp.chars level (.obj ((k, v) :: fields)) ++ rest =
        '{' :: (sp.gap (level + 1) ++ '"' :: (k.toList.flatMap Json.escaped ++
          '"' :: ':' :: (sp.pause ++ (sp.chars (level + 1) v ++ (sp.fields level fields ++ rest))))) := by
      simp [Spacing.chars, Json.quoted]
    rw [← scanValue_blanks sp.pause_blank] at value
    rw [text]
    refine scanValue_object ?_
    rw [scanFields_first (sp.gap_blank (level + 1))]
    exact scanField_value k _ _ value others

/-- The items behind the first. -/
theorem scanItems_chars : (items : List Json) → (∀ v ∈ items, v.Legible) → ∀ (level fuel depth : Nat) (rest : List Char),
    3 * (sp.items level items).length ≤ fuel + 1 →
    scanItems (fuel + 1) depth false (sp.items level items ++ rest) =
      (ofTreeItemsIn depth items, .bracket, some rest)
  | [], _, level, fuel, depth, rest, _ => by
    rw [Spacing.items, List.append_assoc]
    exact scanItems_end (sp.gap_blank level) fuel depth false rest
  | v :: items, each, level, fuel, depth, rest, enough => by
    simp only [Spacing.items, List.length_cons, List.length_append] at enough
    have closes := length_items_pos sp level items
    obtain ⟨fuel, rfl⟩ := Nat.exists_eq_add_of_le' (show 3 ≤ fuel by omega)
    obtain ⟨c, t, goesOn, first⟩ := begins sp (each v List.mem_cons_self) (level + 1)
    have value := scanValue_chars v (each v List.mem_cons_self) (level + 1) (fuel + 1) depth
      (sp.items level items ++ rest) (by omega) (stops_items sp level items rest)
    have others := scanItems_chars items (fun w h => each w (List.mem_cons_of_mem _ h)) level (fuel + 1) depth rest
      (by omega)
    rw [← scanValue_blanks (sp.gap_blank (level + 1))] at value
    rw [Spacing.items, List.cons_append, List.append_assoc, List.append_assoc, scanItems_next (first _) goesOn]
    exact scanItem_value value others

/-- The entries behind the first. -/
theorem scanFields_chars : (fields : List (String × Json)) → (∀ e ∈ fields, e.2.Legible) →
    ∀ (level fuel depth : Nat) (rest : List Char),
    3 * (sp.fields level fields).length ≤ fuel + 1 →
    scanFields (fuel + 1) depth false (sp.fields level fields ++ rest) =
      (ofTreeFieldsIn depth fields, .bracket, some rest)
  | [], _, level, fuel, depth, rest, _ => by
    rw [Spacing.fields, List.append_assoc]
    exact scanFields_end (sp.gap_blank level) fuel depth false rest
  | (k, v) :: fields, each, level, fuel, depth, rest, enough => by
    simp only [Spacing.fields, List.length_cons, List.length_append] at enough
    obtain ⟨fuel, rfl⟩ := Nat.exists_eq_add_of_le' (show 3 ≤ fuel by omega)
    have value := scanValue_chars v (each (k, v) List.mem_cons_self) (level + 1) (fuel + 1) depth
      (sp.fields level fields ++ rest) (by omega) (stops_fields sp level fields rest)
    have others := scanFields_chars fields (fun e h => each e (List.mem_cons_of_mem _ h)) level (fuel + 1) depth rest
      (by omega)
    have text : sp.fields level ((k, v) :: fields) ++ rest =
        ',' :: (sp.gap (level + 1) ++ '"' :: (k.toList.flatMap Json.escaped ++
          '"' :: ':' :: (sp.pause ++ (sp.chars (level + 1) v ++ (sp.fields level fields ++ rest))))) := by
      simp [Spacing.fields, Json.quoted]
    rw [← scanValue_blanks sp.pause_blank] at value
    rw [text, scanFields_next (sp.gap_blank (level + 1))]
    exact scanField_value k _ _ value others

end

/-- A value in any layout, and what is put behind it. -/
theorem scan_chars {v : Json} (legible : v.Legible) {rest : List Char} (stops : Stops rest) :
    scan (sp.chars 0 v ++ rest) = (ofTreeIn 0 v, some rest) := by
  refine scanValue_chars sp v legible 0 _ 0 rest ?_ stops
  rw [List.length_append]
  omega

theorem scan_compact {v : Json} (legible : v.Legible) : scan v.compact.toList = (ofTreeIn 0 v, some []) := by
  have h : scan (Spacing.compact.chars 0 v ++ []) = (ofTreeIn 0 v, some []) := scan_chars .compact legible nofun
  rwa [List.append_nil, ← Json.compactChars_eq, ← String.toList_ofList (l := Json.compactChars v)] at h

theorem scan_pretty {v : Json} (legible : v.Legible) {rest : List Char} (stops : Stops rest) :
    scan (v.pretty.toList ++ rest) = (ofTreeIn 0 v, some rest) := by
  rw [Json.pretty, String.toList_ofList, Json.prettyChars_eq]
  exact scan_chars .pretty legible stops

/-- A value that does not nest too deep is scanned as it is. -/
theorem ofTreeIn_zero {v : Json} (shallow : v.depth ≤ depthLimit) : ofTreeIn 0 v = ofTree .bracket v :=
  ofTreeIn_eq v (by omega)

end Outline
end EventFlow
