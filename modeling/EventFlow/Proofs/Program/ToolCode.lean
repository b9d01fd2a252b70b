/-
  EventFlow.Proofs.Program.ToolCode — when the code of a tool is its template, filled once.

  A value that brings a place along is filled again if the turn of that place comes later. Which values do
  is seen from the tool: its names end in its id, and the description stands in a literal, which changes no
  character that places are made of. No other value has underscores.

  So a description about `__TOP_K__` is not written as it is (`description_rewritten`).

  Proved:
  - `infix_name_iff` / `infix_literal_iff`: the places in a name and in a literal.
  - `keeps_iff`: all values stay if neither the id nor the description brings a place along.
  - `render_straysUnless`: then the code is the template, filled once, and else it is not.
  - `tools_filledOnce`: the same for all tools of a program.
-/

import EventFlow.Proofs.Program.Filling
import EventFlow.Proofs.Compilation.Drafts
import EventFlow.Graph.Sample

namespace EventFlow

/-! ## Places in names and literals -/

namespace Text

variable {place text rest : List Char}

theorem infix_loose (loose : Text.loose text = true) :
    '_' :: '_' :: place <:+: text ++ rest ↔ '_' :: '_' :: place <:+: rest := by
  induction text with
  | nil => exact Iff.rfl
  | cons c text ih =>
    have elsewhere : ¬ '_' :: '_' :: place <+: c :: (text ++ rest) := by
      rw [← List.isPrefixOf_iff_prefix, isPrefixOf_loose loose]
      exact Bool.false_ne_true
    rw [List.cons_append, List.infix_cons_iff, or_iff_right elsewhere, ih (loose_tail loose)]

/-- No place begins where no character of places is. -/
theorem infix_foreign (nonempty : place ≠ []) (capital : ∀ c ∈ place, inPlace c = true)
    (foreign : ∀ c ∈ text, inPlace c = false) : place <:+: text ++ rest ↔ place <:+: rest := by
  induction text with
  | nil => exact Iff.rfl
  | cons c text ih =>
    have elsewhere : ¬ place <+: c :: (text ++ rest) := by
      intro begins
      cases place with
      | nil => exact nonempty rfl
      | cons d place =>
        obtain ⟨rfl, -⟩ := List.cons_prefix_cons.mp begins
        exact absurd (capital d List.mem_cons_self) (by simp [foreign d List.mem_cons_self])
    rw [List.cons_append, List.infix_cons_iff, or_iff_right elsewhere]
    exact ih fun d hd => foreign d (List.mem_cons_of_mem _ hd)

end Text

namespace Json

open Text

theorem escaped_inPlace {c : Char} (h : inPlace c = true) : escaped c = [c] := by
  have large : 64 < c.toNat := by
    simp only [inPlace, isUpper, Bool.or_eq_true, Bool.and_eq_true, decide_eq_true_eq] at h
    rcases h with ⟨low, -⟩ | rfl
    · exact low
    · decide
  have other {d : Char} (foreign : inPlace d = false) : c ≠ d := by
    rintro rfl
    exact absurd h (by simp [foreign])
  unfold escaped
  rw [if_neg (other (by decide)), if_neg (other (by decide)), if_neg (other (by decide)), if_neg (other (by decide)),
    if_neg (other (by decide)), if_neg (by omega), if_neg (by omega), if_neg (by omega)]

theorem foreign_of_all {text : List Char} (all : text.all (fun c => !inPlace c) = true) : ∀ c ∈ text, inPlace c = false := by
  simpa using all

/-- Other characters are written in characters that no place is made of. -/
theorem escaped_foreign {c : Char} (h : inPlace c = false) :
    ∃ d rest, escaped c = d :: rest ∧ ∀ e ∈ d :: rest, inPlace e = false := by
  have digit : ∀ n < 16, inPlace (hexDigit n) = false := by decide
  unfold escaped
  iterate 7
    split
    · exact ⟨_, _, rfl, foreign_of_all rfl⟩
  split
  · next small =>
    have digits : inPlace (hexDigit (c.toNat / 16)) = false ∧ inPlace (hexDigit (c.toNat % 16)) = false :=
      ⟨digit _ (by omega), digit _ (by omega)⟩
    have others : ∀ d ∈ ['\\', 'u', '0', '0'], inPlace d = false := foreign_of_all rfl
    refine ⟨_, _, rfl, fun e he => ?_⟩
    rcases List.mem_append.mp (show e ∈ ['\\', 'u', '0', '0'] ++ [_, _] from he) with he | he
    · exact others e he
    · simp only [List.mem_cons, List.not_mem_nil, or_false] at he
      rcases he with rfl | rfl
      · exact digits.1
      · exact digits.2
  · exact ⟨c, [], rfl, by simpa using h⟩

variable {place : List Char}

theorem prefix_escaped (capital : ∀ c ∈ place, inPlace c = true) (s : List Char) :
    place <+: s.flatMap escaped ++ ['"'] ↔ place <+: s := by
  induction place generalizing s with
  | nil => simp
  | cons d place ih =>
    have own := capital d List.mem_cons_self
    have other {e : Char} (foreign : inPlace e = false) : d ≠ e := by
      rintro rfl
      exact absurd own (by simp [foreign])
    cases s with
    | nil => simp [List.cons_prefix_cons, other (e := '"') (by decide)]
    | cons c s =>
      rw [List.flatMap_cons, List.append_assoc, List.cons_prefix_cons]
      cases here : inPlace c with
      | true =>
        rw [escaped_inPlace here, List.singleton_append, List.cons_prefix_cons,
          ih fun e he => capital e (List.mem_cons_of_mem _ he)]
      | false =>
        obtain ⟨e, rest, written, foreign⟩ := escaped_foreign here
        rw [written, List.cons_append, List.cons_prefix_cons]
        simp [other here, other (foreign e List.mem_cons_self)]

theorem infix_escaped (nonempty : place ≠ []) (capital : ∀ c ∈ place, inPlace c = true) (s : List Char) :
    place <:+: s.flatMap escaped ++ ['"'] ↔ place <:+: s := by
  induction s with
  | nil =>
    have foreign : ∀ c ∈ ['"'], inPlace c = false := foreign_of_all rfl
    have closing : place <:+: ['"'] ++ [] ↔ place <:+: [] := infix_foreign nonempty capital foreign
    simpa using closing
  | cons c s ih =>
    cases here : inPlace c with
    | true =>
      have begins := prefix_escaped capital (c :: s)
      rw [List.flatMap_cons, escaped_inPlace here, List.append_assoc, List.singleton_append] at begins ⊢
      rw [List.infix_cons_iff, List.infix_cons_iff, begins, ih]
    | false =>
      obtain ⟨e, rest, written, foreign⟩ := escaped_foreign here
      have alone : ∀ d ∈ [c], inPlace d = false := by simpa using here
      rw [List.flatMap_cons, List.append_assoc, written, infix_foreign nonempty capital foreign, ih,
        ← List.singleton_append, infix_foreign nonempty capital alone]

/-- A literal holds the places that its text holds. -/
theorem infix_quote (nonempty : place ≠ []) (capital : ∀ c ∈ place, inPlace c = true) (s : String) :
    place <:+: (quote s).toList ↔ place <:+: s.toList := by
  have foreign : ∀ c ∈ ['"'], inPlace c = false := foreign_of_all rfl
  rw [quote, String.toList_ofList, quoted, List.cons_append, ← List.singleton_append,
    infix_foreign nonempty capital foreign, infix_escaped nonempty capital]

end Json

open Text Token

namespace IndexTool

variable (t : IndexTool) (topK : Nat)

/-! ## The values of a tool -/

def placeNames : List String :=
  ["__FUNC__", "__TOOL__", "__INDEX_CONST__", "__NAME__", "__DESCRIPTION__", "__TOP_K__", "__BASE_URL__"]

theorem mem_placeNames {p : String × String} (h : p ∈ t.places topK) : p.1 ∈ placeNames :=
  List.mem_map_of_mem (f := Prod.fst) h

/-- The value of a place goes on from its first character, which is no underscore. -/
theorem places_fresh : Fresh (t.places topK) := by
  have name {stem : String} (id : String) {c : Char} {rest : List Char} (starts : stem.toList = c :: rest) (new : c ≠ '_') :
      ∃ c rest, (stem ++ id).toList = c :: rest ∧ c ≠ '_' :=
    ⟨c, rest ++ id.toList, by rw [String.toList_append, starts, List.cons_append], new⟩
  have literal (s : String) : ∃ c rest, (Program.literal s).toList = c :: rest ∧ c ≠ '_' :=
    ⟨'"', _, by rw [Program.literal, Json.quote, String.toList_ofList]; rfl, by decide⟩
  have number : ∃ c rest, (toString topK).toList = c :: rest ∧ c ≠ '_' := by
    rw [Nat.toString_eq_repr, Nat.toList_repr]
    obtain ⟨c, rest, digits⟩ := List.exists_cons_of_ne_nil (Nat.toDigits_ne_nil (b := 10) (n := topK))
    have digit : isDigit c = true := Outline.digits_toDigits topK c (digits ▸ List.mem_cons_self)
    refine ⟨c, rest, digits, ?_⟩
    rintro rfl
    exact absurd digit (by decide)
  intro p hp
  simp only [places, List.mem_cons, List.not_mem_nil, or_false] at hp
  rcases hp with rfl | rfl | rfl | rfl | rfl | rfl | rfl
  · exact name _ String.toList_ofList (by decide)
  · exact name _ String.toList_ofList (by decide)
  · exact name _ String.toList_ofList (by decide)
  · exact literal _
  · exact literal _
  · exact number
  · exact ⟨'h', _, String.toList_ofList, by decide⟩

/-- No place is in another part of the template. -/
theorem frame_apart : ∀ line ∈ frame, ∀ s ∈ line, ∀ place ∈ placeNames, place ≠ s.part → ¬ place.toList <:+: s.part.toList := by
  decide +kernel

/-- All places are parts of the template. -/
theorem exists_part : ∀ part ∈ placeNames, ∃ line ∈ frame, ∃ s ∈ line, s.part = part := by
  decide +kernel

def Keeps (part : String) : Prop :=
  ∀ p ∈ later (t.places topK) part, ¬ p.1.toList <:+: (valueOf (t.places topK) part).toList

theorem part_apart {line : List Stretch} (hline : line ∈ frame) {s : Stretch} (hs : s ∈ line) :
    ∀ p ∈ t.places topK, p.1 ≠ s.part → ¬ p.1.toList <:+: s.part.toList :=
  fun _ hp => frame_apart line hline s hs _ (t.mem_placeNames topK hp)

/-- The lines of the two codes. -/
theorem line_straysUnless {line : List Stretch} (known : ∀ s ∈ line, ∀ p ∈ t.places topK, p.1 ≠ s.part →
    ¬ p.1.toList <:+: s.part.toList) :
    StraysUnless (∀ s ∈ line, t.Keeps topK s.part)
      (writeAll (lineWith (valueOf (t.places topK)) line)).toList (writeAll (lineWith (t.written topK) line)).toList := by
  induction line with
  | nil =>
    have empty (write : String → String) : lineWith write [] = [] := rfl
    rw [empty, empty]
    exact .refl nofun _
  | cons s line ih =>
    have split (write : String → String) : (writeAll (lineWith write (s :: line))).toList =
        (write s.part).toList ++ (s.text.toList ++ (writeAll (lineWith write line)).toList) := by
      rw [lineWith, List.flatMap_cons, ← lineWith]
      simp
    have part := fill_part (t.places_marked topK) (t.places_fresh topK) (known s List.mem_cons_self)
    have others := ih fun s hs => known s (List.mem_cons_of_mem _ hs)
    rw [split, split, written, String.toList_ofList]
    refine (part.append ((StraysUnless.refl True.intro _).append others)).congr ?_
    simp [Keeps]

theorem filledOnce_eq : t.filledOnce topK = writeAll (joined "\n" (frame.map (lineWith (valueOf (t.places topK))))) := by
  have line (line : List Stretch) (hline : line ∈ frame) :
      lineWith (fun part => String.ofList (fillOnce (t.places topK) part.toList)) line =
        lineWith (valueOf (t.places topK)) line := by
    have part (s : Stretch) (hs : s ∈ line) :
        [Token.ofRole s.role (String.ofList (fillOnce (t.places topK) s.part.toList)), .text s.text] =
          [Token.ofRole s.role (valueOf (t.places topK) s.part), .text s.text] := by
      rw [fillOnce_part (t.places_marked topK) (t.part_apart topK hline hs), String.ofList_toList]
    rw [lineWith, lineWith, List.flatMap_def, List.flatMap_def, List.map_congr_left part]
  rw [filledOnce, filled_template (fillOnce_piecewise (t.places_marked topK)), List.map_congr_left line]

theorem render_straysUnless_parts : StraysUnless (∀ line ∈ frame, ∀ s ∈ line, t.Keeps topK s.part)
    (t.filledOnce topK).toList (t.render topK).toList := by
  have lines (write : String → String) : (writeAll (joined "\n" (frame.map (lineWith write)))).toList =
      "\n".toList.intercalate (frame.map fun line => (writeAll (lineWith write line)).toList) := by
    rw [writeAll_joined, Text.join, String.toList_intercalate]
    simp only [List.map_map, Function.comp_def]
  rw [filledOnce_eq, render_eq, code, lines, lines]
  exact .intercalate _ _ _ _ _ fun line hline => t.line_straysUnless topK fun s hs => t.part_apart topK hline hs

/-! ## Which values stay -/

/-- The id or the description of the tool brings a place along that is filled later. -/
def BringsPlace : Prop :=
  (∃ place ∈ ["__TOOL__", "__INDEX_CONST__", "__NAME__", "__DESCRIPTION__", "__TOP_K__", "__BASE_URL__"],
    place.toList <:+: '_' :: (Program.ident t.spec.id).toList) ∨
  ∃ place ∈ ["__TOP_K__", "__BASE_URL__"], place.toList <:+: t.description.toList

theorem placeNames_opened {place : String} (h : place ∈ placeNames) : ∃ mark, place.toList = '_' :: '_' :: mark := by
  obtain ⟨p, hp, rfl⟩ : ∃ p ∈ (default : IndexTool).places 0, p.1 = place := List.mem_map.mp h
  exact ((default : IndexTool).places_marked 0).opened p hp

theorem placeNames_capital {place : String} (h : place ∈ placeNames) : ∀ c ∈ place.toList, inPlace c = true := by
  obtain ⟨p, hp, rfl⟩ : ∃ p ∈ (default : IndexTool).places 0, p.1 = place := List.mem_map.mp h
  exact ((default : IndexTool).places_marked 0).capital p hp

def stems : List String := ["search_index_func_", "search_index_", "LLAMACLOUD_INDEX_ID_"]

/-- A stem ends in an underscore, and before that no two stand beside each other. -/
theorem stems_loose : ∀ stem ∈ stems, stem.toList = stem.toList.dropLast ++ ['_'] ∧ Text.loose stem.toList.dropLast = true := by
  decide +kernel

/-- A name brings along what its id does. -/
theorem infix_name_iff {place stem : String} (h : place ∈ placeNames) (hstem : stem ∈ stems) (id : String) :
    place.toList <:+: (stem ++ id).toList ↔ place.toList <:+: '_' :: id.toList := by
  obtain ⟨mark, opened⟩ := placeNames_opened h
  obtain ⟨ends, loose⟩ := stems_loose stem hstem
  rw [String.toList_append, ends, List.append_assoc, opened, infix_loose loose, List.singleton_append]

theorem infix_literal_iff {place : String} (h : place ∈ placeNames) (s : String) :
    place.toList <:+: (Program.literal s).toList ↔ place.toList <:+: s.toList := by
  obtain ⟨mark, opened⟩ := placeNames_opened h
  exact Json.infix_quote (by simp [opened]) (placeNames_capital h) s

/-- A text without underscores brings no place along. -/
theorem not_infix_of_clean {place : String} (h : place ∈ placeNames) {text : List Char} (clean : '_' ∉ text) :
    ¬ place.toList <:+: text := by
  obtain ⟨mark, opened⟩ := placeNames_opened h
  exact fun inside => clean (inside.subset (by simp [opened]))

theorem callName_clean : '_' ∉ t.callName.toList := by
  unfold callName
  simp only
  split
  · decide
  · exact (Program.alphanumeric_camelCase t.spec.name).not_mem (by decide)

variable {t topK}

theorem keeps_of_part {part value : String} {names : List String} (own : valueOf (t.places topK) part = value)
    (behind : (later (t.places topK) part).map (·.1) = names) :
    t.Keeps topK part ↔ ∀ place ∈ names, ¬ place.toList <:+: value.toList := by
  rw [Keeps, own, ← behind, List.forall_mem_map]

/-- A name stays if the id brings no later place along. -/
theorem keeps_name {part stem : String} {n : Nat} (own : valueOf (t.places topK) part = stem ++ Program.ident t.spec.id)
    (hstem : stem ∈ stems) (behind : (later (t.places topK) part).map (·.1) = placeNames.drop n) :
    t.Keeps topK part ↔ ∀ place ∈ placeNames.drop n, ¬ place.toList <:+: '_' :: (Program.ident t.spec.id).toList := by
  rw [keeps_of_part own behind]
  exact forall₂_congr fun place hplace => not_congr (infix_name_iff (List.mem_of_mem_drop hplace) hstem _)

theorem keeps_function : t.Keeps topK "__FUNC__" ↔
    ∀ place ∈ placeNames.drop 1, ¬ place.toList <:+: '_' :: (Program.ident t.spec.id).toList := by
  have own : valueOf (t.places topK) "__FUNC__" = t.functionName := by simp [valueOf, places]
  exact keeps_name own (by simp [stems]) (by simp [later, places, placeNames])

theorem keeps_tool : t.Keeps topK "__TOOL__" ↔
    ∀ place ∈ placeNames.drop 2, ¬ place.toList <:+: '_' :: (Program.ident t.spec.id).toList := by
  have own : valueOf (t.places topK) "__TOOL__" = t.toolName := by simp [valueOf, places]
  exact keeps_name own (by simp [stems]) (by simp [later, places, placeNames])

theorem keeps_index : t.Keeps topK "__INDEX_CONST__" ↔
    ∀ place ∈ placeNames.drop 3, ¬ place.toList <:+: '_' :: (Program.ident t.spec.id).toList := by
  have own : valueOf (t.places topK) "__INDEX_CONST__" = t.indexConstant := by simp [valueOf, places]
  exact keeps_name own (by simp [stems]) (by simp [later, places, placeNames])

theorem valueOf_callName : valueOf (t.places topK) "__NAME__" = Program.literal t.callName := by simp [valueOf, places]

theorem keeps_callName : t.Keeps topK "__NAME__" := by
  have behind : (later (t.places topK) "__NAME__").map (·.1) = placeNames.drop 4 := by simp [later, places, placeNames]
  refine (keeps_of_part valueOf_callName behind).mpr fun place hplace inside => ?_
  have known := List.mem_of_mem_drop hplace
  exact not_infix_of_clean known t.callName_clean ((infix_literal_iff known _).mp inside)

theorem valueOf_description : valueOf (t.places topK) "__DESCRIPTION__" = Program.literal t.description := by
  simp [valueOf, places]

theorem keeps_description : t.Keeps topK "__DESCRIPTION__" ↔
    ∀ place ∈ ["__TOP_K__", "__BASE_URL__"], ¬ place.toList <:+: t.description.toList := by
  have behind : (later (t.places topK) "__DESCRIPTION__").map (·.1) = placeNames.drop 5 := by
    simp [later, places, placeNames]
  rw [keeps_of_part valueOf_description behind]
  exact forall₂_congr fun place hplace => not_congr (infix_literal_iff (List.mem_of_mem_drop hplace) _)

theorem keeps_number : t.Keeps topK "__TOP_K__" := by
  have own : valueOf (t.places topK) "__TOP_K__" = toString topK := by simp [valueOf, places]
  have behind : (later (t.places topK) "__TOP_K__").map (·.1) = placeNames.drop 6 := by simp [later, places, placeNames]
  refine (keeps_of_part own behind).mpr fun place hplace => ?_
  have clean : '_' ∉ Nat.toDigits 10 topK := fun member => absurd (Outline.digits_toDigits _ _ member) (by decide)
  rw [Nat.toString_eq_repr, Nat.toList_repr]
  exact not_infix_of_clean (List.mem_of_mem_drop hplace) clean

theorem keeps_address : t.Keeps topK "__BASE_URL__" := by
  have last : later (t.places topK) "__BASE_URL__" = [] := by simp [later, places]
  rw [Keeps, last]
  exact List.forall_mem_nil _

/-- A part that is no place is not filled with anything. -/
theorem keeps_other {part : String} (other : part ∉ placeNames) : t.Keeps topK part := by
  have none : later (t.places topK) part = [] := by
    have all : ∀ p ∈ t.places topK, decide (p.1 ≠ part) = true := fun p hp =>
      decide_eq_true fun same => other (same ▸ t.mem_placeNames topK hp)
    rw [later, List.dropWhile_eq_nil_iff.mpr all, List.drop_nil]
  intro p hp
  rw [none] at hp
  cases hp

theorem keeps_iff : (∀ line ∈ frame, ∀ s ∈ line, t.Keeps topK s.part) ↔ ¬ t.BringsPlace := by
  have filled : (∀ line ∈ frame, ∀ s ∈ line, t.Keeps topK s.part) ↔ ∀ part ∈ placeNames, t.Keeps topK part := by
    constructor
    · intro keeps part hpart
      obtain ⟨line, hline, s, hs, rfl⟩ := exists_part part hpart
      exact keeps line hline s hs
    · intro keeps line _ s _
      by_cases known : s.part ∈ placeNames
      · exact keeps _ known
      · exact keeps_other known
  have all : (∀ part ∈ placeNames, t.Keeps topK part) ↔ t.Keeps topK "__FUNC__" ∧ t.Keeps topK "__DESCRIPTION__" := by
    constructor
    · exact fun keeps => ⟨keeps _ (by simp [placeNames]), keeps _ (by simp [placeNames])⟩
    · rintro ⟨function, description⟩ part hpart
      -- The function's name stands before the other names, so all places that are later for them are later for it.
      have names (n : Nat) : ∀ place ∈ placeNames.drop (1 + n), ¬ place.toList <:+: '_' :: (Program.ident t.spec.id).toList :=
        fun place hplace => keeps_function.mp function place (List.drop_subset_drop_left _ (Nat.le_add_right 1 n) hplace)
      simp only [placeNames, List.mem_cons, List.not_mem_nil, or_false] at hpart
      rcases hpart with rfl | rfl | rfl | rfl | rfl | rfl | rfl
      · exact function
      · exact keeps_tool.mpr (names 1)
      · exact keeps_index.mpr (names 2)
      · exact keeps_callName
      · exact description
      · exact keeps_number
      · exact keeps_address
  rw [filled, all, keeps_function, keeps_description]
  simp only [BringsPlace, not_or, not_exists, not_and]
  rfl

/-! ## The code of a tool -/

variable (t topK)

/-- The code of a tool is its template, filled once, just if neither its id nor its description brings a place
    along. -/
theorem render_straysUnless : StraysUnless (¬ t.BringsPlace) (t.filledOnce topK).toList (t.render topK).toList :=
  (t.render_straysUnless_parts topK).congr keeps_iff

theorem written_eq_iff {part : String} (h : part ∈ placeNames) :
    t.written topK part = valueOf (t.places topK) part ↔ t.Keeps topK part := by
  obtain ⟨line, hline, s, hs, rfl⟩ := exists_part part h
  have fills := (fill_part (t.places_marked topK) (t.places_fresh topK) (t.part_apart topK hline hs)).eq_iff
  rw [written, ← String.toList_inj, String.toList_ofList]
  exact fills

theorem written_callName : t.written topK "__NAME__" = Program.literal t.callName := by
  rw [(t.written_eq_iff topK (by simp [placeNames])).mpr keeps_callName, valueOf_callName]

theorem written_description_iff : t.written topK "__DESCRIPTION__" = Program.literal t.description ↔
    ∀ place ∈ ["__TOP_K__", "__BASE_URL__"], ¬ place.toList <:+: t.description.toList := by
  rw [← valueOf_description, t.written_eq_iff topK (by simp [placeNames]), keeps_description]

end IndexTool

namespace Workflow

/-- The code of each tool is written part by part. It is the template, filled once, just if neither the tool's
    id nor its description brings a place along, and so is all of the program's code for tools if that holds of
    all of them. The name by which a tool is called is always written as it is, and the description just if it
    brings no place along. -/
theorem tools_filledOnce (w : Workflow) :
    w.program.sections[3]? = some (Text.join "\n\n" (w.program.tools.map fun t => t.render w.program.topK)) ∧
    (∀ t ∈ w.program.tools,
      t.render w.program.topK = writeAll (t.code w.program.topK) ∧
      (t.render w.program.topK = t.filledOnce w.program.topK ↔ ¬ t.BringsPlace) ∧
      t.written w.program.topK "__NAME__" = Program.literal t.callName ∧
      (t.written w.program.topK "__DESCRIPTION__" = Program.literal t.description ↔
        ∀ place ∈ ["__TOP_K__", "__BASE_URL__"], ¬ place.toList <:+: t.description.toList)) ∧
    (w.program.sections[3]? = some (Text.join "\n\n" (w.program.tools.map fun t => t.filledOnce w.program.topK)) ↔
      ∀ t ∈ w.program.tools, ¬ t.BringsPlace) := by
  have tools : w.program.sections[3]? =
      some (Text.join "\n\n" (w.program.tools.map fun t => t.render w.program.topK)) := rfl
  refine ⟨tools, fun t _ => ⟨t.render_eq _, ?_, t.written_callName _, t.written_description_iff _⟩, ?_⟩
  · rw [← (t.render_straysUnless w.program.topK).eq_iff, String.toList_inj]
  · have all := StraysUnless.intercalate "\n\n".toList (fun t : IndexTool => (t.filledOnce w.program.topK).toList)
      (fun t => (t.render w.program.topK).toList) (fun t => ¬ t.BringsPlace) w.program.tools
      fun t _ => t.render_straysUnless w.program.topK
    rw [← all.eq_iff, tools, Option.some.injEq, ← String.toList_inj, Text.join, Text.join, String.toList_intercalate,
      String.toList_intercalate, List.map_map, List.map_map]
    rfl

end Workflow

namespace Graph

def countingTool : Graph :=
  let docs : AgentToolConfig :=
    { name := some "Docs", description := some "Returns __TOP_K__ passages.",
      toolType := some ToolSpec.indexType, selectedIndex := some "pipe-1" }
  ({ nodes := [.start "1", .promptAgent "2" "Answer using the docs." none, ⟨"3", .agentTool docs⟩, .stop "4"] } : Graph)
    |>.join "e1" "1" "2" |>.join "e2" "2" "3" |>.join "e3" "2" "4"

/-- The description is not written as it is. -/
theorem description_rewritten :
    ∃ w, countingTool.compile {} .empty .breadthFirst = .ok w ∧ ∃ t ∈ w.program.tools,
      t.description = "Returns __TOP_K__ passages." ∧
      t.render w.program.topK ≠ t.filledOnce w.program.topK ∧
      t.written w.program.topK "__DESCRIPTION__" = Program.literal "Returns 10 passages." := by
  let spec : ToolSpec :=
    { id := "node-3", name := "Docs", description := "Returns __TOP_K__ passages.",
      toolType := some ToolSpec.indexType, selectedIndex := some "pipe-1" }
  let docs : IndexTool := ⟨spec, "pipe-1"⟩
  have bringsPlace : docs.BringsPlace := .inr ⟨"__TOP_K__", List.mem_cons_self, by decide⟩
  have computed : docs ∈ (⟨countingTool.compiled .empty .breadthFirst 0, {}⟩ : Workflow).program.tools ∧
      docs.written 10 "__DESCRIPTION__" = Program.literal "Returns 10 passages." := by decide +kernel
  refine ⟨⟨countingTool.compiled .empty .breadthFirst 0, {}⟩, compile_of_firstOfKind? (by decide) _ _ _,
    docs, computed.1, by decide, ?_, computed.2⟩
  intro equal
  exact (docs.render_straysUnless _).eq_iff.mp (congrArg String.toList equal) bringsPlace

end Graph
end EventFlow
