/-
  EventFlow.Proofs.Program.Template — filling the places of a template.

  Places are filled one after the other, over the whole text. A place begins with two underscores and is
  made of capitals and underscores. So text in which no two underscores meet stays as it is (`loose`), and
  where such text begins with another character, no place reaches into it from the left (`apart`): what
  stands between two texts of this kind is filled by itself.

  A place is filled with a name, and the places after it are looked for in the name. It stays as it is unless
  the id in it brings a place along.

  Proved:
  - `replaceFrom_loose` / `replaceFrom_append`: an occurrence lies on one side.
  - `fill_apart` / `Piecewise.intercalate`: pieces of a text and lines are filled by themselves.
  - `written_toolName` / `written_indexConstant`: names that bring no place along are written as they are.
-/

import EventFlow.Program.Render

namespace EventFlow

namespace Text

/-- No two underscores meet, and none is the last character. -/
def loose : List Char → Bool
  | [] => true
  | c :: rest => (c ≠ '_' || rest.head?.any (· ≠ '_')) && loose rest

def inPlace (c : Char) : Bool := isUpper c || c = '_'

/-- The text keeps places apart that stand on its sides. -/
def apart : List Char → Bool
  | [] => false
  | c :: rest => !inPlace c && loose (c :: rest)

variable {needle value text rest : List Char}

/-- No place begins in a loose text. -/
theorem isPrefixOf_loose {c : Char} (h : loose (c :: text) = true) :
    ('_' :: '_' :: needle).isPrefixOf (c :: (text ++ rest)) = false := by
  simp only [loose, Bool.and_eq_true, Bool.or_eq_true, decide_eq_true_eq] at h
  rcases h.1 with first | second
  · rw [List.isPrefixOf, beq_eq_false_iff_ne.mpr first.symm, Bool.false_and]
  · cases text with
    | nil => cases second
    | cons d text =>
      have second : d ≠ '_' := by simpa using second
      rw [List.cons_append, List.isPrefixOf, List.isPrefixOf, beq_eq_false_iff_ne.mpr second.symm, Bool.false_and,
        Bool.and_false]

theorem loose_tail {c : Char} (h : loose (c :: text) = true) : loose text = true := by
  rw [loose, Bool.and_eq_true] at h
  exact h.2

theorem replaceFrom_loose (h : loose text = true) :
    replaceFrom ('_' :: '_' :: needle) value 0 (text ++ rest) = text ++ replaceFrom ('_' :: '_' :: needle) value 0 rest := by
  induction text with
  | nil => rfl
  | cons c text ih =>
    rw [List.cons_append, replaceFrom, isPrefixOf_loose h, if_neg Bool.false_ne_true, ih (loose_tail h), List.cons_append]

theorem isPrefixOf_append_cons {c : Char} (h : c ∉ needle) :
    needle.isPrefixOf (text ++ c :: rest) = needle.isPrefixOf text := by
  rw [Bool.eq_iff_iff, List.isPrefixOf_iff_prefix, List.isPrefixOf_iff_prefix]
  refine ⟨fun starts => ?_, fun starts => starts.trans (List.prefix_append _ _)⟩
  rcases List.prefix_or_prefix_of_prefix starts (List.prefix_append text (c :: rest)) with within | ⟨beyond, rfl⟩
  · exact within
  · rw [List.prefix_append_right_inj] at starts
    cases beyond with
    | nil => exact ⟨[], by rw [List.append_nil, List.append_nil]⟩
    | cons d beyond =>
      obtain ⟨rfl, -⟩ := List.cons_prefix_cons.mp starts
      exact absurd (List.mem_append_right _ List.mem_cons_self) h

/-- Before a character that the place does not have, the text is filled by itself. -/
theorem replaceFrom_append {c : Char} (h : c ∉ needle) {skip : Nat} (fits : skip ≤ text.length) :
    replaceFrom needle value skip (text ++ c :: rest) =
      replaceFrom needle value skip text ++ replaceFrom needle value 0 (c :: rest) := by
  induction text generalizing skip with
  | nil =>
    obtain rfl : skip = 0 := by simpa using fits
    rfl
  | cons d text ih =>
    cases skip with
    | succ skip =>
      rw [List.cons_append, replaceFrom, replaceFrom]
      exact ih (Nat.le_of_succ_le_succ fits)
    | zero =>
      have here : needle.isPrefixOf (d :: (text ++ c :: rest)) = needle.isPrefixOf (d :: text) := by
        rw [← List.cons_append, isPrefixOf_append_cons h]
      rw [List.cons_append, replaceFrom, replaceFrom.eq_3, here]
      split
      · next found =>
        have length := (List.isPrefixOf_iff_prefix.mp found).length_le
        rw [List.length_cons] at length
        rw [ih (by omega), List.append_assoc]
      · rw [ih (Nat.zero_le _), List.cons_append]

/-- What stands on the two sides of a text that keeps places apart is filled by itself. -/
structure Piecewise (f : List Char → List Char) : Prop where
  nil : f [] = []
  split {text : List Char} (h : apart text = true) (front rest : List Char) :
    f (front ++ (text ++ rest)) = f front ++ (text ++ f rest)

theorem Piecewise.intercalate {f : List Char → List Char} (piecewise : Piecewise f) {sep : List Char}
    (h : apart sep = true) (lines : List (List Char)) : f (sep.intercalate lines) = sep.intercalate (lines.map f) := by
  induction lines with
  | nil => exact piecewise.nil
  | cons line lines ih =>
    cases lines with
    | nil => simp
    | cons next lines =>
      rw [List.intercalate_cons_cons, List.append_assoc, piecewise.split h, ih]
      simp only [List.map_cons, List.intercalate_cons_cons, List.append_assoc]

theorem replaceAll_of_not_infix (absent : ¬ needle <:+: text) : replaceAll needle value text = text := by
  unfold replaceAll
  induction text with
  | nil => rfl
  | cons c text ih =>
    rw [List.infix_cons_iff, not_or] at absent
    have here : needle.isPrefixOf (c :: text) = false := by
      rw [← Bool.not_eq_true, List.isPrefixOf_iff_prefix]
      exact absent.1
    rw [replaceFrom, here, if_neg Bool.false_ne_true, ih absent.2]

theorem replaceAll_self (h : needle ≠ []) : replaceAll needle value needle = value := by
  cases needle with
  | nil => exact absurd rfl h
  | cons c needle =>
    have skipped (k : Nat) (text : List Char) (fits : text.length ≤ k) : replaceFrom (c :: needle) value k text = [] := by
      induction text generalizing k with
      | nil => exact replaceFrom.eq_1 _ _ _
      | cons d text ih =>
        cases k with
        | zero => cases fits
        | succ k => exact ih k (Nat.le_of_succ_le_succ fits)
    rw [replaceAll, replaceFrom, if_pos (List.isPrefixOf_iff_prefix.mpr List.prefix_rfl), skipped _ _ (by simp),
      List.append_nil]

end Text

namespace IndexTool

/-! ## Filling -/

structure Marked (places : List (String × String)) : Prop where
  opened : ∀ p ∈ places, ∃ mark, p.1.toList = '_' :: '_' :: mark
  capital : ∀ p ∈ places, ∀ c ∈ p.1.toList, Text.inPlace c = true

theorem Marked.tail {p : String × String} {places : List (String × String)} (marked : Marked (p :: places)) : Marked places :=
  ⟨fun q hq => marked.opened q (List.mem_cons_of_mem _ hq), fun q hq => marked.capital q (List.mem_cons_of_mem _ hq)⟩

theorem places_marked (t : IndexTool) (topK : Nat) : Marked (t.places topK) := by
  have opened : ∀ place ∈ ["__FUNC__", "__TOOL__", "__INDEX_CONST__", "__NAME__", "__DESCRIPTION__", "__TOP_K__", "__BASE_URL__"],
      ∃ mark, place.toList = '_' :: '_' :: mark := by
    simp
  have capital : ∀ place ∈ ["__FUNC__", "__TOOL__", "__INDEX_CONST__", "__NAME__", "__DESCRIPTION__", "__TOP_K__", "__BASE_URL__"],
      place.toList.all Text.inPlace = true := by
    decide +kernel
  exact ⟨fun p hp => opened p.1 (List.mem_map_of_mem (f := Prod.fst) hp),
    fun p hp => List.all_eq_true.mp (capital p.1 (List.mem_map_of_mem (f := Prod.fst) hp))⟩

theorem fill_nil (places : List (String × String)) : fill places [] = [] := by
  induction places with
  | nil => rfl
  | cons p places ih => exact ih

theorem fill_cons (place value : String) (places : List (String × String)) (text : List Char) :
    fill ((place, value) :: places) text = fill places (Text.replaceAll place.toList value.toList text) := rfl

variable {places : List (String × String)} {text : List Char}

theorem fill_loose (marked : Marked places) (loose : Text.loose text = true) (rest : List Char) :
    fill places (text ++ rest) = text ++ fill places rest := by
  induction places generalizing rest with
  | nil => rfl
  | cons p places ih =>
    obtain ⟨mark, opened⟩ := marked.opened p List.mem_cons_self
    rw [fill_cons, fill_cons, Text.replaceAll, opened, Text.replaceFrom_loose loose, ih marked.tail, Text.replaceAll]

/-- What stands before a text that keeps places apart is filled by itself. -/
theorem fill_apart (marked : Marked places) (apart : Text.apart text = true) (front rest : List Char) :
    fill places (front ++ (text ++ rest)) = fill places front ++ (text ++ fill places rest) := by
  cases text with
  | nil => cases apart
  | cons c text =>
    obtain ⟨foreign, loose⟩ : ¬ Text.inPlace c = true ∧ Text.loose (c :: text) = true := by
      simpa only [Text.apart, Bool.and_eq_true, Bool.not_eq_true', Bool.not_eq_true] using apart
    induction places generalizing front rest with
    | nil => rfl
    | cons p places ih =>
      obtain ⟨mark, opened⟩ := marked.opened p List.mem_cons_self
      have absent : c ∉ p.1.toList := fun member => foreign (marked.capital p List.mem_cons_self c member)
      have split : Text.replaceAll p.1.toList p.2.toList (front ++ (c :: text ++ rest)) =
          Text.replaceAll p.1.toList p.2.toList front ++ (c :: text ++ Text.replaceAll p.1.toList p.2.toList rest) := by
        rw [List.cons_append, Text.replaceAll, Text.replaceFrom_append absent (Nat.zero_le _), ← List.cons_append, opened,
          Text.replaceFrom_loose loose]
        rfl
      rw [fill_cons, split, ih marked.tail]
      rfl

theorem fill_piecewise (marked : Marked places) : Text.Piecewise (fill places) := ⟨fill_nil places, fill_apart marked⟩

/-! ## Names -/

/-- What is written for a part of the template: the places before it in the order of filling do not occur in
    it, and those after it are filled in what it is filled with. -/
def written (t : IndexTool) (topK : Nat) (part : String) : String :=
  String.ofList (fill (t.places topK) part.toList)

/-- The id of the tool brings a place into the tool's names. -/
def HidesPlace (t : IndexTool) : Prop :=
  ∃ place ∈ ["__INDEX_CONST__", "__NAME__", "__DESCRIPTION__", "__TOP_K__", "__BASE_URL__"],
    place.toList <:+: '_' :: (Program.ident t.spec.id).toList

/-- A place is filled with its value, and the places after it in the value. -/
theorem fill_place (before : List (String × String)) {after : List (String × String)} {place value : String}
    (nonempty : place.toList ≠ []) (others : ∀ other ∈ before.map Prod.fst, ¬ other.toList <:+: place.toList) :
    fill (before ++ (place, value) :: after) place.toList = fill after value.toList := by
  induction before with
  | nil => rw [List.nil_append, fill_cons, Text.replaceAll_self nonempty]
  | cons p before ih =>
    rw [List.cons_append, fill_cons, Text.replaceAll_of_not_infix (others p.1 List.mem_cons_self)]
    exact ih fun other member => others other (List.mem_cons_of_mem _ member)

theorem fill_of_not_infix (absent : ∀ p ∈ places, ¬ p.1.toList <:+: text) : fill places text = text := by
  induction places with
  | nil => rfl
  | cons p places ih =>
    rw [fill_cons, Text.replaceAll_of_not_infix (absent p List.mem_cons_self)]
    exact ih fun q hq => absent q (List.mem_cons_of_mem _ hq)

/-- A name stays as it is if no place occurs in it from the last underscore of its stem on. -/
theorem fill_name (marked : Marked places) {stem id : String} {front : List Char} (ends : stem.toList = front ++ ['_'])
    (loose : Text.loose front = true) (absent : ∀ p ∈ places, ¬ p.1.toList <:+: '_' :: id.toList) :
    fill places (stem ++ id).toList = (stem ++ id).toList := by
  rw [String.toList_append, ends, List.append_assoc, fill_loose marked loose, List.singleton_append,
    fill_of_not_infix absent]

variable {t : IndexTool}

theorem written_toolName (plain : ¬ t.HidesPlace) (topK : Nat) : t.written topK "__TOOL__" = t.toolName := by
  obtain ⟨places, split, hidden⟩ : ∃ places,
      t.places topK = [("__FUNC__", t.functionName)] ++ ("__TOOL__", t.toolName) :: places ∧
        places.map Prod.fst = ["__INDEX_CONST__", "__NAME__", "__DESCRIPTION__", "__TOP_K__", "__BASE_URL__"] :=
    ⟨_, rfl, rfl⟩
  have marked := t.places_marked topK
  rw [split] at marked
  have others : ∀ other ∈ ["__FUNC__"], ¬ other.toList <:+: "__TOOL__".toList := by decide +kernel
  have ends : "search_index_".toList = "search_index".toList ++ ['_'] := by decide +kernel
  have filled : fill places t.toolName.toList = t.toolName.toList := by
    refine fill_name marked.tail.tail ends (by decide +kernel) fun p hp inside => ?_
    exact plain ⟨p.1, hidden ▸ List.mem_map_of_mem hp, inside⟩
  rw [written, split, fill_place [("__FUNC__", t.functionName)] (by decide) others, filled, String.ofList_toList]

theorem written_indexConstant (plain : ¬ t.HidesPlace) (topK : Nat) :
    t.written topK "__INDEX_CONST__" = t.indexConstant := by
  obtain ⟨places, split, hidden⟩ : ∃ places, t.places topK = [("__FUNC__", t.functionName), ("__TOOL__", t.toolName)] ++
      ("__INDEX_CONST__", t.indexConstant) :: places ∧
      places.map Prod.fst = ["__NAME__", "__DESCRIPTION__", "__TOP_K__", "__BASE_URL__"] :=
    ⟨_, rfl, rfl⟩
  have marked := t.places_marked topK
  rw [split] at marked
  have others : ∀ other ∈ ["__FUNC__", "__TOOL__"], ¬ other.toList <:+: "__INDEX_CONST__".toList := by decide +kernel
  have ends : "LLAMACLOUD_INDEX_ID_".toList = "LLAMACLOUD_INDEX_ID".toList ++ ['_'] := by decide +kernel
  have filled : fill places t.indexConstant.toList = t.indexConstant.toList := by
    refine fill_name marked.tail.tail.tail ends (by decide +kernel) fun p hp inside => ?_
    exact plain ⟨p.1, List.mem_cons_of_mem _ (hidden ▸ List.mem_map_of_mem hp), inside⟩
  rw [written, split, fill_place [("__FUNC__", t.functionName), ("__TOOL__", t.toolName)] (by decide) others,
    filled, String.ofList_toList]

end IndexTool
end EventFlow
