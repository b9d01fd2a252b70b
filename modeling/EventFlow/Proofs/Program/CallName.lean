/-
  EventFlow.Proofs.Program.CallName — when a tool is called alike in the program and by the runtime.

  Both make the name of a tool from its label: they cut the label into words, join the words with capitals
  and fall back on the same name if there are no words. They differ in two things. The program's name keeps
  the capitals inside a word and the runtime's does not. And before a leading digit the program's name gets
  a word while the runtime's gets an underscore.

  So the names are one just if the label has no capital right behind a letter or digit and does not begin
  with a digit, which is seen without cutting it into words (`PlainLabel`). The label `HR policy_search` has
  two names (`label_renamed`).

  Proved:
  - `joinWords_eq_iff`: the two ways to join words.
  - `capitals_iff`: capitals inside the words of a text, as neighbours in the text.
  - `camelCase_eq_iff` / `isEmpty_camelCase`: the two names from one label.
  - `callName_eq_name_iff`: the two names of a tool.
-/

import EventFlow.Agent.SearchTool
import EventFlow.Proofs.Program.ToolCode

namespace EventFlow

namespace Text

/-! ## Case -/

theorem forall_ascii {P : Char → Prop} (small : ∀ n < 128, P (Char.ofNat n)) {c : Char} (h : c.toNat < 128) : P c :=
  Char.ofNat_toNat c ▸ small _ h

theorem isUpper_ascii {c : Char} (h : isUpper c = true) : c.toNat < 128 := by
  obtain ⟨-, high⟩ : 65 ≤ c.toNat ∧ c.toNat ≤ 90 := by simpa [isUpper, Char.le_def, UInt32.le_iff_toNat_le] using h
  omega

theorem isLower_ascii {c : Char} (h : isLower c = true) : c.toNat < 128 := by
  obtain ⟨-, high⟩ : 97 ≤ c.toNat ∧ c.toNat ≤ 122 := by simpa [isLower, Char.le_def, UInt32.le_iff_toNat_le] using h
  omega

theorem toLower_eq_self_iff {c : Char} : toLower c = c ↔ isUpper c = false := by
  cases upper : isUpper c with
  | false => simp [toLower, upper]
  | true =>
    have changes : isUpper c = true → toLower c ≠ c :=
      forall_ascii (P := fun c => isUpper c = true → toLower c ≠ c) (by decide +kernel) (isUpper_ascii upper)
    exact iff_of_false (changes upper) Bool.noConfusion

structure Caseless (kind : Char → Bool) : Prop where
  lower : ∀ c, kind (toLower c) = kind c
  upper : ∀ c, kind (toUpper c) = kind c

/-- Only ASCII letters change with the case. -/
theorem Caseless.of_ascii {kind : Char → Bool} (small : ∀ n < 128, kind (toLower (Char.ofNat n)) = kind (Char.ofNat n) ∧
    kind (toUpper (Char.ofNat n)) = kind (Char.ofNat n)) : Caseless kind := by
  have ascii {c : Char} (h : c.toNat < 128) : kind (toLower c) = kind c ∧ kind (toUpper c) = kind c :=
    forall_ascii (P := fun c => kind (toLower c) = kind c ∧ kind (toUpper c) = kind c) small h
  refine ⟨fun c => ?_, fun c => ?_⟩
  · cases upper : isUpper c with
    | false => simp [toLower, upper]
    | true => exact (ascii (isUpper_ascii upper)).1
  · cases lower : isLower c with
    | false => simp [toUpper, lower]
    | true => exact (ascii (isLower_ascii lower)).2

theorem isDigit_caseless : Caseless isDigit := .of_ascii (by decide +kernel)

/-! ## Words -/

/-- The words of a text have all characters that words are made of. -/
theorem flatten_runsFrom (keep : Char → Bool) (word s : List Char) :
    (runsFrom keep word s).flatten = word.reverse ++ s.filter keep := by
  induction s generalizing word with
  | nil => cases word <;> simp [runsFrom]
  | cons c s ih =>
    unfold runsFrom
    split
    case isTrue kept => simp [ih, kept]
    case isFalse other =>
      cases word with
      | nil => simp [ih, other]
      | cons d word => simp [ih, other]

/-- No capital stands right behind a letter or digit. -/
def CapitalsFirst (s : List Char) : Prop := s.IsChain fun a b => isAlphanumeric a = true → isUpper b = false

instance (s : List Char) : Decidable (CapitalsFirst s) := inferInstanceAs (Decidable (List.IsChain _ s))

/-- No word has a capital but for its first letter. -/
theorem capitals_iff {word : List Char} (kept : ∀ c ∈ word, isAlphanumeric c = true) (s : List Char) :
    (∀ w ∈ runsFrom isAlphanumeric word s, ∀ c ∈ w.tail, isUpper c = false) ↔
      (∀ c ∈ word.reverse.tail, isUpper c = false) ∧ CapitalsFirst (word.head?.toList ++ s) := by
  induction s generalizing word with
  | nil => cases word <;> simp [runsFrom, CapitalsFirst]
  | cons c s ih =>
    unfold runsFrom
    split
    case isTrue here =>
      have kept' : ∀ d ∈ c :: word, isAlphanumeric d = true := List.forall_mem_cons.mpr ⟨here, kept⟩
      rw [ih kept']
      cases word with
      | nil => simp [CapitalsFirst]
      | cons d word =>
        have last := kept d List.mem_cons_self
        have grown : (c :: d :: word).reverse.tail = (d :: word).reverse.tail ++ [c] := by
          rw [List.reverse_cons, List.tail_append_of_ne_nil (by simp)]
        rw [grown]
        simp only [List.forall_mem_append, List.forall_mem_singleton, CapitalsFirst, List.head?_cons, Option.toList_some,
          List.singleton_append, List.isChain_cons_cons, last, true_implies, and_assoc]
    case isFalse here =>
      have small : isUpper c = false := by
        simp only [isAlphanumeric, Bool.or_eq_true, not_or] at here
        exact Bool.eq_false_iff.mpr here.1.1
      have after : CapitalsFirst (c :: s) ↔ CapitalsFirst s := by
        cases s <;> simp [CapitalsFirst, here]
      have none : ∀ c ∈ ([] : List Char), isAlphanumeric c = true := List.forall_mem_nil _
      have others := ih none
      cases word with
      | nil => simpa [after] using others
      | cons d word =>
        have between : CapitalsFirst (d :: c :: s) ↔ CapitalsFirst (c :: s) := by simp [CapitalsFirst, small]
        simpa [between, after] using fun _ => others

end Text

open Text

/-! ## Joined words -/

theorem lowered_eq_self_iff {word : List Char} : SearchTool.lowered word = word ↔ ∀ c ∈ word, isUpper c = false := by
  induction word with
  | nil => simp [SearchTool.lowered]
  | cons c word ih =>
    rw [SearchTool.lowered, List.map_cons, List.cons.injEq, toLower_eq_self_iff, ← SearchTool.lowered, ih, List.forall_mem_cons]

theorem uncapitalized_eq_iff (word : List Char) :
    Program.uncapitalized word = SearchTool.lowered word ↔ ∀ c ∈ word.tail, isUpper c = false := by
  cases word with
  | nil => simp [Program.uncapitalized, SearchTool.lowered]
  | cons c word =>
    rw [Program.uncapitalized, SearchTool.lowered, List.map_cons, List.cons.injEq, and_iff_right rfl, ← SearchTool.lowered,
      eq_comm, lowered_eq_self_iff, List.tail_cons]

theorem capitalized_eq_iff (word : List Char) :
    Program.capitalized word = SearchTool.titled word ↔ ∀ c ∈ word.tail, isUpper c = false := by
  cases word with
  | nil => simp [Program.capitalized, SearchTool.titled]
  | cons c word =>
    rw [Program.capitalized, SearchTool.titled, List.cons.injEq, and_iff_right rfl, eq_comm, lowered_eq_self_iff, List.tail_cons]

/-! What a word becomes has characters of the same kinds, each in its place. -/

section

variable {kind : Char → Bool} (caseless : Caseless kind)

include caseless

theorem kinds_lowered (word : List Char) : (SearchTool.lowered word).map kind = word.map kind := by
  simp [SearchTool.lowered, caseless.lower]

theorem kinds_titled (word : List Char) : (SearchTool.titled word).map kind = word.map kind := by
  cases word <;> simp [SearchTool.titled, SearchTool.lowered, caseless.lower, caseless.upper]

theorem kinds_uncapitalized (word : List Char) : (Program.uncapitalized word).map kind = word.map kind := by
  cases word <;> simp [Program.uncapitalized, caseless.lower]

theorem kinds_capitalized (word : List Char) : (Program.capitalized word).map kind = word.map kind := by
  cases word <;> simp [Program.capitalized, caseless.upper]

omit caseless in
theorem kinds_flatMap {change : List Char → List Char} (kinds : ∀ word, (change word).map kind = word.map kind)
    (words : List (List Char)) : (words.flatMap change).map kind = words.flatten.map kind := by
  induction words with
  | nil => rfl
  | cons word words ih => rw [List.flatMap_cons, List.map_append, kinds, ih, ← List.map_append, List.flatten_cons]

theorem kinds_joinWords (words : List (List Char)) :
    (Program.joinWords words).map kind = words.flatten.map kind ∧
    (SearchTool.joinWords words).map kind = words.flatten.map kind := by
  cases words with
  | nil => exact ⟨rfl, rfl⟩
  | cons first words =>
    rw [Program.joinWords, SearchTool.joinWords, List.map_append, List.map_append, kinds_uncapitalized caseless,
      kinds_lowered caseless, kinds_flatMap (kinds_capitalized caseless), kinds_flatMap (kinds_titled caseless),
      ← List.map_append, List.flatten_cons]
    exact ⟨rfl, rfl⟩

end

theorem append_eq_append_iff_of_digits {front front' rest rest' : List Char}
    (digits : front.map isDigit = front'.map isDigit) : front ++ rest = front' ++ rest' ↔ front = front' ∧ rest = rest' := by
  have length : front.length = front'.length := by simpa using congrArg List.length digits
  exact List.append_eq_append_iff_of_size_eq_left length

/-- Words are joined alike if none has a capital but for its first letter. -/
theorem joinWords_eq_iff (words : List (List Char)) :
    Program.joinWords words = SearchTool.joinWords words ↔ ∀ w ∈ words, ∀ c ∈ w.tail, isUpper c = false := by
  have others (words : List (List Char)) : words.flatMap Program.capitalized = words.flatMap SearchTool.titled ↔
      ∀ w ∈ words, ∀ c ∈ w.tail, isUpper c = false := by
    induction words with
    | nil => simp
    | cons word words ih =>
      rw [List.flatMap_cons, List.flatMap_cons,
        append_eq_append_iff_of_digits
          ((kinds_capitalized isDigit_caseless word).trans (kinds_titled isDigit_caseless word).symm),
        capitalized_eq_iff, ih, List.forall_mem_cons]
  cases words with
  | nil => simp [Program.joinWords, SearchTool.joinWords]
  | cons first words =>
    rw [Program.joinWords, SearchTool.joinWords,
      append_eq_append_iff_of_digits
        ((kinds_uncapitalized isDigit_caseless first).trans (kinds_lowered isDigit_caseless first).symm),
      uncapitalized_eq_iff, others, List.forall_mem_cons]

/-! ## Names from labels -/

structure PlainLabel (label : String) : Prop where
  capitals : CapitalsFirst label.toList
  letter : (label.toList.find? isAlphanumeric).any isDigit = false

def guarded (word name : List Char) : List Char := if name.head?.any isDigit then word ++ name else name

theorem guarded_eq_nil_iff {word name : List Char} : guarded word name = [] ↔ name = [] := by
  cases name with
  | nil => simp [guarded]
  | cons c name =>
    unfold guarded
    split <;> simp

theorem toList_camelCase (label : String) :
    (Program.camelCase label).toList = guarded "model".toList (Program.joinWords (runs isAlphanumeric label.toList)) := by
  unfold Program.camelCase guarded
  split
  case h_1 none =>
    rw [none]
    rfl
  case h_2 c rest joined =>
    rw [joined, String.toList_ofList]
    rfl

theorem toList_callName (label : String) :
    (SearchTool.callName label).toList = guarded ['_'] (SearchTool.joinWords (runs isAlphanumeric label.toList)) := by
  unfold SearchTool.callName guarded
  split
  case h_1 none =>
    rw [none]
    rfl
  case h_2 c rest joined =>
    rw [joined, String.toList_ofList]
    rfl

/-- Joined words begin with a digit if the text's first letter or digit is one. -/
theorem head_digit {name text : List Char} (digits : name.map isDigit = (runs isAlphanumeric text).flatten.map isDigit) :
    name.head?.any isDigit = (text.find? isAlphanumeric).any isDigit := by
  have heads (s : List Char) : s.head?.any isDigit = (s.map isDigit).head?.any id := by cases s <;> rfl
  rw [heads, digits, ← heads, runs, flatten_runsFrom, List.reverse_nil, List.nil_append, List.head?_filter]

theorem camelCase_eq_iff (label : String) : Program.camelCase label = SearchTool.callName label ↔ PlainLabel label := by
  obtain ⟨digits, digits'⟩ := kinds_joinWords isDigit_caseless (runs isAlphanumeric label.toList)
  rw [← String.toList_inj, toList_camelCase, toList_callName, guarded, guarded, head_digit digits, head_digit digits']
  cases digit : (label.toList.find? isAlphanumeric).any isDigit with
  | true =>
    have differ (rest rest' : List Char) : "model".toList ++ rest ≠ ['_'] ++ rest' := by simp
    exact iff_of_false (differ _ _) fun plain => absurd plain.letter (by simp [digit])
  | false =>
    have capitals : Program.joinWords (runs isAlphanumeric label.toList) = SearchTool.joinWords (runs isAlphanumeric label.toList) ↔
        CapitalsFirst label.toList := by
      have none : ∀ c ∈ ([] : List Char), isAlphanumeric c = true := List.forall_mem_nil _
      have inside := capitals_iff none label.toList
      simpa [runs] using (joinWords_eq_iff _).trans inside
    simpa using capitals.trans ⟨fun capitals => ⟨capitals, digit⟩, fun plain => plain.capitals⟩

/-- A label without letters and digits has neither name. -/
theorem isEmpty_camelCase (label : String) : (Program.camelCase label).isEmpty = (SearchTool.callName label).isEmpty := by
  obtain ⟨digits, digits'⟩ := kinds_joinWords isDigit_caseless (runs isAlphanumeric label.toList)
  have alike : Program.joinWords (runs isAlphanumeric label.toList) = [] ↔
      SearchTool.joinWords (runs isAlphanumeric label.toList) = [] := by
    rw [← List.map_eq_nil_iff (f := isDigit), digits, ← digits', List.map_eq_nil_iff]
  rw [Bool.eq_iff_iff, String.isEmpty_iff, String.isEmpty_iff, ← String.toList_eq_nil_iff, ← String.toList_eq_nil_iff,
    toList_camelCase, toList_callName, guarded_eq_nil_iff, guarded_eq_nil_iff, alike]

namespace IndexTool

/-- A tool has one name just if its label is plain. The name in the program's code is the one that the program
    makes, and the runtime registers the tool that searches the same index under the one that it makes. -/
theorem callName_eq_name_iff (spec : ToolSpec) (isIndex : spec.isIndex = true) {index : String}
    (selected : nonEmpty spec.selectedIndex = some index) :
    let t : IndexTool := ⟨spec, index⟩
    ∃ tool, SearchTool.ofSpec? spec = some tool ∧ tool.index = index ∧
      (∀ topK, t.written topK "__NAME__" = Program.literal t.callName) ∧
      (t.callName = tool.name ↔ PlainLabel spec.name) := by
  intro t
  refine ⟨_, by rw [SearchTool.ofSpec?, if_pos isIndex, selected, Option.map_some], rfl, t.written_callName, ?_⟩
  rw [← camelCase_eq_iff]
  show (if (Program.camelCase spec.name).isEmpty then defaultName else Program.camelCase spec.name) =
    (if (SearchTool.callName spec.name).isEmpty then SearchTool.defaultName else SearchTool.callName spec.name) ↔ _
  rw [isEmpty_camelCase]
  cases empty : (SearchTool.callName spec.name).isEmpty with
  | true =>
    have both : Program.camelCase spec.name = SearchTool.callName spec.name := by
      rw [String.isEmpty_iff.mp empty, String.isEmpty_iff.mp ((isEmpty_camelCase _).trans empty)]
    exact iff_of_true rfl both
  | false => exact Iff.rfl

def labelled (label : String) : ToolSpec :=
  { id := "node-3", name := label, description := "", toolType := some ToolSpec.indexType, selectedIndex := some "pipe-1" }

theorem plainLabel_oneName :
    let t : IndexTool := ⟨labelled "Docs: Version 2 – été", "pipe-1"⟩
    (labelled "Docs: Version 2 – été").isIndex = true ∧ nonEmpty (labelled "Docs: Version 2 – été").selectedIndex = some "pipe-1" ∧
    t.callName = "docsVersion2T" ∧ ∃ tool, SearchTool.ofSpec? t.spec = some tool ∧ t.callName = tool.name := by
  intro t
  have isIndex : (labelled "Docs: Version 2 – été").isIndex = true := by decide
  have selected : nonEmpty (labelled "Docs: Version 2 – été").selectedIndex = some "pipe-1" := by decide
  obtain ⟨capitals, letter, named⟩ : CapitalsFirst "Docs: Version 2 – été".toList ∧
      ("Docs: Version 2 – été".toList.find? isAlphanumeric).any isDigit = false ∧ t.callName = "docsVersion2T" := by
    decide +kernel
  obtain ⟨tool, made, -, -, agree⟩ := callName_eq_name_iff _ isIndex selected
  exact ⟨isIndex, selected, named, tool, made, agree.mpr ⟨capitals, letter⟩⟩

/-- A tool with two names: a capital stands behind a capital. -/
theorem label_renamed : ∃ tool, SearchTool.ofSpec? (labelled "HR policy_search") = some tool ∧ tool.name = "hrPolicySearch" ∧
    (⟨labelled "HR policy_search", "pipe-1"⟩ : IndexTool).written 10 "__NAME__" = "\"hRPolicySearch\"" :=
  ⟨_, rfl, by decide +kernel⟩

end IndexTool
end EventFlow
