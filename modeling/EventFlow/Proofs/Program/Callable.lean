/-
  EventFlow.Proofs.Program.Callable — names that a model can call a tool by.

  A provider refuses a request if a tool in it is called anything but letters, digits and underscores, or
  begins with a digit. A label may be any text. Of its characters only letters and digits come into a name,
  whatever their case becomes there; the word before a leading digit is a name itself, and so is the name of
  a tool whose label has no letter and no digit. So both names of a tool can be called, the one that it is
  registered under and the one in the program's code.

  Proved:
  - `alphanumeric_joinWords`: joined words are letters and digits, as the words are.
  - `callable_guarded`: a name with a word before a leading digit.
  - `names_callable`: both names of every tool.
-/

import EventFlow.Proofs.Program.CallName

namespace EventFlow

open Text

structure Callable (name : String) : Prop where
  nonempty : name ≠ ""
  begins : ∀ c ∈ name.toList.head?, isUpper c = true ∨ isLower c = true ∨ c = '_'
  characters : ∀ c ∈ name.toList, isAlphanumeric c = true ∨ c = '_'

namespace Callable

theorem iff_all {name : String} : Callable name ↔ name ≠ "" ∧
    name.toList.head?.all (fun c => isUpper c || isLower c || c == '_') = true ∧
    name.toList.all (fun c => isAlphanumeric c || c == '_') = true := by
  simp only [Option.all_eq_true, List.all_eq_true, Bool.or_eq_true, beq_iff_eq, or_assoc]
  exact ⟨fun ⟨nonempty, begins, characters⟩ => ⟨nonempty, begins, characters⟩,
    fun ⟨nonempty, begins, characters⟩ => ⟨nonempty, begins, characters⟩⟩

instance (name : String) : Decidable (Callable name) := decidable_of_iff _ iff_all.symm

end Callable

/-! ## Joined words -/

namespace SearchTool

theorem alphanumeric_lowered {word : List Char} (h : Alphanumeric word) : Alphanumeric (lowered word) := by
  intro c hc
  obtain ⟨d, hd, rfl⟩ := List.mem_map.mp hc
  exact isAlphanumeric_toLower (h d hd)

theorem alphanumeric_titled {word : List Char} (h : Alphanumeric word) : Alphanumeric (titled word) := by
  cases word with
  | nil => exact h
  | cons c word =>
    obtain ⟨first, others⟩ := List.forall_mem_cons.mp h
    exact List.forall_mem_cons.mpr ⟨isAlphanumeric_toUpper first, alphanumeric_lowered others⟩

theorem alphanumeric_joinWords {words : List (List Char)} (h : ∀ w ∈ words, Alphanumeric w) :
    Alphanumeric (joinWords words) := by
  cases words with
  | nil => exact List.forall_mem_nil _
  | cons first words =>
    obtain ⟨first, others⟩ := List.forall_mem_cons.mp h
    refine alphanumeric_append.mpr ⟨alphanumeric_lowered first, ?_⟩
    intro c hc
    obtain ⟨w, hw, member⟩ := List.mem_flatMap.mp hc
    exact alphanumeric_titled (others w hw) c member

end SearchTool

/-! ## Names -/

/-- A name of letters and digits can be called if the word before a leading digit can. -/
theorem callable_guarded (word : String) (guard : Callable word) {name : String} {text : List Char}
    (kept : Alphanumeric text) (made : name.toList = guarded word.toList text) (some : name ≠ "") :
    Callable name := by
  have characters : ∀ c ∈ text, isAlphanumeric c = true ∨ c = '_' := fun c hc => .inl (kept c hc)
  unfold guarded at made
  split at made
  case isTrue digit =>
    have first : word.toList ≠ [] := fun none => guard.nonempty (String.toList_eq_nil_iff.mp none)
    refine ⟨some, ?_, ?_⟩
    · rw [made, List.head?_append_of_ne_nil _ first]
      exact guard.begins
    · rw [made]
      exact List.forall_mem_append.mpr ⟨guard.characters, characters⟩
  case isFalse letter =>
    refine ⟨some, fun c hc => ?_, made ▸ characters⟩
    rw [made] at hc
    have kind : (isUpper c || isLower c || isDigit c) = true := kept c (List.mem_of_head? hc)
    have noDigit : isDigit c = false := by simpa [Option.mem_def.mp hc] using letter
    rw [noDigit, Bool.or_false, Bool.or_eq_true] at kind
    exact kind.imp_right .inl

theorem callable_camelCase {label : String} (some : Program.camelCase label ≠ "") : Callable (Program.camelCase label) :=
  callable_guarded "model" (by decide +kernel) (Program.alphanumeric_joinWords fun _ => alphanumeric_runs)
    (toList_camelCase label) some

theorem callable_callName {label : String} (some : SearchTool.callName label ≠ "") : Callable (SearchTool.callName label) :=
  callable_guarded "_" (by decide +kernel) (SearchTool.alphanumeric_joinWords fun _ => alphanumeric_runs)
    (toList_callName label) some

/-- A name that stands in for an empty one. -/
theorem callable_of_default {name usual : String} (callable : name ≠ "" → Callable name) (standsIn : Callable usual) :
    Callable (if name.isEmpty then usual else name) := by
  split
  · exact standsIn
  · next some => exact callable fun none => some (String.isEmpty_iff.mpr none)

/-- Whatever its label is, a tool that searches an index is registered under a name that can be called, and
    such a name is written in the program's code. -/
theorem names_callable (spec : ToolSpec) (isIndex : spec.isIndex = true) {index : String}
    (selected : nonEmpty spec.selectedIndex = some index) :
    let t : IndexTool := ⟨spec, index⟩
    (∃ tool, SearchTool.ofSpec? spec = some tool ∧ tool.index = index ∧ Callable tool.name) ∧
      (∀ topK, t.written topK "__NAME__" = Program.literal t.callName) ∧ Callable t.callName := by
  intro t
  refine ⟨⟨_, by rw [SearchTool.ofSpec?, if_pos isIndex, selected, Option.map_some], rfl, ?_⟩, t.written_callName, ?_⟩
  · exact callable_of_default callable_callName (by decide +kernel)
  · exact callable_of_default callable_camelCase (by decide +kernel)

/-- A label that begins with a digit and has letters of another alphabet. -/
theorem digitLabel_callable :
    let spec := IndexTool.labelled "2024 – Отчёты v2"
    spec.isIndex = true ∧ nonEmpty spec.selectedIndex = some "pipe-1" ∧
      (∃ tool, SearchTool.ofSpec? spec = some tool ∧ tool.name = "_2024V2" ∧ Callable tool.name) ∧
      (⟨spec, "pipe-1"⟩ : IndexTool).callName = "model2024V2" ∧ Callable (⟨spec, "pipe-1"⟩ : IndexTool).callName := by
  intro spec
  have isIndex : spec.isIndex = true := by decide
  have selected : nonEmpty spec.selectedIndex = some "pipe-1" := by decide
  obtain ⟨⟨tool, made, -, callable⟩, -, callable'⟩ := names_callable spec isIndex selected
  have name : (SearchTool.ofSpec? spec).map (·.name) = some "_2024V2" := by decide +kernel
  rw [made] at name
  exact ⟨isIndex, selected, ⟨tool, made, Option.some.inj name, callable⟩, by decide +kernel, callable'⟩

end EventFlow
