/-
  EventFlow.Proofs.Program.Families — what tells the names in a program apart.

  Keys, tools, index ids, events and requests have prefixes of their own. The part of a name before its
  first underscore, its family, says which of them it has. Models have names without an underscore, since
  what a model id leaves of itself is letters and digits.

  A tool's names stand in its code where the places of a template are filled one after the other, and a
  place that the id of the tool brings in is filled too. No place begins in the prefix of the names, since
  places begin with two underscores: the family stays.

  Proved:
  - `binds_family`: the family of what the code of a tool declares.
  - `alphanumeric_camelCase`: a text as a name is made of letters and digits.
  - `models_sound`: models are named apart, by letters and digits.
-/

import EventFlow.Proofs.Json.Number
import EventFlow.Proofs.Program.Names
import EventFlow.Proofs.Program.Template

namespace EventFlow

namespace Program

/-- What stands before the first underscore of a name, if it has one. -/
def family (name : String) : Option (List Char) :=
  if '_' ∈ name.toList then some (name.toList.takeWhile (· ≠ '_')) else none

theorem family_eq_none_iff {name : String} : family name = none ↔ '_' ∉ name.toList := by
  simp [family]

/-- A prefix with an underscore tells the family. -/
theorem family_of_append {name : String} {stem rest : List Char} (clean : '_' ∉ stem)
    (name_eq : name.toList = stem ++ '_' :: rest) : family name = some stem := by
  have stops : ∀ c ∈ stem, decide (c ≠ '_') = true := fun c hc => decide_eq_true fun same => clean (same ▸ hc)
  rw [family, name_eq, if_pos (by simp), List.takeWhile_append_of_pos stops, List.takeWhile_cons_of_neg (by decide),
    List.append_nil]

end Program

/-! ## Tools -/

namespace IndexTool

/-- The names that the code of a tool declares: what the places in front are filled with. -/
def binds (t : IndexTool) (topK : Nat) : List String :=
  ["__FUNC__", "__TOOL__"].map fun place => String.ofList (fill (t.places topK) place.toList)

/-- Filling places leaves the start of a tool's names as it is. -/
theorem family_fill {places : List (String × String)} (marked : Marked places) {text : String} {rest : List Char}
    (starts : text.toList = "search".toList ++ '_' :: 'i' :: rest) :
    Program.family (String.ofList (fill places text.toList)) = some "search".toList := by
  have loose : Text.loose ("search".toList ++ ['_', 'i']) = true := by decide
  have stem : text.toList = "search".toList ++ ['_', 'i'] ++ rest := by rw [starts, List.append_assoc]; rfl
  have filled : (String.ofList (fill places text.toList)).toList = "search".toList ++ '_' :: 'i' :: fill places rest := by
    rw [String.toList_ofList, stem, fill_loose marked loose, List.append_assoc]
    rfl
  exact Program.family_of_append (by decide) filled

/-- What the code of a tool declares. -/
theorem binds_family (t : IndexTool) (topK : Nat) {name : String} (h : name ∈ t.binds topK) :
    Program.family name = some "search".toList := by
  obtain ⟨places, split⟩ : ∃ places, t.places topK = ("__FUNC__", t.functionName) :: ("__TOOL__", t.toolName) :: places :=
    ⟨_, rfl⟩
  have marked := t.places_marked topK
  rw [split] at marked
  simp only [binds, split, List.map_cons, List.map_nil, List.mem_cons, List.not_mem_nil, or_false] at h
  -- A place is filled with the name, and the places after it are looked for in the name.
  rcases h with rfl | rfl
  · have none : ∀ other ∈ ([] : List String), ¬ other.toList <:+: "__FUNC__".toList := by decide
    rw [← List.nil_append ((_, _) :: _), fill_place [] (by decide) none]
    exact family_fill marked.tail String.toList_append
  · have others : ∀ other ∈ ["__FUNC__"], ¬ other.toList <:+: "__TOOL__".toList := by decide +kernel
    rw [← List.singleton_append, fill_place [("__FUNC__", t.functionName)] (by decide) others]
    exact family_fill marked.tail.tail String.toList_append

end IndexTool

/-! ## Models -/

namespace Text

theorem mem_runsFrom {keep : Char → Bool} {word s w : List Char} (kept : ∀ c ∈ word, keep c = true)
    (h : w ∈ runsFrom keep word s) : ∀ c ∈ w, keep c = true := by
  induction s generalizing word with
  | nil =>
    unfold runsFrom at h
    split at h
    · cases h
    · rw [List.mem_singleton.mp h]
      exact fun c hc => kept c (List.mem_reverse.mp hc)
  | cons c s ih =>
    unfold runsFrom at h
    split at h
    · next keeps =>
      refine ih ?_ h
      intro d hd
      rcases List.mem_cons.mp hd with rfl | hd
      · exact keeps
      · exact kept d hd
    · split at h
      · exact ih (fun c hc => absurd hc List.not_mem_nil) h
      · rcases List.mem_cons.mp h with rfl | h
        · exact fun c hc => kept c (List.mem_reverse.mp hc)
        · exact ih (fun c hc => absurd hc List.not_mem_nil) h

theorem isAlphanumeric_toUpper {c : Char} (h : isAlphanumeric c = true) : isAlphanumeric (toUpper c) = true := by
  unfold toUpper
  split
  · next lower =>
    obtain ⟨low, high⟩ : 97 ≤ c.toNat ∧ c.toNat ≤ 122 := by simpa [isLower, Char.le_def, UInt32.le_iff_toNat_le] using lower
    have letters : ∀ n ≤ 90, 65 ≤ n → isAlphanumeric (Char.ofNat n) = true := by decide
    exact letters _ (by omega) (by omega)
  · exact h

theorem isAlphanumeric_toLower {c : Char} (h : isAlphanumeric c = true) : isAlphanumeric (toLower c) = true := by
  unfold toLower
  split
  · next upper =>
    obtain ⟨low, high⟩ : 65 ≤ c.toNat ∧ c.toNat ≤ 90 := by simpa [isUpper, Char.le_def, UInt32.le_iff_toNat_le] using upper
    have letters : ∀ n ≤ 122, 97 ≤ n → isAlphanumeric (Char.ofNat n) = true := by decide
    exact letters _ (by omega) (by omega)
  · exact h

def Alphanumeric (text : List Char) : Prop := ∀ c ∈ text, isAlphanumeric c = true

variable {text rest : List Char}

theorem alphanumeric_append : Alphanumeric (text ++ rest) ↔ Alphanumeric text ∧ Alphanumeric rest :=
  List.forall_mem_append

theorem Alphanumeric.not_mem (h : Alphanumeric text) {c : Char} (other : isAlphanumeric c = false) : c ∉ text := by
  intro member
  rw [h c member] at other
  cases other

theorem alphanumeric_runs {w : List Char} (h : w ∈ runs isAlphanumeric text) : Alphanumeric w :=
  mem_runsFrom (fun _ hc => absurd hc List.not_mem_nil) h

end Text

namespace Program

open Text

theorem alphanumeric_capitalized {word : List Char} (h : Alphanumeric word) : Alphanumeric (capitalized word) := by
  cases word with
  | nil => exact h
  | cons c word =>
    obtain ⟨first, others⟩ := List.forall_mem_cons.mp h
    exact List.forall_mem_cons.mpr ⟨isAlphanumeric_toUpper first, others⟩

theorem alphanumeric_uncapitalized {word : List Char} (h : Alphanumeric word) : Alphanumeric (uncapitalized word) := by
  cases word with
  | nil => exact h
  | cons c word =>
    obtain ⟨first, others⟩ := List.forall_mem_cons.mp h
    exact List.forall_mem_cons.mpr ⟨isAlphanumeric_toLower first, others⟩

theorem alphanumeric_joinWords {words : List (List Char)} (h : ∀ w ∈ words, Alphanumeric w) :
    Alphanumeric (joinWords words) := by
  cases words with
  | nil => exact List.forall_mem_nil _
  | cons first words =>
    obtain ⟨first, others⟩ := List.forall_mem_cons.mp h
    refine alphanumeric_append.mpr ⟨alphanumeric_uncapitalized first, ?_⟩
    intro c hc
    obtain ⟨w, hw, member⟩ := List.mem_flatMap.mp hc
    exact alphanumeric_capitalized (others w hw) c member

theorem alphanumeric_camelCase (text : String) : Alphanumeric (camelCase text).toList := by
  have joined := alphanumeric_joinWords fun w (hw : w ∈ runs isAlphanumeric text.toList) => alphanumeric_runs hw
  unfold camelCase
  split
  · exact List.forall_mem_nil _
  · next c rest made =>
    rw [made] at joined
    rw [String.toList_ofList]
    split
    · exact alphanumeric_append.mpr ⟨List.all_eq_true.mp (by decide : "model".toList.all isAlphanumeric = true), joined⟩
    · exact joined

end Program

theorem alphanumeric_numbered {base : String} (h : Text.Alphanumeric base.toList) (k : Nat) :
    Text.Alphanumeric (numbered "" base k).toList := by
  cases k with
  | zero => exact h
  | succ k =>
    have digits : Text.Alphanumeric (Nat.toDigits 10 (k + 2)) := fun c hc => by
      simp [Text.isAlphanumeric, Outline.digits_toDigits _ _ hc]
    rw [numbered, String.toList_append, String.toList_append, Nat.toString_eq_repr, Nat.toList_repr]
    exact Text.alphanumeric_append.mpr ⟨Text.alphanumeric_append.mpr ⟨h, List.forall_mem_nil _⟩, digits⟩

namespace Workflow

theorem alphanumeric_modelStem (modelId : String) : Text.Alphanumeric (modelStem modelId).toList := by
  unfold modelStem
  simp only
  split
  · exact List.all_eq_true.mp (by decide : "llm".toList.all Text.isAlphanumeric = true)
  · exact Program.alphanumeric_camelCase modelId

structure ModelsSound (models : List ModelInstance) : Prop where
  distinct : (models.map (·.name)).Nodup
  clean : ∀ m ∈ models, Text.Alphanumeric m.name.toList

theorem ModelsSound.add {models : List ModelInstance} (sound : ModelsSound models) (w : Workflow) (c : PromptAgentConfig) :
    ModelsSound (w.addModel models c) := by
  unfold addModel
  simp only
  split
  · exact sound
  · obtain ⟨k, named, free, -⟩ := freshName_spec (models.map (·.name)) "" (modelStem (agentModelId (w.providerFor c.llm) c))
    rw [named]
    constructor
    · rw [List.map_append, List.map_cons, List.map_nil]
      exact List.nodup_append_comm.mp (List.nodup_cons.mpr ⟨free, sound.distinct⟩ : ([_] ++ _).Nodup)
    · intro m hm
      rcases List.mem_append.mp hm with old | new
      · exact sound.clean m old
      · rw [List.mem_singleton.mp new]
        exact alphanumeric_numbered (alphanumeric_modelStem _) k

theorem models_sound (w : Workflow) : ModelsSound w.models := by
  have folded (agents : List PromptAgentConfig) (models : List ModelInstance) (sound : ModelsSound models) :
      ModelsSound (agents.foldl w.addModel models) := by
    induction agents generalizing models with
    | nil => exact sound
    | cons c agents ih => exact ih _ (sound.add w c)
  exact folded w.agents [] ⟨.nil, fun m hm => absurd hm List.not_mem_nil⟩

end Workflow
end EventFlow
