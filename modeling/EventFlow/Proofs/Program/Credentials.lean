/-
  EventFlow.Proofs.Program.Credentials — what a program shows of the keys in its settings.

  A program declares the keys of the providers that its steps call and reads no other provider's key, and it
  reads no address at all. So two workflows that differ in nothing else have one program.

  The key for retrieval is different. It is declared if there is one, before it is asked whether any agent has
  an index to search; only where there is none does the program read it from the environment for its tools
  alone. So it shows in the program of every workflow (`generate_eq_iff`), even where nothing uses it
  (`unusedKey_shown`).

  Proved:
  - `render_eq_iff`: programs that differ in their constants have one text if their constants do.
  - `AlikeButKeys.program_eq` / `AlikeButKeys.otherConstants_eq`: what such workflows have in common.
  - `retrievalConstants_inj`: the key can be read off its declaration.
  - `generate_eq_iff`: when such workflows have one program.
-/

import EventFlow.Proofs.Json.Text
import EventFlow.Proofs.Program.Closed

namespace EventFlow

/-! ## Texts of sections -/

/-- What a text literal says can be read off it. -/
theorem Program.literal_inj {a b : String} (same : literal a = literal b) : a = b := by
  have quoted : a.toList.flatMap Json.escaped ++ ['"'] = b.toList.flatMap Json.escaped ++ ['"'] := by
    have chars := congrArg String.toList same
    simpa [literal, Json.quote, Json.quoted] using chars
  have scanned := congrArg Outline.scanText quoted
  rw [Outline.scanText_quoted, Outline.scanText_quoted] at scanned
  simpa using scanned

namespace Text

/-- A section that is left out if it is empty, with a blank line after it. -/
def spaced (s : String) : String := if s.isEmpty then "" else s ++ "\n\n"

theorem spaced_inj {a b : String} (same : spaced a = spaced b) : a = b := by
  unfold spaced at same
  split at same
  case isTrue none =>
    split at same
    case isTrue none' => rw [String.isEmpty_iff.mp none, String.isEmpty_iff.mp none']
    case isFalse => exact absurd same.symm (by simp)
  case isFalse some =>
    split at same
    case isTrue => exact absurd same (by simp)
    case isFalse => exact (String.append_left_inj _).mp same

/-- A section among others, of which the last is not left out. -/
theorem join_filter_cons (s : String) {rest : List String} (some : ∃ t ∈ rest, t.isEmpty = false) :
    join "\n\n" ((s :: rest).filter fun s => !s.isEmpty) = spaced s ++ join "\n\n" (rest.filter fun s => !s.isEmpty) := by
  have others : (rest.filter fun s => !s.isEmpty) ≠ [] := by
    obtain ⟨t, ht, full⟩ := some
    exact List.ne_nil_of_mem (List.mem_filter.mpr ⟨ht, by simp [full]⟩)
  unfold spaced
  split
  case isTrue none => rw [List.filter_cons_of_neg (by simp [none]), String.empty_append]
  case isFalse some => rw [List.filter_cons_of_pos (by simpa using some), join_cons_of_ne_nil _ _ others]

/-- A line in front makes a text another one. -/
theorem join_lead_inj {sep : String} {lead lead' rest : List String} (one : lead.length ≤ 1)
    (one' : lead'.length ≤ 1) (full : ∀ s ∈ lead, s ≠ "") (full' : ∀ s ∈ lead', s ≠ "")
    (same : join sep (lead ++ rest) = join sep (lead' ++ rest)) : lead = lead' := by
  have longer {s : String} (hs : s ≠ "") : join sep (s :: rest) ≠ join sep rest := by
    cases rest with
    | nil => simpa [join] using hs
    | cons t rest =>
      intro same
      rw [join_cons_of_ne_nil _ _ (List.cons_ne_nil t rest)] at same
      have length := congrArg String.length same
      simp only [String.length_append] at length
      exact hs (String.length_eq_zero_iff.mp (by omega))
  cases lead with
  | nil =>
    cases lead' with
    | nil => rfl
    | cons s' none' =>
      obtain rfl : none' = [] := List.length_eq_zero_iff.mp (by simpa using one')
      exact absurd same.symm (longer (full' s' List.mem_cons_self))
  | cons s none =>
    obtain rfl : none = [] := List.length_eq_zero_iff.mp (by simpa using one)
    cases lead' with
    | nil => exact absurd same (longer (full s List.mem_cons_self))
    | cons s' none' =>
      obtain rfl : none' = [] := List.length_eq_zero_iff.mp (by simpa using one')
      cases rest with
      | nil => simpa [join] using same
      | cons t rest =>
        simp only [List.singleton_append, join_cons_of_ne_nil _ _ (List.cons_ne_nil t rest)] at same
        rw [(String.append_left_inj _).mp ((String.append_left_inj _).mp same)]

end Text

namespace Program

/-- The text of a program, around its constants. -/
theorem render_eq_iff {p : Program} {constants constants' : List Constant} :
    ({ p with constants } : Program).render = ({ p with constants := constants' } : Program).render ↔
      Text.join "\n" (constants.map Constant.render) = Text.join "\n" (constants'.map Constant.render) := by
  have workflow : ∃ t ∈ p.sections.drop 2, t.isEmpty = false := ⟨_, List.mem_cons_self, by decide⟩
  have split (cs : List Constant) : ({ p with constants := cs } : Program).render =
      Text.join "\n\n" ((Text.join "\n" (p.imports.map Import.render) :: Text.join "\n" (cs.map Constant.render) ::
        p.sections.drop 2).filter fun s => !s.isEmpty) ++ "\n" := rfl
  have workflow' (s : String) : ∃ t ∈ s :: p.sections.drop 2, t.isEmpty = false :=
    workflow.imp fun t h => ⟨List.mem_cons_of_mem _ h.1, h.2⟩
  rw [split, split, Text.join_filter_cons _ (workflow' _), Text.join_filter_cons _ workflow,
    Text.join_filter_cons _ (workflow' _), Text.join_filter_cons _ workflow, String.append_left_inj,
    String.append_right_inj, String.append_left_inj]
  exact ⟨Text.spaced_inj, congrArg _⟩

end Program

namespace Workflow

/-- A step calls a model of the provider. -/
def Calls (w : Workflow) (p : Provider) : Prop := ∃ s ∈ w.steps, w.stepProvider? s = some p

/-- An agent has an index to search. -/
def Searches (w : Workflow) : Prop :=
  ∃ c ∈ w.agents, ∃ spec ∈ c.tools, spec.isIndex = true ∧ Text.nonEmpty spec.selectedIndex ≠ none

instance (w : Workflow) : Decidable w.Searches := inferInstanceAs (Decidable (∃ _ ∈ _, _))

/-- Two workflows that differ at most in addresses, in keys of providers that no step calls, and in the key for
    retrieval. -/
structure AlikeButKeys (w w' : Workflow) : Prop where
  steps : w'.steps = w.steps
  defaultLlm : w'.settings.defaultLlm = w.settings.defaultLlm
  retrievalTopK : w'.settings.retrievalTopK = w.settings.retrievalTopK
  apiKeys : ∀ p, w.Calls p → w'.settings.apiKeys.get p = w.settings.apiKeys.get p

variable {w w' : Workflow}

theorem mem_providers_iff {p : Provider} : p ∈ w.providers ↔ w.Calls p := by
  have folded : p ∈ w.providers ↔ p ∈ [] ∨ p ∈ w.steps.filterMap w.stepProvider? := mem_foldl_new_iff
  simpa [Calls] using folded

/-! ## Constants -/

def retrievalConstants (w : Workflow) : List Constant :=
  match Text.nonEmpty w.settings.retrievalKey with
  | some key => [.retrievalKey (some key)]
  | none => if w.indexTools.isEmpty then [] else [.retrievalKey none]

def otherConstants (w : Workflow) : List Constant :=
  w.indexTools.map .index ++ ((w.providers.filterMap fun p => (w.settings.apiKey p).map (.providerKey p)) ++
    w.models.map fun m => .model m (w.settings.apiKey m.provider).isSome)

theorem constants_eq (w : Workflow) : w.program.constants = w.retrievalConstants ++ w.otherConstants := by
  show w.constants w.providers w.models w.indexTools = _
  rw [constants, List.append_assoc, List.append_assoc]
  rfl

theorem retrievalConstants_length (w : Workflow) : w.retrievalConstants.length ≤ 1 := by
  unfold retrievalConstants
  split
  · exact Nat.le_refl 1
  · split <;> simp

/-- The declaration tells the key. -/
theorem retrievalConstants_inj (tools : w'.indexTools = w.indexTools)
    (same : w.retrievalConstants.map Constant.render = w'.retrievalConstants.map Constant.render) :
    Text.nonEmpty w.settings.retrievalKey = Text.nonEmpty w'.settings.retrievalKey := by
  have value {a b : Option String} (same : (Constant.retrievalKey a).render = (Constant.retrievalKey b).render) :
      (Constant.retrievalKey a).value = (Constant.retrievalKey b).value :=
    (String.append_right_inj _).mp ((String.append_left_inj _).mp same)
  -- A key in quotes is neither missing nor read from the environment.
  have written {key : String} : [Constant.retrievalKey (some key)].map Constant.render ≠
      (if w.indexTools.isEmpty then [] else [Constant.retrievalKey none]).map Constant.render := by
    intro same
    split at same
    · simp at same
    · have first := congrArg (·.toList.head?) (value (List.cons.inj same).1)
      simp [Constant.value, Program.literal, Json.quote, Json.quoted] at first
  unfold retrievalConstants at same
  rw [tools] at same
  cases here : Text.nonEmpty w.settings.retrievalKey with
  | none =>
    cases there : Text.nonEmpty w'.settings.retrievalKey with
    | none => rfl
    | some key =>
      simp only [here, there] at same
      exact absurd same.symm written
  | some key =>
    cases there : Text.nonEmpty w'.settings.retrievalKey with
    | none =>
      simp only [here, there] at same
      exact absurd same written
    | some key' =>
      simp only [here, there] at same
      rw [Program.literal_inj (value (List.cons.inj same).1)]

namespace AlikeButKeys

theorem parts (same : w.AlikeButKeys w') :
    w'.indexTools = w.indexTools ∧ w'.providers = w.providers ∧ w'.models = w.models := by
  obtain ⟨steps, llm, key, keys, urls, topK⟩ := w
  obtain ⟨steps', llm', key', keys', urls', topK'⟩ := w'
  obtain ⟨rfl, rfl, rfl, -⟩ := same
  exact ⟨rfl, rfl, rfl⟩

/-- The programs differ in their constants at most. -/
theorem program_eq (same : w.AlikeButKeys w') : w'.program = { w.program with constants := w'.program.constants } := by
  obtain ⟨steps, llm, key, keys, urls, topK⟩ := w
  obtain ⟨steps', llm', key', keys', urls', topK'⟩ := w'
  obtain ⟨rfl, rfl, rfl, -⟩ := same
  rfl

/-- Of the constants only that for the retrieval key. -/
theorem otherConstants_eq (same : w.AlikeButKeys w') : w'.otherConstants = w.otherConstants := by
  obtain ⟨tools, providers, models⟩ := same.parts
  have key {p : Provider} (hp : p ∈ w.providers) : w'.settings.apiKey p = w.settings.apiKey p := by
    rw [Settings.apiKey, Settings.apiKey, same.apiKeys p (mem_providers_iff.mp hp)]
  rw [otherConstants, otherConstants, tools, providers, models]
  refine congrArg (_ ++ ·) (congrArg₂ (· ++ ·) (List.filterMap_congr fun p hp => ?_) (List.map_congr_left fun m hm => ?_))
  · rw [key hp]
  · rw [key (provider_mem hm)]

end AlikeButKeys

theorem retrievalConstants_full (w : Workflow) : ∀ s ∈ w.retrievalConstants.map Constant.render, s ≠ "" := by
  intro s hs
  obtain ⟨c, -, rfl⟩ := List.mem_map.mp hs
  simp [Constant.render]

/-- Of all that differs between such workflows only the retrieval key can be told from the programs. It can be
    told from all of them, whether an agent has an index to search or not. -/
theorem generate_eq_iff (same : w.AlikeButKeys w') : w.generate = w'.generate ↔
    w.steps = [] ∨ Text.nonEmpty w.settings.retrievalKey = Text.nonEmpty w'.settings.retrievalKey := by
  by_cases none : w.steps = []
  · simp [generate, same.steps, none]
  have program : w.generate = w'.generate ↔ w.program.render = w'.program.render := by
    simp [generate, same.steps, none]
  rw [program, or_iff_right none, same.program_eq, constants_eq w', same.otherConstants_eq]
  show ({ w.program with constants := w.program.constants } : Program).render = _ ↔ _
  rw [Program.render_eq_iff, constants_eq w, List.map_append, List.map_append]
  constructor
  · intro text
    have length (w : Workflow) : (w.retrievalConstants.map Constant.render).length ≤ 1 := by
      rw [List.length_map]
      exact w.retrievalConstants_length
    exact retrievalConstants_inj same.parts.1
      (Text.join_lead_inj (length w) (length w') w.retrievalConstants_full w'.retrievalConstants_full text)
  · intro keys
    have equal : w.retrievalConstants = w'.retrievalConstants := by
      rw [retrievalConstants, retrievalConstants, keys, same.parts.1]
    rw [equal]

end Workflow

namespace Graph

def loneAgent : Graph :=
  ({ nodes := [.start "1", .promptAgent "2" "Answer." none, .stop "3"] } : Graph)
    |>.join "e1" "1" "2" |>.join "e2" "2" "3"

def loneAgentWith (settings : Settings) : Workflow := ⟨loneAgent.compiled .empty .breadthFirst 0, settings⟩

/-- It calls models of one provider. -/
theorem loneAgentWith_alike {keys keys' urls urls' : PerProvider} {retrieval retrieval' : Option String}
    (openAi : keys'.openAi = keys.openAi) :
    (loneAgentWith { apiKeys := keys, baseUrls := urls, retrievalKey := retrieval }).AlikeButKeys
      (loneAgentWith { apiKeys := keys', baseUrls := urls', retrievalKey := retrieval' }) := by
  refine ⟨rfl, rfl, rfl, fun p calls => ?_⟩
  have only : (loneAgentWith {}).providers = [.openAi] := by decide +kernel
  have called : p ∈ (loneAgentWith {}).providers := Workflow.mem_providers_iff.mpr calls
  rw [only] at called
  rw [List.mem_singleton.mp called]
  exact openAi

/-- Other keys, other addresses and an empty key for retrieval make no difference. -/
theorem loneAgentWith_generate :
    let w := loneAgentWith { apiKeys := ⟨some "key", some "other", none⟩, retrievalKey := some "" }
    let w' := loneAgentWith { apiKeys := ⟨some "key", none, some "another"⟩, baseUrls := ⟨some "proxy", none, none⟩ }
    w.AlikeButKeys w' ∧ w ≠ w' ∧ w.generate = w'.generate := by
  intro w w'
  have alike : w.AlikeButKeys w' := loneAgentWith_alike rfl
  exact ⟨alike, by decide +kernel, (Workflow.generate_eq_iff alike).mpr (.inr rfl)⟩

/-- No agent has an index to search, and the key for it is in the program. -/
theorem unusedKey_shown :
    ∃ w w', loneAgent.compile { retrievalKey := some "llx-secret" } .empty .breadthFirst = .ok w ∧
      loneAgent.compile {} .empty .breadthFirst = .ok w' ∧ w.AlikeButKeys w' ∧ ¬ w.Searches ∧ w.generate ≠ w'.generate :=
  ⟨loneAgentWith { retrievalKey := some "llx-secret" }, loneAgentWith {}, compile_of_firstOfKind? (by decide) _ _ _,
    compile_of_firstOfKind? (by decide) _ _ _, loneAgentWith_alike rfl, by decide +kernel, by decide +kernel⟩

end Graph
end EventFlow
