/-
  EventFlow.Proofs.Program.Temperature — the temperatures that a program mentions.

  The program of a workflow mentions the temperatures of agents, as those of their models. It says nothing
  about the temperature of a prompt. So a workflow from which an encoding has dropped temperatures that are
  not finite has the program of the workflow itself, if its agents had none of them.

  Proved:
  - `withoutInfinite_cases`: such an encoding changes nothing but the settings of prompts.
  - `program_withoutInfinite` / `generate_withoutInfinite`: the program and its text stay the same.
-/

import EventFlow.Program.Render
import EventFlow.Proofs.Workflow.Codec

namespace EventFlow

/-- What an encoding drops from a step whose agent, if it has one, keeps its temperature. -/
theorem Step.withoutInfinite_cases {s : Step} (finite : s.kind = .promptAgent → s.config.FiniteTemperature) :
    s.withoutInfinite = s ∨ ∃ c t, s.config = .promptLlm c ∧
      s.withoutInfinite = { s with config := .promptLlm { c with temperature := t } } := by
  obtain ⟨id, config, accepts, emits⟩ := s
  cases config with
  | promptLlm c => exact .inr ⟨c, _, rfl, rfl⟩
  | promptAgent c =>
    have unchanged := (NodeConfig.withoutInfinite_eq_iff _).mpr (finite rfl)
    exact .inl (by rw [withoutInfinite, unchanged])
  | _ => exact .inl rfl

theorem Step.agent?_withoutInfinite {s : Step} (finite : s.kind = .promptAgent → s.config.FiniteTemperature) :
    s.withoutInfinite.agent? = s.agent? := by
  rcases withoutInfinite_cases finite with same | ⟨c, t, prompt, same⟩
  · rw [same]
  · rw [same, agent?, agent?, prompt]

namespace Workflow

variable {w : Workflow}

section

variable (finite : ∀ s ∈ w.steps, s.kind = .promptAgent → s.config.FiniteTemperature)

include finite

theorem agents_withoutInfinite : w.withoutInfinite.agents = w.agents := by
  rw [agents, withoutInfinite, List.filterMap_map]
  exact List.filterMap_congr fun s hs => Step.agent?_withoutInfinite (finite s hs)

theorem providers_withoutInfinite : w.withoutInfinite.providers = w.providers := by
  refine congrArg (fun ps : List Provider => ps.foldl addProvider []) ?_
  rw [withoutInfinite, List.filterMap_map]
  refine List.filterMap_congr fun s hs => ?_
  rcases Step.withoutInfinite_cases (finite s hs) with same | ⟨c, t, prompt, same⟩
  · rw [Function.comp_apply, same]
    rfl
  · rw [Function.comp_apply, same, stepProvider?, stepProvider?, prompt]
    rfl

theorem modelName_withoutInfinite (models : List ModelInstance) (id : String) :
    w.withoutInfinite.modelName models id = w.modelName models id := by
  have found : w.withoutInfinite.steps.reverse.filterMap (fun s => if s.id = id then s.agent? else none) =
      w.steps.reverse.filterMap fun s => if s.id = id then s.agent? else none := by
    rw [withoutInfinite, ← List.map_reverse, List.filterMap_map]
    refine List.filterMap_congr fun s hs => ?_
    rw [Function.comp_apply, Step.agent?_withoutInfinite (finite s (List.mem_reverse.mp hs))]
    rfl
  rw [modelName, modelName, found]
  rfl

theorem handler?_withoutInfinite (names : EventNames) (models : List ModelInstance) (tools : List IndexTool) {s : Step}
    (hs : s ∈ w.steps) : w.withoutInfinite.handler? names models tools s.withoutInfinite = w.handler? names models tools s := by
  have waits : triggers names s.withoutInfinite = triggers names s := by
    rcases Step.withoutInfinite_cases (finite s hs) with same | ⟨c, t, prompt, same⟩
    · rw [same]
    · rw [same, triggers, triggers, Step.kind, Step.kind, prompt]
      rfl
  have acts : w.withoutInfinite.action? names models tools s.withoutInfinite = w.action? names models tools s := by
    rcases Step.withoutInfinite_cases (finite s hs) with same | ⟨c, t, prompt, same⟩
    · rw [same, action?, action?]
      simp only [modelName_withoutInfinite finite]
    · rw [same, action?, action?, prompt]
      cases s.emits with
      | none => rfl
      | some wires => cases wires <;> rfl
  rw [handler?, handler?, waits, acts]

/-- Of all temperatures a program mentions those of its agents only. -/
theorem program_withoutInfinite : w.withoutInfinite.program = w.program := by
  have kinds (s : Step) : s.withoutInfinite.kind = s.kind := by
    rw [Step.withoutInfinite, Step.kind, Step.kind]
    cases s.config <;> rfl
  have names : w.withoutInfinite.eventNames = w.eventNames := by
    rw [eventNames, withoutInfinite, List.flatMap_map]
    rfl
  have models : w.withoutInfinite.models = w.models := by
    rw [Workflow.models, agents_withoutInfinite finite]
    rfl
  have tools : w.withoutInfinite.indexTools = w.indexTools := by
    rw [indexTools, agents_withoutInfinite finite]
    rfl
  have reads : w.withoutInfinite.readsInput = w.readsInput := by
    rw [readsInput, withoutInfinite, List.any_map]
    exact congrArg w.steps.any (funext fun s => by rw [Function.comp_apply, kinds])
  have events : w.withoutInfinite.eventConstants w.eventNames = w.eventConstants w.eventNames := by
    rw [eventConstants, withoutInfinite, List.flatMap_map]
    have brought (s : Step) : w.eventNames.ofStep s.withoutInfinite = w.eventNames.ofStep s := by
      rw [EventNames.ofStep, EventNames.ofStep, kinds]
      rfl
    simp only [brought]
    rfl
  have handlers : w.withoutInfinite.steps.filterMap (w.withoutInfinite.handler? w.eventNames w.models w.indexTools) =
      w.steps.filterMap (w.handler? w.eventNames w.models w.indexTools) := by
    rw [show w.withoutInfinite.steps = w.steps.map Step.withoutInfinite from rfl, List.filterMap_map]
    exact List.filterMap_congr fun s hs => handler?_withoutInfinite finite _ _ _ hs
  have answers : w.withoutInfinite.steps.filterMap (answer? w.eventNames) = w.steps.filterMap (answer? w.eventNames) := by
    rw [show w.withoutInfinite.steps = w.steps.map Step.withoutInfinite from rfl, List.filterMap_map]
    refine List.filterMap_congr fun s _ => ?_
    rw [Function.comp_apply, answer?, answer?, kinds]
    rfl
  have imports : w.withoutInfinite.imports w.providers w.indexTools = w.imports w.providers w.indexTools := by
    rw [Workflow.imports, Workflow.imports, agents_withoutInfinite finite, reads]
  rw [program, program]
  simp only [names, providers_withoutInfinite finite, models, tools, reads, events, handlers, answers, imports]
  rfl

theorem generate_withoutInfinite : w.withoutInfinite.generate = w.generate := by
  rw [generate, generate, program_withoutInfinite finite, withoutInfinite, List.isEmpty_map]

end

end Workflow
end EventFlow
