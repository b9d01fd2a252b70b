/-
  EventFlow.Proofs.Program.Models — the model that an agent consults in a program, and when it runs.

  A running agent resolves its model by itself. In a program agents that ask for one model of one provider
  share an instance, which the first of them declares. Provider and model are what they have in common, so
  the instance has those of every agent. Its temperature is that of the first: the agents after it, whatever
  they ask for, get the first one's.

  Proved:
  - `temperature_addModel` / `temperature_models`: the instance of a model has the temperature of the first
    agent that asks for it, by induction on the agents.
  - `constants_model`: a model's name has one declaration among the constants.
  - `modelName_agent`: the handler of an agent names the instance of the agent's model.
  - `consult_resolved`: what a handler consults, beside what the running agent resolves, with the lines that
    declare the instance and name it.
-/

import EventFlow.Proofs.Program.Bound
import EventFlow.Proofs.Program.Handlers

namespace EventFlow

structure ModelInstance.Agrees (m : ModelInstance) (r : ModelConfig) : Prop where
  provider : m.provider = r.provider
  modelId : m.modelId = r.modelId
  temperature : m.temperature = r.temperature

namespace Workflow

structure Consults (w : Workflow) (s : Step) (m : ModelInstance) (first : PromptAgentConfig) : Prop where
  handled : ∀ h, w.Registers s h → ∃ tools prompt event, h.action = .consult m.name tools prompt event ∧
    ∃ block, block <:+: w.program.linesAt 5 ∧ h.Spelled block ∧ "        llm: " ++ m.name ++ "," ∈ block
  declared : w.program.constants.filter (·.name = m.name) = [.model m (w.settings.apiKey m.provider).isSome]
  written : (w.program.linesAt 1).filter (("const " ++ m.name ++ " = ").toList <+: ·.toList) =
    ["const " ++ m.name ++ " = " ++ m.construction (w.settings.apiKey m.provider).isSome ++ ";"]
  temperature : m.temperature = first.temperature.getD defaultTemperature

/-- The agent asks for this model of this provider. -/
def asksFor (w : Workflow) (p : Provider) (modelId : String) (c : PromptAgentConfig) : Bool :=
  w.providerFor c.llm = p && agentModelId p c = modelId

variable {w : Workflow} {p : Provider} {modelId : String}

theorem asksFor_iff {c : PromptAgentConfig} :
    w.asksFor p modelId c = true ↔ w.providerFor c.llm = p ∧ agentModelId p c = modelId := by
  simp [asksFor]

/-! ## Instances -/

theorem findModel?_eq_some {models : List ModelInstance} {m : ModelInstance} (found : findModel? models p modelId = some m) :
    m ∈ models ∧ m.provider = p ∧ m.modelId = modelId := by
  have asked : m.provider = p ∧ m.modelId = modelId := by simpa using List.find?_some found
  exact ⟨List.mem_of_find?_eq_some found, asked⟩

/-- An instance stays as it is when agents come to share it. -/
theorem temperature_addModel (w : Workflow) (p : Provider) (modelId : String) (models : List ModelInstance)
    (c : PromptAgentConfig) :
    (findModel? (w.addModel models c) p modelId).map (·.temperature) =
      ((findModel? models p modelId).map (·.temperature)).or
        (if w.asksFor p modelId c then some (c.temperature.getD defaultTemperature) else none) := by
  unfold addModel
  simp only
  split
  · next shared =>
    obtain ⟨m, found⟩ := Option.isSome_iff_exists.mp shared
    split
    · next asks =>
      obtain ⟨rfl, rfl⟩ := asksFor_iff.mp asks
      rw [found]
      rfl
    · rw [Option.or_none]
  · next first =>
    have first := Option.not_isSome_iff_eq_none.mp first
    rw [findModel?, List.find?_append, Option.map_or]
    refine congrArg _ ?_
    by_cases asks : w.asksFor p modelId c = true
    · obtain ⟨rfl, rfl⟩ := asksFor_iff.mp asks
      simp [asks]
    · have other : ¬ (w.providerFor c.llm = p ∧ agentModelId (w.providerFor c.llm) c = modelId) := by
        rintro ⟨rfl, rfl⟩
        exact asks (asksFor_iff.mpr ⟨rfl, rfl⟩)
      rw [if_neg asks, List.find?_cons_of_neg (by simpa using other)]
      rfl

/-- The instance of a model has the temperature of the first agent that asks for it. -/
theorem temperature_models (w : Workflow) (p : Provider) (modelId : String) :
    (findModel? w.models p modelId).map (·.temperature) =
      (w.agents.find? (w.asksFor p modelId)).map fun c => c.temperature.getD defaultTemperature := by
  have folded (agents : List PromptAgentConfig) (models : List ModelInstance) :
      (findModel? (agents.foldl w.addModel models) p modelId).map (·.temperature) =
        ((findModel? models p modelId).map (·.temperature)).or
          ((agents.find? (w.asksFor p modelId)).map fun c => c.temperature.getD defaultTemperature) := by
    induction agents generalizing models with
    | nil => rw [List.foldl_nil, List.find?_nil, Option.map_none, Option.or_none]
    | cons c agents ih =>
      rw [List.foldl_cons, ih, temperature_addModel, Option.or_assoc, List.find?_cons]
      cases w.asksFor p modelId c <;> rfl
  exact folded w.agents []

/-- Every agent has an instance, and a first agent that asks for it. -/
theorem exists_model {c : PromptAgentConfig} (hc : c ∈ w.agents) (asks : w.asksFor p modelId c = true) :
    ∃ m first, findModel? w.models p modelId = some m ∧ w.agents.find? (w.asksFor p modelId) = some first ∧
      m.temperature = first.temperature.getD defaultTemperature := by
  obtain ⟨first, found⟩ := Option.isSome_iff_exists.mp (List.find?_isSome.mpr ⟨c, hc, asks⟩)
  have same := temperature_models w p modelId
  rw [found, Option.map_some] at same
  obtain ⟨m, known, temperature⟩ := Option.map_eq_some_iff.mp same
  exact ⟨m, first, known, found, temperature⟩

/-! ## Declarations -/

/-- Constants that are no models have an underscore. -/
theorem constants_marked {c : Constant} (hc : c ∈ w.program.constants) (other : ∀ m keyed, c ≠ .model m keyed) :
    '_' ∈ c.name.toList := by
  cases c with
  | retrievalKey value => exact (by decide : '_' ∈ retrievalKeyConstant.toList)
  | index t =>
    by_contra clean
    have plain := Program.family_eq_none_iff.mpr clean
    rw [Constant.name, Graph.family_indexConstant] at plain
    cases plain
  | providerKey p value =>
    have marked : ∀ p : Provider, '_' ∈ p.keyConstant.toList := by rintro (_ | _ | _) <;> decide
    exact marked p
  | model m keyed => exact absurd rfl (other m keyed)

/-- A model's name has one declaration among the constants. -/
theorem constants_model {m : ModelInstance} (hm : m ∈ w.models) :
    w.program.constants.filter (·.name = m.name) = [.model m (w.settings.apiKey m.provider).isSome] := by
  obtain ⟨others, split, different⟩ := w.constants_split
  have clean : '_' ∉ m.name.toList := (w.models_sound.clean m hm).not_mem (by decide)
  have noOther : others.filter (·.name = m.name) = [] := by
    refine List.filter_eq_nil_iff.mpr fun c hc same => clean ?_
    rw [← of_decide_eq_true same]
    exact constants_marked (split ▸ List.mem_append_left _ hc) (different c hc)
  have one : w.models.filter (·.name = m.name) = [m] := by
    have named := filterMap_eq_singleton (f := fun k : ModelInstance => if k.name = m.name then some k else none)
      w.models_sound.distinct.of_map hm (if_pos rfl) fun k hk other =>
        if_neg fun same => other (List.inj_on_of_nodup_map w.models_sound.distinct hk hm same)
    rw [← named, ← List.filterMap_eq_filter]
    exact List.filterMap_congr fun k _ => by simp [Option.guard]
  rw [split, List.filter_append, noOther, List.nil_append, List.filter_map]
  exact congrArg (List.map _) one

/-! ## Handlers -/

/-- The handler of an agent names the instance of the agent's model. -/
theorem modelName_agent (distinct : (w.steps.map (·.id)).Nodup) {s : Step} (hs : s ∈ w.steps) {c : PromptAgentConfig}
    (agent : s.agent? = some c) {m : ModelInstance}
    (found : findModel? w.models (w.providerFor c.llm) (agentModelId (w.providerFor c.llm) c) = some m) :
    w.modelName w.models s.id = m.name := by
  have distinct : (w.steps.reverse.map (·.id)).Nodup := by
    rw [List.map_reverse]
    exact List.nodup_reverse.mpr distinct
  have hs := List.mem_reverse.mpr hs
  have one : w.steps.reverse.filterMap (fun t => if t.id = s.id then t.agent? else none) = [c] := by
    refine filterMap_eq_singleton distinct.of_map hs (by rw [if_pos rfl, agent]) fun t ht other => if_neg fun same => ?_
    exact other (List.inj_on_of_nodup_map distinct ht hs same)
  rw [modelName, one]
  simp only [List.head?_cons, found]
  rfl

theorem consult_of_action? {names : EventNames} {models : List ModelInstance} {tools : List IndexTool} {s : Step}
    {c : PromptAgentConfig} (agent : s.config = .promptAgent c) {a : Action} (acts : w.action? names models tools s = some a) :
    ∃ toolNames prompt event, a = .consult (w.modelName models s.id) toolNames prompt event := by
  unfold action? at acts
  rw [agent] at acts
  cases emits : s.emits with
  | none =>
    rw [emits] at acts
    cases acts
  | some way =>
    rw [emits] at acts
    cases way with
    | single e => exact ⟨_, _, _, (Option.some.inj acts).symm⟩
    | _ => cases acts

theorem resolveModel_eq_ok {c : PromptAgentConfig} {maxTokens : Nat} {r : ModelConfig}
    (resolved : w.settings.resolveModel c.llm c.model c.temperature maxTokens = .ok r) :
    w.asksFor r.provider r.modelId c = true ∧ r.temperature = c.temperature.getD defaultTemperature := by
  unfold Settings.resolveModel Settings.provider at resolved
  cases named : Provider.ofModelName? ((Text.nonEmpty c.llm).getD w.settings.defaultLlm) with
  | none =>
    simp only [named] at resolved
    cases resolved
  | some p =>
    simp only [named] at resolved
    cases resolved
    have known : w.providerFor c.llm = p := by rw [providerFor, named, Option.getD_some]
    exact ⟨asksFor_iff.mpr ⟨known, rfl⟩, rfl⟩

/-- What the handler of an agent consults: an instance with one declaration, of the provider and the model
    that the running agent resolves. The two agree if the first agent that asks for the model has the
    temperature of this one. -/
theorem consult_resolved {w : Workflow} (distinct : (w.steps.map (·.id)).Nodup) {s : Step} (hs : s ∈ w.steps)
    {c : PromptAgentConfig} (agent : s.config = .promptAgent c) {maxTokens : Nat} {r : ModelConfig}
    (resolved : w.settings.resolveModel c.llm c.model c.temperature maxTokens = .ok r) :
    w.generate = w.program.render ∧ w.program.Spelled ∧ ∃ m first, w.Consults s m first ∧
      m.provider = r.provider ∧ m.modelId = r.modelId ∧
      w.agents.find? (w.asksFor r.provider r.modelId) = some first ∧
      (m.Agrees r ↔ first.temperature.getD defaultTemperature = c.temperature.getD defaultTemperature) := by
  obtain ⟨asks, temperature⟩ := resolveModel_eq_ok resolved
  have isAgent : s.agent? = some c := by rw [Step.agent?, agent]
  obtain ⟨m, first, found, leads, shared⟩ := exists_model (List.mem_filterMap.mpr ⟨s, hs, isAgent⟩) asks
  obtain ⟨hm, provider, modelId⟩ := findModel?_eq_some found
  have spelled := w.program_spelled
  refine ⟨generate_of_mem hs, spelled, m, first, ?_, provider, modelId, leads, ?_⟩
  · constructor
    case handled =>
      intro h registers
      obtain ⟨-, -, acts⟩ := handler?_eq_some_iff.mp registers
      obtain ⟨sameProvider, sameModel⟩ := asksFor_iff.mp asks
      have named := modelName_agent distinct hs isAgent (by rw [sameProvider, sameModel]; exact found)
      obtain ⟨tools, prompt, event, consults⟩ := consult_of_action? agent acts
      rw [named] at consults
      obtain ⟨block, within, lines⟩ := spelled.exists_block (List.mem_filterMap.mpr ⟨s, hs, registers⟩)
      exact ⟨tools, prompt, event, consults, block, within, lines, lines.mem_llm consults⟩
    case declared => exact constants_model hm
    case written => exact spelled.model_line w.program_identified (constants_model hm)
    case temperature => exact shared
  · constructor
    · intro agrees
      rw [← shared, agrees.temperature, temperature]
    · intro same
      exact ⟨provider, modelId, by rw [shared, same, temperature]⟩

end Workflow

namespace Graph

/-- Two agents with one model: the second has a temperature of its own. -/
def twoTemperatures : Graph :=
  ({ nodes := [.start "1", .promptAgent "2" "Answer." none,
      ⟨"3", .promptAgent { systemPrompt := some "Invent.", temperature := some (Single.ofDecimal 9 (-1)) }⟩,
      .stop "4"] } : Graph)
    |>.join "e1" "1" "2" |>.join "e2" "2" "3" |>.join "e3" "3" "4"

def inventor : PromptAgentConfig := { systemPrompt := some "Invent.", temperature := some (Single.ofDecimal 9 (-1)) }

def inventorStep : Step := ⟨"node-3", .promptAgent inventor, some (.single (.ofEdge "e2")), some (.single (.ofEdge "e3"))⟩

def inventorModel : ModelConfig :=
  { provider := .openAi, modelId := "gpt-4.1-mini", temperature := Single.ofDecimal 9 (-1) }

theorem inventor_consult :
    let w : Workflow := ⟨twoTemperatures.compiled .empty .breadthFirst 0, {}⟩
    (w.steps.map (·.id)).Nodup ∧ inventorStep ∈ w.steps ∧ inventorStep.config = .promptAgent inventor ∧
      w.settings.resolveModel inventor.llm inventor.model inventor.temperature defaultMaxTokens = .ok inventorModel ∧
      w.generate = w.program.render ∧ w.program.Spelled ∧ ∃ m first, w.Consults inventorStep m first ∧
        m.provider = inventorModel.provider ∧ m.modelId = inventorModel.modelId ∧
        w.agents.find? (w.asksFor inventorModel.provider inventorModel.modelId) = some first ∧
        (m.Agrees inventorModel ↔
          first.temperature.getD defaultTemperature = inventor.temperature.getD defaultTemperature) := by
  intro w
  have distinct : (w.steps.map (·.id)).Nodup := by decide +kernel
  have hs : inventorStep ∈ w.steps := by decide +kernel
  have resolved : w.settings.resolveModel inventor.llm inventor.model inventor.temperature defaultMaxTokens =
      .ok inventorModel := by decide +kernel
  exact ⟨distinct, hs, rfl, resolved, Workflow.consult_resolved distinct hs rfl resolved⟩

/-- The second agent consults the instance of the first, with a temperature that it does not have. -/
theorem inventor_disagrees :
    ∃ w m, twoTemperatures.compile {} .empty .breadthFirst = .ok w ∧ (w.steps.map (·.id)).Nodup ∧
      inventorStep ∈ w.steps ∧
      w.settings.resolveModel inventor.llm inventor.model inventor.temperature defaultMaxTokens = .ok inventorModel ∧
      w.Registers inventorStep ⟨["event_e2"], .consult m.name [] (some "Invent.") "event_e3"⟩ ∧
      w.program.constants.filter (·.name = m.name) = [.model m false] ∧ ¬ m.Agrees inventorModel := by
  refine ⟨⟨twoTemperatures.compiled .empty .breadthFirst 0, {}⟩, ⟨"gpt41Mini", .openAi, "gpt-4.1-mini", defaultTemperature⟩,
    compile_of_firstOfKind? (by decide) _ _ _, by decide +kernel, by decide +kernel, by decide +kernel, ?_,
    by decide +kernel, ?_⟩
  · unfold Workflow.Registers
    decide +kernel
  · intro agrees
    exact absurd agrees.temperature (by decide +kernel)

end Graph
end EventFlow
