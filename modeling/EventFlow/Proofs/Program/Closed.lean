/-
  EventFlow.Proofs.Program.Closed — a program declares what it uses.

  Declarations and uses are written by different sections, under conditions of their own: keys if they are
  set, tools if an index is selected, the reader if a step asks for input. What a section uses comes from the
  steps, the agents or the tools that made the other section declare it.

  One thing breaks this. The places of a tool's code are filled one after the other, and a place that the id
  of a tool brings into its names is filled too: the code then declares and uses other names than those under
  which handlers know the tool and under which its index id is declared (`place_rewritten`).

  Proved:
  - `mem_used_declarations` / `mem_imported_code`: where a name is used.
  - `program_closed`: every program declares or imports what it uses, but for tools whose ids bring a place
    along.
-/

import EventFlow.Proofs.Program.Models

namespace EventFlow

open Token

/-! ## Names in the code of a section -/

theorem Constant.mem_used {c : Constant} {name : String} (h : name ∈ named .used c.code) :
    ∃ m, c = .model m true ∧ name = m.provider.keyConstant := by
  cases c with
  | model m keyed =>
    cases keyed with
    | true => exact ⟨m, rfl, List.mem_singleton.mp h⟩
    | false => cases h
  | _ => cases h

theorem Constant.mem_imported {c : Constant} {name : String} (h : name ∈ named .imported c.code) :
    ∃ m keyed, c = .model m keyed ∧ name = m.provider.className := by
  cases c with
  | model m keyed => cases keyed <;> exact ⟨m, _, rfl, List.mem_singleton.mp h⟩
  | _ => cases h

namespace IndexTool

variable (t : IndexTool) (topK : Nat)

theorem written_loose {part : String} (loose : Text.loose part.toList = true) : t.written topK part = part := by
  have filled := fill_loose (t.places_marked topK) loose []
  rw [List.append_nil, fill_nil, List.append_nil] at filled
  rw [written, filled, String.ofList_toList]

theorem used_code : named .used (t.code topK) =
    [retrievalKeyConstant, t.written topK "__INDEX_CONST__", t.written topK "__FUNC__"] := by
  have key : t.written topK retrievalKeyConstant = retrievalKeyConstant := t.written_loose topK (by decide +kernel)
  rw [← key]
  rfl

theorem imported_code : named .imported (t.code topK) = ["tool", "z", "z"] := by
  have tool : t.written topK "tool" = "tool" := t.written_loose topK (by decide)
  have schema : t.written topK "z" = "z" := t.written_loose topK (by decide)
  exact congrArg₂ (fun a b => [a, b, b]) tool schema

end IndexTool

namespace Handler

/-- What a handler uses besides its events. -/
theorem mem_used {h : Handler} {name : String} (uses : name ∈ named .used h.code) :
    name = "workflow" ∨ name ∈ h.triggers ++ [h.action.result] ∨
      ∃ model tools systemPrompt event, h.action = .consult model tools systemPrompt event ∧ name ∈ model :: tools := by
  cases action : h.action with
  | consult model tools systemPrompt event =>
    have listed : name = "workflow" ∨ name ∈ h.triggers ∨ name = model ∨ name ∈ tools ∨ name = event := by
      cases systemPrompt <;> simpa [code, bodyCode, sendingCode, action, or_assoc] using uses
    rcases listed with workflow | trigger | model | tool | event
    · exact .inl workflow
    · exact .inr (.inl (List.mem_append_left _ trigger))
    · exact .inr (.inr ⟨_, _, _, _, rfl, model ▸ List.mem_cons_self⟩)
    · exact .inr (.inr ⟨_, _, _, _, rfl, List.mem_cons_of_mem _ tool⟩)
    · exact .inr (.inl (List.mem_append_right _ (List.mem_singleton.mpr event)))
  | _ =>
    have listed := uses
    simp only [code, bodyCode, sendingCode, action, named_joined, named_append, named_listed, named_name, named_text,
      named_nil, List.flatMap_append, List.flatMap_cons, List.flatMap_nil, List.append_nil, List.mem_append,
      List.mem_cons, List.not_mem_nil, or_false, if_pos] at listed
    rcases listed with (workflow | trigger) | event
    · exact .inl workflow
    · exact .inr (.inl (List.mem_append_left _ trigger))
    · exact .inr (.inl (List.mem_append_right _ (List.mem_singleton.mpr event)))

theorem mem_imported {h : Handler} {name : String} (uses : name ∈ named .imported h.code) :
    name = "agent" ∧ ∃ model tools systemPrompt event, h.action = .consult model tools systemPrompt event := by
  cases action : h.action with
  | consult model tools systemPrompt event =>
    refine ⟨?_, _, _, _, _, rfl⟩
    cases systemPrompt <;> simpa [code, bodyCode, sendingCode, action] using uses
  | _ => simp [code, bodyCode, sendingCode, action] at uses

end Handler

namespace Program

variable (p : Program)

/-- Where the declarations use a name. -/
theorem mem_used_declarations {name : String} (uses : name ∈ named .used p.declarations.flatten) :
    (∃ m, .model m true ∈ p.constants ∧ name = m.provider.keyConstant) ∨
      (∃ t ∈ p.tools, name ∈ [retrievalKeyConstant, t.written p.topK "__INDEX_CONST__", t.written p.topK "__FUNC__"]) ∨
      ∃ h ∈ p.handlers, name ∈ named .used h.code := by
  have events : p.events.flatMap (fun e => named .used (eventCode e)) = [] := List.flatMap_eq_nil_iff.mpr fun _ _ => rfl
  simp only [declarations, List.flatten_cons, List.flatten_nil, named_append, named_joined, List.flatMap_map, events,
    IndexTool.used_code, List.mem_append, List.mem_flatMap] at uses
  rcases uses with ⟨c, hc, uses⟩ | workflow | tool | none | handler | none
  · obtain ⟨m, rfl, key⟩ := Constant.mem_used uses
    exact .inl ⟨m, hc, key⟩
  · cases workflow
  · exact .inr (.inl tool)
  · cases none
  · exact .inr (.inr handler)
  · cases none

theorem used_driverCode : named .used p.driverCode =
    ["workflow", "sendEvent", startEvent, "stream", stopEvent] ++
      p.answers.flatMap (fun a => [a.request, "readline", "sendEvent", a.event]) ++
      if p.readsInput then ["readline"] else [] := by
  have answers : (p.answers.flatMap Answer.code).flatMap (named .used) =
      p.answers.flatMap fun a => [a.request, "readline", "sendEvent", a.event] := by
    rw [List.flatMap_assoc]
    rfl
  cases reads : p.readsInput <;> simp [driverCode, answers, reads]

theorem imported_driverCode : named .imported p.driverCode = if p.readsInput then ["createInterface"] else [] := by
  have answers : (p.answers.flatMap Answer.code).flatMap (named .imported) = [] := by
    rw [List.flatMap_assoc]
    exact List.flatMap_eq_nil_iff.mpr fun a _ => rfl
  cases reads : p.readsInput <;> simp [driverCode, answers, reads]

/-- Where a name is used that an import must bring in. -/
theorem mem_imported_code {name : String} (uses : name ∈ named .imported p.code.flatten) :
    name ∈ ["createWorkflow", "workflowEvent"] ∨ (∃ m keyed, .model m keyed ∈ p.constants ∧ name = m.provider.className) ∨
      (p.tools ≠ [] ∧ name ∈ ["tool", "z"]) ∨
      (name = "agent" ∧ ∃ h ∈ p.handlers, ∃ model tools systemPrompt event,
        h.action = .consult model tools systemPrompt event) ∨
      name = "createInterface" ∧ p.readsInput = true := by
  have imports : named .imported p.importsCode = [] := by
    rw [importsCode, named_joined, List.flatMap_map]
    exact List.flatMap_eq_nil_iff.mpr fun i _ => i.named_code .imported
  simp only [code, declarations, imports, imported_driverCode, List.flatten_cons, List.flatten_nil, List.flatten_append,
    named_append, named_joined, List.flatMap_map, IndexTool.imported_code, List.nil_append, List.append_nil,
    List.mem_append, List.mem_flatMap] at uses
  rcases uses with (⟨c, hc, uses⟩ | workflow | ⟨t, ht, uses⟩ | ⟨e, -, uses⟩ | ⟨h, hh, uses⟩) | reader
  · obtain ⟨m, keyed, rfl, provider⟩ := Constant.mem_imported uses
    exact .inr (.inl ⟨m, keyed, hc, provider⟩)
  · exact .inl (List.mem_cons.mpr (.inl (List.mem_singleton.mp workflow)))
  · refine .inr (.inr (.inl ⟨List.ne_nil_of_mem ht, ?_⟩))
    simpa using uses
  · exact .inl (List.mem_cons_of_mem _ uses)
  · exact .inr (.inr (.inr (.inl ((Handler.mem_imported uses).imp_right fun consults => ⟨h, hh, consults⟩))))
  · cases reads : p.readsInput with
    | true =>
      rw [reads, if_pos rfl] at reader
      exact .inr (.inr (.inr (.inr ⟨List.mem_singleton.mp reader, rfl⟩)))
    | false => simp [reads] at reader

end Program

/-! ## What declares a name -/

namespace Workflow

variable {w : Workflow}

/-- The provider of an agent's model is one of the program's. -/
theorem provider_mem {m : ModelInstance} (hm : m ∈ w.models) : m.provider ∈ w.providers := by
  have folded (agents : List PromptAgentConfig) (models : List ModelInstance) (sub : agents ⊆ w.agents)
      (known : ∀ m ∈ models, m.provider ∈ w.providers) : ∀ m ∈ agents.foldl w.addModel models, m.provider ∈ w.providers := by
    induction agents generalizing models with
    | nil => exact known
    | cons c agents ih =>
      refine ih _ (fun _ h => sub (List.mem_cons_of_mem _ h)) fun m hm => ?_
      unfold addModel at hm
      simp only at hm
      split at hm
      · exact known m hm
      · rcases List.mem_append.mp hm with old | new
        · exact known m old
        · obtain ⟨s, hs, agent⟩ := List.mem_filterMap.mp (sub List.mem_cons_self)
          rw [List.mem_singleton.mp new]
          refine mem_foldl_new_iff.mpr (.inr (List.mem_filterMap.mpr ⟨s, hs, ?_⟩))
          unfold Step.agent? at agent
          split at agent
          · next c' config =>
            cases agent
            rw [stepProvider?, config]
          · cases agent
  exact folded w.agents [] (List.Subset.refl _) (fun m hm => absurd hm List.not_mem_nil) m hm

/-- What agents consult is declared, whatever the ids of the steps. -/
theorem consult_declared {h : Handler} (hh : h ∈ w.program.handlers) {model : String} {tools : List String}
    {systemPrompt : Option String} {event : String} (consults : h.action = .consult model tools systemPrompt event) :
    w.agents ≠ [] ∧ model ∈ w.models.map (·.name) ∧ ∀ name ∈ tools, ∃ t ∈ w.indexTools, name = t.toolName := by
  obtain ⟨s, hs, handled⟩ := List.mem_filterMap.mp hh
  obtain ⟨-, -, acts⟩ := handler?_eq_some_iff.mp handled
  rw [consults] at acts
  obtain ⟨c, agent, rfl, rfl⟩ : ∃ c, s.agent? = some c ∧ model = w.modelName w.models s.id ∧
      tools = (c.tools.filterMap (findTool? w.indexTools)).map (·.toolName) := by
    obtain ⟨id, config, accepts, emits⟩ := s
    cases config <;> rcases emits with _ | e | _ | _ <;>
      simp only [action?, reduceCtorEq, Option.some.injEq, Action.consult.injEq] at acts
    exact ⟨_, rfl, acts.1.symm, acts.2.1.symm⟩
  refine ⟨List.ne_nil_of_mem (List.mem_filterMap.mpr ⟨s, hs, agent⟩), ?_, ?_⟩
  · -- The step itself is among those that decide, so one of them does.
    have among : c ∈ w.steps.reverse.filterMap fun t => if t.id = s.id then t.agent? else none :=
      List.mem_filterMap.mpr ⟨s, List.mem_reverse.mpr hs, by rw [if_pos rfl, agent]⟩
    obtain ⟨last, decides⟩ := Option.isSome_iff_exists.mp (List.isSome_head?.mpr (List.ne_nil_of_mem among))
    obtain ⟨t, ht, agent'⟩ := List.mem_filterMap.mp (List.mem_of_mem_head? decides)
    split at agent'
    · have member : last ∈ w.agents := List.mem_filterMap.mpr ⟨t, List.mem_reverse.mp ht, agent'⟩
      obtain ⟨m, first, found, -⟩ := exists_model member (asksFor_iff.mpr ⟨rfl, rfl⟩)
      rw [modelName, decides]
      simp only [found, Option.map_some, Option.getD_some]
      exact List.mem_map_of_mem (findModel?_eq_some found).1
    · cases agent'
  · intro name member
    obtain ⟨t, ht, rfl⟩ := List.mem_map.mp member
    obtain ⟨spec, -, found⟩ := List.mem_filterMap.mp ht
    exact ⟨t, List.mem_of_find?_eq_some found, rfl⟩

/-! ## Programs -/

structure ProgramClosed (w : Workflow) : Prop where
  /-- The text of the program is its marked code, without empty sections. -/
  written : w.generate = if w.steps.isEmpty then "// empty workflow" else
    Text.join "\n\n" ((w.program.code.map writeAll).filter fun s => !s.isEmpty) ++ "\n"
  bound : named .bound w.program.code.flatten = w.program.bound
  imported : ∀ name ∈ named .imported w.program.code.flatten, name ∈ named .bound w.program.importsCode
  /-- What the sections before the driver use is declared in one of them. -/
  declared : ∀ name ∈ named .used w.program.declarations.flatten, name ∈ named .bound w.program.declarations.flatten ∨
    ∃ t ∈ w.program.tools, t.HidesPlace ∧ (name = t.toolName ∨ name = t.written w.program.topK "__INDEX_CONST__")
  driven : ∀ name ∈ named .used w.program.driverCode,
    name ∈ named .bound w.program.declarations.flatten ∨ name ∈ named .bound w.program.driverCode
  /-- The driver itself creates what its branches read from. -/
  read : "readline" ∈ named .used w.program.driverCode → "readline" ∈ named .bound w.program.driverCode

theorem event_declared {name : String} (h : name ∈ w.program.mentioned) : name ∈ w.program.declared :=
  List.mem_append_right _ (List.mem_cons_of_mem _ (List.mem_append_right _ (mem_events_of_mentioned h)))

theorem workflow_declared : "workflow" ∈ w.program.declared := List.mem_append_right _ List.mem_cons_self

/-- What a tool's code uses is declared, unless the tool's id brings a place along. -/
theorem tool_declared {t : IndexTool} (ht : t ∈ w.program.tools) {name : String} (uses : name ∈
      [retrievalKeyConstant, t.written w.program.topK "__INDEX_CONST__", t.written w.program.topK "__FUNC__"]) :
    name ∈ w.program.declared ∨ t.HidesPlace ∧ name = t.written w.program.topK "__INDEX_CONST__" := by
  have binds : t.written w.program.topK "__FUNC__" ∈ w.program.tools.flatMap (·.binds w.program.topK) :=
    List.mem_flatMap.mpr ⟨t, ht, List.mem_cons_self⟩
  simp only [List.mem_cons, List.not_mem_nil, or_false] at uses
  rcases uses with rfl | rfl | rfl
  · have present : w.indexTools.isEmpty = false := List.isEmpty_eq_false_iff.mpr (List.ne_nil_of_mem ht)
    have needed : (Text.nonEmpty w.settings.retrievalKey).isSome || !w.indexTools.isEmpty := by
      rw [present, Bool.not_false, Bool.or_true]
    refine .inl (List.mem_append_left _ ?_)
    rw [constants_names, if_pos needed]
    simp
  · by_cases hides : t.HidesPlace
    · exact .inr ⟨hides, rfl⟩
    · have index : t.indexConstant ∈ w.indexTools.map (·.indexConstant) := List.mem_map_of_mem ht
      refine .inl (List.mem_append_left _ ?_)
      rw [IndexTool.written_indexConstant hides, constants_names]
      simp [index]
  · exact .inl (List.mem_append_right _ (List.mem_cons_of_mem _ (List.mem_append_left _ binds)))

/-- What a handler uses is declared, unless it is a tool whose id brings a place along. -/
theorem handler_declared {h : Handler} (hh : h ∈ w.program.handlers) {name : String} (uses : name ∈ named .used h.code) :
    name ∈ w.program.declared ∨ ∃ t ∈ w.program.tools, t.HidesPlace ∧ name = t.toolName := by
  rcases Handler.mem_used uses with rfl | event | ⟨model, tools, prompt, event, consults, uses⟩
  · exact .inl workflow_declared
  · have mentioned : name ∈ w.program.mentioned :=
      List.mem_append_left _ (List.mem_append_left _ (List.mem_flatMap.mpr ⟨h, hh, event⟩))
    exact .inl (event_declared mentioned)
  · obtain ⟨-, known, among⟩ := consult_declared hh consults
    rcases List.mem_cons.mp uses with rfl | tool
    · refine .inl (List.mem_append_left _ ?_)
      rw [constants_names]
      exact List.mem_append_right _ known
    · obtain ⟨t, ht, rfl⟩ := among name tool
      by_cases hides : t.HidesPlace
      · exact .inr ⟨t, ht, hides, rfl⟩
      · have binds : t.toolName ∈ w.program.tools.flatMap (·.binds w.program.topK) := by
          refine List.mem_flatMap.mpr ⟨t, ht, ?_⟩
          rw [← IndexTool.written_toolName hides w.program.topK]
          exact List.mem_cons_of_mem _ List.mem_cons_self
        exact .inl (List.mem_append_right _ (List.mem_cons_of_mem _ (List.mem_append_left _ binds)))

theorem import_named {i : Import} (h : i ∈ w.program.imports) {name : String} (brings : name ∈ i.names) :
    name ∈ w.program.imports.flatMap Import.names := List.mem_flatMap.mpr ⟨i, h, brings⟩

/-- What must be imported is. -/
theorem imported_named {name : String} (uses : name ∈ named .imported w.program.code.flatten) :
    name ∈ w.program.imports.flatMap Import.names := by
  have imports : w.program.imports = w.imports w.providers w.indexTools := rfl
  rcases Program.mem_imported_code _ uses with
    core | ⟨m, keyed, hm, rfl⟩ | ⟨tools, among⟩ | ⟨rfl, h, hh, consults⟩ | ⟨rfl, reads⟩
  · exact import_named (i := .workflowCore) (by simp [imports, Workflow.imports]) core
  · have provider := provider_mem (mem_constants_model hm).1
    exact import_named (i := .provider m.provider) (by simp [imports, Workflow.imports, provider]) List.mem_cons_self
  · have present : w.indexTools.isEmpty = false := List.isEmpty_eq_false_iff.mpr tools
    rcases List.mem_cons.mp among with tool | schema
    · exact import_named (i := .tool) (by simp [imports, Workflow.imports, present]) (List.mem_singleton.mpr tool)
    · exact import_named (i := .schema) (by simp [imports, Workflow.imports, present]) schema
  · obtain ⟨model, tools, prompt, event, consults⟩ := consults
    have present : w.agents.isEmpty = false := List.isEmpty_eq_false_iff.mpr (consult_declared hh consults).1
    exact import_named (i := .agent) (by simp [imports, Workflow.imports, present]) List.mem_cons_self
  · have reads : w.readsInput = true := reads
    exact import_named (i := .readline) (by simp [imports, Workflow.imports, reads]) List.mem_cons_self

/-- A branch of the driver reads what someone asks for. -/
theorem readsInput_of_answers (h : w.program.answers ≠ []) : w.program.readsInput = true := by
  obtain ⟨a, ha⟩ := List.exists_mem_of_ne_nil _ h
  obtain ⟨s, hs, answered⟩ := List.mem_filterMap.mp ha
  obtain ⟨asks, -⟩ := answer?_eq_some_iff.mp answered
  exact List.any_eq_true.mpr ⟨s, hs, by simpa using asks⟩

theorem readsInput_of_used (uses : "readline" ∈ named .used w.program.driverCode) : w.program.readsInput = true := by
  rw [Program.used_driverCode] at uses
  rcases List.mem_append.mp uses with uses | closes
  · rcases List.mem_append.mp uses with fixed | answer
    · exact absurd fixed (by decide)
    · obtain ⟨a, ha, -⟩ := List.mem_flatMap.mp answer
      exact readsInput_of_answers (List.ne_nil_of_mem ha)
  · split at closes
    · next reads => exact reads
    · cases closes

theorem driver_declared {name : String} (uses : name ∈ named .used w.program.driverCode) :
    name ∈ w.program.declared ∨ name ∈ w.program.driverNames := by
  have ends : Program.startEvent ∈ w.program.mentioned ∧ Program.stopEvent ∈ w.program.mentioned := by
    simp [Program.mentioned]
  by_cases reader : name = "readline"
  · subst reader
    exact .inr (by simp [Program.driverNames, readsInput_of_used uses])
  · rw [Program.used_driverCode] at uses
    rcases List.mem_append.mp uses with uses | closes
    · rcases List.mem_append.mp uses with fixed | answer
      · simp only [List.mem_cons, List.not_mem_nil, or_false] at fixed
        rcases fixed with rfl | rfl | rfl | rfl | rfl
        · exact .inl workflow_declared
        · exact .inr (by simp [Program.driverNames])
        · exact .inl (event_declared ends.1)
        · exact .inr (by simp [Program.driverNames])
        · exact .inl (event_declared ends.2)
      · obtain ⟨a, ha, uses⟩ := List.mem_flatMap.mp answer
        have mentioned : ∀ event ∈ [a.request, a.event], event ∈ w.program.mentioned := fun event member =>
          List.mem_append_right _ (List.mem_flatMap.mpr ⟨a, ha, member⟩)
        simp only [List.mem_cons, List.not_mem_nil, or_false, reader, false_or] at uses
        rcases uses with rfl | rfl | rfl
        · exact .inl (event_declared (mentioned _ List.mem_cons_self))
        · exact .inr (by simp [Program.driverNames])
        · exact .inl (event_declared (mentioned _ (List.mem_cons_of_mem _ List.mem_cons_self)))
    · split at closes
      · exact absurd (List.mem_singleton.mp closes) reader
      · cases closes

/-- Every program declares or imports what it uses, but for tools whose ids bring a place along. -/
theorem program_closed (w : Workflow) : w.ProgramClosed := by
  constructor
  case written => rw [generate, Program.render, Program.sections_eq]
  case bound => exact w.program.bound_code
  case imported =>
    intro name uses
    rw [Program.bound_importsCode]
    exact imported_named uses
  case declared =>
    intro name uses
    rw [Program.bound_declarations]
    rcases Program.mem_used_declarations _ uses with ⟨m, hm, rfl⟩ | ⟨t, ht, uses⟩ | ⟨h, hh, uses⟩
    · obtain ⟨model, keyed⟩ := mem_constants_model hm
      refine .inl (List.mem_append_left _ ?_)
      rw [constants_names]
      have key : m.provider.keyConstant ∈ (w.providers.filter fun p => (w.settings.apiKey p).isSome).map (·.keyConstant) :=
        List.mem_map_of_mem (List.mem_filter.mpr ⟨provider_mem model, keyed.symm⟩)
      simp [key]
    · rcases tool_declared ht uses with declared | ⟨hides, index⟩
      · exact .inl declared
      · exact .inr ⟨t, ht, hides, .inr index⟩
    · rcases handler_declared hh uses with declared | ⟨t, ht, hides, tool⟩
      · exact .inl declared
      · exact .inr ⟨t, ht, hides, .inl tool⟩
  case driven =>
    intro name uses
    rw [Program.bound_declarations, Program.bound_driverCode]
    exact driver_declared uses
  case read =>
    intro uses
    rw [Program.bound_driverCode, Program.driverNames, if_pos (readsInput_of_used uses)]
    exact List.mem_append_right _ List.mem_cons_self

end Workflow

namespace Graph

def placeTool : Graph :=
  ({ nodes := [.start "1", .promptAgent "2" "Answer using the docs." none, .indexTool "__TOP_K__" "Docs" "pipe-1",
      .stop "3"] } : Graph)
    |>.join "e1" "1" "2" |>.join "e2" "2" "__TOP_K__" |>.join "e3" "2" "3"

/-- The handler knows the tool by another name than the tool's code, and nothing declares that name. -/
theorem place_rewritten :
    ∃ w, placeTool.compile {} .empty .breadthFirst = .ok w ∧ (w.steps.map (·.id)).Nodup ∧
      "search_index_node___TOP_K__" ∈ named .used w.program.declarations.flatten ∧
      "search_index_node___TOP_K__" ∉ named .bound w.program.code.flatten := by
  refine ⟨⟨placeTool.compiled .empty .breadthFirst 0, {}⟩, compile_of_firstOfKind? (by decide) _ _ _,
    by decide +kernel, ?_, ?_⟩
  · decide +kernel
  · decide +kernel

end Graph
end EventFlow
