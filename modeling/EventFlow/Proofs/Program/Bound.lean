/-
  EventFlow.Proofs.Program.Bound — the names that a program binds at top level.

  Names come from schemes of their own: imports and parts of the driver are always called the same, models
  are called after their ids, all others have prefixes. Names of different schemes differ in their families,
  unless they have none. Within a scheme providers are listed once and events and models get numbers; tools
  do not. So there are two ways for a name to be bound twice: by two tools whose ids differ in characters
  only that no name has, and by a model that is called like a name that is always there.

  Proved:
  - `bound_code`: the names that the marked text of a program binds.
  - `scaffold_sound`: imports, keys and the driver bind different names.
  - `bound_perm`: the names of a program, ordered by scheme.
  - `families_apart`: names with a prefix differ from those of other schemes.
  - `bound_nodup_iff`: when the program binds every name once.
-/

import EventFlow.Proofs.Program.Code
import EventFlow.Proofs.Program.Events

namespace EventFlow

namespace Program

def driverNames (p : Program) : List String := ["stream", "sendEvent"] ++ if p.readsInput then ["readline"] else []

/-- The names that a program binds at top level, in the order of its text. -/
def bound (p : Program) : List String :=
  p.imports.flatMap Import.names ++ p.constants.map Constant.name ++ ["workflow"] ++
    p.tools.flatMap (·.binds p.topK) ++ p.events ++ p.driverNames

/-- The names without an underscore that do not depend on the workflow's ids. -/
def reserved (p : Program) : List String :=
  p.imports.flatMap Import.names ++ ["workflow", startEvent, stopEvent] ++ p.driverNames

end Program

/-! ## Names in the text -/

open Token

theorem Import.named_code (i : Import) (role : NameRole) : named role i.code = if role = .bound then i.names else [] := by
  cases role <;> simp [Import.code]

theorem Constant.bound_code (c : Constant) : named .bound c.code = [c.name] := by
  cases c with
  | model m keyed => cases keyed <;> rfl
  | _ => rfl

theorem IndexTool.bound_code (t : IndexTool) (topK : Nat) : named .bound (t.code topK) = t.binds topK := rfl

theorem Handler.bound_code (h : Handler) : named .bound h.code = [] := by
  cases action : h.action with
  | consult model tools systemPrompt event => cases systemPrompt <;> simp [code, bodyCode, sendingCode, action]
  | _ => simp [code, bodyCode, sendingCode, action]

namespace Program

variable (p : Program)

theorem bound_importsCode : named .bound p.importsCode = p.imports.flatMap Import.names := by
  rw [importsCode, named_joined, List.flatMap_map]
  exact congrArg p.imports.flatMap (funext fun i => i.named_code .bound)

def declared : List String :=
  p.constants.map Constant.name ++ "workflow" :: (p.tools.flatMap (·.binds p.topK) ++ p.events)

theorem bound_declarations : named .bound p.declarations.flatten = p.declared := by
  have constants : p.constants.flatMap (fun c => named .bound c.code) = p.constants.map Constant.name := by
    rw [funext Constant.bound_code, List.map_eq_flatMap]
  have events : p.events.flatMap (fun e => named .bound (eventCode e)) = p.events := List.flatMap_singleton' _
  have handlers : p.handlers.flatMap (fun h => named .bound h.code) = [] :=
    List.flatMap_eq_nil_iff.mpr fun h _ => h.bound_code
  simp only [declarations, declared, List.flatten_cons, List.flatten_nil, named_append, named_joined, List.flatMap_map,
    constants, IndexTool.bound_code, events, handlers]
  simp

theorem bound_driverCode : named .bound p.driverCode = p.driverNames := by
  have answers : (p.answers.flatMap Answer.code).flatMap (named .bound) = [] := by
    rw [List.flatMap_assoc]
    exact List.flatMap_eq_nil_iff.mpr fun a _ => rfl
  cases reads : p.readsInput <;> simp [driverCode, driverNames, answers, reads]

/-- The names that the marked text binds are those of the program. -/
theorem bound_code : named .bound p.code.flatten = p.bound := by
  simp only [code, List.flatten_append, List.flatten_cons, List.flatten_nil, List.append_nil, named_append,
    bound_importsCode, bound_declarations, bound_driverCode, declared, bound, List.append_assoc, List.cons_append,
    List.nil_append]

end Program

/-! ## Names that are always there -/

namespace Workflow

theorem providers_nodup (w : Workflow) : w.providers.Nodup := nodup_foldl_new _ .nil

/-- The names of imports, keys and the driver. -/
def scaffold (w : Workflow) : List String :=
  w.program.imports.flatMap Import.names ++
    ((if (Text.nonEmpty w.settings.retrievalKey).isSome || !w.indexTools.isEmpty then [retrievalKeyConstant] else []) ++
      ((w.providers.filter fun p => (w.settings.apiKey p).isSome).map (·.keyConstant) ++
        "workflow" :: w.program.driverNames))

end Workflow

namespace Import

def all : List Import := .workflowCore :: .agent :: Provider.all.map .provider ++ [.tool, .schema, .readline]

theorem mem_all (i : Import) : i ∈ all := by
  cases i with
  | provider p => cases p <;> decide
  | _ => decide

/-- No two imports bring in one name. -/
theorem names_apart : ∀ i ∈ all, ∀ j ∈ all, i ≠ j → ∀ c ∈ i.names, c ∉ j.names := by decide

theorem names_nodup : ∀ i ∈ all, i.names.Nodup := by decide

end Import

def Program.scaffolding : List String :=
  Import.all.flatMap Import.names ++
    ([retrievalKeyConstant] ++ (Provider.all.map (·.keyConstant) ++ ["workflow", "stream", "sendEvent", "readline"]))

/-- Parts of a list without repetitions that have none themselves make up one. -/
theorem nodup_append_of_subset {α : Type} {part rest whole others : List α} (partNodup : part.Nodup) (restNodup : rest.Nodup)
    (partIn : part ⊆ whole) (restIn : rest ⊆ others) (apart : (whole ++ others).Nodup) : (part ++ rest).Nodup :=
  List.nodup_append.mpr ⟨partNodup, restNodup, fun a ha b hb => (List.nodup_append.mp apart).2.2 a (partIn ha) b (restIn hb)⟩

namespace Workflow

theorem imports_nodup (w : Workflow) : (w.program.imports.flatMap Import.names).Nodup := by
  have sublist : w.program.imports.Sublist
      (.workflowCore :: [.agent] ++ w.providers.map .provider ++ [.tool, .schema] ++ [.readline]) := by
    show (w.imports w.providers w.indexTools).Sublist _
    unfold imports
    refine List.Sublist.append (List.Sublist.append (List.Sublist.append (List.Sublist.cons_cons _ ?_) (.refl _)) ?_) ?_
    all_goals split <;> simp
  have providers : (w.providers.map Import.provider).Nodup :=
    List.Nodup.map (fun p q same => by cases same; rfl) w.providers_nodup
  have distinct : w.program.imports.Nodup := by
    refine sublist.nodup ?_
    simp [List.nodup_append, providers]
  refine List.nodup_flatMap.mpr ⟨fun i _ => Import.names_nodup i i.mem_all, distinct.imp fun {i j} other => ?_⟩
  exact fun c hi hj => Import.names_apart i i.mem_all j j.mem_all other c hi hj

theorem scaffold_sound (w : Workflow) : w.scaffold.Nodup ∧ w.scaffold ⊆ Program.scaffolding := by
  have imports : w.program.imports.flatMap Import.names ⊆ Import.all.flatMap Import.names := by
    intro c hc
    obtain ⟨i, -, hc⟩ := List.mem_flatMap.mp hc
    exact List.mem_flatMap.mpr ⟨i, i.mem_all, hc⟩
  have keys : (w.providers.filter fun p => (w.settings.apiKey p).isSome).map (·.keyConstant) ⊆
      Provider.all.map (·.keyConstant) :=
    List.map_subset _ fun p _ => by cases p <;> decide
  have driver : ("workflow" :: w.program.driverNames).Sublist ["workflow", "stream", "sendEvent", "readline"] := by
    unfold Program.driverNames
    split
    · exact .refl _
    · decide
  have retrieval : (if (Text.nonEmpty w.settings.retrievalKey).isSome || !w.indexTools.isEmpty then [retrievalKeyConstant]
      else []).Sublist [retrievalKeyConstant] := by
    split
    · exact .refl _
    · exact List.nil_sublist _
  have keysNodup : ((w.providers.filter fun p => (w.settings.apiKey p).isSome).map (·.keyConstant)).Nodup := by
    refine List.Nodup.map ?_ (w.providers_nodup.filter _)
    intro p q
    cases p <;> cases q <;> decide
  have keysIn := List.append_subset.mpr ⟨List.subset_append_of_subset_left _ keys, List.subset_append_of_subset_right _ driver.subset⟩
  have retrievalIn := List.append_subset.mpr
    ⟨List.subset_append_of_subset_left _ retrieval.subset, List.subset_append_of_subset_right _ keysIn⟩
  refine ⟨?_, List.append_subset.mpr
    ⟨List.subset_append_of_subset_left _ imports, List.subset_append_of_subset_right _ retrievalIn⟩⟩
  refine nodup_append_of_subset w.imports_nodup ?_ imports retrievalIn (by decide)
  refine nodup_append_of_subset (retrieval.nodup (by decide)) ?_ retrieval.subset keysIn (by decide)
  exact nodup_append_of_subset keysNodup (driver.nodup (by decide)) keys driver.subset (by decide)

/-- The names of the constants, by what they stand for. -/
theorem constants_names (w : Workflow) : w.program.constants.map Constant.name =
    (if (Text.nonEmpty w.settings.retrievalKey).isSome || !w.indexTools.isEmpty then [retrievalKeyConstant] else []) ++
      w.indexTools.map (·.indexConstant) ++ (w.providers.filter fun p => (w.settings.apiKey p).isSome).map (·.keyConstant) ++
      w.models.map (·.name) := by
  have keys (providers : List Provider) : (providers.filterMap fun p => (w.settings.apiKey p).map (Constant.providerKey p)).map
      Constant.name = (providers.filter fun p => (w.settings.apiKey p).isSome).map (·.keyConstant) := by
    induction providers with
    | nil => rfl
    | cons p providers ih =>
      cases key : w.settings.apiKey p with
      | none => rw [List.filterMap_cons_none (by rw [key]; rfl), List.filter_cons_of_neg (by simp [key]), ih]
      | some k =>
        rw [List.filterMap_cons_some (by rw [key]; rfl), List.filter_cons_of_pos (by simp [key]), List.map_cons, List.map_cons, ih]
        rfl
  show (w.constants w.providers w.models w.indexTools).map Constant.name = _
  unfold constants
  rw [List.map_append, List.map_append, List.map_append, List.map_map, List.map_map, keys]
  cases Text.nonEmpty w.settings.retrievalKey with
  | some key => rfl
  | none => cases w.indexTools <;> rfl

/-- The names of a program, in another order. -/
theorem bound_perm (w : Workflow) : w.program.bound.Perm
    (w.models.map (·.name) ++ (w.program.tools.flatMap (·.binds w.program.topK) ++
      (w.program.tools.map (·.indexConstant) ++ (w.scaffold ++ w.program.events)))) := by
  rw [Program.bound, constants_names, scaffold]
  refine List.perm_iff_count.mpr fun c => ?_
  have tools : w.program.tools = w.indexTools := rfl
  simp only [List.count_append, List.count_cons, List.count_nil, tools]
  omega

end Workflow

/-! ## All names -/

namespace Graph

variable {g : Graph} {settings : Settings} {configs : ToolConfigs} {order : SearchOrder} {w : Workflow}

/-- Event constants other than the start and the stop have an underscore. -/
theorem event_family (compiled : g.compile settings configs order = .ok w) {c : String} (h : c ∈ w.program.events) :
    c = Program.startEvent ∨ c = Program.stopEvent ∨ Program.family c = some "event".toList ∨
      Program.family c = some "need".toList := by
  rcases Workflow.mem_eventConstants_iff.mp h with start | stop | ⟨s, hs, hc⟩
  · exact .inl start
  · exact .inr (.inl stop)
  · rcases Workflow.EventNames.mem_ofStep_iff.mp hc with ⟨e, he, rfl⟩ | ⟨-, e, -, rfl⟩
    · obtain ⟨rest, event⟩ := eventName_toList compiled (Workflow.mem_eventNames_iff.mpr ⟨s, hs, he⟩)
      exact .inr (.inr (.inl (Program.family_of_append (by decide) event)))
    · exact .inr (.inr (.inr (Program.family_of_append (by decide) String.toList_append)))

theorem family_indexConstant (t : IndexTool) : Program.family t.indexConstant = some "LLAMACLOUD".toList :=
  Program.family_of_append (by decide) String.toList_append

/-- Models, tools and index ids have names of their own. -/
theorem families_apart (compiled : g.compile settings configs order = .ok w) :
    (∀ a ∈ w.program.tools.flatMap (·.binds w.program.topK), ∀ b ∈ w.program.tools.map (·.indexConstant) ++
      (w.scaffold ++ w.program.events), a ≠ b) ∧
    (∀ a ∈ w.program.tools.map (·.indexConstant), ∀ b ∈ w.scaffold ++ w.program.events, a ≠ b) ∧
    ∀ a ∈ w.scaffold, ∀ b ∈ w.program.events, a ≠ b := by
  have events : ∀ c ∈ w.program.events, Program.family c ∈ [none, some "event".toList, some "need".toList] := by
    intro c hc
    rcases event_family compiled hc with rfl | rfl | event | need
    · decide
    · decide
    · simp [event]
    · simp [need]
  have fixed := w.scaffold_sound.2
  refine ⟨?_, ?_, ?_⟩
  · rintro a ha b hb rfl
    obtain ⟨t, -, ha⟩ := List.mem_flatMap.mp ha
    have search := t.binds_family _ ha
    rcases List.mem_append.mp hb with index | hb
    · obtain ⟨t', -, rfl⟩ := List.mem_map.mp index
      rw [family_indexConstant] at search
      exact absurd search (by decide)
    · rcases List.mem_append.mp hb with scaffold | event
      · have others : ∀ c ∈ Program.scaffolding, Program.family c ≠ some "search".toList := by decide
        exact others a (fixed scaffold) search
      · have := events a event
        rw [search] at this
        exact absurd this (by decide)
  · rintro a ha b hb rfl
    obtain ⟨t, -, rfl⟩ := List.mem_map.mp ha
    rcases List.mem_append.mp hb with scaffold | event
    · have others : ∀ c ∈ Program.scaffolding, "LLAMACLOUD_INDEX_ID_".toList.isPrefixOf c.toList = false := by
        decide +kernel
      have index : "LLAMACLOUD_INDEX_ID_".toList <+: t.indexConstant.toList := ⟨_, String.toList_append.symm⟩
      rw [← List.isPrefixOf_iff_prefix, others _ (fixed scaffold)] at index
      cases index
    · have := events _ event
      rw [family_indexConstant] at this
      exact absurd this (by decide)
  · rintro a ha b hb rfl
    have others : ∀ c ∈ Program.scaffolding, c ≠ Program.startEvent ∧ c ≠ Program.stopEvent ∧
        Program.family c ≠ some "event".toList ∧ Program.family c ≠ some "need".toList := by decide
    obtain ⟨start, stop, event, need⟩ := others a (fixed ha)
    rcases event_family compiled hb with h | h | h | h
    · exact start h
    · exact stop h
    · exact event h
    · exact need h

/-- A name without an underscore is bound otherwise only if it is always there. -/
theorem mem_others_iff (compiled : g.compile settings configs order = .ok w) {name : String} (clean : '_' ∉ name.toList) :
    name ∈ w.program.tools.flatMap (·.binds w.program.topK) ++ (w.program.tools.map (·.indexConstant) ++
      (w.scaffold ++ w.program.events)) ↔ name ∈ w.program.reserved := by
  have plain : Program.family name = none := Program.family_eq_none_iff.mpr clean
  have reserved : name ∈ w.program.reserved ↔ name ∈ w.program.imports.flatMap Import.names ∨
      name = "workflow" ∨ name = Program.startEvent ∨ name = Program.stopEvent ∨ name ∈ w.program.driverNames := by
    rw [Program.reserved, List.mem_append, List.mem_append]
    simp only [List.mem_cons, List.not_mem_nil, or_false, or_assoc]
  rw [reserved]
  constructor
  · intro h
    rcases List.mem_append.mp h with tool | h
    · obtain ⟨t, -, ht⟩ := List.mem_flatMap.mp tool
      rw [t.binds_family _ ht] at plain
      cases plain
    rcases List.mem_append.mp h with index | h
    · obtain ⟨t, -, rfl⟩ := List.mem_map.mp index
      rw [family_indexConstant] at plain
      cases plain
    rcases List.mem_append.mp h with h | event
    · rcases List.mem_append.mp h with imported | h
      · exact .inl imported
      rcases List.mem_append.mp h with retrieval | h
      · split at retrieval
        · rw [List.mem_singleton.mp retrieval] at plain
          exact absurd plain (by decide)
        · cases retrieval
      rcases List.mem_append.mp h with key | h
      · obtain ⟨p, -, rfl⟩ := List.mem_map.mp key
        exact absurd plain (by cases p <;> decide)
      rcases List.mem_cons.mp h with workflow | driver
      · exact .inr (.inl workflow)
      · exact .inr (.inr (.inr (.inr driver)))
    · rcases event_family compiled event with start | stop | family | family
      · exact .inr (.inr (.inl start))
      · exact .inr (.inr (.inr (.inl stop)))
      · rw [plain] at family
        cases family
      · rw [plain] at family
        cases family
  · intro h
    refine List.mem_append_right _ (List.mem_append_right _ (List.mem_append.mpr ?_))
    rcases h with imported | workflow | start | stop | driver
    · exact .inl (List.mem_append_left _ imported)
    · exact .inl (List.mem_append_right _ (List.mem_append_right _ (List.mem_append_right _ (List.mem_cons.mpr (.inl workflow)))))
    · exact .inr (Workflow.mem_eventConstants_iff.mpr (.inl start))
    · exact .inr (Workflow.mem_eventConstants_iff.mpr (.inr (.inl stop)))
    · exact .inl (List.mem_append_right _ (List.mem_append_right _ (List.mem_append_right _ (List.mem_cons_of_mem _ driver))))

/-- The names that the text of the program binds are different, unless tools do not differ or a model is called
    like a name that is always there. -/
theorem bound_nodup_iff (compiled : g.compile settings configs order = .ok w) :
    w.generate = Text.join "\n\n" ((w.program.code.map writeAll).filter fun s => !s.isEmpty) ++ "\n" ∧
      named .bound w.program.code.flatten = w.program.bound ∧
      (w.program.bound.Nodup ↔
        (w.program.tools.map (·.indexConstant)).Nodup ∧ (w.program.tools.flatMap (·.binds w.program.topK)).Nodup ∧
          ∀ m ∈ w.models, m.name ∉ w.program.reserved) := by
  have written : w.generate = Text.join "\n\n" ((w.program.code.map writeAll).filter fun s => !s.isEmpty) ++ "\n" := by
    rw [generate_of_compiled compiled, Program.render, Program.sections_eq]
  refine ⟨written, w.program.bound_code, ?_⟩
  obtain ⟨toolsApart, indexApart, fixedApart⟩ := families_apart compiled
  have fixed : (w.scaffold ++ w.program.events).Nodup :=
    List.nodup_append.mpr ⟨w.scaffold_sound.1, w.eventConstants_nodup _, fixedApart⟩
  have models := w.models_sound
  have clean : ∀ m ∈ w.models, '_' ∉ m.name.toList := fun m hm => (models.clean m hm).not_mem (by decide)
  rw [w.bound_perm.nodup_iff]
  constructor
  · intro nodup
    obtain ⟨-, others, apart⟩ := List.nodup_append.mp nodup
    obtain ⟨tools, rest, -⟩ := List.nodup_append.mp others
    refine ⟨(List.nodup_append.mp rest).1, tools, fun m hm taken => ?_⟩
    exact apart m.name (List.mem_map_of_mem hm) m.name ((mem_others_iff compiled (clean m hm)).mpr taken) rfl
  · rintro ⟨index, tools, free⟩
    refine List.nodup_append.mpr ⟨models.distinct, ?_, ?_⟩
    · exact List.nodup_append.mpr ⟨tools, List.nodup_append.mpr ⟨index, fixed, indexApart⟩, toolsApart⟩
    · rintro a ha b hb rfl
      obtain ⟨m, hm, rfl⟩ := List.mem_map.mp ha
      exact free m hm ((mem_others_iff compiled (clean m hm)).mp hb)

/-- An agent with the usual model. -/
theorem decision_bound :
    let w : Workflow := ⟨Sample.decision.compiled .empty .breadthFirst 0, Sample.settings⟩
    Sample.decision.compile Sample.settings .empty .breadthFirst = .ok w ∧
      (named .bound w.program.code.flatten).Nodup := by
  intro w
  have compiled : Sample.decision.compile Sample.settings .empty .breadthFirst = .ok w :=
    compile_of_firstOfKind? (by decide) _ _ _
  have tools : w.program.tools = [] := by decide +kernel
  have models : ∀ m ∈ w.models, m.name ∉ w.program.reserved := by decide +kernel
  obtain ⟨-, bound, once⟩ := bound_nodup_iff compiled
  rw [bound]
  refine ⟨compiled, once.mpr ⟨?_, ?_, models⟩⟩
  · rw [tools]
    exact .nil
  · rw [tools]
    exact .nil

/-- An agent with two tools, whose ids differ in a character that no name has. -/
def sameTools : Graph :=
  ({ nodes := [.start "1", .promptAgent "2" "Answer using the docs." none, .indexTool "t-1" "Docs" "pipe-1",
      .indexTool "t_1" "Wiki" "pipe-2", .stop "3"] } : Graph)
    |>.join "e1" "1" "2" |>.join "e2" "2" "t-1" |>.join "e3" "2" "t_1" |>.join "e4" "2" "3"

def agentAgent : Graph :=
  ({ nodes := [.start "1", .promptAgent "2" "Answer." (some "agent"), .stop "3"] } : Graph)
    |>.join "e1" "1" "2" |>.join "e2" "2" "3"

/-- Tools with similar ids have one name, and so have a model and an import. -/
theorem names_rebound :
    (∃ w, sameTools.compile {} .empty .breadthFirst = .ok w ∧ ¬ (named .bound w.program.code.flatten).Nodup) ∧
      ∃ w, agentAgent.compile {} .empty .breadthFirst = .ok w ∧ ¬ (named .bound w.program.code.flatten).Nodup := by
  constructor
  · refine ⟨⟨sameTools.compiled .empty .breadthFirst 0, {}⟩, compile_of_firstOfKind? (by decide) _ _ _, fun nodup => ?_⟩
    rw [Program.bound_code] at nodup
    obtain ⟨-, others, -⟩ := List.nodup_append.mp ((Workflow.bound_perm _).nodup_iff.mp nodup)
    obtain ⟨-, rest, -⟩ := List.nodup_append.mp others
    have index := (List.nodup_append.mp rest).1
    have tools : (Workflow.mk (sameTools.compiled .empty .breadthFirst 0) {}).program.tools.map (·.spec.id) =
      ["node-t-1", "node-t_1"] := by decide +kernel
    have same : Program.ident "node-t-1" = Program.ident "node-t_1" := by
      refine String.toList_inj.mp ?_
      rw [Program.ident, Program.ident, String.toList_map, String.toList_map]
      decide
    have constants : (Workflow.mk (sameTools.compiled .empty .breadthFirst 0) {}).program.tools.map (·.indexConstant) =
        ["node-t-1", "node-t_1"].map fun id => "LLAMACLOUD_INDEX_ID_" ++ Program.ident id := by
      rw [← tools, List.map_map]
      rfl
    rw [constants, List.map_cons, same] at index
    simp at index
  · refine ⟨⟨agentAgent.compiled .empty .breadthFirst 0, {}⟩, compile_of_firstOfKind? (by decide) _ _ _, ?_⟩
    rw [Program.bound_code]
    decide +kernel

end Graph
end EventFlow
