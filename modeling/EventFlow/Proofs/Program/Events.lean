/-
  EventFlow.Proofs.Program.Events — the event constants of a program.

  Declarations, handlers and the driver look the constants of events up in one list of names. The list
  names every event of the workflow, differently from all others, so what is looked up is what was
  declared. A request for input is named after the event that takes the answer, and one step only sets
  that event off (`compiled_wired`): no two steps ask by one request, and no other branch of the driver
  answers it. Event constants start with `event_` and requests do not, whatever the ids of the edges are.

  Proved:
  - `mem_eventConstants_iff` / `eventConstants_nodup`: what is declared, and that it is declared once.
  - `mem_of_handler?`, `mem_of_answer?`: what handlers and the driver mention is declared.
  - `compile_events`: the constants of every compiled workflow, and the lines of its program that declare, return
    and test them.
-/

import EventFlow.Proofs.Compilation.Wiring
import EventFlow.Proofs.Program.Spelling

namespace EventFlow

namespace Program

/-- The event constants that handlers wait for or return, and those that the driver sends or tests. -/
def mentioned (p : Program) : List String :=
  p.handlers.flatMap (fun h => h.triggers ++ [h.action.result]) ++ [startEvent, stopEvent] ++
    p.answers.flatMap fun a => [a.request, a.event]

end Program

/-- Where one element only has a result, the results are that one. -/
theorem filterMap_eq_singleton {α β : Type} {f : α → Option β} {l : List α} (nodup : l.Nodup) {a : α} {b : β}
    (ha : a ∈ l) (hb : f a = some b) (others : ∀ x ∈ l, x ≠ a → f x = none) : l.filterMap f = [b] := by
  obtain ⟨before, after, rfl⟩ := List.append_of_mem ha
  obtain ⟨-, fresh, apart⟩ := List.nodup_append.mp nodup
  have front : before.filterMap f = [] := List.filterMap_eq_nil_iff.mpr fun x hx =>
    others x (List.mem_append_left _ hx) (apart x hx a List.mem_cons_self)
  have back : after.filterMap f = [] := List.filterMap_eq_nil_iff.mpr fun x hx =>
    others x (List.mem_append_right _ (List.mem_cons_of_mem _ hx)) fun same => (List.nodup_cons.mp fresh).1 (same ▸ hx)
  rw [List.filterMap_append, List.filterMap_cons_some hb, front, back]
  rfl

theorem Step.singleEmit?_eq_some_iff {s : Step} {e : Event} : s.singleEmit? = some e ↔ s.emits = some (.single e) := by
  unfold Step.singleEmit?
  split
  · next f single => simp [single]
  · next other => exact ⟨nofun, fun single => absurd single (other e)⟩

theorem Step.mem_emitted_of_single {s : Step} {e : Event} (single : s.emits = some (.single e)) : e ∈ s.emitted := by
  rw [emitted, single]
  exact List.mem_singleton_self e

namespace Workflow

/-! ## What is declared -/

variable {w : Workflow} {names : EventNames} {s : Step} {c : String}

/-- A step brings in the constants of its events and, if it asks for input, that of the request. -/
theorem EventNames.mem_ofStep_iff :
    c ∈ names.ofStep s ↔ (∃ e ∈ s.events, names.get e = c) ∨
      s.kind = .userInput ∧ ∃ e, s.emits = some (.single e) ∧ names.request e = c := by
  rw [ofStep, List.mem_append, List.mem_map]
  refine or_congr_right ?_
  split
  · next e asks single =>
    have single := Step.singleEmit?_eq_some_iff.mp single
    simp [asks, single, eq_comm]
  · next other =>
    refine ⟨nofun, ?_⟩
    rintro ⟨asks, e, single, -⟩
    exact (other e asks (Step.singleEmit?_eq_some_iff.mpr single)).elim

theorem mem_eventConstants_iff :
    c ∈ w.eventConstants names ↔ c = Program.startEvent ∨ c = Program.stopEvent ∨ ∃ s ∈ w.steps, c ∈ names.ofStep s := by
  refine mem_foldl_new_iff.trans ?_
  simp

theorem eventConstants_nodup (w : Workflow) (names : EventNames) : (w.eventConstants names).Nodup :=
  nodup_foldl_new _ .nil

/-! ## What is mentioned -/

/-- What a handler returns: the stop, a request for input or the event of the one way on. -/
theorem result_of_action? {models : List ModelInstance} {tools : List IndexTool} {a : Action}
    (h : w.action? names models tools s = some a) :
    a.result = Program.stopEvent ∨ (s.kind = .userInput ∧ ∃ e, s.emits = some (.single e) ∧ names.request e = a.result) ∨
      ∃ e, s.emits = some (.single e) ∧ names.get e = a.result := by
  unfold action? at h
  split at h
  · cases h
    exact .inl rfl
  · cases h
  · next e asks single =>
    cases h
    exact .inr (.inl ⟨by rw [Step.kind, asks]; rfl, e, single, rfl⟩)
  · next e _ single =>
    cases h
    exact .inr (.inr ⟨e, single, rfl⟩)
  · cases h
    exact .inr (.inr ⟨_, ‹_›, rfl⟩)
  · cases h

theorem mem_of_handler? (hs : s ∈ w.steps) {models : List ModelInstance} {tools : List IndexTool} {h : Handler}
    (handled : w.handler? names models tools s = some h) (hc : c ∈ h.triggers ++ [h.action.result]) :
    c ∈ w.eventConstants names := by
  rw [mem_eventConstants_iff]
  have known : ∀ e ∈ s.events, names.get e ∈ names.ofStep s := fun e he => EventNames.mem_ofStep_iff.mpr (.inl ⟨e, he, rfl⟩)
  obtain ⟨waits, -, acts⟩ := handler?_eq_some_iff.mp handled
  rcases List.mem_append.mp hc with trigger | result
  · rw [waits] at trigger
    unfold triggers at trigger
    split at trigger
    · exact .inl (List.mem_singleton.mp trigger)
    · obtain ⟨e, he, rfl⟩ := List.mem_map.mp trigger
      exact .inr (.inr ⟨s, hs, known e (List.mem_append_left _ he)⟩)
  · rw [List.mem_singleton.mp result]
    rcases result_of_action? acts with stop | ⟨asks, request⟩ | ⟨e, single, event⟩
    · exact .inr (.inl stop)
    · exact .inr (.inr ⟨s, hs, EventNames.mem_ofStep_iff.mpr (.inr ⟨asks, request⟩)⟩)
    · exact .inr (.inr ⟨s, hs, event ▸ known e (List.mem_append_right _ (Step.mem_emitted_of_single single))⟩)

theorem answer?_eq_some_iff {a : Answer} :
    answer? names s = some a ↔
      s.kind = .userInput ∧ ∃ e, s.emits = some (.single e) ∧ a = ⟨names.request e, names.get e⟩ := by
  unfold answer?
  split
  · next e asks single =>
    have single := Step.singleEmit?_eq_some_iff.mp single
    simp [asks, single, eq_comm]
  · next other =>
    refine ⟨nofun, ?_⟩
    rintro ⟨asks, e, single, -⟩
    exact (other e asks (Step.singleEmit?_eq_some_iff.mpr single)).elim

theorem mem_of_answer? (hs : s ∈ w.steps) {a : Answer} (answered : answer? names s = some a) (hc : c ∈ [a.request, a.event]) :
    c ∈ w.eventConstants names := by
  obtain ⟨asks, e, single, rfl⟩ := answer?_eq_some_iff.mp answered
  refine mem_eventConstants_iff.mpr (.inr (.inr ⟨s, hs, EventNames.mem_ofStep_iff.mpr ?_⟩))
  rcases List.mem_cons.mp hc with rfl | hc
  · exact .inr ⟨asks, e, single, rfl⟩
  · exact .inl ⟨e, List.mem_append_right _ (Step.mem_emitted_of_single single), (List.mem_singleton.mp hc).symm⟩

theorem named_of_single (hs : s ∈ w.steps) {e : Event} (single : s.emits = some (.single e)) :
    e ∈ w.eventNames.map (·.1) :=
  mem_eventNames_iff.mpr ⟨s, hs, List.mem_append_right _ (Step.mem_emitted_of_single single)⟩

/-- What handlers and the driver mention is declared. -/
theorem mem_events_of_mentioned (hc : c ∈ w.program.mentioned) : c ∈ w.program.events := by
  rcases List.mem_append.mp hc with hc | hc
  · rcases List.mem_append.mp hc with hc | hc
    · obtain ⟨h, member, hc⟩ := List.mem_flatMap.mp hc
      obtain ⟨s, hs, handled⟩ := List.mem_filterMap.mp member
      exact mem_of_handler? hs handled hc
    · refine mem_eventConstants_iff.mpr ?_
      rcases List.mem_cons.mp hc with rfl | hc
      · exact .inl rfl
      · exact .inr (.inl (List.mem_singleton.mp hc))
  · obtain ⟨a, member, hc⟩ := List.mem_flatMap.mp hc
    obtain ⟨s, hs, answered⟩ := List.mem_filterMap.mp member
    exact mem_of_answer? hs answered hc

/-! ## Compiled workflows -/

/-- The constants of events stand for the events, apart from each other, and are declared where they are
    used. -/
structure EventsFaithful (w : Workflow) : Prop where
  generated : w.generate = w.program.render
  spelled : w.program.Spelled
  /-- The search for a name ends with the first that is free. -/
  searched : ∀ (before after : EventNames) (e : Event) (name : String), w.eventNames = before ++ (e, name) :: after →
    ∃ k, name = numbered "_" e.ident k ∧ name ∉ before.taken ∧ ∀ j < k, numbered "_" e.ident j ∈ before.taken
  named : ∀ s ∈ w.steps, ∀ e ∈ s.events, (e, w.eventNames.get e) ∈ w.eventNames
  distinct : ∀ e ∈ w.eventNames.map (·.1), ∀ f ∈ w.eventNames.map (·.1), w.eventNames.get e = w.eventNames.get f → e = f
  reserved : ∀ e ∈ w.eventNames.map (·.1),
    w.eventNames.get e ≠ Program.startEvent ∧ w.eventNames.get e ≠ Program.stopEvent
  requestsDistinct : ∀ s ∈ w.steps, ∀ t ∈ w.steps, ∀ e f, s.emits = some (.single e) → t.emits = some (.single f) →
    w.eventNames.request e = w.eventNames.request f → s = t
  requestsForeign : ∀ e, w.eventNames.request e ∉ w.eventNames.taken
  declared : ∀ c ∈ w.program.mentioned,
    w.program.events.count c = 1 ∧ (w.program.linesAt 4).count (Program.declaration c) = 1
  /-- What asks for input returns one request, and one branch of the driver answers it. -/
  answered : ∀ s ∈ w.steps, s.kind = .userInput → s.emits ≠ none → ∃ e prompt,
    s.emits = some (.single e) ∧
    w.handler? w.eventNames w.models w.indexTools s =
      some ⟨s.accepted.map w.eventNames.get, .ask (w.eventNames.request e) prompt⟩ ∧
    (∃ block, block <:+: w.program.linesAt 5 ∧
      Handler.Spelled ⟨s.accepted.map w.eventNames.get, .ask (w.eventNames.request e) prompt⟩ block) ∧
    w.program.answers.filter (·.request = w.eventNames.request e) = [⟨w.eventNames.request e, w.eventNames.get e⟩] ∧
    ∃ front back,
      w.program.linesAt 6 = front ++ Answer.branch ⟨w.eventNames.request e, w.eventNames.get e⟩ ++ back ∧
      Answer.test (w.eventNames.request e) ∉ front ++ back

end Workflow

namespace Graph

variable {g : Graph} {settings : Settings} {configs : ToolConfigs} {order : SearchOrder} {w : Workflow}

/-- The events of a compiled workflow are those of edges. -/
theorem exists_edge_of_event (compiled : g.compile settings configs order = .ok w) {s : Step} (hs : s ∈ w.steps)
    {e : Event} (he : e ∈ s.events) : ∃ id, e = Event.ofEdge id := by
  obtain ⟨start, first, rfl⟩ := compile_eq_ok_iff.mp compiled
  obtain ⟨d, hd, rfl⟩ := mem_compiled_iff.mp hs
  rcases List.mem_append.mp he with accepted | emitted
  · obtain ⟨l, -, rfl, -⟩ := mem_accepted_stepOf accepted
    exact ⟨_, rfl⟩
  · obtain ⟨l, -, rfl, -⟩ := exists_link_of_mem_emitted first hd emitted
    exact ⟨_, rfl⟩

/-- The constant of an event of a compiled workflow. -/
theorem eventName_toList (compiled : g.compile settings configs order = .ok w) {e : Event}
    (he : e ∈ w.eventNames.map (·.1)) : ∃ rest, (w.eventNames.get e).toList = "event_".toList ++ rest := by
  obtain ⟨s, hs, member⟩ := Workflow.mem_eventNames_iff.mp he
  obtain ⟨id, rfl⟩ := exists_edge_of_event compiled hs member
  have ident : (Event.ofEdge id).ident.toList = "event_".toList ++ id.toList.map fun c => if Event.isIdentChar c then c else '_' := by
    rw [Event.ident, Event.ofEdge, String.toList_map, String.toList_append, List.map_append]
    rfl
  obtain ⟨k, named⟩ := Workflow.EventNames.get_numbered (Workflow.eventNames_sound w) he
  rw [named]
  cases k with
  | zero => exact ⟨_, ident⟩
  | succ k =>
    rw [numbered, String.toList_append, String.toList_append, ident, List.append_assoc, List.append_assoc]
    exact ⟨_, rfl⟩

theorem request_foreign (compiled : g.compile settings configs order = .ok w) (e : Event) :
    w.eventNames.request e ∉ w.eventNames.taken := by
  obtain ⟨rest, asks⟩ : ∃ rest, (w.eventNames.request e).toList = "need_input_for_".toList ++ rest :=
    ⟨_, String.toList_append⟩
  intro member
  rcases List.mem_append.mp member with fixed | event
  · have : ∀ c ∈ [Program.startEvent, Program.stopEvent], c.toList.head? ≠ some 'n' := by decide
    exact this _ fixed (by rw [asks]; rfl)
  · obtain ⟨entry, among, same⟩ := List.mem_map.mp event
    obtain ⟨rest', event⟩ := eventName_toList compiled (List.mem_map_of_mem among)
    rw [Workflow.EventNames.get_eq_of_mem (Workflow.eventNames_sound w) among, same, asks] at event
    cases event

/-- One step only sets off an event that it has as its one way on. -/
theorem step_eq_of_single (wired : w.Wired g) {s t : Step} (hs : s ∈ w.steps) (ht : t ∈ w.steps) {e : Event}
    (single : s.emits = some (.single e)) (emits : e ∈ t.emitted) : s = t := by
  obtain ⟨x, -, edges, source, -⟩ := wired.emitted s hs e (Step.mem_emitted_of_single single)
  obtain ⟨y, -, edges', source', -⟩ := wired.emitted t ht e emits
  rw [edges] at edges'
  cases edges'
  exact Option.some.inj (source.symm.trans source')

/-- Requests tell the steps apart: they name the event, and the event has one step that sets it off. -/
theorem step_eq_of_request (wired : w.Wired g) {s t : Step} (hs : s ∈ w.steps) (ht : t ∈ w.steps) {e f : Event}
    (single : s.emits = some (.single e)) (single' : t.emits = some (.single f))
    (same : w.eventNames.request e = w.eventNames.request f) : s = t := by
  have event : e = f := Workflow.EventNames.get_inj w.eventNames_sound (Workflow.named_of_single hs single)
    (Workflow.named_of_single ht single') ((String.append_right_inj _).mp same)
  exact step_eq_of_single wired hs ht single (event ▸ Step.mem_emitted_of_single single')

theorem answers_of_request {start : Node} (shaped : w.Shaped g start) (wired : w.Wired g) {s : Step} (hs : s ∈ w.steps)
    (asks : s.kind = .userInput) {e : Event} (single : s.emits = some (.single e)) :
    w.program.answers.filter (·.request = w.eventNames.request e) = [⟨w.eventNames.request e, w.eventNames.get e⟩] := by
  have distinct : w.steps.Nodup := List.Pairwise.of_map _ (fun _ _ h e => h (congrArg Step.id e)) shaped.idsDistinct
  show (w.steps.filterMap (Workflow.answer? w.eventNames)).filter _ = _
  rw [List.filter_filterMap]
  refine filterMap_eq_singleton distinct hs ?_ ?_
  · rw [Workflow.answer?_eq_some_iff.mpr ⟨asks, e, single, rfl⟩]
    simp
  · intro t ht other
    refine Option.filter_eq_none_iff.mpr ?_
    intro a answered
    obtain ⟨-, f, single', rfl⟩ := Workflow.answer?_eq_some_iff.mp answered
    rw [decide_eq_true_eq]
    exact fun same => other (step_eq_of_request wired ht hs single' single same)

/-- What is no start waits for something. -/
theorem accepted_ne_nil {start : Node} (shaped : w.Shaped g start) {s : Step} (hs : s ∈ w.steps)
    (later : s.kind ≠ .start) : s.accepted ≠ [] := by
  intro none
  rcases shaped.acceptsWires s hs later with ⟨e, -, single⟩ | ⟨several, many⟩
  · rw [Step.accepted, single] at none
    cases none
  · rw [Step.accepted, many] at none
    rw [List.map_eq_nil_iff.mp none] at several
    simp at several

/-- What asks for input and has a way on has a handler. -/
theorem handler?_of_userInput {start : Node} (shaped : w.Shaped g start) {s : Step} (hs : s ∈ w.steps)
    (asks : s.kind = .userInput) {e : Event} (single : s.emits = some (.single e)) (names : Workflow.EventNames)
    (models : List ModelInstance) (tools : List IndexTool) : ∃ prompt,
    w.handler? names models tools s = some ⟨s.accepted.map names.get, .ask (names.request e) prompt⟩ := by
  obtain ⟨c, config⟩ : ∃ c, s.config = .userInput c := by
    unfold Step.kind at asks
    cases config : s.config with
    | userInput c => exact ⟨c, rfl⟩
    | _ => rw [config] at asks; cases asks
  have waits : Workflow.triggers names s = s.accepted.map names.get := by
    rw [Workflow.triggers, asks, if_neg (by decide)]
  have acts : w.action? names models tools s = some (.ask (names.request e) c.promptText) := by
    unfold Workflow.action?
    rw [config, single]
  refine ⟨c.promptText, ?_⟩
  unfold Workflow.handler?
  rw [waits, acts]
  split
  · next none => exact absurd (List.map_eq_nil_iff.mp none) (accepted_ne_nil shaped hs (by rw [asks]; decide))
  · next ts some => rfl

theorem generate_of_compiled (compiled : g.compile settings configs order = .ok w) : w.generate = w.program.render := by
  obtain ⟨start, shaped⟩ := exists_shaped compiled
  obtain ⟨s, first, -⟩ := shaped.startFirst
  exact Workflow.generate_of_mem (List.mem_of_mem_head? first)

/-- The constants of every compiled workflow. -/
theorem compile_events {g : Graph} {settings : Settings} {configs : ToolConfigs} {order : SearchOrder} {w : Workflow}
    (distinct : (g.edges.map (·.id)).Nodup) (compiled : g.compile settings configs order = .ok w) : w.EventsFaithful := by
  have sound := w.eventNames_sound
  have spelled := w.program_spelled
  obtain ⟨start, shaped⟩ := exists_shaped compiled
  have wired : w.Wired g := by
    obtain ⟨p, first, rfl⟩ := compile_eq_ok_iff.mp compiled
    exact compiled_wired first settings distinct
  constructor
  case generated => exact generate_of_compiled compiled
  case spelled => exact spelled
  case searched => exact sound.chosen
  case named => exact fun s hs e he => Workflow.EventNames.get_mem (Workflow.mem_eventNames_iff.mpr ⟨s, hs, he⟩)
  case distinct => exact fun e he f hf => Workflow.EventNames.get_inj sound he hf
  case reserved => exact fun e he => Workflow.EventNames.get_new sound he
  case requestsDistinct => exact fun s hs t ht e f single single' => step_eq_of_request wired hs ht single single'
  case requestsForeign => exact request_foreign compiled
  case declared =>
    intro c hc
    have once : w.program.events.count c = 1 :=
      List.count_eq_one_of_mem (Workflow.eventConstants_nodup w _) (Workflow.mem_events_of_mentioned hc)
    exact ⟨once, (spelled.count_declaration c).trans once⟩
  case answered =>
    intro s hs asks emits
    obtain ⟨e, single⟩ := (shaped.otherEmits s hs (by rw [asks]; decide) (by rw [asks]; decide)).resolve_left emits
    obtain ⟨prompt, handled⟩ := handler?_of_userInput shaped hs asks single w.eventNames w.models w.indexTools
    have once := answers_of_request shaped wired hs asks single
    have registered : ⟨s.accepted.map w.eventNames.get, .ask (w.eventNames.request e) prompt⟩ ∈ w.program.handlers :=
      List.mem_filterMap.mpr ⟨s, hs, handled⟩
    exact ⟨e, prompt, single, handled, spelled.exists_block registered, once, spelled.branch_once once⟩

example : (Workflow.program ⟨Sample.userInput.compiled .empty .breadthFirst 0, {}⟩).events =
    ["startEvent", "stopEvent", "event_1", "event_2", "need_input_for_event_2"] := by decide +kernel

/-- Edges whose ids differ in one character that no identifier has. -/
def sameIdents : Graph :=
  ({ nodes := [.start "1", .userInput "2" "Enter your name:", .promptLlm "3" none, .stop "4"] } : Graph)
    |>.join "a-b" "1" "2" |>.join "a b" "2" "3" |>.join "a_b" "3" "4"

theorem sameIdents_eventNames : Workflow.eventNames ⟨sameIdents.compiled .empty .breadthFirst 0, {}⟩ =
    [(.ofEdge "a-b", "event_a_b"), (.ofEdge "a b", "event_a_b_2"), (.ofEdge "a_b", "event_a_b_3")] := by
  have events : (sameIdents.compiled .empty .breadthFirst 0).flatMap Step.events =
      [.ofEdge "a-b", .ofEdge "a-b", .ofEdge "a b", .ofEdge "a b", .ofEdge "a_b", .ofEdge "a_b"] := by decide +kernel
  have idents : (Event.ofEdge "a-b").ident = "event_a_b" ∧ (Event.ofEdge "a b").ident = "event_a_b" ∧
      (Event.ofEdge "a_b").ident = "event_a_b" := by decide +kernel
  have fresh : freshName ["startEvent", "stopEvent"] "_" "event_a_b" = "event_a_b" ∧
      freshName ["startEvent", "stopEvent", "event_a_b"] "_" "event_a_b" = "event_a_b_2" ∧
      freshName ["startEvent", "stopEvent", "event_a_b", "event_a_b_2"] "_" "event_a_b" = "event_a_b_3" := by decide +kernel
  have differ : Event.ofEdge "a-b" ≠ Event.ofEdge "a b" ∧ Event.ofEdge "a-b" ≠ Event.ofEdge "a_b" ∧
      Event.ofEdge "a b" ≠ Event.ofEdge "a_b" := by decide
  rw [Workflow.eventNames, events]
  simp [Workflow.nameEvent, idents, fresh, differ, Program.startEvent, Program.stopEvent]

theorem sameIdents_events :
    let w : Workflow := ⟨sameIdents.compiled .empty .breadthFirst 0, {}⟩
    (sameIdents.edges.map (·.id)).Nodup ∧ sameIdents.compile {} .empty .breadthFirst = .ok w ∧ w.EventsFaithful ∧
      w.program.linesAt 4 =
        [ "const startEvent = workflowEvent<any>();",
          "const stopEvent = workflowEvent<any>();",
          "const event_a_b = workflowEvent<any>();",
          "const event_a_b_2 = workflowEvent<any>();",
          "const need_input_for_event_a_b_2 = workflowEvent<any>();",
          "const event_a_b_3 = workflowEvent<any>();" ] ∧
      ∃ front back, w.program.linesAt 6 = front ++
        [ "        \x7d else if (need_input_for_event_a_b_2.include(event)) \x7b",
          "            const input = await readline.question(event.data);",
          "            sendEvent(event_a_b_2.with(input));" ] ++ back := by
  intro w
  have distinct : (sameIdents.edges.map (·.id)).Nodup := by decide
  have compiled : sameIdents.compile {} .empty .breadthFirst = .ok w := compile_of_firstOfKind? (by decide) _ _ _
  have faithful := compile_events distinct compiled
  obtain ⟨front, back, driver, -⟩ := faithful.spelled.driver
  have constants : w.program.events = ["startEvent", "stopEvent", "event_a_b", "event_a_b_2", "need_input_for_event_a_b_2",
      "event_a_b_3"] := by
    show w.eventConstants w.eventNames = _
    rw [sameIdents_eventNames]
    decide +kernel
  have answers : w.program.answers = [⟨"need_input_for_event_a_b_2", "event_a_b_2"⟩] := by
    show w.steps.filterMap (Workflow.answer? w.eventNames) = _
    rw [sameIdents_eventNames]
    decide +kernel
  rw [answers] at driver
  refine ⟨distinct, compiled, faithful, faithful.spelled.events.trans ?_, front, back, driver.trans ?_⟩
  · rw [constants]
    decide +kernel
  · exact congrArg (front ++ · ++ back) (by decide +kernel)

end Graph
end EventFlow
