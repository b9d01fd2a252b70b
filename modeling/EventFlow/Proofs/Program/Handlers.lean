/-
  EventFlow.Proofs.Program.Handlers — the handlers of a program go the ways of the workflow.

  A step gets a handler if it is a stop or has one way on; decisions with branches and splitters with
  several ways get none. A handler returns the constant of the step's event, and the handlers that the
  constant triggers are those of the steps that wait for the event, since different events have different
  constants. A step that asks for input returns a request instead. No event is called like a request, so
  no handler takes it, but a branch of the driver does, and sends the event for the step.

  Proved:
  - `isSome_action?_iff` / `way_of_action?`: which steps act, and what they return.
  - `onward_get` / `onward_request`: what the driver leaves alone, and what it answers.
  - `mem_triggers_iff`: a step's handler is triggered by the constants of the events it waits for.
  - `result_of_registers`: what the handler of a step returns, and what comes of it.
  - `compile_handlers`: the handlers of every compiled workflow, and the lines of its program that register
    them.
-/

import EventFlow.Proofs.Program.Events

namespace EventFlow

/-- The step ends its way or has one way on. -/
def Step.hasOneWay (s : Step) : Bool := s.kind = .stop || s.singleEmit?.isSome

theorem Step.hasOneWay_iff {s : Step} : s.hasOneWay = true ↔ s.kind = .stop ∨ ∃ e, s.emits = some (.single e) := by
  simp only [hasOneWay, Bool.or_eq_true, decide_eq_true_eq, Option.isSome_iff_exists, singleEmit?_eq_some_iff]

/-- The event constant that comes of a handler's result: the driver tests its branches in order and sends
    the event of the first one that takes the result; a result that no branch takes stays. -/
def Program.onward (p : Program) (result : String) : String :=
  ((p.answers.find? (·.request = result)).map (·.event)).getD result

namespace Workflow

def Registers (w : Workflow) (s : Step) (h : Handler) : Prop :=
  w.handler? w.eventNames w.models w.indexTools s = some h

structure HandlersFaithful (w : Workflow) : Prop where
  generated : w.generate = w.program.render
  spelled : w.program.Spelled
  /-- One handler for each step that ends its way or has one way on, in the order of the steps. -/
  registered : List.Forall₂ w.Registers (w.steps.filter Step.hasOneWay) w.program.handlers
  /-- The section consists of the blocks of these handlers. -/
  written : ∃ blocks, w.program.linesAt 5 = [""].intercalate blocks ∧
    List.Forall₂ (fun s block => ∃ h, w.Registers s h ∧ h.Spelled block) (w.steps.filter Step.hasOneWay) blocks
  routed : ∀ p ∈ w.steps, p.kind ≠ .stop → ∀ h, w.Registers p h → ∃ e, p.emits = some (.single e) ∧
    ∀ n ∈ w.steps, ∀ k, w.Registers n k → (w.program.onward h.action.result ∈ k.triggers ↔ e ∈ n.accepted)
  /-- The driver answers those that ask for input, and no others. -/
  answered : ∀ p ∈ w.steps, ∀ h, w.Registers p h →
    ((∃ a ∈ w.program.answers, a.request = h.action.result) ↔ p.kind = .userInput)
  started : ∀ n ∈ w.steps, ∀ k, w.Registers n k → (Program.startEvent ∈ k.triggers ↔ n.kind = .start)
  startedOnce : (∀ h ∈ w.program.handlers, h.action.result ≠ Program.startEvent) ∧
    ∀ a ∈ w.program.answers, a.event ≠ Program.startEvent
  stopped : ∀ n ∈ w.steps, ∀ k, w.Registers n k → (k.action.result = Program.stopEvent ↔ n.kind = .stop)

variable {w : Workflow} {names : EventNames} {models : List ModelInstance} {tools : List IndexTool} {s : Step}

/-! ## Which steps have a handler -/

theorem isSome_action?_iff :
    (w.action? names models tools s).isSome = true ↔ s.kind ≠ .agentTool ∧ s.hasOneWay = true := by
  obtain ⟨id, config, accepts, emits⟩ := s
  rw [Step.hasOneWay_iff]
  cases config <;> rcases emits with _ | _ | _ | _ <;> simp [action?, Step.kind, NodeConfig.kind]

/-- A stop returns the stop, what asks for input the request, all others their event. -/
theorem way_of_action? {a : Action} (acts : w.action? names models tools s = some a) :
    (s.kind = .stop ∧ a.result = Program.stopEvent) ∨
      ∃ e, s.emits = some (.single e) ∧ s.kind ≠ .stop ∧
        a.result = if s.kind = .userInput then names.request e else names.get e := by
  obtain ⟨id, config, accepts, emits⟩ := s
  cases config <;> rcases emits with _ | e | _ | _ <;> simp only [action?, reduceCtorEq, Option.some.injEq] at acts
  all_goals subst acts
  all_goals first
    | exact .inl ⟨rfl, rfl⟩
    | exact .inr ⟨e, rfl, nofun, rfl⟩

end Workflow

/-- The results of a list stand beside the elements that have one. -/
theorem forall₂_filterMap {α β : Type} {f : α → Option β} {keep : α → Bool} {l : List α}
    (same : ∀ a ∈ l, (f a).isSome = keep a) : List.Forall₂ (fun a b => f a = some b) (l.filter keep) (l.filterMap f) := by
  induction l with
  | nil => exact .nil
  | cons a l ih =>
    have rest := ih fun b hb => same b (List.mem_cons_of_mem _ hb)
    have first := same a List.mem_cons_self
    cases result : f a with
    | none =>
      rw [result] at first
      rwa [List.filter_cons_of_neg (by simp [← first]), List.filterMap_cons_none result]
    | some b =>
      rw [result] at first
      rw [List.filter_cons_of_pos first.symm, List.filterMap_cons_some result]
      exact .cons result rest

theorem forall₂_comp {α β γ : Type} {R : α → β → Prop} {S : β → γ → Prop} {l : List α} {m : List β} {r : List γ}
    (first : List.Forall₂ R l m) (second : List.Forall₂ S m r) : List.Forall₂ (fun a c => ∃ b, R a b ∧ S b c) l r := by
  induction first generalizing r with
  | nil =>
    cases second
    exact .nil
  | cons here _ ih =>
    cases second with
    | cons here' rest => exact .cons ⟨_, here, here'⟩ (ih rest)

namespace Graph

variable {g : Graph} {settings : Settings} {configs : ToolConfigs} {order : SearchOrder} {w : Workflow}

/-! ## What the driver answers -/

theorem get_mem_taken {e : Event} (he : e ∈ w.eventNames.map (·.1)) : w.eventNames.get e ∈ w.eventNames.taken :=
  List.mem_append_right _ (List.mem_map_of_mem (Workflow.EventNames.get_mem he))

/-- The driver tests no constant of an event, nor the start or the stop. -/
theorem request_not_mem_taken (compiled : g.compile settings configs order = .ok w) {a : Answer}
    (ha : a ∈ w.program.answers) : a.request ∉ w.eventNames.taken := by
  obtain ⟨s, -, answered⟩ := List.mem_filterMap.mp ha
  obtain ⟨-, e, -, rfl⟩ := Workflow.answer?_eq_some_iff.mp answered
  exact request_foreign compiled e

/-- The driver leaves the constants of events alone. -/
theorem onward_get (compiled : g.compile settings configs order = .ok w) {e : Event}
    (he : e ∈ w.eventNames.map (·.1)) : w.program.onward (w.eventNames.get e) = w.eventNames.get e := by
  have untested : w.program.answers.find? (·.request = w.eventNames.get e) = none := by
    refine List.find?_eq_none.mpr fun a ha same => ?_
    rw [decide_eq_true_eq] at same
    exact request_not_mem_taken compiled ha (same ▸ get_mem_taken he)
  rw [Program.onward, untested, Option.map_none, Option.getD_none]

/-- The driver answers a request with the event that the request is named after. -/
theorem onward_request {s : Step} (hs : s ∈ w.steps) (asks : s.kind = .userInput) {e : Event}
    (single : s.emits = some (.single e)) : w.program.onward (w.eventNames.request e) = w.eventNames.get e := by
  have answer : (⟨w.eventNames.request e, w.eventNames.get e⟩ : Answer) ∈ w.program.answers :=
    List.mem_filterMap.mpr ⟨s, hs, Workflow.answer?_eq_some_iff.mpr ⟨asks, e, single, rfl⟩⟩
  cases found : w.program.answers.find? (·.request = w.eventNames.request e) with
  | none => exact absurd (List.find?_eq_none.mp found _ answer) (by simp)
  | some a =>
    have tested : a.request = w.eventNames.request e := by simpa using List.find?_some found
    obtain ⟨t, -, answered⟩ := List.mem_filterMap.mp (List.mem_of_find?_eq_some found)
    obtain ⟨-, f, -, rfl⟩ := Workflow.answer?_eq_some_iff.mp answered
    rw [Program.onward, found]
    exact (String.append_right_inj _).mp tested

/-! ## What triggers a handler -/

/-- A step's handler is triggered by the constants of the events that the step waits for. -/
theorem mem_triggers_iff {start : Node} (shaped : w.Shaped g start) {n : Step} (hn : n ∈ w.steps) {e : Event}
    (he : e ∈ w.eventNames.map (·.1)) :
    w.eventNames.get e ∈ Workflow.triggers w.eventNames n ↔ e ∈ n.accepted := by
  unfold Workflow.triggers
  split
  · next started =>
    have none : n.accepted = [] := by rw [Step.accepted, (shaped.acceptsNone n hn).mpr started]; rfl
    have foreign := (Workflow.EventNames.get_new w.eventNames_sound he).1
    simp [none, foreign]
  · constructor
    · intro h
      obtain ⟨f, hf, same⟩ := List.mem_map.mp h
      have named : f ∈ w.eventNames.map (·.1) := Workflow.mem_eventNames_iff.mpr ⟨n, hn, List.mem_append_left _ hf⟩
      exact Workflow.EventNames.get_inj w.eventNames_sound named he same ▸ hf
    · exact List.mem_map_of_mem

theorem startEvent_mem_triggers_iff {n : Step} (hn : n ∈ w.steps) :
    Program.startEvent ∈ Workflow.triggers w.eventNames n ↔ n.kind = .start := by
  unfold Workflow.triggers
  split
  · next started => simp [started]
  · next later =>
    simp only [later, iff_false]
    intro h
    obtain ⟨e, he, same⟩ := List.mem_map.mp h
    have named := Workflow.mem_eventNames_iff.mpr ⟨n, hn, List.mem_append_left _ he⟩
    exact (Workflow.EventNames.get_new w.eventNames_sound named).1 same

theorem triggers_ne_nil {start : Node} (shaped : w.Shaped g start) {s : Step} (hs : s ∈ w.steps)
    (names : Workflow.EventNames) : Workflow.triggers names s ≠ [] := by
  unfold Workflow.triggers
  split
  · exact List.cons_ne_nil _ _
  · next later =>
    intro none
    exact accepted_ne_nil shaped hs later (List.map_eq_nil_iff.mp none)

/-- The steps that have a handler are those that end their way or have one way on. -/
theorem isSome_handler? {start : Node} (shaped : w.Shaped g start) {s : Step} (hs : s ∈ w.steps)
    (names : Workflow.EventNames) (models : List ModelInstance) (tools : List IndexTool) :
    (w.handler? names models tools s).isSome = s.hasOneWay := by
  unfold Workflow.handler?
  split
  · next untriggered => exact absurd untriggered (triggers_ne_nil shaped hs names)
  · rw [Option.isSome_map, Bool.eq_iff_iff, Workflow.isSome_action?_iff]
    exact and_iff_right (shaped.noTools s hs)

/-! ## Compiled workflows -/

/-- What the handler of a step returns, and what comes of it. -/
theorem result_of_registers (compiled : g.compile settings configs order = .ok w) {s : Step} (hs : s ∈ w.steps)
    {h : Handler} (registers : w.Registers s h) :
    (s.kind = .stop ∧ h.action.result = Program.stopEvent) ∨
      ∃ e, s.emits = some (.single e) ∧ e ∈ w.eventNames.map (·.1) ∧ s.kind ≠ .stop ∧
        h.action.result = (if s.kind = .userInput then w.eventNames.request e else w.eventNames.get e) ∧
        w.program.onward h.action.result = w.eventNames.get e := by
  obtain ⟨-, -, acts⟩ := Workflow.handler?_eq_some_iff.mp registers
  rcases Workflow.way_of_action? acts with stop | ⟨e, single, goesOn, result⟩
  · exact .inl stop
  · have named := Workflow.named_of_single hs single
    refine .inr ⟨e, single, named, goesOn, result, ?_⟩
    rw [result]
    split
    · next asks => exact onward_request hs asks single
    · exact onward_get compiled named

/-- No handler starts the workflow anew, and those of stops alone return the stop. -/
theorem result_ne (compiled : g.compile settings configs order = .ok w) {s : Step} (hs : s ∈ w.steps) {h : Handler}
    (registers : w.Registers s h) :
    h.action.result ≠ Program.startEvent ∧ (h.action.result = Program.stopEvent ↔ s.kind = .stop) := by
  rcases result_of_registers compiled hs registers with ⟨stop, result⟩ | ⟨e, -, named, goesOn, result, -⟩
  · rw [result]
    exact ⟨by decide, by simp [stop]⟩
  · have foreign : h.action.result ≠ Program.startEvent ∧ h.action.result ≠ Program.stopEvent := by
      rw [result]
      split
      · have := request_foreign compiled e
        simp only [Workflow.EventNames.taken, List.mem_append, List.mem_cons, not_or] at this
        exact ⟨this.1.1, this.1.2.1⟩
      · exact Workflow.EventNames.get_new w.eventNames_sound named
    exact ⟨foreign.1, by simp [goesOn, foreign.2]⟩

/-- The driver answers the requests of those that ask for input, and no other results. -/
theorem answered_iff (compiled : g.compile settings configs order = .ok w) {s : Step} (hs : s ∈ w.steps) {h : Handler}
    (registers : w.Registers s h) : (∃ a ∈ w.program.answers, a.request = h.action.result) ↔ s.kind = .userInput := by
  rcases result_of_registers compiled hs registers with ⟨stop, result⟩ | ⟨e, single, named, -, result, -⟩
  · simp only [stop, reduceCtorEq, iff_false]
    rintro ⟨a, ha, same⟩
    refine request_not_mem_taken compiled ha ?_
    rw [same, result]
    simp [Workflow.EventNames.taken]
  · constructor
    · rintro ⟨a, ha, same⟩
      by_contra other
      rw [if_neg other] at result
      exact request_not_mem_taken compiled ha (by rw [same, result]; exact get_mem_taken named)
    · intro asks
      rw [if_pos asks] at result
      have answered : Workflow.answer? w.eventNames s = some ⟨w.eventNames.request e, w.eventNames.get e⟩ :=
        Workflow.answer?_eq_some_iff.mpr ⟨asks, e, single, rfl⟩
      exact ⟨_, List.mem_filterMap.mpr ⟨s, hs, answered⟩, result.symm⟩

/-- The handlers of every compiled workflow. -/
theorem compile_handlers {g : Graph} {settings : Settings} {configs : ToolConfigs} {order : SearchOrder} {w : Workflow}
    (compiled : g.compile settings configs order = .ok w) : w.HandlersFaithful := by
  obtain ⟨start, shaped⟩ := exists_shaped compiled
  have spelled := w.program_spelled
  have registered : List.Forall₂ w.Registers (w.steps.filter Step.hasOneWay) w.program.handlers :=
    forall₂_filterMap fun s hs => isSome_handler? shaped hs _ _ _
  constructor
  case generated => exact generate_of_compiled compiled
  case spelled => exact spelled
  case registered => exact registered
  case written =>
    obtain ⟨blocks, written, beside⟩ := spelled.handlers
    exact ⟨blocks, written, forall₂_comp registered beside⟩
  case routed =>
    intro p hp goesOn h registers
    rcases result_of_registers compiled hp registers with ⟨stop, -⟩ | ⟨e, single, named, -, -, sent⟩
    · exact absurd stop goesOn
    · refine ⟨e, single, fun n hn k registers' => ?_⟩
      rw [sent, (Workflow.handler?_eq_some_iff.mp registers').1]
      exact mem_triggers_iff shaped hn named
  case answered => exact fun p hp h registers => answered_iff compiled hp registers
  case started =>
    intro n hn k registers
    rw [(Workflow.handler?_eq_some_iff.mp registers).1]
    exact startEvent_mem_triggers_iff hn
  case startedOnce =>
    constructor
    · intro h hh
      obtain ⟨s, hs, registers⟩ := List.mem_filterMap.mp hh
      exact (result_ne compiled hs registers).1
    · intro a ha
      obtain ⟨s, hs, answered⟩ := List.mem_filterMap.mp ha
      obtain ⟨-, e, single, rfl⟩ := Workflow.answer?_eq_some_iff.mp answered
      exact (Workflow.EventNames.get_new w.eventNames_sound (Workflow.named_of_single hs single)).1
  case stopped => exact fun n hn k registers => (result_ne compiled hn registers).2

example : (Workflow.program ⟨Sample.startStop.compiled .empty .breadthFirst 0, {}⟩).handlers =
    [⟨["startEvent"], .forward "event_e1"⟩, ⟨["event_e1"], .forward "stopEvent"⟩] := by decide +kernel

/-- A decision without a handler, between a question and an agent. -/
theorem decision_handlers :
    let w : Workflow := ⟨Sample.decision.compiled .empty .breadthFirst 0, Sample.settings⟩
    Sample.decision.compile Sample.settings .empty .breadthFirst = .ok w ∧ w.HandlersFaithful ∧
      w.program.linesAt 5 =
        [ "workflow.handle([startEvent], async (ctx) => \x7b",
          "    return event_e1.with(ctx.data);",
          "\x7d);",
          "",
          "workflow.handle([event_e1], async () => \x7b",
          "    return need_input_for_event_e2.with(\"How was your day?\");",
          "\x7d);",
          "",
          "workflow.handle([event_e3], async (ctx) => \x7b",
          "    const configuredAgent = agent(\x7b",
          "        llm: gpt41Mini,",
          "        tools: [],",
          "        systemPrompt: \"Celebrate with the user.\",",
          "    \x7d);",
          "    const result = await configuredAgent.run(ctx.data);",
          "    return event_e5.with(result.data.result);",
          "\x7d);",
          "",
          "workflow.handle([event_e4], async (ctx) => \x7b",
          "    return stopEvent.with(ctx.data);",
          "\x7d);",
          "",
          "workflow.handle([event_e5], async (ctx) => \x7b",
          "    return stopEvent.with(ctx.data);",
          "\x7d);" ] ∧
      ∃ front back, w.program.linesAt 6 = front ++
        [ "        \x7d else if (need_input_for_event_e2.include(event)) \x7b",
          "            const input = await readline.question(event.data);",
          "            sendEvent(event_e2.with(input));" ] ++ back := by
  intro w
  have compiled : Sample.decision.compile Sample.settings .empty .breadthFirst = .ok w :=
    compile_of_firstOfKind? (by decide) _ _ _
  have faithful := compile_handlers compiled
  obtain ⟨front, back, driver, -⟩ := faithful.spelled.driver
  refine ⟨compiled, faithful, (Program.linesAt_handlers w.program_identified).trans ?_, front, back, driver.trans ?_⟩
  · decide +kernel
  · exact congrArg (front ++ · ++ back) (by decide +kernel)

end Graph
end EventFlow
