/-
  EventFlow.Proofs.Run.Narration — the published events tell the whole run.

  A run tells that it started, then of one step after the other that it was entered and how that
  ended (`Episode`), and last that it finished or failed. Only the last step may be unfinished: its
  question is open or it failed. Nothing else is published, so whoever hears the events knows the
  trail and the status; with the payload and the answers they also give every recorded value
  (`replay`).

  Proved:
  - `Faithful.begin`, `Faithful.visit`, `Faithful.answer`: what is done and what is told keep in step.
  - `Narrated.visit`, `Narrated.answer`: only the last step may be unfinished.
  - `events_narrate`: so they do over every run, at every point of it, from one restart to the next.
-/

import EventFlow.Proofs.Run.Trace

namespace EventFlow

variable {σ : Type}

/-! ## What is told of a step -/

inductive Ending where
  | passed
  | completed (output : Json)
  | failed
  | asked (prompt : String)
  | answered (prompt answer : String)

structure Episode where
  step : Step
  ending : Ending

namespace Episode

def told (x : Episode) : List RunEvent :=
  .nodeEntered x.step.id x.step.kind ::
    match x.ending with
    | .passed | .failed => []
    | .completed output => [.nodeCompleted x.step.id output]
    | .asked prompt => [.awaitingInput x.step.id prompt]
    | .answered prompt _ => [.awaitingInput x.step.id prompt, .inputReceived x.step.id]

/-- The kinds of steps that have a value of their own once they are carried out. -/
def recording : List NodeKind := [.promptLlm, .promptAgent, .decision, .splitter, .collector]

def Suits (w : Workflow) (x : Episode) : Prop :=
  w.step? x.step.id = some x.step ∧
    match x.ending with
    | .passed => x.step.kind = .start ∨ x.step.kind = .stop
    | .completed _ => x.step.kind ∈ recording
    | .failed => x.step.kind ∈ recording ∨ x.step.kind = .agentTool
    | .asked prompt | .answered prompt _ => ∃ c, x.step.config = .userInput c ∧ prompt = c.promptText

def Over (x : Episode) : Prop :=
  match x.ending with
  | .passed | .completed _ | .answered .. => True
  | .failed | .asked _ => False

end Episode

def Effect.ending : Effect → Ending
  | pass _ => .passed
  | complete value _ => .completed value
  | wait prompt => .asked prompt
  | fail _ => .failed

namespace Interpreter

variable {i : Interpreter σ} {n : Step} {via : Option Event} {outputs : Outputs} {world world' : σ}

theorem kind_of_complete {value : Json} {events : List Event}
    (h : i.effect n via outputs world = (.complete value events, world')) : n.kind ∈ Episode.recording := by
  unfold effect at h
  unfold Step.kind
  cases hc : n.config <;> simp only [hc] at h <;> repeat' split at h
  all_goals first
    | cases h; done
    | simp [Episode.recording, NodeConfig.kind]

theorem kind_of_fail {f : Failure} (h : i.effect n via outputs world = (.fail f, world')) :
    n.kind ∈ Episode.recording ∨ n.kind = .agentTool := by
  unfold effect at h
  unfold Step.kind
  cases hc : n.config <;> simp only [hc] at h <;> repeat' split at h
  all_goals first
    | cases h; done
    | simp [Episode.recording, NodeConfig.kind]

/-- What a visit comes to is how a visit of such a step may end. -/
theorem suits_of_effect {w : Workflow} {e : Effect} (step : w.step? n.id = some n)
    (h : i.effect n via outputs world = (e, world')) : Episode.Suits w ⟨n, e.ending⟩ := by
  refine ⟨step, ?_⟩
  cases e with
  | pass events => exact (pass_cases h).2.imp And.left And.left
  | complete value events => exact kind_of_complete h
  | wait prompt => exact (wait_cases h).2
  | fail f => exact kind_of_fail h

end Interpreter

/-! ## The whole story -/

def opening (st : RunState) : List RunEvent := if st.status = .idle then [] else [.runStarted st.runId]

def closing (st : RunState) : List RunEvent :=
  match st.status with
  | .finished => [.runFinished st.runId]
  | .failed => [.runFailed st.runId (st.error.getD "")]
  | .idle | .running | .awaitingInput => []

/-- All that a run with these episodes tells. -/
def story (episodes : List Episode) (st : RunState) : List RunEvent :=
  opening st ++ episodes.flatMap Episode.told ++ closing st

/-- What an event says about the recorded values: the payload is the value of the start, the next answer
    that of the step which received it, and an output that of the step which completed. -/
def replayed (w : Workflow) (payload : Option Json) (values : Outputs × List String) : RunEvent → Outputs × List String
  | .runStarted _ =>
    match w.startStep?, payload with
    | some start, some value => (if value.isNull then values.1 else values.1.insert start.id value, values.2)
    | _, _ => values
  | .inputReceived node =>
    match values.2 with
    | answer :: answers => (values.1.insert node (.str answer), answers)
    | [] => values
  | .nodeCompleted node output => (values.1.insert node output, values.2)
  | .nodeEntered .. | .awaitingInput .. | .runFinished _ | .runFailed .. => values

/-- The values that events give one after the other, and the answers that they leave over. -/
def replay (w : Workflow) (payload : Option Json) (answers : List String) (events : List RunEvent) :
    Outputs × List String :=
  events.foldl (replayed w payload) (.empty, answers)

def Standing (w : Workflow) (done : List Episode) (last : Option Episode) : RunStatus → Prop
  | .awaitingInput => ∃ n prompt, last = some ⟨n, .asked prompt⟩
  | .failed => (∃ n, last = some ⟨n, .failed⟩) ∨ last = none ∧ done = [] ∧ w.startStep? = none
  | .idle | .running | .finished => last = none

/-- The episodes are those of the trail. What is told of them has been published since the run began,
    and gives the values recorded with no answer left over. -/
structure Faithful (w : Workflow) (trace : Trace) (episodes : List Episode) (s : Session σ) : Prop where
  trail : episodes.map (·.step.id) = s.state.trail
  suits : ∀ x ∈ episodes, x.Suits w
  events : s.events = trace.before ++ story episodes s.state
  outputs : ∀ later, replay w trace.payload (trace.answers ++ later) (story episodes s.state) =
    (s.state.outputs, later)

structure Narrated (w : Workflow) (trace : Trace) (done : List Episode) (last : Option Episode) (s : Session σ) :
    Prop where
  faithful : Faithful w trace (done ++ last.toList) s
  past : ∀ x ∈ done, x.Over
  standing : Standing w done last s.state.status

section

variable {w : Workflow} {payload : Option Json}

theorem replay_append (answers : List String) (es fs : List RunEvent) :
    replay w payload answers (es ++ fs) = fs.foldl (replayed w payload) (replay w payload answers es) :=
  List.foldl_append

/-- The end of a run says nothing about the values. -/
theorem replayed_closing (st : RunState) (values : Outputs × List String) :
    (closing st).foldl (replayed w payload) values = values := by
  unfold closing
  split <;> rfl

theorem replayed_told (n : Step) (e : Effect) (outputs : Outputs) (later : List String) :
    (Episode.told ⟨n, e.ending⟩).foldl (replayed w payload) (outputs, later) = (e.recorded n outputs, later) := by
  cases e <;> rfl

theorem opening_of_started {st : RunState} (started : st.status ≠ .idle) : opening st = [.runStarted st.runId] :=
  if_neg started

theorem closing_of_running {st : RunState} (running : st.status = .running) : closing st = [] := by
  rw [closing, running]

theorem closing_of_waiting {st : RunState} (waiting : st.status = .awaitingInput) : closing st = [] := by
  rw [closing, waiting]

theorem story_concat (episodes : List Episode) (x : Episode) (st : RunState) :
    story (episodes ++ [x]) st = opening st ++ episodes.flatMap Episode.told ++ (x.told ++ closing st) := by
  simp [story]

end

namespace Faithful

variable {i : Interpreter σ} {s : Session σ} {trace : Trace} {episodes : List Episode}

/-- An idle run has told nothing and taken no answer. -/
theorem of_idle {w : Workflow} (h : Faithful w trace episodes s) (lifecycle : Lifecycle w s.state)
    (idle : s.state.status = .idle) : episodes = [] ∧ s.events = trace.before ∧ trace.answers = [] := by
  have trail := h.trail
  rw [lifecycle.idle idle] at trail
  cases List.map_eq_nil_iff.mp trail
  have untold : story [] s.state = [] := by rw [lifecycle.idle idle]; rfl
  have events := h.events
  have outputs := h.outputs []
  rw [untold] at events outputs
  rw [List.append_nil] at outputs
  exact ⟨rfl, events.trans (List.append_nil _), (Prod.mk.inj outputs).2⟩

theorem begin {start : Step} (h : Faithful i.workflow trace [] s) (lifecycle : Lifecycle i.workflow s.state)
    (idle : s.state.status = .idle) (hstart : i.workflow.startStep? = some start) (payload : Json) :
    Faithful i.workflow { trace with payload := some payload } [] (s.begun start payload) := by
  obtain ⟨-, events, answers⟩ := h.of_idle lifecycle idle
  have told : story [] (s.begun start payload).state = [.runStarted s.state.runId] := by
    unfold Session.begun
    split <;> rfl
  constructor
  case trail => rw [Session.begun_trail, lifecycle.idle idle]; rfl
  case suits => exact List.forall_mem_nil _
  case events =>
    rw [told, ← events]
    unfold Session.begun
    split <;> rfl
  case outputs =>
    intro later
    show replay _ _ (trace.answers ++ later) _ = _
    rw [told, answers, Session.begun_outputs, lifecycle.idle idle]
    simp only [replay, List.foldl_cons, List.foldl_nil, replayed, hstart, List.nil_append]

theorem noStart (h : Faithful i.workflow trace [] s) (lifecycle : Lifecycle i.workflow s.state)
    (idle : s.state.status = .idle) (hstart : i.workflow.startStep? = none) (payload : Json) :
    Faithful i.workflow { trace with payload := some payload } [] (s.started.failWith .noStart).2 := by
  obtain ⟨-, events, answers⟩ := h.of_idle lifecycle idle
  constructor
  case trail => exact h.trail
  case suits => exact List.forall_mem_nil _
  case events =>
    show s.events ++ _ ++ _ = _
    rw [events]
    exact List.append_assoc ..
  case outputs =>
    intro later
    show replay _ _ (trace.answers ++ later) [.runStarted s.state.runId, .runFailed s.state.runId _] =
      (s.state.outputs, later)
    rw [answers, lifecycle.idle idle]
    simp only [replay, List.foldl_cons, List.foldl_nil, replayed, hstart, List.nil_append]

theorem finish (h : Faithful i.workflow trace episodes s) (running : s.state.status = .running) :
    Faithful i.workflow trace episodes s.finish.2 := by
  have told : story episodes s.finish.2.state = story episodes s.state ++ [.runFinished s.state.runId] := by
    have started : opening s.state = [.runStarted s.state.runId] := opening_of_started (by rw [running]; decide)
    rw [story, story, closing_of_running running, started, List.append_nil]
    rfl
  constructor
  case trail => exact h.trail
  case suits => exact h.suits
  case events =>
    rw [told, ← List.append_assoc, ← h.events]
    rfl
  case outputs =>
    intro later
    rw [told, replay_append, h.outputs]
    rfl

/-- A visit publishes what is told of its episode, and the end of the run if the step fails. -/
theorem session_events (running : s.state.status = .running) (rest : List Visit) (n : Step) (world : σ) (e : Effect) :
    (i.turn n (s.entered rest n world) e).session.events =
      s.events ++ (Episode.told ⟨n, e.ending⟩ ++ closing (i.turn n (s.entered rest n world) e).session.state) := by
  cases e with
  | pass events =>
    have untold : closing (i.turn n (s.entered rest n world) (.pass events)).session.state = [] := closing_of_running running
    rw [untold]
    rfl
  | complete value events =>
    have untold : closing (i.turn n (s.entered rest n world) (.complete value events)).session.state = [] :=
      closing_of_running running
    rw [untold]
    exact List.append_assoc ..
  | wait prompt => exact List.append_assoc ..
  | fail f => exact List.append_assoc ..

theorem session_opening (running : s.state.status = .running) (rest : List Visit) (n : Step) (world : σ) (e : Effect) :
    opening (i.turn n (s.entered rest n world) e).session.state = opening s.state := by
  have started : opening s.state = [.runStarted s.state.runId] := opening_of_started (by rw [running]; decide)
  cases e with
  | pass events => rfl
  | complete value events => rfl
  | wait prompt => rw [started]; rfl
  | fail f => rw [started]; rfl

/-- A visit is an episode more. -/
theorem visit {v : Visit} {rest : List Visit} {n : Step} {e : Effect} {world : σ}
    (h : Faithful i.workflow trace episodes s) (running : s.state.status = .running)
    (visits : i.Visits s v rest n e world) :
    Faithful i.workflow (trace.add (.visit v n (i.verdict? n v.via s.state.outputs s.world) e))
      (episodes ++ [⟨n, e.ending⟩]) (i.turn n (s.entered rest n world) e).session := by
  have told : story episodes s.state =
      opening (i.turn n (s.entered rest n world) e).session.state ++ episodes.flatMap Episode.told := by
    rw [story, closing_of_running running, List.append_nil, session_opening running]
  constructor
  case trail =>
    rw [List.map_append, h.trail, i.session_trail]
    rfl
  case suits =>
    intro x hx
    rcases List.mem_append.mp hx with hx | hx
    · exact h.suits x hx
    · cases List.mem_singleton.mp hx
      exact Interpreter.suits_of_effect ((Workflow.mem_of_step? visits.step).2 ▸ visits.step) visits.effect
  case events =>
    have events := h.events
    rw [told] at events
    rw [story_concat, session_events running, events, List.append_assoc]
    rfl
  case outputs =>
    intro later
    have outputs := h.outputs later
    rw [told] at outputs
    rw [Trace.answers_add_visit, story_concat, replay_append, i.session_outputs]
    show (_ : List RunEvent).foldl _ (replay _ trace.payload _ _) = _
    rw [outputs, List.foldl_append, replayed_told, replayed_closing]
    rfl

/-- An answer completes the last episode. -/
theorem answer {n : Step} {prompt : String} (h : Faithful i.workflow trace (episodes ++ [⟨n, .asked prompt⟩]) s)
    (waiting : s.state.status = .awaitingInput) (text : String) :
    Faithful i.workflow (trace.add (.answer n text)) (episodes ++ [⟨n, .answered prompt text⟩])
      ((s.answered n.id text).follow i.workflow n.emitted) := by
  have told : story (episodes ++ [⟨n, .answered prompt text⟩]) ((s.answered n.id text).follow i.workflow n.emitted).state =
      story (episodes ++ [⟨n, .asked prompt⟩]) s.state ++ [.inputReceived n.id] := by
    have started : opening s.state = [.runStarted s.state.runId] := opening_of_started (by rw [waiting]; decide)
    rw [story_concat, story_concat, closing_of_waiting waiting, started]
    exact (List.append_assoc _ (Episode.told ⟨n, .asked prompt⟩) [.inputReceived n.id]).symm
  constructor
  case trail =>
    have trail := h.trail
    rw [List.map_append] at trail ⊢
    exact trail
  case suits =>
    intro x hx
    rcases List.mem_append.mp hx with hx | hx
    · exact h.suits x (List.mem_append_left _ hx)
    · cases List.mem_singleton.mp hx
      exact h.suits ⟨n, .asked prompt⟩ (List.mem_append_right _ List.mem_cons_self)
  case events =>
    rw [told, ← List.append_assoc]
    exact congrArg (· ++ _) h.events
  case outputs =>
    intro later
    have answers : (trace.add (.answer n text)).answers ++ later = trace.answers ++ text :: later := by
      rw [Trace.answers_add]
      exact List.append_assoc ..
    rw [told, answers, replay_append]
    show (_ : List RunEvent).foldl _ (replay _ trace.payload _ _) = _
    rw [h.outputs]
    rfl

end Faithful

namespace Narrated

variable {i : Interpreter σ} {s : Session σ} {trace : Trace} {done : List Episode} {last : Option Episode}

theorem new (w : Workflow) (runId : String) (world : σ) (events : List RunEvent) :
    Narrated w { before := events } [] none { state := { runId }, world, events } where
  faithful := ⟨rfl, List.forall_mem_nil _, (List.append_nil events).symm, fun _ => rfl⟩
  past := List.forall_mem_nil _
  standing := rfl

/-- A run that goes on from all its episodes. -/
theorem of_done {w : Workflow} (faithful : Faithful w trace done s) (past : ∀ x ∈ done, x.Over)
    (standing : Standing w done none s.state.status) : Narrated w trace done none s :=
  ⟨by rwa [Option.toList_none, List.append_nil], past, standing⟩

theorem faithful_of_running (h : Narrated i.workflow trace done last s) (running : s.state.status = .running) :
    Faithful i.workflow trace done s := by
  have standing := h.standing
  rw [running] at standing
  cases (standing : last = none)
  have faithful := h.faithful
  rwa [Option.toList_none, List.append_nil] at faithful

/-- The run goes on from the step that it visits, or stops there. -/
theorem visit {v : Visit} {rest : List Visit} {n : Step} {e : Effect} {world : σ}
    (h : Narrated i.workflow trace done last s) (running : s.state.status = .running)
    (visits : i.Visits s v rest n e world) :
    ∃ done' last', Narrated i.workflow (trace.add (.visit v n (i.verdict? n v.via s.state.outputs s.world) e))
      done' last' (i.turn n (s.entered rest n world) e).session := by
  have faithful := (h.faithful_of_running running).visit running visits
  have past : Episode.Over ⟨n, e.ending⟩ → ∀ x ∈ done ++ [⟨n, e.ending⟩], x.Over := by
    intro new x hx
    rcases List.mem_append.mp hx with hx | hx
    · exact h.past x hx
    · exact List.mem_singleton.mp hx ▸ new
  cases e with
  | pass events =>
    refine ⟨_, none, of_done faithful (past trivial) ?_⟩
    show Standing _ _ _ s.state.status
    rw [running]
    rfl
  | complete value events =>
    refine ⟨_, none, of_done faithful (past trivial) ?_⟩
    show Standing _ _ _ s.state.status
    rw [running]
    rfl
  | wait prompt => exact ⟨done, some ⟨n, .asked prompt⟩, faithful, h.past, n, prompt, rfl⟩
  | fail f => exact ⟨done, some ⟨n, .failed⟩, faithful, h.past, Or.inl ⟨n, rfl⟩⟩

/-- The step that an answer is for is the one whose question is open. -/
theorem answer {n : Step} {id : String} (h : Narrated i.workflow trace done last s)
    (lifecycle : Lifecycle i.workflow s.state) (waiting : s.state.status = .awaitingInput)
    (current : s.state.current = some id) (step : i.workflow.step? id = some n) (text : String) :
    ∃ done', Narrated i.workflow (trace.add (.answer n text)) done' none
      ((s.answered id text).follow i.workflow n.emitted) := by
  have standing := h.standing
  rw [waiting] at standing
  obtain ⟨m, prompt, rfl⟩ := standing
  have faithful : Faithful i.workflow trace (done ++ [⟨m, .asked prompt⟩]) s := h.faithful
  obtain ⟨k, hk, -, hcurrent, htrail⟩ := lifecycle.waiting waiting
  cases Option.some.inj (current.symm.trans hcurrent)
  cases Option.some.inj (step.symm.trans hk)
  have same : m.id = n.id := by
    rw [← faithful.trail, List.map_append] at htrail
    exact Option.some.inj (List.getLast?_concat.symm.trans htrail)
  obtain rfl : m = n := by
    have known := (faithful.suits ⟨m, .asked prompt⟩ (List.mem_append_right _ List.mem_cons_self)).1
    rw [same, hk] at known
    exact (Option.some.inj known).symm
  refine ⟨done ++ [⟨m, .answered prompt text⟩], of_done (faithful.answer waiting text) (fun x hx => ?_) rfl⟩
  rcases List.mem_append.mp hx with hx | hx
  · exact h.past x hx
  · cases List.mem_singleton.mp hx
    trivial

end Narrated

namespace Interpreter

variable {i : Interpreter σ} {s : Session σ} {p : Option Json} {trace : Trace}

theorem Traced.narrated (h : i.Traced trace s) : ∃ done last, Narrated i.workflow trace done last s := by
  induction h with
  | new runId world events => exact ⟨_, _, .new i.workflow runId world events⟩
  | noStart payload traced idle hstart ih =>
    obtain ⟨done, last, h⟩ := ih
    have lifecycle := traced.passed.lifecycle
    obtain ⟨untold, -⟩ := h.faithful.of_idle lifecycle idle
    exact ⟨[], none, .of_done ((untold ▸ h.faithful).noStart lifecycle idle hstart payload) (List.forall_mem_nil _)
      (Or.inr ⟨rfl, rfl, hstart⟩)⟩
  | @begin trace s start payload traced idle hstart ih =>
    obtain ⟨done, last, h⟩ := ih
    have lifecycle := traced.passed.lifecycle
    obtain ⟨untold, -⟩ := h.faithful.of_idle lifecycle idle
    exact ⟨[], none, .of_done ((untold ▸ h.faithful).begin lifecycle idle hstart payload) (List.forall_mem_nil _)
      (by rw [Session.begun_status]; rfl)⟩
  | visit _ running visits ih =>
    obtain ⟨done, last, h⟩ := ih
    exact h.visit running visits
  | finish _ running _ ih =>
    obtain ⟨done, last, h⟩ := ih
    exact ⟨done, none, .of_done ((h.faithful_of_running running).finish running) h.past rfl⟩
  | answer text traced waiting current step ih =>
    obtain ⟨done, last, h⟩ := ih
    obtain ⟨done', h⟩ := h.answer traced.passed.lifecycle waiting current step text
    exact ⟨done', none, h⟩

/-- Over every run, from one restart to the next and at every point of it, the published events are the
    story of its episodes, which are the trail, and replaying them gives the recorded values. -/
theorem events_narrate (h : i.Passed p s) :
    (∃ trace, i.Traced trace s ∧ trace.payload = p) ∧ ∀ trace, i.Traced trace s →
      ∃ done last, Narrated i.workflow trace done last s :=
  ⟨h.exists_traced, fun _ traced => traced.narrated⟩

/-- Asks for a name, which one agent greets and another one thanks. -/
def greeting : Workflow where
  steps := [
    ⟨"start", .start none, none, some (.single ⟨"in"⟩)⟩,
    ⟨"name", .userInput { prompt := some "Name?" }, some (.single ⟨"in"⟩), some (.single ⟨"named"⟩)⟩,
    ⟨"greet", .promptAgent {}, some (.single ⟨"named"⟩), some (.single ⟨"greeted"⟩)⟩,
    ⟨"thank", .promptAgent {}, some (.single ⟨"greeted"⟩), none⟩]

/-- What is told of it if the agents can be asked only once. -/
theorem greeting_narrates :
    let once : AgentService Nat := fun _ asked => (if asked = 0 then .ok "Hello" else .error .noStart, asked + 1)
    let i : Interpreter Nat := ⟨greeting, ⟨fun _ asked => (.ok "", asked), once⟩, defaultMaxTokens⟩
    ∃ s t trace, i.run 9 (.str "go") ⟨{ runId := "first" }, 0, []⟩ = some (.ok (.awaitingInput "name" "Name?"), s) ∧
      i.submit 9 "Ada" s = some (.ok (.failed "No start node found"), t) ∧
      i.Passed (some (.str "go")) t ∧ i.Traced trace t ∧ trace.answers = ["Ada"] ∧
      t.events = [.runStarted "first", .nodeEntered "start" .start, .nodeEntered "name" .userInput,
        .awaitingInput "name" "Name?", .inputReceived "name", .nodeEntered "greet" .promptAgent,
        .nodeCompleted "greet" (.str "Hello"), .nodeEntered "thank" .promptAgent,
        .runFailed "first" "No start node found"] ∧
      ∃ done last, Narrated greeting trace done last t := by
  intro once i
  have asked := (Traced.new "first" 0 []).begin (i := i) (.str "go") rfl rfl
    |>.visit rfl ⟨rfl, rfl, rfl⟩ |>.visit rfl ⟨rfl, rfl, rfl⟩
  have failed := asked.answer "Ada" rfl rfl rfl |>.visit rfl ⟨rfl, rfl, rfl⟩ |>.visit rfl ⟨rfl, rfl, rfl⟩
  obtain ⟨-, narrated⟩ := events_narrate failed.passed
  exact ⟨_, _, _, rfl, rfl, failed.passed, failed, rfl, rfl, narrated _ failed⟩

end Interpreter
end EventFlow
