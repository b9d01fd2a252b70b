/-
  EventFlow.Proofs.Run.Simulation — the stack of visits carries out the recursion.

  A session that is under way tracks an evaluation (`Tracks`) if it has recorded the same values,
  visited the same steps, come to the same world, asked the same prompts and has the same answers
  left. What stands at the front of the stack is executed before the rest is looked at, whatever
  the rest is (`Carries`): the visits of one step's events stand for the loop over its events and
  their consumers, since visits one after the other stand for actions one after the other
  (`Carries.append`, `Carries.foldlM`).

  Proved:
  - `carryOut_ok` / `carryOut_error`: one visit does what carrying out its step does.
  - `carries_execute`: a visit and all that follows from it do what executing its step does. The
    induction is on the answers left and, with the same answers, on the steps that can follow
    without one that waits (`wellFounded_feedsOn`).
  - `drive_evaluation`: driving a run to its end comes to what the evaluation comes to.
-/

import EventFlow.Proofs.Run.Evaluation
import EventFlow.Proofs.Run.Moves
import EventFlow.Proofs.Workflow.Circles

namespace EventFlow.Interpreter

variable {σ : Type} {i : Interpreter σ} {s s' : Session σ} {x x' : Script String String}

/-! ## Driving to the end -/

abbrev Driving (σ : Type) := Result Outcome × Session σ × Script String String

variable {r : Driving σ}

def noAnswer : Failure := .invalidConfig "ScriptedInput: no answer left"

/-- Goes on with a session that is under way, answering every question. At most `visits` visits
    are made before the first question, `fuel` after each, and `rounds` questions are answered. -/
def goOn (i : Interpreter σ) (visits fuel rounds : Nat) (s : Session σ) (x : Script String String) :
    Option (Driving σ) :=
  (i.advance visits s).bind fun (o, s) => i.answerAll Script.input fuel rounds o s x

/-- Driving a session ends in this way, with any limits that are high enough. -/
def EndsIn (i : Interpreter σ) (s : Session σ) (x : Script String String) (r : Driving σ) : Prop :=
  ∃ bound, ∀ visits fuel rounds, bound ≤ visits → bound ≤ fuel → bound ≤ rounds →
    i.goOn visits fuel rounds s x = some r

def Leads (i : Interpreter σ) (s : Session σ) (x : Script String String) (s' : Session σ) (x' : Script String String) :
    Prop := ∀ r, i.EndsIn s' x' r → i.EndsIn s x r

theorem Leads.trans {s'' : Session σ} {x'' : Script String String} (h : i.Leads s x s' x')
    (h' : i.Leads s' x' s'' x'') : i.Leads s x s'' x'' := fun r hr => h r (h' r hr)

theorem answerAll_of_stopped {o : Outcome} (stopped : o.status ≠ .awaitingInput) (fuel rounds : Nat) (s : Session σ)
    (x : Script String String) : i.answerAll Script.input fuel (rounds + 1) o s x = some (.ok o, s, x) := by
  cases o with
  | awaitingInput node prompt => exact absurd rfl stopped
  | finished => rfl
  | failed error => rfl

/-- A run that stops for good is at its end. -/
theorem endsIn_of_stopped {o : Outcome} (stopped : o.status ≠ .awaitingInput)
    (h : ∀ fuel, i.advance (fuel + 1) s = some (o, s')) (x : Script String String) : i.EndsIn s x (.ok o, s', x) := by
  refine ⟨1, fun visits fuel rounds hv _ hr => ?_⟩
  obtain ⟨visits, rfl⟩ := Nat.exists_eq_add_of_le' hv
  obtain ⟨rounds, rfl⟩ := Nat.exists_eq_add_of_le' hr
  rw [goOn, h, Option.bind_some]
  exact answerAll_of_stopped stopped fuel rounds s' x

section

variable {v : Visit} {rest : List Visit} {n : Step} {e : Effect} {world : σ}

theorem leads_of_proceed (h : i.Visits s v rest n e world) (turn : i.turn n (s.entered rest n world) e = .proceed s')
    (x : Script String String) : i.Leads s x s' x := by
  rintro r ⟨bound, ends⟩
  refine ⟨bound + 1, fun visits fuel rounds hv hf hr => ?_⟩
  obtain ⟨visits, rfl⟩ := Nat.exists_eq_add_of_le' (Nat.le_trans (Nat.le_add_left 1 bound) hv)
  rw [goOn, advance_proceed h turn]
  exact ends visits fuel rounds (by omega) (by omega) (by omega)

theorem endsIn_of_finish (next : s.state.frontier = []) (x : Script String String) :
    i.EndsIn s x (.ok .finished, s.finish.2, x) :=
  endsIn_of_stopped (by simp [Outcome.status]) (advance_nil next) x

theorem endsIn_of_fail {f : Failure} (h : i.Visits s v rest n (.fail f) world) (x : Script String String) :
    i.EndsIn s x (.ok (.failed f.message), ((s.entered rest n world).failWith f).2, x) :=
  endsIn_of_stopped (by simp [Outcome.status]) (advance_fail h) x

/-- An answer is recorded, and the run goes on with the next question still to come. -/
theorem answerAll_of_answer {prompt node : String} (waiting : s.state.status = .awaitingInput)
    (current : s.state.current = some n.id) (step : i.workflow.step? n.id = some n) (fuel rounds : Nat)
    (answer : String) (replies : List (Result String)) (requests : List String) :
    i.answerAll Script.input fuel (rounds + 1) (.awaitingInput node prompt) s ⟨.ok answer :: replies, requests⟩ =
      i.goOn fuel fuel rounds ((s.answered n.id answer).follow i.workflow n.emitted)
        ⟨replies, requests ++ [prompt]⟩ := by
  have submit := submit_of_step waiting current step fuel answer
  simp only [answerAll, Script.input, Script.answer, submit, goOn]
  cases i.advance fuel ((s.answered n.id answer).follow i.workflow n.emitted) <;> rfl

/-- A step that waits takes the next answer, and its own consumers are visited next. -/
theorem leads_of_answer {prompt : String} (h : i.Visits s v rest n (.wait prompt) world) (answer : String)
    (replies : List (Result String)) (requests : List String) :
    i.Leads s ⟨.ok answer :: replies, requests⟩
      ((((s.entered rest n world).pauseAt n.id prompt).2.answered n.id answer).follow i.workflow n.emitted)
      ⟨replies, requests ++ [prompt]⟩ := by
  have step : i.workflow.step? n.id = some n := (Workflow.mem_of_step? h.step).2 ▸ h.step
  rintro r ⟨bound, ends⟩
  refine ⟨bound + 1, fun visits fuel rounds hv hf hr => ?_⟩
  obtain ⟨visits, rfl⟩ := Nat.exists_eq_add_of_le' (Nat.le_trans (Nat.le_add_left 1 bound) hv)
  obtain ⟨rounds, rfl⟩ := Nat.exists_eq_add_of_le' (Nat.le_trans (Nat.le_add_left 1 bound) hr)
  rw [goOn, advance_wait h, Option.bind_some]
  exact (answerAll_of_answer rfl rfl step fuel rounds answer replies requests).trans
    (ends fuel fuel rounds (by omega) (by omega) (by omega))

/-- A step that waits ends the driving when no answer is left. -/
theorem endsIn_of_wait {prompt : String} (h : i.Visits s v rest n (.wait prompt) world) (requests : List String) :
    i.EndsIn s ⟨[], requests⟩
      (.error noAnswer, ((s.entered rest n world).pauseAt n.id prompt).2, ⟨[], requests ++ [prompt]⟩) := by
  refine ⟨1, fun visits fuel rounds hv _ hr => ?_⟩
  obtain ⟨visits, rfl⟩ := Nat.exists_eq_add_of_le' hv
  obtain ⟨rounds, rfl⟩ := Nat.exists_eq_add_of_le' hr
  rw [goOn, advance_wait h, Option.bind_some]
  rfl

end

/-! ## One step -/

structure Tracks (s : Session σ) (x : Script String String) (e : Evaluation σ) : Prop where
  status : s.state.status = .running
  error : s.state.error = none
  outputs : s.state.outputs = e.outputs
  trail : s.state.trail = e.trail
  world : s.world = e.world
  script : x = ⟨e.answers.map .ok, e.prompts⟩

structure Matches (r : Driving σ) (o : Outcome) (e : Evaluation σ) : Prop where
  status : r.2.1.state.status = o.status
  error : r.2.1.state.error = o.error?
  outputs : r.2.1.state.outputs = e.outputs
  trail : r.2.1.state.trail = e.trail
  world : r.2.1.world = e.world
  script : r.2.2 = ⟨e.answers.map .ok, e.prompts⟩

section

variable {e e' : Evaluation σ} {n : Step} {via : Option Event} {rest : List Visit} {events : List Event}
  (tracks : Tracks s x e) (next : s.state.frontier = ⟨n.id, via⟩ :: rest) (step : i.workflow.step? n.id = some n)

include tracks next step

theorem Tracks.visits {effect : Effect} {world : σ} (h : i.effect n via e.outputs e.world = (effect, world)) :
    i.Visits s ⟨n.id, via⟩ rest n effect world :=
  ⟨next, step, by rw [tracks.outputs, tracks.world]; exact h⟩

/-- A visit sets off the events that carrying out its step sets off, before the other visits. -/
theorem carryOut_ok (h : e.carryOut i n via = .ok (events, e')) :
    ∃ s' x', Tracks s' x' e' ∧ s'.state.frontier = Session.visits i.workflow events ++ rest ∧ i.Leads s x s' x' := by
  obtain ⟨effect, world, heffect⟩ : ∃ effect world, i.effect n via e.outputs e.world = (effect, world) := ⟨_, _, rfl⟩
  have visits := tracks.visits next step heffect
  obtain ⟨status, error, outputs, trail, -, rfl⟩ := tracks
  simp only [Evaluation.carryOut, heffect] at h
  cases effect with
  | pass events =>
    cases Except.ok.inj h
    refine ⟨_, _, ?_, ?_, leads_of_proceed visits rfl _⟩
    · exact ⟨status, error, outputs, congrArg (· ++ [n.id]) trail, rfl, rfl⟩
    · rfl
  | complete value events =>
    cases Except.ok.inj h
    refine ⟨_, _, ?_, ?_, leads_of_proceed visits rfl _⟩
    · exact ⟨status, error, congrArg (·.insert n.id value) outputs, congrArg (· ++ [n.id]) trail, rfl, rfl⟩
    · rfl
  | fail f => cases h
  | wait prompt =>
    obtain ⟨outputs', trail', world', answers, prompts⟩ := e
    cases answers with
    | nil => cases h
    | cons answer answers =>
      cases Except.ok.inj h
      refine ⟨_, _, ?_, ?_, leads_of_answer visits answer (answers.map .ok) prompts⟩
      · exact ⟨rfl, error, congrArg (·.insert n.id (.str answer)) outputs, congrArg (· ++ [n.id]) trail, rfl, rfl⟩
      · rfl

/-- A visit ends the run if carrying out its step ends the evaluation. -/
theorem carryOut_error {o : Outcome} (h : e.carryOut i n via = .error (o, e')) :
    ∃ r, i.EndsIn s x r ∧ Matches r o e' := by
  obtain ⟨effect, world, heffect⟩ : ∃ effect world, i.effect n via e.outputs e.world = (effect, world) := ⟨_, _, rfl⟩
  have visits := tracks.visits next step heffect
  obtain ⟨status, error, outputs, trail, -, rfl⟩ := tracks
  simp only [Evaluation.carryOut, heffect] at h
  cases effect with
  | pass events => cases h
  | complete value events => cases h
  | fail f =>
    cases Except.error.inj h
    exact ⟨_, endsIn_of_fail visits _, rfl, rfl, outputs, congrArg (· ++ [n.id]) trail, rfl, rfl⟩
  | wait prompt =>
    obtain ⟨outputs', trail', world', answers, prompts⟩ := e
    cases answers with
    | nil =>
      cases Except.error.inj h
      exact ⟨_, endsIn_of_wait visits prompts, rfl, error, outputs, congrArg (· ++ [n.id]) trail, rfl, rfl⟩
    | cons answer answers => cases h

end

/-- Carrying out a step sets off events of its own; it takes an answer or is no step that waits. -/
theorem carryOut_progress {e e' : Evaluation σ} {n : Step} {via : Option Event} {events : List Event}
    (h : e.carryOut i n via = .ok (events, e')) :
    (∀ v ∈ events, v ∈ n.emitted) ∧
      (e'.answers.length < e.answers.length ∨ e'.answers = e.answers ∧ n.kind ≠ .userInput) := by
  obtain ⟨effect, world, heffect⟩ : ∃ effect world, i.effect n via e.outputs e.world = (effect, world) := ⟨_, _, rfl⟩
  have waits : n.kind = .userInput → ∃ prompt, effect = .wait prompt := by
    intro hkind
    obtain ⟨prompt, hprompt⟩ : ∃ prompt, i.effect n via e.outputs e.world = (.wait prompt, e.world) :=
      effect_userInput hkind
    exact ⟨prompt, (Prod.mk.inj (heffect.symm.trans hprompt)).1⟩
  simp only [Evaluation.carryOut, heffect] at h
  cases effect with
  | pass events =>
    cases Except.ok.inj h
    refine ⟨fun v hv => ?_, Or.inr ⟨rfl, fun hkind => by obtain ⟨prompt, ⟨⟩⟩ := waits hkind⟩⟩
    obtain ⟨-, ⟨-, rfl⟩ | ⟨-, rfl⟩⟩ := pass_cases heffect
    · exact hv
    · cases hv
  | complete value events =>
    cases Except.ok.inj h
    exact ⟨mem_emitted_of_complete heffect, Or.inr ⟨rfl, fun hkind => by obtain ⟨prompt, ⟨⟩⟩ := waits hkind⟩⟩
  | fail f => cases h
  | wait prompt =>
    obtain ⟨outputs, trail, world', answers, prompts⟩ := e
    cases answers with
    | nil => cases h
    | cons answer answers =>
      cases Except.ok.inj h
      exact ⟨fun v hv => hv, Or.inl (Nat.lt_succ_self _)⟩

/-! ## Visits one after the other -/

def ComesTo {α : Type} (act : Nat → Evaluates σ α) (result : Evaluates σ α) : Prop :=
  ∃ bound, ∀ depth, bound ≤ depth → act depth = result

namespace ComesTo

variable {α β : Type} {act : Nat → Evaluates σ α} {next : Nat → α → Evaluates σ β}

theorem of_eq {result : Evaluates σ α} (h : ∀ depth, act depth = result) : ComesTo act result := ⟨0, fun depth _ => h depth⟩

theorem of_succ {result : Evaluates σ α} (h : ComesTo (fun depth => act (depth + 1)) result) : ComesTo act result := by
  obtain ⟨bound, h⟩ := h
  refine ⟨bound + 1, fun depth hd => ?_⟩
  obtain ⟨depth, rfl⟩ := Nat.exists_eq_add_of_le' (Nat.le_trans (Nat.le_add_left 1 bound) hd)
  exact h depth (by omega)

theorem bind {a : α} {result : Evaluates σ β} (h : ComesTo act (pure a)) (h' : ComesTo (next · a) result) :
    ComesTo (fun depth => act depth >>= next depth) result := by
  obtain ⟨bound, h⟩ := h
  obtain ⟨bound', h'⟩ := h'
  refine ⟨max bound bound', fun depth hd => ?_⟩
  show act depth >>= next depth = result
  rw [h depth (by omega), pure_bind]
  exact h' depth (by omega)

theorem bind_throw {ended : Outcome × Evaluation σ} (h : ComesTo act (throw ended)) :
    ComesTo (fun depth => act depth >>= next depth) (throw ended) := by
  obtain ⟨bound, h⟩ := h
  refine ⟨bound, fun depth hd => ?_⟩
  show act depth >>= next depth = throw ended
  rw [h depth hd]
  rfl

end ComesTo

/-- Visits at the front of the stack do what an action does, for evaluations that have no more than
    so many answers left, whatever comes after them. -/
def Carries (i : Interpreter σ) (limit : Nat) (vs : List Visit)
    (act : Nat → Evaluation σ → Evaluates σ (Evaluation σ)) : Prop :=
  ∀ e s x rest, e.answers.length ≤ limit → Tracks s x e → s.state.frontier = vs ++ rest →
    (∃ e' s' x', ComesTo (act · e) (pure e') ∧ e'.answers.length ≤ limit ∧ Tracks s' x' e' ∧
      s'.state.frontier = rest ∧ i.Leads s x s' x') ∨
    ∃ o e' r, ComesTo (act · e) (throw (o, e')) ∧ i.EndsIn s x r ∧ Matches r o e'

variable {limit : Nat} {vs ws : List Visit} {act next : Nat → Evaluation σ → Evaluates σ (Evaluation σ)}

theorem Carries.nil (i : Interpreter σ) (limit : Nat) : i.Carries limit [] fun _ => pure :=
  fun e s x _ hl tracks hs => Or.inl ⟨e, s, x, .of_eq fun _ => rfl, hl, tracks, hs, fun _ h => h⟩

theorem Carries.append (h : i.Carries limit vs act) (h' : i.Carries limit ws next) :
    i.Carries limit (vs ++ ws) fun depth e => act depth e >>= next depth := by
  intro e s x rest hl tracks hs
  rw [List.append_assoc] at hs
  rcases h e s x (ws ++ rest) hl tracks hs with ⟨e', s', x', ok, hl', tracks', hs', leads⟩ | ⟨o, e', r, error, ends⟩
  · rcases h' e' s' x' rest hl' tracks' hs' with
      ⟨e'', s'', x'', ok', hl'', tracks'', hs'', leads'⟩ | ⟨o, e'', r, error, ends, matched⟩
    · exact Or.inl ⟨e'', s'', x'', ok.bind ok', hl'', tracks'', hs'', leads.trans leads'⟩
    · exact Or.inr ⟨o, e'', r, ok.bind error, leads r ends, matched⟩
  · exact Or.inr ⟨o, e', r, error.bind_throw, ends⟩

/-- A loop does what the visits of its rounds do one after the other. -/
theorem Carries.foldlM {α : Type} {visits : α → List Visit}
    {act : Nat → Evaluation σ → α → Evaluates σ (Evaluation σ)} {items : List α}
    (h : ∀ a ∈ items, i.Carries limit (visits a) fun depth e => act depth e a) :
    i.Carries limit (items.flatMap visits) fun depth e => items.foldlM (act depth) e := by
  induction items with
  | nil => exact Carries.nil i limit
  | cons a items ih =>
    simp only [List.flatMap_cons, List.foldlM_cons]
    exact (h a List.mem_cons_self).append (ih fun b hb => h b (List.mem_cons_of_mem a hb))

/-- The visits that events set off stand for the loop over the events and their consumers. -/
theorem carries_visits {events : List Event}
    (h : ∀ v ∈ events, ∀ c ∈ i.workflow.consumersOf v,
      i.Carries limit [⟨c.id, some v⟩] fun depth e => e.execute i depth c (some v)) :
    i.Carries limit (Session.visits i.workflow events) fun depth e =>
      events.foldlM (fun e v =>
        (i.workflow.consumersOf v).foldlM (fun e c => e.execute i depth c (some v)) e) e := by
  refine Carries.foldlM fun v hv => ?_
  rw [List.map_eq_flatMap]
  exact Carries.foldlM fun c hc => h v hv c hc

/-! ## Steps and all that follows from them -/

/-- A visit and all that follows from it do what executing its step does. -/
theorem carries_execute (distinct : (i.workflow.steps.map (·.id)).Nodup) (circles : i.workflow.CirclesWait)
    (limit : Nat) (n : Step) (hn : n ∈ i.workflow.steps) (via : Option Event) :
    i.Carries limit [⟨n.id, via⟩] fun depth e => e.execute i depth n via := by
  induction limit using Nat.strong_induction_on generalizing n via with
  | h limit fewer =>
  generalize hp : (⟨n, hn⟩ : { s : Step // s ∈ i.workflow.steps }) = p
  induction p using (Workflow.wellFounded_feedsOn circles).induction generalizing n via with
  | h p follows =>
  subst hp
  intro e s x rest hl tracks hs
  have step := Workflow.step?_eq_of_mem distinct hn
  cases hcarry : e.carryOut i n via with
  | error ended =>
    obtain ⟨o, e'⟩ := ended
    obtain ⟨r, ends, matched⟩ := carryOut_error tracks hs step hcarry
    have execute : ∀ depth, e.execute i (depth + 1) n via = throw (o, e') := by
      intro depth
      rw [Evaluation.execute, hcarry]
    exact Or.inr ⟨o, e', r, .of_succ (.of_eq execute), ends, matched⟩
  | ok result =>
    obtain ⟨events, e'⟩ := result
    obtain ⟨s', x', tracks', hs', leads⟩ := carryOut_ok tracks hs step hcarry
    obtain ⟨emitted, progress⟩ := carryOut_progress hcarry
    have execute : ∀ {result}, ComesTo (fun depth => events.foldlM (fun e v =>
        (i.workflow.consumersOf v).foldlM (fun e c => e.execute i depth c (some v)) e) e') result →
        ComesTo (fun depth => e.execute i depth n via) result := by
      intro result h
      refine .of_succ ?_
      simp only [Evaluation.execute, hcarry]
      exact h
    -- The consumers have fewer answers left, or the step does not wait and they come after it.
    have carries : ∃ limit' ≤ limit, e'.answers.length ≤ limit' ∧ ∀ v ∈ events, ∀ c ∈ i.workflow.consumersOf v,
        i.Carries limit' [⟨c.id, some v⟩] fun depth e => e.execute i depth c (some v) := by
      rcases progress with less | ⟨same, hkind⟩
      · refine ⟨e'.answers.length, by omega, Nat.le_refl _, fun v _ c hc => ?_⟩
        exact fewer _ (by omega) c (Workflow.mem_consumersOf_iff.mp hc).1 (some v)
      · refine ⟨limit, Nat.le_refl _, same ▸ hl, fun v hv c hc => ?_⟩
        obtain ⟨hcs, hin⟩ := Workflow.mem_consumersOf_iff.mp hc
        exact follows ⟨c, hcs⟩ ⟨Step.feeds_iff.mpr ⟨v, hin, emitted v hv⟩, hkind⟩ c hcs (some v) rfl
    obtain ⟨limit', hlimit, hl', carries⟩ := carries
    rcases carries_visits carries e' s' x' rest hl' tracks' hs' with
      ⟨e'', s'', x'', ok, hl'', tracks'', hs'', leads'⟩ | ⟨o, e'', r, error, ends, matched⟩
    · exact Or.inl ⟨e'', s'', x'', execute ok, Nat.le_trans hl'' hlimit, tracks'', hs'', leads.trans leads'⟩
    · exact Or.inr ⟨o, e'', r, execute error, leads r ends, matched⟩

/-! ## Whole runs -/

/-- The visit of the start and all that follow come to what the evaluation comes to. -/
theorem endsIn_evaluation (distinct : (i.workflow.steps.map (·.id)).Nodup) (circles : i.workflow.CirclesWait)
    {start : Step} (hstart : i.workflow.startStep? = some start) (payload : Json) (runId : String) (world : σ)
    (answers : List String) :
    ∃ o e r bound, (∀ depth, bound ≤ depth → Evaluation.ofWorkflow i depth payload world answers = some (o, e)) ∧
      Matches r o e ∧ i.EndsIn (Session.begun { state := { runId }, world } start payload) ⟨answers.map .ok, []⟩ r := by
  generalize hs : Session.begun { state := { runId }, world } start payload = s
  generalize he : (if payload.isNull then ({ world, answers } : Evaluation σ)
    else Evaluation.record { world, answers } start.id payload) = e
  have tracks : Tracks s ⟨answers.map .ok, []⟩ e := by
    subst hs he
    unfold Session.begun
    cases payload.isNull <;> exact ⟨rfl, rfl, rfl, rfl, rfl, rfl⟩
  have next : s.state.frontier = [⟨start.id, none⟩] ++ [] := by rw [← hs, Session.begun_frontier]; rfl
  have carries := carries_execute distinct circles e.answers.length start (List.mem_of_find?_eq_some hstart) none
  rcases carries e s _ [] (Nat.le_refl _) tracks next with
    ⟨e', s', x', ⟨bound, ok⟩, -, tracks', next', leads⟩ | ⟨o, e', r, ⟨bound, error⟩, ends, matched⟩
  · refine ⟨.finished, e', (.ok .finished, s'.finish.2, x'), bound, fun depth hd => ?_, ?_,
      leads _ (endsIn_of_finish next' x')⟩
    · simp only [Evaluation.ofWorkflow, hstart, he]
      rw [show e.execute i depth start none = some (.ok e') from ok depth hd]
    · exact ⟨rfl, tracks'.error, tracks'.outputs, tracks'.trail, tracks'.world, tracks'.script⟩
  · refine ⟨o, e', r, bound, fun depth hd => ?_, matched, ends⟩
    simp only [Evaluation.ofWorkflow, hstart, he]
    rw [show e.execute i depth start none = some (.error (o, e')) from error depth hd]

/-- Driving a run that has stopped goes on where it stopped. -/
theorem drive_of_advance {o : Outcome} {fuel : Nat} (h : i.advance fuel s = some (o, s')) (x : Script String String) :
    i.drive Script.input fuel s' x = i.goOn fuel fuel fuel s x := by
  rw [drive, advance_outcome h, goOn, h, Option.bind_some]

/-- Driving an idle run starts it without a payload. -/
theorem drive_of_run {o : Outcome} {fuel : Nat} (idle : s.state.status = .idle)
    (h : i.run fuel .null s = some (.ok o, s')) (ho : i.outcome? s'.state = some o) (x : Script String String) :
    i.drive Script.input fuel s x = i.drive Script.input fuel s' x := by
  have stopped : i.outcome? s.state = none := by rw [outcome?, idle]
  simp only [drive, stopped, h, ho]

/-- Starting a run with a payload and driving it comes to what the evaluation comes to. -/
theorem run_evaluation (distinct : (i.workflow.steps.map (·.id)).Nodup) (circles : i.workflow.CirclesWait)
    (payload : Json) (runId : String) (world : σ) (answers : List String) :
    ∃ o e r bound, (∀ depth, bound ≤ depth → Evaluation.ofWorkflow i depth payload world answers = some (o, e)) ∧
      Matches r o e ∧
      ∀ fuel, bound ≤ fuel → ∃ o' s', i.run fuel payload { state := { runId }, world } = some (.ok o', s') ∧
        i.outcome? s'.state = some o' ∧ i.drive Script.input fuel s' ⟨answers.map .ok, []⟩ = some r := by
  generalize hs : ({ state := { runId }, world } : Session σ) = s
  have idle : s.state.status = .idle := by rw [← hs]
  cases hstart : i.workflow.startStep? with
  | none =>
    have heval : ∀ depth, Evaluation.ofWorkflow i depth payload world answers =
        some (.failed Failure.noStart.message, { world, answers }) := by
      intro depth
      simp only [Evaluation.ofWorkflow, hstart]
    refine ⟨_, _, (.ok (.failed Failure.noStart.message), (s.started.failWith .noStart).2, ⟨answers.map .ok, []⟩), 1,
      fun depth _ => heval depth, ?_, fun fuel hf => ?_⟩
    · subst hs
      exact ⟨rfl, rfl, rfl, rfl, rfl, rfl⟩
    · obtain ⟨fuel, rfl⟩ := Nat.exists_eq_add_of_le' hf
      exact ⟨_, _, run_of_noStart idle hstart _ payload, rfl, rfl⟩
  | some start =>
    obtain ⟨o, e, r, bound, heval, matched, bound', ends⟩ :=
      endsIn_evaluation distinct circles hstart payload runId world answers
    refine ⟨o, e, r, max bound bound', fun depth hd => heval depth (by omega), matched, fun fuel hf => ?_⟩
    have ends := ends fuel fuel fuel (by omega) (by omega) (by omega)
    rw [hs] at ends
    cases hadvance : i.advance fuel (s.begun start payload) with
    | none => rw [goOn, hadvance] at ends; cases ends
    | some stopped =>
      obtain ⟨o', s'⟩ := stopped
      refine ⟨o', s', ?_, advance_outcome hadvance, ?_⟩
      · rw [run_of_start idle hstart, hadvance]
        rfl
      · rw [drive_of_advance hadvance, ends]

/-- Starting a run with a payload and driving it to its end comes to what the evaluation of the
    workflow comes to: the same values, trail, status and error, the same logs of what the services
    were asked and the same prompts. A run that is driven from the outset has no payload. -/
theorem drive_evaluation {i : Interpreter σ} (distinct : (i.workflow.steps.map (·.id)).Nodup)
    (circles : i.workflow.CirclesWait) (payload : Json) (runId : String) (world : σ) (answers : List String) :
    let s : Session (Logged σ) := { state := { runId }, world := { world } }
    let x : Script String String := ⟨answers.map .ok, []⟩
    ∃ o e reply s' x' bound,
      (∀ depth, bound ≤ depth → Evaluation.ofWorkflow i.logged depth payload { world } answers = some (o, e)) ∧
      (∀ fuel, bound ≤ fuel → ∃ o₁ s₁, i.logged.run fuel payload s = some (.ok o₁, s₁) ∧
        i.logged.drive Script.input fuel s₁ x = some (reply, s', x')) ∧
      (payload = .null → ∀ fuel, bound ≤ fuel → i.logged.drive Script.input fuel s x = some (reply, s', x')) ∧
      s'.state.outputs = e.outputs ∧ s'.state.trail = e.trail ∧ s'.state.status = o.status ∧
      s'.state.error = o.error? ∧ s'.world.chats = e.world.chats ∧ s'.world.agents = e.world.agents ∧
      x'.requests = e.prompts := by
  intro s x
  have distinct : (i.logged.workflow.steps.map (·.id)).Nodup := distinct
  obtain ⟨o, e, ⟨reply, s', x'⟩, bound, heval, matched, hrun⟩ :=
    run_evaluation distinct circles payload runId { world } answers
  refine ⟨o, e, reply, s', x', bound, heval, fun fuel hf => ?_, ?_, matched.outputs, matched.trail, matched.status,
    matched.error, congrArg Logged.chats matched.world, congrArg Logged.agents matched.world,
    congrArg Script.requests matched.script⟩
  · obtain ⟨o₁, s₁, hrun, -, hdrive⟩ := hrun fuel hf
    exact ⟨o₁, s₁, hrun, hdrive⟩
  · rintro rfl fuel hf
    obtain ⟨o₁, s₁, hrun, hstopped, hdrive⟩ := hrun fuel hf
    exact (drive_of_run rfl hrun hstopped x).trans hdrive

/-- A splitter that asks and ends at once, and that each answer leads back to. -/
theorem questionLoop_drive :
    let w : Workflow := {
      steps := [
        ⟨"start", .start none, none, some (.single ⟨"in"⟩)⟩,
        ⟨"split", .splitter none none, some (.many [⟨"in"⟩, ⟨"again"⟩]), some (.many [⟨"ask"⟩, ⟨"out"⟩])⟩,
        ⟨"ask", .userInput { prompt := some "More?" }, some (.single ⟨"ask"⟩), some (.single ⟨"again"⟩)⟩,
        ⟨"stop", .stop none, some (.single ⟨"out"⟩), none⟩] }
    let i : Interpreter Unit := ⟨w, ⟨fun _ u => (.ok "", u), fun _ u => (.ok "", u)⟩, defaultMaxTokens⟩
    let s : Session (Logged Unit) := { state := { runId := "first" }, world := { world := () } }
    (i.workflow.steps.map (·.id)).Nodup ∧ i.workflow.CirclesWait ∧
    ∃ o e reply s' x' bound,
      (∀ depth, bound ≤ depth →
        Evaluation.ofWorkflow i.logged depth (.str "go") { world := () } ["once more"] = some (o, e)) ∧
      (∀ fuel, bound ≤ fuel → ∃ o₁ s₁, i.logged.run fuel (.str "go") s = some (.ok o₁, s₁) ∧
        i.logged.drive Script.input fuel s₁ ⟨[.ok "once more"], []⟩ = some (reply, s', x')) ∧
      s'.state.outputs = e.outputs ∧ s'.state.trail = e.trail ∧ s'.state.status = o.status ∧
      x'.requests = e.prompts := by
  intro w i s
  have distinct : (i.workflow.steps.map (·.id)).Nodup := by decide
  have circles : i.workflow.CirclesWait := Workflow.circlesWait_of_rank (fun n => w.steps.idxOf n) (by decide)
  obtain ⟨o, e, reply, s', x', bound, heval, hdrive, -, outputs, trail, status, -, -, -, prompts⟩ :=
    drive_evaluation distinct circles (.str "go") "first" () ["once more"]
  exact ⟨distinct, circles, o, e, reply, s', x', bound, heval, hdrive, outputs, trail, status, prompts⟩

end EventFlow.Interpreter
