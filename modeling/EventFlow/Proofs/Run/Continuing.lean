/-
  EventFlow.Proofs.Run.Continuing — a driving that runs out of answers can be continued.

  To drive a run is to start it if it is new (`Opened`) and then to submit one answer at each pause,
  whose prompt has been asked before (`Answered`). Where no answer is left, nothing more is done: the
  run waits in the session that the answers so far led to. Driving it again asks the same prompt
  again and goes on from there, so that both together do what one driving with all the answers does.

  How many visits and questions are allowed for does not matter once they are enough, so driving
  comes to something (`Drives`) if it does with any limit.

  Proved:
  - `advance_mono` / `operate_mono` / `drive_mono`: what has come to an end stays as it is with higher
    limits, so driving comes to one thing only (`Drives.unique`).
  - `finishes_of_answer` / `Answered.finishes`: one answer, and by induction any number of them.
  - `answered_of_finishes`: a driving of scripted answers submits some of them, and ends at the end of
    the run or at a pause for which no answer is left.
  - `drive_continues`: so it is a start and one answer for each prompt, and can be continued.
-/

import EventFlow.Proofs.Run.Simulation

namespace EventFlow

def Script.after {ρ α : Type} (earlier : List ρ) (x : Script ρ α) : Script ρ α :=
  { x with requests := earlier ++ x.requests }

theorem Script.input_after (earlier : List String) (prompt : String) (x : Script String String) :
    Script.input prompt (x.after earlier) =
      ((Script.input prompt x).1, (Script.input prompt x).2.after earlier) := by
  obtain ⟨replies, requests⟩ := x
  cases replies <;> simp only [Script.input, Script.answer, Script.after, List.append_assoc]

namespace Interpreter

variable {σ τ : Type} {i : Interpreter σ} {s t : Session σ} {o : Outcome} {r : Result Outcome}

/-! ## Higher limits -/

section

variable {fuel fuel' : Nat} (more : fuel ≤ fuel')

include more

theorem advance_mono (h : i.advance fuel s = some (o, t)) : i.advance fuel' s = some (o, t) := by
  induction fuel generalizing fuel' s with
  | zero => cases h
  | succ fuel ih =>
    obtain ⟨fuel', rfl⟩ := Nat.exists_eq_add_of_le' (Nat.le_trans (Nat.le_add_left 1 fuel) more)
    rcases i.next_cases s with next | ⟨v, rest, next, step⟩ | ⟨v, rest, n, e, world, visits⟩
    · rwa [advance_nil next] at h ⊢
    · rwa [advance_unknown next step] at h ⊢
    · cases e with
      | pass events =>
        rw [advance_proceed visits rfl] at h ⊢
        exact ih (Nat.le_of_succ_le_succ more) h
      | complete value events =>
        rw [advance_proceed visits rfl] at h ⊢
        exact ih (Nat.le_of_succ_le_succ more) h
      | wait prompt => rwa [advance_wait visits] at h ⊢
      | fail f => rwa [advance_fail visits] at h ⊢

theorem operate_mono (op : Operation) (h : i.operate fuel op s = some (r, t)) : i.operate fuel' op s = some (r, t) := by
  by_cases allowed : s.state.status = op.allowedIn
  · rcases operate_cases allowed with ⟨s', f, -, replies⟩ | ⟨s', new, -, -, -, replies⟩
    · rwa [replies] at h ⊢
    · rw [replies] at h ⊢
      obtain ⟨o, rfl, advances⟩ := toReply_eq_some h
      rw [advance_mono more advances]
      rfl
  · rwa [operate_refused allowed] at h ⊢

theorem run_mono {payload : Json} (h : i.run fuel payload s = some (r, t)) : i.run fuel' payload s = some (r, t) :=
  operate_mono more (.run payload) h

theorem submit_mono {answer : String} (h : i.submit fuel answer s = some (r, t)) :
    i.submit fuel' answer s = some (r, t) :=
  operate_mono more (.submit answer) h

omit more in
/-- What an operation comes to does not depend on the limit. -/
theorem operate_unique (op : Operation) {a b : Result Outcome × Session σ} (h : i.operate fuel op s = some a)
    (h' : i.operate fuel' op s = some b) : a = b := by
  have ha := operate_mono (Nat.le_max_left fuel fuel') op h
  have hb := operate_mono (Nat.le_max_right fuel fuel') op h'
  exact Option.some.inj (ha.symm.trans hb)

theorem answerAll_mono {input : InputChannel τ} {rounds rounds' : Nat} (moreRounds : rounds ≤ rounds') {x y : τ}
    (h : i.answerAll input fuel rounds o s x = some (r, t, y)) :
    i.answerAll input fuel' rounds' o s x = some (r, t, y) := by
  induction rounds generalizing rounds' o s x with
  | zero => cases h
  | succ rounds ih =>
    obtain ⟨rounds', rfl⟩ := Nat.exists_eq_add_of_le' (Nat.le_trans (Nat.le_add_left 1 rounds) moreRounds)
    cases o with
    | finished => exact h
    | failed _ => exact h
    | awaitingInput node prompt =>
      simp only [answerAll] at h ⊢
      split at h
      case h_1 f x' hinput => exact h
      case h_2 answer x' hinput =>
        split at h
        case h_1 => cases h
        case h_2 f s' hsubmit => rwa [submit_mono more hsubmit]
        case h_3 o s' hsubmit =>
          rw [submit_mono more hsubmit]
          exact ih (Nat.le_of_succ_le_succ moreRounds) h

theorem drive_mono {input : InputChannel τ} {x y : τ} (h : i.drive input fuel s x = some (r, t, y)) :
    i.drive input fuel' s x = some (r, t, y) := by
  unfold drive at h ⊢
  split at h
  case h_1 => exact answerAll_mono more more h
  case h_2 =>
    split at h
    case h_1 => cases h
    case h_2 f u hrun => rwa [run_mono more hrun]
    case h_3 o u hrun =>
      rw [run_mono more hrun]
      exact answerAll_mono more more h

end

/-! ## Without limits -/

/-- Answering all questions of a run that has stopped comes to this. -/
def Finishes (i : Interpreter σ) (input : InputChannel τ) (o : Outcome) (s : Session σ) (x : τ)
    (d : Result Outcome × Session σ × τ) : Prop := ∃ fuel, i.answerAll input fuel fuel o s x = some d

/-- Driving a session comes to this. -/
def Drives (i : Interpreter σ) (input : InputChannel τ) (s : Session σ) (x : τ)
    (d : Result Outcome × Session σ × τ) : Prop := ∃ fuel, i.drive input fuel s x = some d

/-- Driving comes to one thing only, whatever the limit. -/
theorem Drives.unique {input : InputChannel τ} {x : τ} {d d' : Result Outcome × Session σ × τ}
    (h : i.Drives input s x d) (h' : i.Drives input s x d') : d = d' := by
  obtain ⟨fuel, h⟩ := h
  obtain ⟨fuel', h'⟩ := h'
  have hd := drive_mono (Nat.le_max_left fuel fuel') h
  have hd' := drive_mono (Nat.le_max_right fuel fuel') h'
  exact Option.some.inj (hd.symm.trans hd')

inductive Opened (i : Interpreter σ) (s : Session σ) : Outcome → Session σ → Prop
  | stopped {o : Outcome} (stands : i.outcome? s.state = some o) : Opened i s o s
  | started {o : Outcome} {t : Session σ} {fuel : Nat} (new : s.state.status = .idle)
      (starts : i.run fuel .null s = some (.ok o, t)) : Opened i s o t

/-- A run that has stopped is answered at one pause after the other, which leads to how it stops next:
    the answers, and the prompts that were asked. -/
inductive Answered (i : Interpreter σ) :
    Outcome → Session σ → List String → List String → Outcome → Session σ → Prop
  | nil {o : Outcome} {s : Session σ} : Answered i o s [] [] o s
  | cons {node prompt answer : String} {answers prompts : List String} {o o' : Outcome} {s s' t : Session σ}
      {fuel : Nat} (submits : i.submit fuel answer s = some (.ok o, s'))
      (later : Answered i o s' answers prompts o' t) :
      Answered i (.awaitingInput node prompt) s (answer :: answers) (prompt :: prompts) o' t

section

variable {input : InputChannel τ} {x y : τ} {d : Result Outcome × Session σ × τ} {node prompt answer : String}
  {f : Failure} {fuel : Nat}

theorem stopped_or_waits (o : Outcome) :
    o.status ≠ .awaitingInput ∨ ∃ node prompt, o = .awaitingInput node prompt := by
  cases o with
  | awaitingInput node prompt => exact Or.inr ⟨node, prompt, rfl⟩
  | finished => exact Or.inl (by simp [Outcome.status])
  | failed error => exact Or.inl (by simp [Outcome.status])

theorem finishes_of_stopped (stopped : o.status ≠ .awaitingInput) :
    i.Finishes input o s x d ↔ d = (.ok o, s, x) := by
  have ends : ∀ fuel rounds, i.answerAll input fuel (rounds + 1) o s x = some (.ok o, s, x) := by
    intro fuel rounds
    cases o with
    | awaitingInput node prompt => exact absurd rfl stopped
    | finished => rfl
    | failed error => rfl
  constructor
  · rintro ⟨_ | fuel, h⟩
    · cases h
    · rw [ends] at h
      exact (Option.some.inj h).symm
  · rintro rfl
    exact ⟨1, ends 1 0⟩

theorem finishes_of_error (asked : input prompt x = (.error f, y)) :
    i.Finishes input (.awaitingInput node prompt) s x d ↔ d = (.error f, s, y) := by
  constructor
  · rintro ⟨_ | fuel, h⟩
    · cases h
    · simp only [answerAll, asked] at h
      exact (Option.some.inj h).symm
  · rintro rfl
    refine ⟨1, ?_⟩
    simp only [answerAll, asked]

theorem finishes_of_answer (asked : input prompt x = (.ok answer, y))
    (submits : i.submit fuel answer s = some (.ok o, t)) :
    i.Finishes input (.awaitingInput node prompt) s x d ↔ i.Finishes input o t y d := by
  obtain ⟨r, u, z⟩ := d
  constructor
  · rintro ⟨_ | more, h⟩
    · cases h
    · simp only [answerAll, asked] at h
      cases hsubmit : i.submit (more + 1) answer s with
      | none => rw [hsubmit] at h; cases h
      | some reply =>
        obtain rfl : reply = (.ok o, t) := operate_unique (.submit answer) hsubmit submits
        rw [hsubmit] at h
        exact ⟨more + 1, answerAll_mono (Nat.le_refl _) (Nat.le_succ _) h⟩
  · rintro ⟨more, h⟩
    refine ⟨max fuel more + 1, ?_⟩
    simp only [answerAll, asked, submit_mono (Nat.le_succ_of_le (Nat.le_max_left fuel more)) submits]
    exact answerAll_mono (Nat.le_succ_of_le (Nat.le_max_right fuel more)) (Nat.le_max_right fuel more) h

end

/-! ## Driving opens the run and answers it -/

theorem status_of_outcome? {st : RunState} (stands : i.outcome? st = some o) : st.status = o.status := by
  unfold outcome? at stands
  split at stands
  case h_1 => cases stands
  case h_2 => cases stands
  case h_3 status => cases stands; exact status
  case h_4 status => cases stands; exact status
  case h_5 status =>
    obtain ⟨node, -, rfl⟩ := Option.map_eq_some_iff.mp stands
    exact status

theorem outcome?_of_idle {st : RunState} (new : st.status = .idle) : i.outcome? st = none := by rw [outcome?, new]

namespace Opened

variable {input : InputChannel τ} {x : τ} {d : Result Outcome × Session σ × τ}

theorem stands (h : i.Opened s o t) : i.outcome? t.state = some o := by
  cases h with
  | stopped stands => exact stands
  | started new starts =>
    obtain ⟨o', ok, stands⟩ := operate_outcome (show s.state.status = (Operation.run .null).allowedIn from new) starts
    cases ok
    exact stands

theorem drives (h : i.Opened s o t) : i.Drives input s x d ↔ i.Finishes input o t x d := by
  cases h with
  | stopped stands => simp only [Drives, Finishes, drive, stands]
  | @started t fuel new starts =>
    obtain ⟨r, u, y⟩ := d
    simp only [Drives, Finishes, drive, outcome?_of_idle new]
    constructor
    · rintro ⟨more, h⟩
      cases hrun : i.run more .null s with
      | none => rw [hrun] at h; cases h
      | some reply =>
        obtain rfl : reply = (.ok o, t) := operate_unique (.run .null) hrun starts
        rw [hrun] at h
        exact ⟨more, h⟩
    · rintro ⟨more, h⟩
      refine ⟨max fuel more, ?_⟩
      rw [run_mono (Nat.le_max_left fuel more) starts]
      exact answerAll_mono (Nat.le_max_right fuel more) (Nat.le_max_right fuel more) h

end Opened

theorem opened_of_drives {input : InputChannel τ} {x y : τ} (h : i.Drives input s x (r, t, y)) :
    (∃ o u, i.Opened s o u) ∨ r = .error (expected .idle s) := by
  obtain ⟨fuel, h⟩ := h
  unfold drive at h
  split at h
  case h_1 o stands => exact Or.inl ⟨o, s, .stopped stands⟩
  case h_2 =>
    by_cases new : s.state.status = .idle
    · split at h
      case h_1 => cases h
      case h_2 f u hrun =>
        obtain ⟨o, ok, -⟩ := operate_outcome (show s.state.status = (Operation.run .null).allowedIn from new) hrun
        cases ok
      case h_3 o u hrun => exact Or.inl ⟨o, u, .started new hrun⟩
    · rw [run_refused new] at h
      cases h
      exact Or.inr rfl

/-- A run that waits takes the answer that it is given. -/
theorem submits_of_finishes {input : InputChannel τ} {x y z : τ} {node prompt answer : String}
    (stands : i.outcome? s.state = some (.awaitingInput node prompt)) (asked : input prompt x = (.ok answer, y))
    (h : i.Finishes input (.awaitingInput node prompt) s x (r, t, z)) :
    ∃ fuel o u, i.submit fuel answer s = some (.ok o, u) ∧ i.outcome? u.state = some o := by
  obtain ⟨_ | fuel, h⟩ := h
  · cases h
  · simp only [answerAll, asked] at h
    cases hsubmit : i.submit (fuel + 1) answer s with
    | none => rw [hsubmit] at h; cases h
    | some reply =>
      have waiting : s.state.status = (Operation.submit answer).allowedIn := status_of_outcome? stands
      obtain ⟨o, ok, stands'⟩ := operate_outcome waiting hsubmit
      exact ⟨fuel + 1, o, reply.2, hsubmit.trans (congrArg some (Prod.ext ok rfl)), stands'⟩

/-! ## Scripted answers -/

def Driving.after (earlier : List String) (d : Driving σ) : Driving σ := (d.1, d.2.1, d.2.2.after earlier)

section

variable {x : Script String String} {answers prompts requests : List String} {o' : Outcome}

/-- How a run is driven does not depend on what was asked before. -/
theorem answerAll_after_asked (earlier : List String) (fuel rounds : Nat) (o : Outcome) (s : Session σ)
    (x : Script String String) :
    i.answerAll Script.input fuel rounds o s (x.after earlier) =
      (i.answerAll Script.input fuel rounds o s x).map (Driving.after earlier) := by
  induction rounds generalizing o s x with
  | zero => rfl
  | succ rounds ih =>
    cases o with
    | finished => rfl
    | failed error => rfl
    | awaitingInput node prompt =>
      simp only [answerAll, Script.input_after]
      obtain ⟨reply, x'⟩ := Script.input prompt x
      cases reply with
      | error f => rfl
      | ok answer =>
        dsimp only
        cases i.submit fuel answer s with
        | none => rfl
        | some reply =>
          obtain ⟨f | o, s'⟩ := reply
          · rfl
          · exact ih o s' x'

theorem finishes_after_asked {earlier : List String} {d : Driving σ} :
    i.Finishes Script.input o s (x.after earlier) d ↔
      ∃ d' : Driving σ, i.Finishes Script.input o s x d' ∧ d = d'.after earlier := by
  simp only [Finishes, answerAll_after_asked, Option.map_eq_some_iff]
  constructor
  · rintro ⟨fuel, d', h, rfl⟩
    exact ⟨d', ⟨fuel, h⟩, rfl⟩
  · rintro ⟨d', ⟨fuel, h⟩, rfl⟩
    exact ⟨fuel, d', h, rfl⟩

/-- What driving comes to after some answers is what it comes to with these answers first. -/
theorem Answered.finishes {replies : List (Result String)} {d : Driving σ} (h : i.Answered o s answers prompts o' t) :
    i.Finishes Script.input o s ⟨answers.map .ok ++ replies, requests⟩ d ↔
      i.Finishes Script.input o' t ⟨replies, requests ++ prompts⟩ d := by
  induction h generalizing requests with
  | nil => rw [List.append_nil]; rfl
  | @cons node prompt answer answers prompts o o' s s' t fuel submits later ih =>
    rw [List.append_cons]
    exact (finishes_of_answer rfl submits).trans ih

theorem Answered.stands (h : i.Answered o s answers prompts o' t) (stands : i.outcome? s.state = some o) :
    i.outcome? t.state = some o' := by
  induction h with
  | nil => exact stands
  | @cons node prompt answer answers prompts o o' s s' t fuel submits later ih =>
    have waiting : s.state.status = (Operation.submit answer).allowedIn := status_of_outcome? stands
    obtain ⟨o, ok, stands'⟩ := operate_outcome waiting submits
    cases ok
    exact ih stands'

/-- Driving with scripted answers submits some of them, until the run has come to its end or waits and
    no answer is left. -/
theorem answered_of_finishes {as : List String} (stands : i.outcome? s.state = some o)
    (h : i.Finishes Script.input o s ⟨as.map .ok, requests⟩ (r, t, x)) :
    ∃ answers rest prompts o', as = answers ++ rest ∧ i.Answered o s answers prompts o' t ∧
      ((o'.status ≠ .awaitingInput ∧ r = .ok o' ∧ x = ⟨rest.map .ok, requests ++ prompts⟩) ∨
        ∃ node prompt, o' = .awaitingInput node prompt ∧ rest = [] ∧ r = .error noAnswer ∧
          x = ⟨[], requests ++ prompts ++ [prompt]⟩) := by
  induction as generalizing o s requests with
  | nil =>
    rcases stopped_or_waits o with stopped | ⟨node, prompt, rfl⟩
    · cases (finishes_of_stopped stopped).mp h
      exact ⟨[], [], [], o, rfl, .nil, Or.inl ⟨stopped, rfl, by rw [List.append_nil]⟩⟩
    · cases (finishes_of_error rfl).mp h
      exact ⟨[], [], [], _, rfl, .nil, Or.inr ⟨node, prompt, rfl, rfl, rfl, by rw [List.append_nil]; rfl⟩⟩
  | cons a as ih =>
    rcases stopped_or_waits o with stopped | ⟨node, prompt, rfl⟩
    · cases (finishes_of_stopped stopped).mp h
      exact ⟨[], a :: as, [], o, rfl, .nil, Or.inl ⟨stopped, rfl, by rw [List.append_nil]⟩⟩
    · obtain ⟨fuel, o, s', submits, stands'⟩ := submits_of_finishes stands rfl h
      have later := (finishes_of_answer rfl submits).mp h
      obtain ⟨answers, rest, prompts, o', rfl, answered, ends⟩ := ih stands' later
      refine ⟨a :: answers, rest, prompt :: prompts, o', rfl, .cons submits answered, ?_⟩
      simpa only [List.append_assoc, List.singleton_append] using ends

/-- Driving runs out of answers at the pause that they all lead to. -/
theorem drives_noAnswer {as : List String} :
    i.Drives Script.input s ⟨as.map .ok, []⟩ (.error noAnswer, t, x) ↔
      ∃ o₀ s₀ prompts node prompt, i.Opened s o₀ s₀ ∧ i.Answered o₀ s₀ as prompts (.awaitingInput node prompt) t ∧
        x = ⟨[], prompts ++ [prompt]⟩ := by
  constructor
  · intro h
    rcases opened_of_drives h with ⟨o₀, s₀, opened⟩ | refused
    · obtain ⟨answers, rest, prompts, o', rfl, answered, ⟨-, ok, -⟩ | ⟨node, prompt, rfl, rfl, -, rfl⟩⟩ :=
        answered_of_finishes opened.stands (opened.drives.mp h)
      · cases ok
      · rw [List.append_nil]
        exact ⟨o₀, s₀, prompts, node, prompt, opened, answered, rfl⟩
    · cases refused
  · rintro ⟨o₀, s₀, prompts, node, prompt, opened, answered, rfl⟩
    rw [opened.drives, ← List.append_nil (as.map _), answered.finishes]
    exact (finishes_of_error rfl).mpr rfl

/-- Driving to the end of a run submits one answer for each prompt. -/
theorem drives_ok {as : List String} :
    i.Drives Script.input s ⟨as.map .ok, []⟩ (.ok o, t, x) ↔
      o.status ≠ .awaitingInput ∧ ∃ o₀ s₀ answers rest, as = answers ++ rest ∧ i.Opened s o₀ s₀ ∧
        i.Answered o₀ s₀ answers x.requests o t ∧ x.replies = rest.map .ok := by
  constructor
  · intro h
    rcases opened_of_drives h with ⟨o₀, s₀, opened⟩ | refused
    · obtain ⟨answers, rest, prompts, o', rfl, answered, ⟨stopped, ok, rfl⟩ | ⟨node, prompt, -, -, error, -⟩⟩ :=
        answered_of_finishes opened.stands (opened.drives.mp h)
      · cases ok
        exact ⟨stopped, o₀, s₀, answers, rest, rfl, opened, answered, rfl⟩
      · cases error
    · cases refused
  · rintro ⟨stopped, o₀, s₀, answers, rest, rfl, opened, answered, replies⟩
    obtain ⟨_, requests⟩ := x
    rw [opened.drives, List.map_append, answered.finishes, finishes_of_stopped stopped]
    exact replies ▸ rfl

end

/-- Driving submits one answer for each prompt, after a start if the run is new. If the answers run
    out, the run waits in the session that they all led to, and driving it with further answers gives
    what driving it with all of them at once gives: the same reply, session and world, and with the
    world the same requests to its services. -/
theorem drive_continues (i : Interpreter σ) (s : Session σ) (as : List String) :
    (∀ t x, i.Drives Script.input s ⟨as.map .ok, []⟩ (.error noAnswer, t, x) →
      t.state.status = .awaitingInput ∧ ∃ o₀ s₀ prompts node prompt,
        i.Opened s o₀ s₀ ∧ i.Answered o₀ s₀ as prompts (.awaitingInput node prompt) t ∧ x = ⟨[], prompts ++ [prompt]⟩ ∧
        ∀ bs d, i.Drives Script.input s ⟨(as ++ bs).map .ok, []⟩ d ↔
          ∃ d' : Driving σ, i.Drives Script.input t ⟨bs.map .ok, []⟩ d' ∧ d = d'.after prompts) ∧
    ∀ o t x, i.Drives Script.input s ⟨as.map .ok, []⟩ (.ok o, t, x) ↔
      o.status ≠ .awaitingInput ∧ ∃ o₀ s₀ answers rest, as = answers ++ rest ∧
        i.Opened s o₀ s₀ ∧ i.Answered o₀ s₀ answers x.requests o t ∧ x.replies = rest.map .ok := by
  refine ⟨fun t x h => ?_, fun o t x => drives_ok⟩
  obtain ⟨o₀, s₀, prompts, node, prompt, opened, answered, rfl⟩ := drives_noAnswer.mp h
  have stands := answered.stands opened.stands
  refine ⟨status_of_outcome? stands, o₀, s₀, prompts, node, prompt, opened, answered, rfl, fun bs d => ?_⟩
  have asked : (⟨bs.map .ok, [] ++ prompts⟩ : Script String String) = Script.after prompts ⟨bs.map .ok, []⟩ := by
    rw [Script.after, List.append_nil, List.nil_append]
  calc i.Drives Script.input s ⟨(as ++ bs).map .ok, []⟩ d
    _ ↔ i.Finishes Script.input o₀ s₀ ⟨as.map .ok ++ bs.map .ok, []⟩ d := by rw [opened.drives, List.map_append]
    _ ↔ i.Finishes Script.input (.awaitingInput node prompt) t (Script.after prompts ⟨bs.map .ok, []⟩) d := by
      rw [answered.finishes, asked]
    _ ↔ ∃ d' : Driving σ, i.Finishes Script.input (.awaitingInput node prompt) t ⟨bs.map .ok, []⟩ d' ∧
        d = d'.after prompts := finishes_after_asked
    _ ↔ _ := by simp only [(Opened.stopped stands).drives]

def interview : Workflow where
  steps := [
    ⟨"start", .start none, none, some (.single ⟨"in"⟩)⟩,
    ⟨"name", .userInput { prompt := some "Name?" }, some (.single ⟨"in"⟩), some (.single ⟨"named"⟩)⟩,
    ⟨"greet", .promptAgent {}, some (.single ⟨"named"⟩), some (.single ⟨"greeted"⟩)⟩,
    ⟨"mood", .userInput { prompt := some "Mood?" }, some (.single ⟨"greeted"⟩), some (.single ⟨"told"⟩)⟩,
    ⟨"comment", .promptLlm {}, some (.single ⟨"told"⟩), some (.single ⟨"out"⟩)⟩,
    ⟨"stop", .stop none, some (.single ⟨"out"⟩), none⟩]

def interviewer : Interpreter (Logged Unit) :=
  (Interpreter.mk interview ⟨fun _ u => (.ok "Good", u), fun _ u => (.ok "Hello", u)⟩ defaultMaxTokens).logged

/-- The second answer comes later, and all is as if both had been there from the outset. -/
theorem interview_continues :
    ∃ new t u : Session (Logged Unit), new.state.status = .idle ∧
      interviewer.Drives Script.input new ⟨[.ok "Ada"], []⟩ (.error noAnswer, t, ⟨[], ["Name?", "Mood?"]⟩) ∧
      t.state.status = .awaitingInput ∧ t.state.trail = ["start", "name", "greet", "mood"] ∧
      interviewer.Drives Script.input t ⟨[.ok "fine"], []⟩ (.ok .finished, u, ⟨[], ["Mood?"]⟩) ∧
      interviewer.Drives Script.input new ⟨[.ok "Ada", .ok "fine"], []⟩ (.ok .finished, u, ⟨[], ["Name?", "Mood?"]⟩) ∧
      u.world.agents.map (·.node) = ["greet"] ∧ u.world.chats.map (·.message) = ["fine"] ∧
      ∃ o s, interviewer.Opened new o s ∧
        interviewer.Answered o s ["Ada", "fine"] ["Name?", "Mood?"] .finished u := by
  obtain ⟨new, t, u, idle, first, trail, both, agents, chats⟩ : ∃ new t u : Session (Logged Unit),
      new.state.status = .idle ∧
      interviewer.Drives Script.input new ⟨["Ada"].map .ok, []⟩ (.error noAnswer, t, ⟨[], ["Name?", "Mood?"]⟩) ∧
      t.state.trail = ["start", "name", "greet", "mood"] ∧
      interviewer.Drives Script.input new ⟨["Ada", "fine"].map .ok, []⟩
        (.ok .finished, u, ⟨[], ["Name?", "Mood?"]⟩) ∧
      u.world.agents.map (·.node) = ["greet"] ∧ u.world.chats.map (·.message) = ["fine"] :=
    ⟨{ state := { runId := "first" }, world := { world := () } }, _, _, rfl, ⟨9, rfl⟩, rfl, ⟨9, rfl⟩, rfl, rfl⟩
  obtain ⟨waiting, _, _, prompts, _, prompt, -, -, asked, continues⟩ :=
    (drive_continues interviewer new ["Ada"]).1 t _ first
  obtain rfl : ["Name?"] = prompts := by simpa using congrArg (List.dropLast ∘ Script.requests) asked
  obtain ⟨⟨r, u', replies, requests⟩, second, same⟩ := (continues ["fine"] _).mp both
  cases same
  obtain ⟨-, o, s, answers, rest, answers_eq, opened, answered, left⟩ :=
    ((drive_continues interviewer new ["Ada", "fine"]).2 _ _ _).mp both
  obtain rfl : rest = [] := List.map_eq_nil_iff.mp left.symm
  rw [List.append_nil] at answers_eq
  exact ⟨new, t, u', idle, first, waiting, trail, second, both, agents, chats, o, s, opened, answers_eq ▸ answered⟩

end Interpreter
end EventFlow
