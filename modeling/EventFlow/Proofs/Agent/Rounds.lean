/-
  EventFlow.Proofs.Agent.Rounds — how an agent's conversation goes.

  A conversation is made of rounds: a completion that calls tools, and the results of its calls, one
  for each call and in their order (`Answers`). A call that cannot be carried out has a result too,
  which tells why. The model is asked with the start of the conversation (`Starts`) and all rounds so far
  (`Conducted`), until it calls no tool, fails, or has been asked as often as it may be (`Ends`).

  Proved:
  - `callTools_answers`: each call has its result, whatever the tools and the search service do.
  - `converse_conducted`: what a model is asked and what comes of it, by induction on the turns left.
  - `run_conducted`: the same for an agent's step whose input and model are known.
-/

import EventFlow.Proofs.Agent.Watched

namespace EventFlow

variable {σ : Type}

/-! ## Results of calls -/

/-- The result of a call, told by the tool of that name, its query and the search; the worlds are
    those before and after. -/
inductive Answered (tools : Toolbox) (retrieve : RetrievalService σ) (call : ToolCall) :
    σ → ContentBlock → σ → Prop
  | unknown {s : σ} (missing : tools.get? call.name = none) :
      Answered tools retrieve call s (.toolResult call.id (Failure.toolNotFound call.name).message true) s
  | badInput {s : σ} {tool : SearchTool} {f : Failure} (known : tools.get? call.name = some tool)
      (unread : SearchTool.readInput call.input = .error f) :
      Answered tools retrieve call s (.toolResult call.id f.message true) s
  | failed {s t : σ} {tool : SearchTool} {query : String} {f : Failure} (known : tools.get? call.name = some tool)
      (read : SearchTool.readInput call.input = .ok query) (fails : retrieve (tool.index, query) s = (.error f, t)) :
      Answered tools retrieve call s (.toolResult call.id (Failure.toolFailed tool.name f.message).message true) t
  | found {s t : σ} {tool : SearchTool} {query : String} {passages : List Passage}
      (known : tools.get? call.name = some tool) (read : SearchTool.readInput call.input = .ok query)
      (finds : retrieve (tool.index, query) s = (.ok passages, t)) :
      Answered tools retrieve call s (.toolResult call.id (SearchTool.report passages) false) t

inductive Answers (tools : Toolbox) (retrieve : RetrievalService σ) :
    List ToolCall → σ → List ContentBlock → σ → Prop
  | nil {s : σ} : Answers tools retrieve [] s [] s
  | cons {call : ToolCall} {calls : List ToolCall} {result : ContentBlock} {results : List ContentBlock} {s t u : σ} :
      Answered tools retrieve call s result t → Answers tools retrieve calls t results u →
      Answers tools retrieve (call :: calls) s (result :: results) u

/-- Results of calls are blocks of their own kind, with the ids of the calls. -/
theorem Answers.blocks {tools : Toolbox} {retrieve : RetrievalService σ} {calls : List ToolCall} {s t : σ}
    {results : List ContentBlock} (h : Answers tools retrieve calls s results t) :
    ∃ outs : List (String × ToolResult), outs.map (·.1) = calls.map (·.id) ∧
      results = outs.map fun out => .toolResult out.1 out.2.content out.2.isError := by
  induction h with
  | nil => exact ⟨[], rfl, rfl⟩
  | @cons call calls result results s t u answered _ ih =>
    obtain ⟨outs, ids, rfl⟩ := ih
    have block : ∃ out : ToolResult, result = .toolResult call.id out.content out.isError := by
      cases answered <;> exact ⟨⟨_, _⟩, rfl⟩
    obtain ⟨out, rfl⟩ := block
    exact ⟨(call.id, out) :: outs, congrArg (_ :: ·) ids, rfl⟩

namespace AgentRuntime

theorem callTools_answers (tools : Toolbox) (retrieve : RetrievalService σ) (calls : List ToolCall) (s : σ) :
    Answers tools retrieve calls s (callTools tools retrieve calls s).1 (callTools tools retrieve calls s).2 := by
  induction calls generalizing s with
  | nil => exact .nil
  | cons call calls ih =>
    refine .cons (t := (tools.execute retrieve call.name call.input s).2) ?_ (ih _)
    unfold Toolbox.execute Registry.execute
    cases known : Registry.get? SearchTool.name tools call.name with
    | none => exact .unknown known
    | some tool =>
      simp only [SearchTool.execute]
      cases read : SearchTool.readInput call.input with
      | error f => exact .badInput known read
      | ok query =>
        simp only
        cases searched : retrieve (tool.index, query) s with
        | mk reply t =>
          cases reply with
          | error f => exact .failed known read searched
          | ok passages => exact .found known read searched

end AgentRuntime

/-! ## Rounds -/

structure Round (σ : Type) where
  completion : Completion
  before : σ
  results : List ContentBlock
  after : σ

/-- What a round adds to the conversation: the model's message, and one with the results. -/
def Round.messages (round : Round σ) : List Message := [round.completion.toMessage, ⟨.user, round.results⟩]

def Round.world (s : σ) (rounds : List (Round σ)) : σ := rounds.foldl (fun _ round => round.after) s

/-- A model was asked with the opening and the rounds before, each time in the same way (`ask`) and
    in the world that they left. It replied with the completions of the rounds, and last with a reply
    that is no round, if any. -/
structure Conducted (serve : ModelService σ) (ask : List Message → ModelCall) (answers : Round σ → Prop)
    (opening : List Message) (s : σ) (rounds : List (Round σ)) (last : Option (Result Completion))
    (log : List (ModelCall × Result Completion)) : Prop where
  asked : ∀ k x, log[k]? = some x → x.1 = ask (opening ++ (rounds.take k).flatMap Round.messages)
  replies : log.map (·.2) = rounds.map (fun round => .ok round.completion) ++ last.toList
  calling : ∀ round ∈ rounds, round.completion.toolCalls ≠ [] ∧ answers round
  served : ∀ k round, rounds[k]? = some round →
    serve (ask (opening ++ (rounds.take k).flatMap Round.messages)) (Round.world s (rounds.take k)) =
      (.ok round.completion, round.before)

inductive Ends (turns : Nat) (exhausted : Failure) (rounds : Nat) : Option (Result Completion) → Result String → Prop
  | answer {c : Completion} (left : rounds < turns) (quiet : c.toolCalls = []) :
      Ends turns exhausted rounds (some (.ok c)) (.ok c.text)
  | failure {f : Failure} (left : rounds < turns) : Ends turns exhausted rounds (some (.error f)) (.error f)
  | exhausted (used : rounds = turns) : Ends turns exhausted rounds none (.error exhausted)

theorem Ends.succ {turns rounds : Nat} {exhausted : Failure} {last : Option (Result Completion)} {reply : Result String}
    (h : Ends turns exhausted rounds last reply) : Ends (turns + 1) exhausted (rounds + 1) last reply := by
  cases h with
  | answer left quiet => exact .answer (Nat.succ_lt_succ left) quiet
  | failure left => exact .failure (Nat.succ_lt_succ left)
  | exhausted used => exact .exhausted (congrArg (· + 1) used)

namespace Conducted

variable {serve : ModelService σ} {ask : List Message → ModelCall} {answers : Round σ → Prop} {opening : List Message}
  {s : σ}

theorem nil : Conducted serve ask answers opening s [] none [] where
  asked k x h := by cases h
  replies := rfl
  calling round h := by cases h
  served k round h := by cases h

/-- The first reply ends the conversation. -/
theorem single (reply : Result Completion) :
    Conducted serve ask answers opening s [] (some reply) [(ask opening, reply)] where
  asked k x h := by
    cases List.mem_singleton.mp (List.mem_of_getElem? h)
    rw [List.take_nil, List.flatMap_nil, List.append_nil]
  replies := rfl
  calling round h := by cases h
  served k round h := by cases h

/-- The first reply is a round, and the conversation goes on from there. -/
theorem cons {round : Round σ} {rounds : List (Round σ)} {last : Option (Result Completion)}
    {log : List (ModelCall × Result Completion)} (serves : serve (ask opening) s = (.ok round.completion, round.before))
    (calls : round.completion.toolCalls ≠ []) (answered : answers round)
    (h : Conducted serve ask answers (opening ++ round.messages) round.after rounds last log) :
    Conducted serve ask answers opening s (round :: rounds) last ((ask opening, .ok round.completion) :: log) where
  asked
    | 0, x, hx => by cases hx; simp
    | k + 1, x, hx => by rw [h.asked k x hx, List.take_succ_cons, List.flatMap_cons, List.append_assoc]
  replies := congrArg (_ :: ·) h.replies
  calling x hx := by
    rcases List.mem_cons.mp hx with rfl | hx
    · exact ⟨calls, answered⟩
    · exact h.calling x hx
  served
    | 0, x, hx => by
      cases hx
      rw [List.take_zero, List.flatMap_nil, List.append_nil]
      exact serves
    | k + 1, x, hx => by
      rw [List.take_succ_cons, List.flatMap_cons, ← List.append_assoc]
      exact h.served k x hx

end Conducted

namespace AgentRuntime

def asking (model : ModelConfig) (tools : Toolbox) (messages : List Message) : ModelCall :=
  ⟨model, messages, tools.definitions⟩

def AnswersRound (tools : Toolbox) (retrieve : RetrievalService σ) (round : Round σ) : Prop :=
  Answers tools retrieve round.completion.toolCalls round.before round.results round.after

section

variable {r : AgentRuntime σ} {model : ModelConfig} {tools : Toolbox} {retrieve : RetrievalService σ}
  {messages : List Message} {s t : σ} {c : Completion}

theorem converse_of_error {f : Failure} (asked : r.model (asking model tools messages) s = (.error f, t)) (turns : Nat) :
    r.converse model tools retrieve (turns + 1) messages s = (.error f, t) := by
  rw [asking] at asked
  simp only [converse, asked]

theorem converse_of_quiet (asked : r.model (asking model tools messages) s = (.ok c, t)) (quiet : c.toolCalls = [])
    (turns : Nat) : r.converse model tools retrieve (turns + 1) messages s = (.ok c.text, t) := by
  rw [asking] at asked
  simp only [converse, asked, quiet, List.isEmpty_nil, if_true]

theorem converse_of_calls (asked : r.model (asking model tools messages) s = (.ok c, t)) (calls : c.toolCalls ≠ [])
    (turns : Nat) : r.converse model tools retrieve (turns + 1) messages s =
      r.converse model tools retrieve turns
        (messages ++ [c.toMessage, ⟨.user, (callTools tools retrieve c.toolCalls t).1⟩])
        (callTools tools retrieve c.toolCalls t).2 := by
  rw [asking] at asked
  have calls : c.toolCalls.isEmpty = false := by rw [← Bool.not_eq_true, List.isEmpty_iff]; exact calls
  simp only [converse, asked, calls, Bool.false_eq_true, if_false]

end

/-- Whatever it replies, a model is asked with the opening and the rounds so far, and the
    conversation goes on or ends as its replies tell. -/
theorem converse_conducted (r : AgentRuntime σ) (model : ModelConfig) (tools : Toolbox) (retrieve : RetrievalService σ)
    (turns : Nat) (messages : List Message) (s : σ) (log : List (ModelCall × Result Completion)) :
    ∃ reply s' new rounds last,
      (r.withModel (watched r.model)).converse model tools (aside retrieve) turns messages (s, log) =
        (reply, (s', log ++ new)) ∧
      Conducted r.model (asking model tools) (AnswersRound tools retrieve) messages s rounds last new ∧
      Ends turns (.tooManyTurns r.limits.maxTurns) rounds.length last reply := by
  -- A round goes over to the messages and to the log, so both are any.
  induction turns generalizing messages s log with
  | zero => exact ⟨_, s, [], [], none, by rw [List.append_nil]; rfl, .nil, .exhausted rfl⟩
  | succ turns ih =>
    cases asked : r.model (asking model tools messages) s with
    | mk reply s' =>
      have logged : (r.withModel (watched r.model)).model (asking model tools messages) (s, log) =
          (reply, (s', log ++ [(asking model tools messages, reply)])) := by
        simp only [withModel, watched, asked]
      cases reply with
      | error f => exact ⟨_, s', _, [], _, converse_of_error logged turns, .single (.error f), .failure (Nat.succ_pos _)⟩
      | ok completion =>
        by_cases calls : completion.toolCalls = []
        · exact ⟨_, s', _, [], _, converse_of_quiet logged calls turns, .single (.ok completion),
            .answer (Nat.succ_pos _) calls⟩
        · let round : Round σ := ⟨completion, s', (callTools tools retrieve completion.toolCalls s').1,
            (callTools tools retrieve completion.toolCalls s').2⟩
          obtain ⟨reply, s'', new, rounds, last, goesOn, conducted, ends⟩ := ih (messages ++ round.messages) round.after
            (log ++ [(asking model tools messages, .ok completion)])
          have answered : AnswersRound tools retrieve round := callTools_answers tools retrieve _ s'
          refine ⟨reply, s'', _, round :: rounds, last, ?_, .cons asked calls answered conducted, ends.succ⟩
          rw [converse_of_calls logged calls, callTools_aside]
          exact goesOn.trans (by rw [List.append_assoc]; rfl)

inductive Starts (config : PromptAgentConfig) (input : String) : List Message → Prop
  | prompted {prompt : String} (given : config.systemPrompt = some prompt) (full : prompt ≠ "") :
      Starts config input [⟨.system, [.text prompt]⟩, ⟨.user, [.text input]⟩]
  | plain (empty : ∀ prompt, config.systemPrompt = some prompt → prompt = "") :
      Starts config input [⟨.user, [.text input]⟩]

theorem starts_opening (config : PromptAgentConfig) (input : String) : Starts config input (opening config input) := by
  unfold opening
  cases given : config.systemPrompt with
  | none => exact .plain (by simp [given])
  | some prompt =>
    by_cases empty : prompt = ""
    · subst empty
      exact .plain (by simp [given])
    · rw [Text.nonEmpty, if_neg (by simpa [String.isEmpty_iff] using empty)]
      exact .prompted given empty

/-- An agent whose input and model are known asks its model with the start of the conversation and all rounds
    so far, each with one result for each call, and replies with the text of the first completion that calls
    no tool, with the model's failure, or that there were too many turns. -/
theorem run_conducted {r : AgentRuntime σ} {request : AgentRequest} {config : PromptAgentConfig} {input : String}
    {model : ModelConfig} (opens : r.Opens request config input model) (s : σ) :
    ∃ reply s' log start rounds last,
      r.run request s = (reply, s') ∧
      (r.withModel (watched r.model)).run request (s, []) = (reply, (s', log)) ∧
      Starts config input start ∧
      Conducted r.model (asking model (r.equipment request.workflow.settings config).1)
        (AnswersRound (r.equipment request.workflow.settings config).1 (r.equipment request.workflow.settings config).2)
        start s rounds last log ∧
      Ends r.limits.maxTurns (.tooManyTurns r.limits.maxTurns) rounds.length last reply := by
  obtain ⟨reply, s', log, rounds, last, h, conducted, ends⟩ := converse_conducted r model
    (r.equipment request.workflow.settings config).1 (r.equipment request.workflow.settings config).2
    r.limits.maxTurns (opening config input) s []
  have run : (r.withModel (watched r.model)).run request (s, []) = (reply, (s', log)) := by
    rw [run_eq (opens.withModel _), equipment_withModel]
    exact h
  obtain ⟨same, world⟩ := run_withModel (extends_watched r.model) request s []
  rw [run] at same world
  exact ⟨reply, s', log, _, rounds, last, Prod.ext same.symm world.symm, run, starts_opening config input, conducted, ends⟩

/-! ## An agent whose calls all fail -/

def docsConfig : PromptAgentConfig where
  systemPrompt := some "Answer."
  tools := [{ id := "4", name := "Docs", toolType := some ToolSpec.indexType, selectedIndex := some "pipe" }]

def docsRequest : AgentRequest where
  workflow := { steps := [
    ⟨"ask", .start none, none, some (.single ⟨"in"⟩)⟩,
    ⟨"agent", .promptAgent docsConfig, some (.single ⟨"in"⟩), none⟩] }
  node := "agent"
  via := some ⟨"in"⟩
  outputs := .ofEntries [("ask", .str "Refunds?")]

def docsModel : ModelConfig where
  provider := .openAi
  modelId := Provider.openAi.defaultModel

def docsAgent : AgentRuntime (Script ModelCall Completion) where
  limits := { maxTurns := 2 }
  model := Script.model
  retrieval := some fun _ s => (.error (.retrievalFailed "down"), s)
  network := fun _ s => (none, s)

/-- A search, a tool that there is not, and a search for nothing; then an answer. -/
def docsReplies : List (Result Completion) := [
  .ok {
    text := ""
    toolCalls := [⟨"a", "docs", .obj [("query", .str "refunds")]⟩, ⟨"b", "lost", .null⟩, ⟨"c", "docs", .null⟩] },
  .ok { text := "Done." }]

theorem docsAgent_opens : docsAgent.Opens docsRequest docsConfig "Refunds?" docsModel := by
  refine ⟨⟨docsRequest.workflow.steps[1], rfl, rfl, ?_⟩, ?_⟩
  · exact Workflow.agentInput_of_recorded (p := docsRequest.workflow.steps[0]) (v := .str "Refunds?") rfl rfl
  · show Settings.resolveModel {} none none none defaultMaxTokens = _
    rfl

/-- All three calls have results, and the model is asked once more. -/
theorem docsAgent_conducted :
    docsAgent.Opens docsRequest docsConfig "Refunds?" docsModel ∧
      ∃ s' log rounds last,
        docsAgent.run docsRequest ⟨docsReplies, []⟩ = (.ok "Done.", s') ∧ log.length = 2 ∧
        Conducted docsAgent.model (asking docsModel (docsAgent.equipment {} docsConfig).1)
          (AnswersRound (docsAgent.equipment {} docsConfig).1 (docsAgent.equipment {} docsConfig).2)
          [⟨.system, [.text "Answer."]⟩, ⟨.user, [.text "Refunds?"]⟩] ⟨docsReplies, []⟩ rounds last log ∧
        Ends 2 (.tooManyTurns 2) rounds.length last (.ok "Done.") := by
  obtain ⟨reply, s', log, start, rounds, last, run, watched, starts, conducted, ends⟩ :=
    run_conducted docsAgent_opens ⟨docsReplies, []⟩
  obtain rfl : start = [⟨.system, [.text "Answer."]⟩, ⟨.user, [.text "Refunds?"]⟩] := by
    cases starts with
    | prompted given => cases given; rfl
    | plain empty => exact absurd (empty "Answer." rfl) (by decide)
  have replied := congrArg Prod.fst run
  rw [run_eq docsAgent_opens] at replied
  have asked := congrArg (fun x => x.2.2.length) watched
  rw [run_eq (docsAgent_opens.withModel _)] at asked
  obtain rfl : reply = .ok "Done." := replied.symm.trans (by rfl)
  exact ⟨docsAgent_opens, s', log, rounds, last, run, asked.symm.trans (by decide +kernel), conducted, ends⟩

end AgentRuntime
end EventFlow
