/-
  EventFlow.Proofs.Model.Requests — what an agent sends to a model's provider.

  The network of a provider is watched, so that all requests of a run and the responses to them are
  known, in their order. A request recounts the rounds so far, one for each response before it
  (`Recounts`): the round's completion is what that response says, and its results are those of its
  calls.

  Proved: each request of a run recounts the rounds before it, and puts each call and its result
  together on the wire (`run_paired`).
-/

import EventFlow.Proofs.Model.Wire
import Mathlib.Data.List.Permutation

namespace EventFlow

variable {σ : Type}

/-- The address and the headers decide whether there is a request; its body is the call's. -/
theorem Call.body_of_request? {call : Call} {sent : Request} (h : call.request? = .ok sent) :
    sent.body = (call.body.map Json.compact).getD "" := by
  rw [request?] at h
  repeat' split at h
  all_goals cases h <;> rfl

/-- What is sent on a watched network comes to the same. Either one request goes out, with the body of
    the call, and a reply is the response to it; or none does, and sending fails. -/
theorem Call.send_watched (call : Call) (net : Network σ) (s : σ) (log : List (Request × Option Response)) :
    ∃ new, call.send (watched net) (s, log) = ((call.send net s).1, ((call.send net s).2, log ++ new)) ∧
      ((new = [] ∧ ∃ reason, (call.send net s).1 = .error reason) ∨
        ∃ sent response, new = [(sent, response)] ∧ sent.body = (call.body.map Json.compact).getD "" ∧
          ∀ r, (call.send net s).1 = .ok r → response = some r) := by
  unfold send
  cases requested : call.request? with
  | error reason => exact ⟨[], by rw [List.append_nil], .inl ⟨rfl, reason, rfl⟩⟩
  | ok sent =>
    have body := body_of_request? requested
    simp only [watched]
    obtain ⟨response, s⟩ := net sent s
    cases response with
    | none => exact ⟨[(sent, none)], rfl, .inr ⟨sent, none, rfl, body, fun _ h => by cases h⟩⟩
    | some response =>
      refine ⟨[(sent, some response)], rfl, .inr ⟨sent, some response, rfl, body, fun r h => ?_⟩⟩
      simp only [Response.checked] at h
      split at h
      · cases h; rfl
      · cases h

namespace Provider

/-- What a response says, if there is one. -/
def Replies (p : Provider) (response : Option Response) (c : Completion) : Prop :=
  ∃ r, response = some r ∧ p.wireFormat.parse r.text = .ok c

theorem body_of_request (p : Provider) {call : ModelCall} {out : Call} (h : p.wireFormat.request call = .ok out) :
    out.body = some (p.body call) := by
  cases p with
  | openAi =>
    replace h : OpenAi.request call = .ok out := h
    rw [OpenAi.request] at h
    split at h <;> cases h
    rfl
  | anthropic =>
    replace h : Anthropic.request call = .ok out := h
    rw [Anthropic.request] at h
    split at h <;> cases h
    rfl
  | gemini =>
    replace h : Gemini.request call = .ok out := h
    rw [Gemini.request] at h
    split at h <;> cases h
    rfl

/-- On a watched network a provider replies as it does on its own. Either it sends one request, with
    the body of the call, and a completion is what the response says; or none, and it fails. -/
theorem client_watched (p : Provider) (net : Network σ) (call : ModelCall) (s : σ)
    (log : List (Request × Option Response)) :
    ∃ new, p.client (watched net) call (s, log) = ((p.client net call s).1, ((p.client net call s).2, log ++ new)) ∧
      ((new = [] ∧ ∃ f, (p.client net call s).1 = .error f) ∨
        ∃ sent response, new = [(sent, response)] ∧ sent.body = (p.body call).compact ∧
          ∀ c, (p.client net call s).1 = .ok c → p.Replies response c) := by
  unfold client
  cases written : p.wireFormat.request call with
  | error f => exact ⟨[], by rw [List.append_nil], .inl ⟨rfl, f, rfl⟩⟩
  | ok out =>
    obtain ⟨new, same, sends⟩ := out.send_watched net s log
    rw [p.body_of_request written] at sends
    simp only [same]
    generalize out.send net s = x at sends ⊢
    obtain ⟨reply, s⟩ := x
    refine ⟨new, by cases reply <;> rfl, ?_⟩
    rcases sends with ⟨rfl, reason, rfl⟩ | ⟨sent, response, rfl, body, replies⟩
    · exact .inl ⟨rfl, _, rfl⟩
    · refine .inr ⟨sent, response, rfl, body, fun c read => ?_⟩
      cases reply with
      | error reason => cases read
      | ok r => exact ⟨r, replies r rfl, read⟩

theorem extends_client (p : Provider) (net : Network σ) : Extends (p.client (watched net)) (p.client net) := by
  intro call s log
  obtain ⟨new, same, -⟩ := p.client_watched net call s log
  rw [same]
  exact ⟨rfl, rfl⟩

end Provider

/-! ## Requests of a conversation -/

structure Recounts (p : Provider) (ask : List Message → ModelCall) (answers : Round σ → Prop) (opening : List Message)
    (responses : List (Option Response)) (rounds : List (Round σ)) (sent : Request) : Prop where
  body : sent.body = (p.body (ask (opening ++ rounds.flatMap Round.messages))).compact
  replies : List.Forall₂ (fun response (round : Round σ) => p.Replies response round.completion) responses rounds
  calling : ∀ round ∈ rounds, round.completion.toolCalls ≠ [] ∧ answers round

theorem Recounts.nil {p : Provider} {ask : List Message → ModelCall} {answers : Round σ → Prop} {opening : List Message}
    {sent : Request} (body : sent.body = (p.body (ask opening)).compact) : Recounts p ask answers opening [] [] sent where
  body := by rw [body, List.flatMap_nil, List.append_nil]
  replies := .nil
  calling round h := by cases h

theorem Recounts.cons {p : Provider} {ask : List Message → ModelCall} {answers : Round σ → Prop} {opening : List Message}
    {response : Option Response} {responses : List (Option Response)} {round : Round σ} {rounds : List (Round σ)}
    {sent : Request} (replies : p.Replies response round.completion) (calls : round.completion.toolCalls ≠ [])
    (answered : answers round) (h : Recounts p ask answers (opening ++ round.messages) responses rounds sent) :
    Recounts p ask answers opening (response :: responses) (round :: rounds) sent where
  body := by rw [h.body, List.flatMap_cons, List.append_assoc]
  replies := .cons replies h.replies
  calling x hx := by
    rcases List.mem_cons.mp hx with rfl | hx
    · exact ⟨calls, answered⟩
    · exact h.calling x hx

/-- Rounds that providers' responses tell of have calls with ids that the wire knows. -/
theorem Recounts.identifies {p : Provider} {ask : List Message → ModelCall} {answers : Round σ → Prop}
    {opening : List Message} {responses : List (Option Response)} {rounds : List (Round σ)} {sent : Request}
    (h : Recounts p ask answers opening responses rounds sent) : ∀ round ∈ rounds, p.Identifies round.completion := by
  obtain ⟨-, replies, -⟩ := h
  induction replies with
  | nil => exact nofun
  | cons reply _ ih =>
    intro round member
    obtain ⟨response, -, parsed⟩ := reply
    rcases List.mem_cons.mp member with rfl | later
    · exact p.identifies_parse parsed
    · exact ih round later

namespace AgentRuntime

/-- Each request of a conversation recounts the rounds before it. -/
theorem converse_recounts (r : AgentRuntime σ) (p : Provider) (net : Network σ) (model : ModelConfig) (tools : Toolbox)
    (retrieve : RetrievalService σ) (turns : Nat) (messages : List Message) (s : σ)
    (log : List (Request × Option Response)) :
    ∃ new, ((r.withModel (p.client (watched net))).converse model tools (aside retrieve) turns messages (s, log)).2.2 =
        log ++ new ∧
      ∀ k x, new[k]? = some x → ∃ rounds, Recounts p (asking model tools) (AnswersRound tools retrieve) messages
        ((new.take k).map (·.2)) rounds x.1 := by
  induction turns generalizing messages s log with
  | zero => exact ⟨[], (List.append_nil _).symm, fun _ _ found => by cases found⟩
  | succ turns ih =>
    obtain ⟨new, asked, sends⟩ := p.client_watched net (asking model tools messages) s log
    generalize p.client net (asking model tools messages) s = x at asked sends
    obtain ⟨reply, s'⟩ := x
    simp only at asked sends
    -- The first request, if one is sent at all, tells of no round.
    have first : ∀ k x, new[k]? = some x → ∃ rounds, Recounts p (asking model tools) (AnswersRound tools retrieve) messages
        ((new.take k).map (·.2)) rounds x.1 := by
      intro k x found
      rcases sends with ⟨rfl, -⟩ | ⟨sent, response, rfl, body, -⟩
      · cases found
      · cases k with
        | zero => cases found; exact ⟨[], .nil body⟩
        | succ k => cases found
    cases reply with
    | error f => exact ⟨new, by rw [converse_of_error asked], first⟩
    | ok c =>
      by_cases calls : c.toolCalls = []
      · exact ⟨new, by rw [converse_of_quiet asked calls], first⟩
      · obtain ⟨-, f, fails⟩ | ⟨sent, response, rfl, body, replies⟩ := sends
        · cases fails
        let round : Round σ := ⟨c, s', (callTools tools retrieve c.toolCalls s').1,
          (callTools tools retrieve c.toolCalls s').2⟩
        have answered : AnswersRound tools retrieve round := callTools_answers tools retrieve _ s'
        obtain ⟨later, goesOn, recounts⟩ := ih (messages ++ round.messages) round.after (log ++ [(sent, response)])
        refine ⟨(sent, response) :: later, ?_, ?_⟩
        · rw [converse_of_calls asked calls, callTools_aside]
          exact goesOn.trans (by rw [List.append_assoc]; rfl)
        · -- All others tell of this round, and then of those that they tell of after it.
          intro k x found
          cases k with
          | zero => cases found; exact ⟨[], .nil body⟩
          | succ k =>
            obtain ⟨rounds, h⟩ := recounts k x found
            exact ⟨round :: rounds, .cons (replies c rfl) calls answered h⟩

/-- A request tells an agent's opening and its rounds so far, one for each response: the model's text
    and calls, and the result of each call right after them. -/
def Tells (r : AgentRuntime σ) (p : Provider) (request : AgentRequest) (responses : List (Option Response))
    (sent : Request) : Prop :=
  ∃ config input model rounds, r.Opens request config input model ∧
    Recounts p (asking model (r.equipment request.workflow.settings config).1)
      (AnswersRound (r.equipment request.workflow.settings config).1 (r.equipment request.workflow.settings config).2)
      (opening config input) responses rounds sent ∧
    ∃ body, sent.body = body.compact ∧ p.Paired (p.said body) ∧
      p.said body = p.spoken (opening config input) ++ rounds.flatMap p.spokenRound

/-- Each request of an agent's run tells all of the rounds before it. -/
theorem run_paired (r : AgentRuntime σ) (p : Provider) (net : Network σ) (request : AgentRequest) (s : σ) :
    ∃ reply s' log,
      { r with model := p.client net }.run request s = (reply, s') ∧
      (r.withModel (p.client (watched net))).run request (s, []) = (reply, (s', log)) ∧
      ∀ k x, log[k]? = some x → r.Tells p request ((log.take k).map (·.2)) x.1 := by
  obtain ⟨same, world⟩ := run_withModel (r := { r with model := p.client net }) (p.extends_client net) request s []
  refine ⟨_, _, ((r.withModel (p.client (watched net))).run request (s, [])).2.2, rfl,
    Prod.ext same (Prod.ext world rfl), ?_⟩
  rcases r.opens_or_fails request with ⟨config, input, model, opens⟩ | ⟨f, fails⟩
  · obtain ⟨log, run, recounts⟩ := r.converse_recounts p net model (r.equipment request.workflow.settings config).1
      (r.equipment request.workflow.settings config).2 r.limits.maxTurns (opening config input) s []
    have sends : ((r.withModel (p.client (watched net))).run request (s, [])).2.2 = log := by
      rw [run_eq (opens.withModel _), equipment_withModel]
      exact run
    rw [sends]
    intro k x found
    obtain ⟨rounds, h⟩ := recounts k x found
    have said := p.spoken_rounds (opening config input) fun round member =>
      ⟨(h.calling round member).1, h.identifies round member, (h.calling round member).2⟩
    refine ⟨config, input, model, rounds, opens, h, _, h.body, ?_, (p.said_body _).trans said⟩
    rw [p.said_body, asking, said]
    exact p.paired_rounds (p.called_opening config input) fun round member => (h.calling round member).2
  · rw [fails _ (r.withModel _) rfl]
    exact fun _ _ found => by cases found

/-! ## Two calls over the wire -/

def inTurn : Network (List Response) := fun _ s =>
  match s with
  | [] => (none, [])
  | response :: rest => (some response, rest)

def keyedRequest : AgentRequest :=
  { docsRequest with workflow := { docsRequest.workflow with settings := { apiKeys := { openAi := some "key" } } } }

def keyedModel : ModelConfig := { docsModel with apiKey := some "key" }

def searchingAgent : AgentRuntime (List Response) where
  limits := { maxTurns := 2 }
  model := Provider.openAi.client inTurn
  retrieval := some fun _ s => (.error (.retrievalFailed "down"), s)
  network := inTurn

def twoCalls : Response where
  status := 200
  body := "\x7b\"choices\":[\x7b\"message\":\x7b\"tool_calls\":[" ++
    "\x7b\"id\":\"a\",\"function\":\x7b\"name\":\"docs\"\x7d\x7d," ++
    "\x7b\"id\":\"b\",\"function\":\x7b\"name\":\"lost\"\x7d\x7d]\x7d\x7d]\x7d"

def bothCalls : Completion where
  text := ""
  toolCalls := [⟨"a", "docs", .obj []⟩, ⟨"b", "lost", .obj []⟩]
  stopReason := .toolUse

def oneAnswer : Response where
  status := 200
  body := "\x7b\"choices\":[\x7b\"message\":\x7b\"content\":\"Done.\"\x7d\x7d]\x7d"

theorem parse_twoCalls : OpenAi.parse twoCalls.text = .ok bothCalls := by cbv

theorem parse_oneAnswer : OpenAi.parse oneAnswer.text = .ok { text := "Done." } := by cbv

theorem searchingAgent_opens : searchingAgent.Opens keyedRequest docsConfig "Refunds?" keyedModel := by
  refine ⟨⟨keyedRequest.workflow.steps[1], rfl, rfl, ?_⟩, ?_⟩
  · exact Workflow.agentInput_of_recorded (p := keyedRequest.workflow.steps[0]) (v := .str "Refunds?") rfl rfl
  · show Settings.resolveModel { apiKeys := { openAi := some "key" } } none none none defaultMaxTokens = _
    rfl

/-- A request to the usual address is sent, and the next response is read. -/
theorem asked_inTurn {response : Response} {c : Completion} (success : response.status = 200)
    (read : OpenAi.parse response.text = .ok c) (messages : List Message) (tools : Toolbox) (rest : List Response)
    (log : List (Request × Option Response)) :
    ∃ sent, Provider.openAi.client (watched inTurn) (asking keyedModel tools messages) (response :: rest, log) =
      (.ok c, (rest, log ++ [(sent, some response)])) := by
  have address : Url.parse? OpenAi.usualAddress =
      some ⟨"https", some "api.openai.com", "/v1/chat/completions", none, none⟩ := by cbv
  obtain ⟨sent, requested⟩ : ∃ sent, Call.request? ⟨.post, OpenAi.usualAddress, [], [Call.bearer "key"],
      some (OpenAi.body (asking keyedModel tools messages))⟩ = .ok sent := by
    simp only [Call.request?, address]
    exact ⟨_, rfl⟩
  have checked : response.checked = .ok response := by
    rw [Response.checked, success]
    rfl
  refine ⟨sent, ?_⟩
  have out : Provider.openAi.wireFormat.request (asking keyedModel tools messages) = .ok ⟨.post, OpenAi.usualAddress, [],
    [Call.bearer "key"], some (OpenAi.body (asking keyedModel tools messages))⟩ := rfl
  unfold Provider.client
  simp only [out, Call.send, requested, watched, inTurn, checked]
  exact congrArg (·, _) read

/-- Both calls and their results are in the second request. -/
theorem searchingAgent_paired :
    ∃ s' first second,
      { searchingAgent with model := Provider.openAi.client inTurn }.run keyedRequest [twoCalls, oneAnswer] =
        (.ok "Done.", s') ∧
      (searchingAgent.withModel (Provider.openAi.client (watched inTurn))).run keyedRequest ([twoCalls, oneAnswer], []) =
        (.ok "Done.", (s', [(first, some twoCalls), (second, some oneAnswer)])) ∧
      searchingAgent.Tells .openAi keyedRequest [some twoCalls] second := by
  obtain ⟨reply, s', log, run, watches, tells⟩ :=
    run_paired searchingAgent .openAi inTurn keyedRequest [twoCalls, oneAnswer]
  let tools := Toolbox.ofSpecs docsConfig.tools
  let down : RetrievalService (List Response × List (Request × Option Response)) :=
    aside fun _ s => (.error (.retrievalFailed "down"), s)
  let r := searchingAgent.withModel (Provider.openAi.client (watched inTurn))
  obtain ⟨first, calls⟩ := asked_inTurn rfl parse_twoCalls (opening docsConfig "Refunds?") tools [oneAnswer] []
  have client : Provider.openAi.client (watched inTurn) = r.model := rfl
  rw [List.nil_append, client] at calls
  -- Neither call searches, so the world is as the first response left it.
  obtain ⟨results, called⟩ : ∃ results, callTools tools down bothCalls.toolCalls
      ([oneAnswer], [(first, some twoCalls)]) = (results, ([oneAnswer], [(first, some twoCalls)])) := ⟨_, rfl⟩
  obtain ⟨second, quiet⟩ := asked_inTurn rfl parse_oneAnswer
    (opening docsConfig "Refunds?" ++ [bothCalls.toMessage, ⟨.user, results⟩]) tools [] [(first, some twoCalls)]
  rw [client] at quiet
  have conversed : r.run keyedRequest ([twoCalls, oneAnswer], []) =
      (.ok "Done.", ([], [(first, some twoCalls), (second, some oneAnswer)])) := by
    rw [run_eq (searchingAgent_opens.withModel _)]
    have goesOn : r.converse keyedModel tools down 2 (opening docsConfig "Refunds?") ([twoCalls, oneAnswer], []) = _ :=
      converse_of_calls calls nofun 1
    refine goesOn.trans ?_
    rw [called]
    exact converse_of_quiet quiet rfl 0
  obtain ⟨rfl, rfl, rfl⟩ : reply = .ok "Done." ∧ s' = [] ∧ log = [(first, some twoCalls), (second, some oneAnswer)] := by
    simpa using watches.symm.trans conversed
  exact ⟨[], first, second, run, watches, tells 1 _ rfl⟩

end AgentRuntime
end EventFlow
