/-
  EventFlow.Proofs.Model.Wire — what the body of a request says, for all three providers.

  A body is read back message by message (`Provider.said`): its texts, the calls of tools and the
  results of calls. Where a provider has no ids for calls, the name of the function is the id.

  Proved:
  - `heard_completion` / `heard_results`: the two messages of a round are read as they were written.
  - `spoken_rounds`: rounds of a conversation are all there, each call and each result in its place.
  - `paired_rounds`: so each message that calls tools is followed by the results of its calls and by
    nothing else before the model's next one.
-/

import EventFlow.Model.Client
import EventFlow.Proofs.Agent.Rounds
import EventFlow.Proofs.Dictionary
import Mathlib.Data.List.Basic

namespace EventFlow

variable {σ : Type}

/-! ## Reading a body -/

inductive Piece where
  | text (text : String)
  | call (id name : String) (input : Json)
  | result (id content : String)
  | other (value : Json)

def Piece.called? : Piece → Option String
  | call id _ _ => some id
  | _ => none

def Piece.answered? : Piece → Option String
  | result id _ => some id
  | _ => none

structure Spoken where
  role : String
  pieces : List Piece

def Spoken.called (m : Spoken) : List String := m.pieces.filterMap Piece.called?

namespace Json

def textAt? (key : String) (v : Json) : Option String :=
  match v.field? key with
  | some (.str s) => some s
  | _ => none

def itemsAt (key : String) (v : Json) : List Json :=
  match v.field? key with
  | some (.arr items) => items
  | _ => []

end Json

namespace OpenAi

def callPiece (v : Json) : Piece :=
  (do
    let function ← v.field? "function"
    return .call (← v.textAt? "id") (← function.textAt? "name") (← function.field? "arguments") : Option Piece).getD
    (.other v)

def resultPiece (v : Json) : Piece :=
  (do return .result (← v.textAt? "tool_call_id") (← v.textAt? "content") : Option Piece).getD (.other v)

def spoken (v : Json) : Spoken where
  role := (v.textAt? "role").getD ""
  pieces := match v.field? "tool_call_id" with
    | some _ => [resultPiece v]
    | none => ((v.textAt? "content").map .text).toList ++ (v.itemsAt "tool_calls").map callPiece

end OpenAi

namespace Anthropic

def blockPiece (v : Json) : Piece :=
  (match v.textAt? "type" with
  | some "text" => (v.textAt? "text").map .text
  | some "tool_use" => do return .call (← v.textAt? "id") (← v.textAt? "name") (← v.field? "input")
  | some "tool_result" => do return .result (← v.textAt? "tool_use_id") (← v.textAt? "content")
  | _ => none : Option Piece).getD (.other v)

def spoken (v : Json) : Spoken where
  role := (v.textAt? "role").getD ""
  pieces := match v.field? "content" with
    | some (.str t) => [.text t]
    | _ => (v.itemsAt "content").map blockPiece

end Anthropic

namespace Gemini

def partPiece (v : Json) : Piece :=
  (match v.field? "functionCall", v.field? "functionResponse" with
  | some call, _ => do return .call (← call.textAt? "name") (← call.textAt? "name") (← call.field? "args")
  | none, some answer => do return .result (← answer.textAt? "name") (← (← answer.field? "response").textAt? "result")
  | none, none => (v.textAt? "text").map .text : Option Piece).getD (.other v)

def spoken (v : Json) : Spoken where
  role := (v.textAt? "role").getD ""
  pieces := (v.itemsAt "parts").map partPiece

end Gemini

namespace Provider

def body : Provider → ModelCall → Json
  | openAi => OpenAi.body
  | anthropic => Anthropic.body
  | gemini => Gemini.body

/-- Where a body has its messages. System messages that stand apart are none of them. -/
def messagesKey : Provider → String
  | gemini => "contents"
  | _ => "messages"

def heard : Provider → Json → Spoken
  | openAi => OpenAi.spoken
  | anthropic => Anthropic.spoken
  | gemini => Gemini.spoken

/-- What the messages of a body say. -/
def said (p : Provider) (body : Json) : List Spoken := (body.itemsAt p.messagesKey).map p.heard

def assistant : Provider → String
  | gemini => "model"
  | _ => "assistant"

/-- Results on the wire: each in a message of its own, or all in one. -/
def answers : Provider → List Piece → List Spoken
  | openAi, results => results.map fun result => ⟨"tool", [result]⟩
  | _, results => [⟨"user", results⟩]

/-- Each message that calls tools is the model's; the results of its calls come next, in the same
    order and nothing else with them, and then the model's next message, if any. -/
def Paired (p : Provider) (said : List Spoken) : Prop :=
  ∀ before m after, said = before ++ m :: after → m.called ≠ [] →
    m.role = p.assistant ∧ ∃ results rest, after = p.answers results ++ rest ∧
      results.map Piece.answered? = m.called.map some ∧ ∀ next ∈ rest.head?, next.role = p.assistant

end Provider

/-! ## Rounds on the wire -/

def ContentBlock.piece : ContentBlock → Piece
  | .text t => .text t
  | .toolUse id name input => .call id name input
  | .toolResult id content _ => .result id content

namespace Provider

def argument : Provider → Json → Json
  | openAi, v => .str v.compact
  | anthropic, v => v.sorted
  | gemini, v => v

/-- The model's message of a round: its text, unless that is empty, and all its calls. -/
def spokenCompletion (p : Provider) (c : Completion) : Spoken where
  role := p.assistant
  pieces := (if c.text.isEmpty then [] else [.text c.text]) ++
    c.toolCalls.map fun call => .call call.id call.name (p.argument call.input)

def spokenRound (p : Provider) (round : Round σ) : List Spoken :=
  p.spokenCompletion round.completion :: p.answers (round.results.map ContentBlock.piece)

end Provider

/-! ### Reading what was written -/

@[simp] theorem OpenAi.spoken_toJson (role : String) (content : Option String) (calls : List WireCall) :
    spoken (WireMessage.toJson ⟨role, content, calls, none⟩) =
      ⟨role, (content.map .text).toList ++ calls.map fun c => .call c.id c.name (.str c.arguments)⟩ := by
  have call (c : WireCall) : callPiece c.toJson = .call c.id c.name (.str c.arguments) := rfl
  cases content <;> cases calls <;>
    simp [spoken, WireMessage.toJson, Json.entry?, Json.textAt?, Json.itemsAt, Json.field?, call]

@[simp] theorem OpenAi.spoken_tool (role id content : String) :
    spoken (WireMessage.toJson ⟨role, some content, [], some id⟩) = ⟨role, [.result id content]⟩ := rfl

@[simp] theorem Anthropic.blockPiece_encodeBlock (b : ContentBlock) :
    blockPiece (encodeBlock b) = match b with
      | .text t => .text t
      | .toolUse id name input => .call id name input.sorted
      | .toolResult id content _ => .result id content := by
  cases b <;> rfl

/-- Content of nothing but one text is that text; it reads no differently. -/
@[simp] theorem Anthropic.spoken_toJson (role : String) (blocks : List ContentBlock) :
    spoken (WireMessage.toJson ⟨role, encodeContent blocks⟩) =
      ⟨role, blocks.map fun b => blockPiece (encodeBlock b)⟩ := by
  unfold encodeContent
  split
  · rw [List.map_singleton, blockPiece_encodeBlock]
    rfl
  · simp [spoken, WireMessage.toJson, Json.textAt?, Json.itemsAt, Json.field?]

@[simp] theorem Gemini.partPiece_text (t : String) : partPiece (Part.toJson (.text t)) = .text t := rfl

@[simp] theorem Gemini.partPiece_call (name : String) (args : Json) :
    partPiece (Part.toJson (.functionCall name args)) = .call name name args := rfl

@[simp] theorem Gemini.partPiece_response (name content : String) :
    partPiece (Part.toJson (.functionResponse name (.obj [("result", .str content)]))) = .result name content := rfl

@[simp] theorem Gemini.spoken_toJson (role : String) (parts : List Part) :
    spoken (Content.toJson ⟨some role, parts⟩) = ⟨role, parts.map fun part => partPiece part.toJson⟩ := by
  simp [spoken, Content.toJson, Json.entry?, Json.textAt?, Json.itemsAt, Json.field?]

/-! ### Messages of a round -/

@[simp] theorem Completion.text_toMessage (c : Completion) : c.toMessage.text = c.text := by
  by_cases empty : c.text = "" <;> simp [toMessage, Message.text, empty, List.filterMap_map]

@[simp] theorem Completion.toolUses_toMessage (c : Completion) :
    c.toMessage.toolUses = c.toolCalls.map fun call => (call.id, call.name, call.input) := by
  by_cases empty : c.text.isEmpty <;> simp [toMessage, Message.toolUses, empty, List.filterMap_map]

theorem Gemini.parts_toMessage (c : Completion) : c.toMessage.content.filterMap encodeBlock? =
    (if c.text.isEmpty then [] else [.text c.text]) ++ c.toolCalls.map fun call => .functionCall call.name call.input := by
  have calls : (c.toolCalls.map fun call => ContentBlock.toolUse call.id call.name call.input).filterMap encodeBlock? =
      c.toolCalls.map fun call => .functionCall call.name call.input := by
    rw [List.filterMap_map]
    exact congrFun List.filterMap_eq_map _
  rw [Completion.toMessage, List.filterMap_append, calls]
  cases empty : c.text.isEmpty with
  | true => rfl
  | false => simp [encodeBlock?, empty]

namespace Provider

def encode : Provider → Message → List Json
  | openAi, m => (OpenAi.encodeMessage m).map OpenAi.WireMessage.toJson
  | anthropic, m => ((Anthropic.encodeMessage? m).map Anthropic.WireMessage.toJson).toList
  | gemini, m => ((Gemini.encodeMessage? m).map Gemini.Content.toJson).toList

def spoken (p : Provider) (messages : List Message) : List Spoken :=
  messages.flatMap fun m => (p.encode m).map p.heard

/-- A body has the messages of its call, each as it comes to the wire. -/
theorem itemsAt_body (p : Provider) (call : ModelCall) :
    (p.body call).itemsAt p.messagesKey = call.messages.flatMap p.encode := by
  cases p with
  | openAi =>
    show (OpenAi.encode call.messages).map OpenAi.WireMessage.toJson = _
    rw [OpenAi.encode, List.map_flatMap]
    rfl
  | anthropic =>
    show (Anthropic.encode call.messages).map Anthropic.WireMessage.toJson = _
    rw [Anthropic.encode, List.map_filterMap, List.filterMap_eq_flatMap_toList]
    rfl
  | gemini =>
    show (Gemini.encode call.messages).map Gemini.Content.toJson = _
    rw [Gemini.encode, List.map_filterMap, List.filterMap_eq_flatMap_toList]
    rfl

theorem said_body (p : Provider) (call : ModelCall) : p.said (p.body call) = p.spoken call.messages := by
  rw [said, itemsAt_body, List.map_flatMap, spoken]

/-- A call's id on the wire: Gemini has none, so it has to be the name of the function. -/
def Identifies (p : Provider) (c : Completion) : Prop := p = gemini → ∀ call ∈ c.toolCalls, call.id = call.name

theorem Gemini.ids_partCalls (parts : List Gemini.Part) : ∀ call ∈ Gemini.partCalls parts, call.id = call.name := by
  intro call member
  obtain ⟨part, -, found⟩ := List.mem_filterMap.mp member
  cases part <;> cases found
  rfl

/-- What Gemini's answers call has its name for an id. -/
theorem identifies_parse (p : Provider) {text : String} {c : Completion} (h : p.wireFormat.parse text = .ok c) :
    p.Identifies c := by
  rintro rfl
  replace h : Gemini.parse text = .ok c := h
  rw [Gemini.parse] at h
  cases read : (Reader.ofText (Gemini.answerShape.read {}) text).mapError fun fault =>
      Failure.replyUnreadable fault.message with
  | error f => rw [read] at h; cases h
  | ok answer =>
    rw [read] at h
    replace h : Gemini.completion answer = .ok c := h
    rw [Gemini.completion] at h
    split at h
    · cases h
    · cases h
      exact Gemini.ids_partCalls _

theorem heard_completion (p : Provider) {c : Completion} (calls : c.toolCalls ≠ []) (named : p.Identifies c) :
    (p.encode c.toMessage).map p.heard = [p.spokenCompletion c] := by
  have role : c.toMessage.role = .assistant := rfl
  cases p with
  | openAi =>
    simp only [encode, OpenAi.encodeMessage, role, Completion.text_toMessage, Completion.toolUses_toMessage]
    by_cases empty : c.text = "" <;>
      simp [heard, spokenCompletion, assistant, argument, OpenAi.wireCall, empty, calls]
  | anthropic =>
    simp only [encode, Anthropic.encodeMessage?, role]
    by_cases empty : c.text = "" <;>
      simp [Completion.toMessage, heard, spokenCompletion, assistant, argument, empty]
  | gemini =>
    have ids : c.toolCalls.map (fun call => Piece.call call.name call.name call.input) =
        c.toolCalls.map fun call => .call call.id call.name call.input :=
      List.map_congr_left fun call member => by rw [named rfl call member]
    simp only [encode, Gemini.encodeMessage?, role, Gemini.parts_toMessage]
    simp only [spokenCompletion, assistant, argument, ← ids]
    by_cases empty : c.text = "" <;> simp [heard, Function.comp_def, empty, calls]

/-- The results of calls, as a message of their own. -/
theorem heard_results (p : Provider) {outs : List (String × ToolResult)} (some : outs ≠ []) :
    (p.encode ⟨.user, outs.map fun out => .toolResult out.1 out.2.content out.2.isError⟩).map p.heard =
      p.answers (outs.map fun out => .result out.1 out.2.content) := by
  cases p with
  | openAi =>
    have results : OpenAi.toolResults ⟨.user, outs.map fun out => .toolResult out.1 out.2.content out.2.isError⟩ =
        outs.map fun out => (out.1, out.2.content) := by
      rw [OpenAi.toolResults, List.filterMap_map]
      exact congrFun List.filterMap_eq_map _
    obtain ⟨out, outs, rfl⟩ := List.exists_cons_of_ne_nil some
    simp only [encode, OpenAi.encodeMessage, results]
    simp [heard, answers]
  | anthropic => simp [encode, Anthropic.encodeMessage?, heard, answers]
  | gemini =>
    have parts : (outs.map fun out => ContentBlock.toolResult out.1 out.2.content out.2.isError).filterMap
        Gemini.encodeBlock? = outs.map fun out => .functionResponse out.1 (.obj [("result", .str out.2.content)]) := by
      rw [List.filterMap_map]
      exact congrFun List.filterMap_eq_map _
    simp only [encode, Gemini.encodeMessage?, parts]
    simp [heard, answers, some]

/-! ### All rounds -/

theorem spoken_round (p : Provider) {tools : Toolbox} {retrieve : RetrievalService σ} {round : Round σ}
    (calls : round.completion.toolCalls ≠ []) (named : p.Identifies round.completion)
    (answered : AgentRuntime.AnswersRound tools retrieve round) : p.spoken round.messages = p.spokenRound round := by
  obtain ⟨outs, ids, blocks⟩ := answered.blocks
  have some : outs ≠ [] := by
    rintro rfl
    exact calls (List.map_eq_nil_iff.mp ids.symm)
  rw [spoken, Round.messages, blocks, List.flatMap_cons, List.flatMap_singleton, heard_completion p calls named,
    heard_results p some, spokenRound, blocks, List.map_map]
  rfl

/-- On the wire the rounds come after the opening, each with all its calls and results. -/
theorem spoken_rounds (p : Provider) {tools : Toolbox} {retrieve : RetrievalService σ} (opening : List Message)
    {rounds : List (Round σ)} (h : ∀ round ∈ rounds, round.completion.toolCalls ≠ [] ∧ p.Identifies round.completion ∧
      AgentRuntime.AnswersRound tools retrieve round) :
    p.spoken (opening ++ rounds.flatMap Round.messages) = p.spoken opening ++ rounds.flatMap p.spokenRound := by
  rw [spoken, List.flatMap_append, List.flatMap_assoc]
  exact congrArg (_ ++ ·) (List.flatMap_congr fun round member =>
    p.spoken_round (h round member).1 (h round member).2.1 (h round member).2.2)

/-- A text of a role that is not the model's says no more than that text. -/
theorem heard_ofText (p : Provider) {role : Role} (other : role ≠ .assistant) (text : String) :
    ∀ m ∈ (p.encode (.ofText role text)).map p.heard, m.pieces = [.text text] := by
  cases role with
  | assistant => exact absurd rfl other
  | system =>
    cases p with
    | openAi => simp [encode, OpenAi.encodeMessage, heard, Message.ofText, Message.text]
    | anthropic => exact fun m member => nomatch member
    | gemini => by_cases empty : text = "" <;>
        simp [encode, Message.ofText, Gemini.encodeMessage?, Gemini.encodeBlock?, heard, empty]
  | user =>
    cases p with
    | openAi => simp [encode, OpenAi.encodeMessage, OpenAi.toolResults, heard, Message.ofText, Message.text]
    | anthropic => simp [encode, Anthropic.encodeMessage?, heard, Message.ofText]
    | gemini => by_cases empty : text = "" <;>
        simp [encode, Message.ofText, Gemini.encodeMessage?, Gemini.encodeBlock?, heard, empty]

@[simp] theorem called_spokenCompletion (p : Provider) (c : Completion) :
    (p.spokenCompletion c).called = c.toolCalls.map (·.id) := by
  have calls : (c.toolCalls.map fun call => Piece.call call.id call.name (p.argument call.input)).filterMap
      Piece.called? = c.toolCalls.map (·.id) := by
    rw [List.filterMap_map]
    exact congrFun List.filterMap_eq_map _
  rw [Spoken.called, spokenCompletion, List.filterMap_append, calls]
  cases c.text.isEmpty <;> rfl

/-- Results call nothing. -/
theorem called_answers (p : Provider) {results : List Piece} (h : ∀ piece ∈ results, piece.called? = none) :
    ∀ m ∈ p.answers results, m.called = [] := by
  have none : results.filterMap Piece.called? = [] := List.filterMap_eq_nil_iff.mpr h
  cases p with
  | openAi =>
    rintro m member
    obtain ⟨result, among, rfl⟩ := List.mem_map.mp member
    exact List.filterMap_eq_nil_iff.mpr fun piece single => List.mem_singleton.mp single ▸ h result among
  | anthropic => exact fun m member => List.mem_singleton.mp member ▸ none
  | gemini => exact fun m member => List.mem_singleton.mp member ▸ none

/-- Nothing is called before the model says something. -/
theorem called_opening (p : Provider) (config : PromptAgentConfig) (input : String) :
    ∀ m ∈ p.spoken (AgentRuntime.opening config input), m.called = [] := by
  intro m member
  obtain ⟨message, among, said⟩ := List.mem_flatMap.mp member
  obtain ⟨role, text, other, rfl⟩ : ∃ role text, role ≠ Role.assistant ∧ message = .ofText role text := by
    rcases List.mem_append.mp among with system | user
    · obtain ⟨text, -, rfl⟩ := Option.map_eq_some_iff.mp (Option.mem_toList.mp system)
      exact ⟨.system, text, nofun, rfl⟩
    · exact ⟨.user, input, nofun, List.mem_singleton.mp user⟩
  rw [Spoken.called, p.heard_ofText other text m said]
  rfl

end Provider

/-! ### Calls and their results -/

/-- What is met in a list of blocks, each with a head and a tail, is the head of a block if neither
    the tails nor the start have it. -/
theorem split_blocks {α β : Type} {P : β → Prop} (head : α → β) (tail : α → List β) {as : List α}
    {start before after : List β} {m : β} (quiet : ∀ a ∈ as, ∀ x ∈ tail a, ¬P x) (starts : ∀ x ∈ start, ¬P x)
    (h : start ++ as.flatMap (fun a => head a :: tail a) = before ++ m :: after) (met : P m) :
    ∃ a ∈ as, ∃ rest : List α, m = head a ∧ after = tail a ++ rest.flatMap fun a => head a :: tail a := by
  induction as generalizing start before with
  | nil =>
    rw [List.flatMap_nil, List.append_nil] at h
    exact absurd met (starts m (h ▸ List.mem_append_right _ List.mem_cons_self))
  | cons a as ih =>
    have here {rest : List β} (same : m :: after = head a :: (tail a ++ rest)) : m = head a ∧ after = tail a ++ rest :=
      List.cons.inj same
    rw [List.flatMap_cons] at h
    obtain ⟨more, -, block⟩ | ⟨more, inStart, block⟩ := List.append_eq_append_iff.mp h
    · -- behind the start: the head of this block, or later
      cases more with
      | nil => exact ⟨a, List.mem_cons_self, as, here block.symm⟩
      | cons x more =>
        obtain ⟨b, member, rest, found⟩ := ih (fun b member => quiet b (List.mem_cons_of_mem _ member))
          (quiet a List.mem_cons_self) (List.cons.inj block).2
        exact ⟨b, List.mem_cons_of_mem _ member, rest, found⟩
    · -- no later than the end of the start, so at its end
      cases more with
      | nil => exact ⟨a, List.mem_cons_self, as, here block⟩
      | cons x more =>
        obtain ⟨rfl, -⟩ := List.cons.inj block
        exact absurd met (starts m (inStart ▸ List.mem_append_right _ List.mem_cons_self))

namespace Provider

/-- After a start without calls, rounds put each call and its result together. -/
theorem paired_rounds (p : Provider) {tools : Toolbox} {retrieve : RetrievalService σ} {start : List Spoken}
    {rounds : List (Round σ)} (starts : ∀ m ∈ start, m.called = [])
    (answered : ∀ round ∈ rounds, AgentRuntime.AnswersRound tools retrieve round) :
    p.Paired (start ++ rounds.flatMap p.spokenRound) := by
  intro before m after split calls
  have quiet : ∀ round ∈ rounds, ∀ x ∈ p.answers (round.results.map ContentBlock.piece), ¬x.called ≠ [] := by
    intro round member x hx
    obtain ⟨outs, ids, blocks⟩ := (answered round member).blocks
    refine not_not.mpr (p.called_answers (fun piece among => ?_) x hx)
    rw [blocks, List.map_map] at among
    obtain ⟨out, -, rfl⟩ := List.mem_map.mp among
    rfl
  obtain ⟨round, member, later, rfl, rfl⟩ := split_blocks
    (fun round : Round σ => p.spokenCompletion round.completion)
    (fun round => p.answers (round.results.map ContentBlock.piece)) quiet (fun x hx => not_not.mpr (starts x hx))
    split calls
  obtain ⟨outs, ids, blocks⟩ := (answered round member).blocks
  refine ⟨rfl, round.results.map ContentBlock.piece, later.flatMap p.spokenRound, rfl, ?_, ?_⟩
  · rw [called_spokenCompletion, ← ids, blocks]
    simp [ContentBlock.piece, Piece.answered?]
  · cases later with
    | nil => exact fun next h => nomatch h
    | cons next later => exact fun x h => by cases h; rfl

end Provider
end EventFlow
