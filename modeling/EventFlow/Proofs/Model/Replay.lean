/-
  EventFlow.Proofs.Model.Replay — a turn of the model that is replayed says what the model said.

  What a model said goes into the next request as a message of its own (`Completion.toMessage`), and
  each provider has that message in the form in which it answers. So the message can be put into an
  answer (`Provider.response`) and read by the same rules. The inputs of calls are the one thing that
  could get lost on the way: they are any JSON, and what was read of them is what is written.

  Proved:
  - `settled_of_parse`: the inputs of the calls that an answer asks for are read back, in the place
    where the provider has them.
  - `OpenAi.parse_response` / `Anthropic.parse_response` / `Gemini.parse_response`: a message in an answer.
  - `turn_replayed`: for each provider and every answer with calls.
-/

import EventFlow.Proofs.Json.Yields
import EventFlow.Proofs.Model.Wire

namespace EventFlow

open Outline Reader

/-! ## What an answer says -/

theorem mapError_ok {ε ε' α : Type} {x : Except ε α} {f : ε → ε'} {a : α} (h : x.mapError f = .ok a) : x = .ok a := by
  cases x with
  | error e => cases h
  | ok b => exact congrArg Except.ok (Except.ok.inj h)

theorem mem_mapM {ε α β : Type} {f : α → Except ε β} {as : List α} {bs : List β} (h : as.mapM f = .ok bs) :
    ∀ b ∈ bs, ∃ a ∈ as, f a = .ok b := by
  induction as generalizing bs with
  | nil =>
    cases h
    exact nofun
  | cons a as ih =>
    rw [List.mapM_cons] at h
    obtain ⟨b, first, h⟩ := bind_ok h
    obtain ⟨bs, others, h⟩ := bind_ok h
    cases h
    refine List.forall_mem_cons.mpr ⟨⟨a, List.mem_cons_self, first⟩, fun c member => ?_⟩
    obtain ⟨a', among, makes⟩ := ih others c member
    exact ⟨a', List.mem_cons_of_mem a among, makes⟩

theorem mapM_map {ε α β : Type} {f : α → Except ε β} {g : β → α} {bs : List β} (h : ∀ b ∈ bs, f (g b) = .ok b) :
    (bs.map g).mapM f = .ok bs := by
  induction bs with
  | nil => rfl
  | cons b bs ih =>
    obtain ⟨first, others⟩ := List.forall_mem_cons.mp h
    rw [List.map_cons, List.mapM_cons, first, ih others]
    rfl

theorem OpenAi.settled_of_parse {text : String} {c : Completion} (h : parse text = .ok c) :
    ∀ call ∈ c.toolCalls, call.input.Settled depthLimit := by
  obtain ⟨answer, -, h⟩ := bind_ok h
  unfold completion at h
  split at h
  · cases h
  · obtain ⟨calls, made, h⟩ := bind_ok h
    cases h
    intro call member
    obtain ⟨wire, -, made⟩ := mem_mapM made call member
    obtain ⟨input, reads, made⟩ := bind_ok made
    cases made
    unfold readArguments at reads
    split at reads
    · cases reads
      exact ⟨rfl, .obj nofun⟩
    · exact Yields.json.ofText (mapError_ok reads)

namespace Anthropic

def Block.Settled (n : Nat) (b : Block) : Prop := ∀ call, b = .toolUse call → call.input.Settled n

theorem yields_readBlock (depth : Nat) : readBlock.Yields depth (Block.Settled (depthLimit - (depth + 1))) := by
  have text : (textShape.read "").Yields depth fun _ => True := .trivial
  have call : (toolUseShape.read ⟨"", "", .null⟩).Yields depth fun call =>
      call.input.Settled (depthLimit - (depth + 1)) := by
    refine Shape.yields ?_ ⟨rfl, .null⟩
    exact .other (fun _ _ => id) (.other (fun _ _ => id) (.field .json (fun _ _ h _ => h) .nil))
  refine .tagged ?_ ?_
  · refine List.forall_mem_cons.mpr ⟨text.map fun _ _ => nofun, List.forall_mem_cons.mpr ⟨call.map ?_, nofun⟩⟩
    rintro _ settled _ ⟨⟩
    exact settled
  · rintro _ ⟨⟩
    exact .nothing nofun

theorem settled_of_parse {text : String} {c : Completion} (h : parse text = .ok c) :
    ∀ call ∈ c.toolCalls, call.input.Settled (depthLimit - 3) := by
  obtain ⟨answer, reads, h⟩ := bind_ok h
  cases h
  have blocks : (answerShape.read {}).Yields 0 fun answer => ∀ b ∈ answer.content, b.Settled (depthLimit - 3) := by
    refine Shape.yields ?_ nofun
    exact .field (.list (yields_readBlock 2)) (fun _ _ h _ => h) (.other (fun _ _ => id) (.other (fun _ _ => id) .nil))
  intro call member
  obtain ⟨b, among, same⟩ := List.mem_filterMap.mp member
  refine blocks.ofText (mapError_ok reads) b among call ?_
  cases b <;> cases same
  rfl

end Anthropic

namespace Gemini

def Part.Settled (n : Nat) (p : Part) : Prop := ∀ name args, p = .functionCall name args → args.Settled n

theorem yields_readPart (depth : Nat) : readPart.Yields depth (Part.Settled (depthLimit - (depth + 2))) := by
  have call : (functionCallShape.read ("", .null)).Yields depth fun call =>
      call.2.Settled (depthLimit - (depth + 2)) := by
    refine Shape.yields (.field (Shape.yields ?_ ⟨rfl, .null⟩) (fun _ _ h _ => h) .nil) ⟨rfl, .null⟩
    exact .other (fun _ _ => id) (.field .json (fun _ _ h _ => h) .nil)
  refine .untagged ?_
  refine List.forall_mem_cons.mpr ⟨Yields.trivial.map fun _ _ => nofun, List.forall_mem_cons.mpr ⟨call.map ?_,
    List.forall_mem_singleton.mpr (Yields.trivial.map fun _ _ => nofun)⟩⟩
  rintro _ settled _ _ ⟨⟩
  exact settled

def Content.Settled (n : Nat) (c : Content) : Prop := ∀ part ∈ c.parts, part.Settled n

theorem yields_content (depth : Nat) :
    (contentShape.read {}).Yields depth (Content.Settled (depthLimit - (depth + 4))) := by
  refine Shape.yields ?_ nofun
  exact .other (fun _ _ => id) (.field (.list (yields_readPart (depth + 2))) (fun _ _ h _ => h) .nil)

theorem settled_of_parse {text : String} {c : Completion} (h : parse text = .ok c) :
    ∀ call ∈ c.toolCalls, call.input.Settled (depthLimit - 7) := by
  obtain ⟨answer, reads, h⟩ := bind_ok h
  have candidates : (answerShape.read {}).Yields 0 fun answer => ∀ candidate ∈ answer.candidates,
      ∀ content ∈ candidate.content, content.Settled (depthLimit - 7) := by
    refine Shape.yields ?_ nofun
    refine .field (.list (Shape.yields ?_ nofun)) (fun _ _ h _ => h) (.other (fun _ _ => id) .nil)
    exact .field (.option (yields_content 3)) (fun _ _ h _ => h) (.other (fun _ _ => id) .nil)
  replace reads := candidates.ofText (mapError_ok reads)
  unfold completion at h
  split at h
  · cases h
  · next candidate rest first =>
    rw [first] at reads
    cases h
    intro call member
    obtain ⟨part, among, same⟩ := List.mem_filterMap.mp member
    cases found : candidate.content with
    | none =>
      rw [found] at among
      cases among
    | some content =>
      rw [found] at among
      refine reads candidate List.mem_cons_self content found part among call.name call.input ?_
      cases part <;> cases same
      rfl

end Gemini

/-- How deep the input of a call may nest: it has its place in an answer, or a text of its own. -/
def Provider.room : Provider → Nat
  | openAi => depthLimit
  | anthropic => depthLimit - 3
  | gemini => depthLimit - 7

/-- What a model gives a tool is read back in its place. -/
theorem Provider.settled_of_parse (p : Provider) {text : String} {c : Completion}
    (h : p.wireFormat.parse text = .ok c) : ∀ call ∈ c.toolCalls, call.input.Settled p.room := by
  cases p with
  | openAi => exact OpenAi.settled_of_parse h
  | anthropic => exact Anthropic.settled_of_parse h
  | gemini => exact Gemini.settled_of_parse h

/-! ## Arguments in a text -/

theorem Text.blank_of_trim {s : List Char} (h : trim s = []) : ∀ c ∈ s, isBlank c = true := by
  rw [trim, trimBy, trimRightBy, List.reverse_eq_nil_iff, List.dropWhile_eq_nil_iff] at h
  refine List.dropWhile_eq_nil_iff.mp ?_
  cases left : s.dropWhile isBlank with
  | nil => rfl
  | cons c rest =>
    have blank : isBlank c = true := h c (by rw [List.mem_reverse, left]; exact List.mem_cons_self)
    have other := List.head?_dropWhile_not isBlank s
    rw [left] at other
    exact absurd blank (Bool.not_eq_true _ ▸ other)

theorem Outline.scan_blank {s : List Char} (blank : ∀ c ∈ s, Text.isBlank c = true) :
    ∃ lead read skip, (scan s).1 = .broken lead read skip := by
  have among {c : Char} {r : List Char} (h : skipSpace s = c :: r) : Text.isBlank c = true :=
    blank c ((List.dropWhile_suffix _).mem (h ▸ List.mem_cons_self))
  rw [scan, scanValue]
  split
  case h_1 => exact ⟨_, _, _, rfl⟩
  case h_9 c r _ _ _ _ _ _ _ begins =>
    rw [if_neg]
    · exact ⟨_, _, _, rfl⟩
    · intro digit
      have blank := among begins
      simp only [Text.isDigit, Text.isBlank, Bool.and_eq_true, Bool.or_eq_true, decide_eq_true_eq, beq_iff_eq,
        Char.le_def, UInt32.le_iff_toNat_le] at digit blank
      have low : 48 ≤ c.toNat := digit.1
      have high : c.toNat ≤ 57 := digit.2
      omega
  -- Letters, quotes, signs and brackets are no blanks.
  all_goals next begins => cases among begins

/-- Something is written for every value. -/
theorem Json.Readable.trim_compact {n : Nat} {v : Json} (h : v.Readable n) :
    (Text.trim v.compact.toList).isEmpty = false := by
  refine Bool.eq_false_iff.mpr fun blank => ?_
  obtain ⟨lead, read, skip, nothing⟩ := Outline.scan_blank (Text.blank_of_trim (List.isEmpty_iff.mp blank))
  rw [Outline.scan_compact h.legible] at nothing
  cases v <;> cases nothing

theorem OpenAi.readArguments_compact {v : Json} (h : v.Settled depthLimit) : readArguments v.compact = .ok v := by
  have reads : Reader.ofText Reader.json v.compact = .ok v :=
    Reader.ofText_compact h.readable ((Recovers.json h.sorted h.readable).written .bracket whole_bracket)
  rw [readArguments, h.readable.trim_compact, if_neg Bool.false_ne_true, reads]
  rfl

/-! ## Messages in an answer -/

namespace Provider

def response : Provider → Json → Json
  | openAi, m => .obj [("choices", .arr [.obj [("message", m)]])]
  | anthropic, m => m
  | gemini, m => .obj [("candidates", .arr [.obj [("content", m)]])]

end Provider

namespace OpenAi

theorem recovers_call (n : Nat) (c : WireCall) : Recovers readCall (n + 2) c.toJson c := by
  have function : Recovers (functionShape.read ("", "")) (n + 1)
      (.obj [("name", .str c.name), ("arguments", .str c.arguments)]) (c.name, c.arguments) :=
    Shape.recovers ⟨by decide, by simp [functionShape, Slot.apart_of]⟩ (.one (.text _) (.one (.text _) .nil))
  exact Shape.recovers ⟨by decide, by simp [callShape, Slot.apart_of]⟩
    (.one (.text _) (.one (.text _) (.one function .nil)))

/-- A message that calls tools; its role is of no interest to an answer. -/
theorem recovers_reply (n : Nat) {m : WireMessage} (calls : m.toolCalls ≠ []) (asks : m.toolCallId = none) :
    Recovers (replyShape.read {}) (n + 4) m.toJson ⟨m.content, m.toolCalls⟩ := by
  have written : m.toJson = .obj (("role", .str m.role) ::
      (Json.entry? "content" .str m.content ++ [("tool_calls", .arr (m.toolCalls.map WireCall.toJson))])) := by
    simp [WireMessage.toJson, Json.entry?, calls, asks]
  have list : Recovers (Reader.list readCall) (n + 3) (.arr (m.toolCalls.map WireCall.toJson)) (m.toolCalls.map id) :=
    .list fun c _ => recovers_call n c
  rw [List.map_id] at list
  rw [written]
  exact Shape.recovers_beside ⟨by decide, by simp [replyShape, Slot.apart_of]⟩ rfl (.str m.role)
    (.text? rfl (.one list .nil))

theorem recovers_answer {n : Nat} {m : Json} {reply : Reply} (h : Recovers (replyShape.read {}) n m reply) :
    Recovers (answerShape.read {}) (n + 3) (Provider.openAi.response m) ⟨[⟨reply, none⟩], none⟩ := by
  have choice : Recovers (choiceShape.read {}) (n + 1) (.obj [("message", m)]) ⟨reply, none⟩ :=
    Shape.recovers ⟨by decide, by simp [choiceShape, Slot.apart_of]⟩ (.one h (.skip nofun .nil))
  exact Shape.recovers ⟨by decide, by simp [answerShape, Slot.apart_of]⟩ (.one choice.singleton (.skip nofun .nil))

def wireCalls (c : Completion) : List WireCall := c.toolCalls.map fun call => wireCall (call.id, call.name, call.input)

theorem toolCall_wireCalls {c : Completion} (settled : ∀ call ∈ c.toolCalls, call.input.Settled depthLimit) :
    (wireCalls c).mapM toolCall = .ok c.toolCalls := by
  refine mapM_map fun call member => ?_
  show (readArguments call.input.compact >>= fun input => pure (ToolCall.mk call.id call.name input)) = _
  rw [readArguments_compact (settled call member)]
  rfl

def turn (c : Completion) : WireMessage :=
  ⟨"assistant", if c.text.isEmpty then none else some c.text, wireCalls c, none⟩

theorem encode_toMessage {c : Completion} (calls : c.toolCalls ≠ []) :
    Provider.openAi.encode c.toMessage = [(turn c).toJson] := by
  have role : c.toMessage.role = .assistant := rfl
  simp only [Provider.encode, encodeMessage, role, Completion.text_toMessage, Completion.toolUses_toMessage,
    List.map_map]
  simp [turn, wireCalls, Function.comp_def, calls]

theorem parse_response {c : Completion} (calls : c.toolCalls ≠ [])
    (settled : ∀ call ∈ c.toolCalls, call.input.Settled depthLimit) :
    ∃ c', parse (Provider.openAi.response (turn c).toJson).compact = .ok c' ∧
      c'.text = c.text ∧ c'.toolCalls = c.toolCalls := by
  have made : (turn c).toolCalls ≠ [] := mt List.map_eq_nil_iff.mp calls
  have answer := recovers_answer (recovers_reply 120 made rfl)
  have text : (turn c).content.getD "" = c.text := by
    by_cases empty : c.text = "" <;> simp [turn, empty]
  refine ⟨⟨(turn c).content.getD "", c.toolCalls, stopReason none c.toolCalls, 0, 0⟩, ?_, text, rfl⟩
  rw [parse, ofText_compact answer.readable (answer.written .bracket whole_bracket)]
  show completion ⟨[⟨⟨(turn c).content, wireCalls c⟩, none⟩], none⟩ = _
  simp only [completion, toolCall_wireCalls settled]
  rfl

end OpenAi

namespace Anthropic

theorem recovers_text (n : Nat) (t : String) : Recovers readBlock (n + 1) (encodeBlock (.text t)) (.text t) := by
  have record : Recovers (textShape.read "") (n + 1) (.obj [("text", .str t)]) t :=
    Shape.recovers ⟨by decide, by simp [textShape]⟩ (.one (.text t) .nil)
  have written : encodeBlock (.text t) = .obj ([("text", .str t)] ++ ("type", .str "text") :: []) := rfl
  refine .of_eq (Json.sorted_sorted _) (fun close whole => ?_) ?_
  · rw [written]
    refine (tagged_ofTree whole (by simp) rfl).trans ?_
    exact congrArg (Except.map Block.text) (record.written .setAside whole_setAside)
  · exact Json.Readable.sorted (.obj (List.forall_mem_cons.mpr ⟨.str _, List.forall_mem_cons.mpr ⟨.str _, nofun⟩⟩))

theorem recovers_toolUse {n : Nat} {call : ToolCall} (settled : call.input.Settled n) :
    Recovers readBlock (n + 1) (encodeBlock (.toolUse call.id call.name call.input)) (.toolUse call) := by
  have record : Recovers (toolUseShape.read ⟨"", "", .null⟩) (n + 1)
      (.obj [("id", .str call.id), ("name", .str call.name), ("input", call.input)]) call :=
    Shape.recovers ⟨by decide, by simp [toolUseShape, ContentBlock.toolUseShape, Slot.apart_of]⟩
      (.one (.text _) (.one (.text _) (.one (.json settled.sorted settled.readable) .nil)))
  have written : encodeBlock (.toolUse call.id call.name call.input) = .obj ([("id", .str call.id),
      ("input", call.input.sorted), ("name", .str call.name)] ++ ("type", .str "tool_use") :: []) := rfl
  refine .of_eq (Json.sorted_sorted _) (fun close whole => ?_) ?_
  · rw [written]
    refine (tagged_ofTree whole (by simp) rfl).trans ?_
    exact congrArg (Except.map Block.toolUse) (record.sorted .setAside whole_setAside)
  · cases record.readable with
    | obj each => exact Json.Readable.sorted (.obj (List.forall_mem_cons.mpr ⟨.str _, each⟩))

def heard : ContentBlock → Block
  | .text t => .text t
  | .toolUse id name input => .toolUse ⟨id, name, input⟩
  | .toolResult .. => .other

theorem recovers_blocks {n : Nat} {c : Completion} (settled : ∀ call ∈ c.toolCalls, call.input.Settled n) :
    Recovers (Reader.list readBlock) (n + 2) (.arr (c.toMessage.content.map encodeBlock))
      (c.toMessage.content.map heard) := by
  refine .list fun b member => ?_
  rcases List.mem_append.mp member with text | asked
  · split at text
    · cases text
    · obtain rfl := List.mem_singleton.mp text
      exact recovers_text n c.text
  · obtain ⟨call, among, rfl⟩ := List.mem_map.mp asked
    exact recovers_toolUse (settled call among)

def turn (c : Completion) : WireMessage := ⟨"assistant", .arr (c.toMessage.content.map encodeBlock)⟩

theorem encode_toMessage {c : Completion} (calls : c.toolCalls ≠ []) :
    Provider.anthropic.encode c.toMessage = [(turn c).toJson] := by
  have blocks : encodeContent c.toMessage.content = .arr (c.toMessage.content.map encodeBlock) := by
    obtain ⟨call, rest, first⟩ := List.exists_cons_of_ne_nil calls
    by_cases empty : c.text = "" <;> simp [Completion.toMessage, encodeContent, empty, first]
  show [WireMessage.toJson ⟨"assistant", encodeContent c.toMessage.content⟩] = _
  rw [blocks]
  rfl

theorem recovers_answer {n : Nat} {c : Completion} (settled : ∀ call ∈ c.toolCalls, call.input.Settled n) :
    Recovers (answerShape.read {}) (n + 3) (Provider.anthropic.response (turn c).toJson)
      ⟨c.toMessage.content.map heard, none, none⟩ :=
  Shape.recovers_beside ⟨by decide, by simp [answerShape, Slot.apart_of]⟩ rfl (.str _)
    (.one (recovers_blocks settled) (.skip nofun (.skip nofun .nil)))

theorem parse_response {c : Completion} (settled : ∀ call ∈ c.toolCalls, call.input.Settled (depthLimit - 3)) :
    ∃ c', parse (Provider.anthropic.response (turn c).toJson).compact = .ok c' ∧
      c'.text = c.text ∧ c'.toolCalls = c.toolCalls := by
  have answer := recovers_answer settled
  refine ⟨completion ⟨c.toMessage.content.map heard, none, none⟩, ?_, ?_, ?_⟩
  · rw [parse, ofText_compact answer.readable (answer.written .bracket whole_bracket)]
    rfl
  · by_cases empty : c.text = "" <;>
      simp [completion, Completion.toMessage, heard, empty, List.filterMap_map, Function.comp_def]
  · by_cases empty : c.text = "" <;>
      simp [completion, Completion.toMessage, heard, empty, List.filterMap_map, Function.comp_def]

end Anthropic

namespace Gemini

theorem recovers_text (n : Nat) (t : String) : Recovers readPart (n + 1) (Part.toJson (.text t)) (.text t) := by
  have record : Recovers (textShape.read "") (n + 1) (.obj [("text", .str t)]) t :=
    Shape.recovers ⟨by decide, by simp [textShape]⟩ (.one (.text t) .nil)
  refine .of_eq rfl (fun close whole => untagged_ofTree whole ?_) record.readable
  have reads := record.written .setAside whole_setAside
  rw [List.findSome?_cons]
  simp only [Part.toJson, reads]
  rfl

/-- A call is no text. -/
theorem read_text_call (w : Json) : textShape.read "" (ofTree .setAside (.obj [("functionCall", w)])) =
    dataFault (.missing "text") := by
  have fields : Shape.readFields textShape.slots true (ofTreeFields .setAside [("functionCall", w)]) .bracket [] "" =
      .ok ([], "") := Shape.readFields_cons.mpr ⟨_, .skip rfl (skipFault?_ofTree whole_setAside w), rfl⟩
  rw [ofTree, Shape.read, if_neg Bool.false_ne_true, fields]
  rfl

theorem recovers_call {n : Nat} (name : String) {args : Json} (settled : args.Settled n) :
    Recovers readPart (n + 2) (Part.toJson (.functionCall name args)) (.functionCall name args) := by
  have call : Recovers (callShape.read ("", .null)) (n + 1) (.obj [("name", .str name), ("args", args)]) (name, args) :=
    Shape.recovers ⟨by decide, by simp [callShape, Slot.apart_of]⟩
      (.one (.text _) (.one (.json settled.sorted settled.readable) .nil))
  have record : Recovers (functionCallShape.read ("", .null)) (n + 2)
      (.obj [("functionCall", .obj [("name", .str name), ("args", args)])]) (name, args) :=
    Shape.recovers ⟨by decide, by simp [functionCallShape]⟩ (.one call .nil)
  have fits {v : Json} (reads : functionCallShape.read ("", .null) (ofTree .setAside (.obj [("functionCall", v)])) =
      .ok (name, args)) (close : Close) (whole : Whole close) :
      readPart (ofTree close (.obj [("functionCall", v)])) = .ok (.functionCall name args) := by
    refine untagged_ofTree whole ?_
    rw [List.findSome?_cons_of_isNone, List.findSome?_cons]
    · simp only [reads]
      rfl
    · simp only [read_text_call]
      rfl
  exact ⟨fits (record.written .setAside whole_setAside), fits (record.sorted .setAside whole_setAside), record.readable⟩

def turn (c : Completion) : Content where
  role := some "model"
  parts := (if c.text.isEmpty then [] else [.text c.text]) ++
    c.toolCalls.map fun call => .functionCall call.name call.input

theorem encode_toMessage {c : Completion} (calls : c.toolCalls ≠ []) :
    Provider.gemini.encode c.toMessage = [(turn c).toJson] := by
  have role : c.toMessage.role = .assistant := rfl
  simp only [Provider.encode, encodeMessage?, role, parts_toMessage]
  simp [turn, calls]

theorem recovers_content {n : Nat} {c : Completion} (settled : ∀ call ∈ c.toolCalls, call.input.Settled n) :
    Recovers (contentShape.read {}) (n + 4) (turn c).toJson (turn c) := by
  have parts : Recovers (Reader.list readPart) (n + 3) (.arr ((turn c).parts.map Part.toJson))
      ((turn c).parts.map id) := by
    refine .list fun part member => ?_
    rcases List.mem_append.mp member with text | asked
    · split at text
      · cases text
      · obtain rfl := List.mem_singleton.mp text
        exact recovers_text (n + 1) c.text
    · obtain ⟨call, among, rfl⟩ := List.mem_map.mp asked
      exact recovers_call call.name (settled call among)
  rw [List.map_id] at parts
  exact Shape.recovers ⟨by decide, by simp [contentShape, Slot.apart_of]⟩ (.text? rfl (.one parts .nil))

theorem recovers_answer {n : Nat} {m : Json} {content : Content} (h : Recovers (contentShape.read {}) n m content)
    (present : m ≠ .null) :
    Recovers (answerShape.read {}) (n + 3) (Provider.gemini.response m) ⟨[⟨some content, none⟩], none⟩ := by
  have candidate : Recovers (candidateShape.read {}) (n + 1) (.obj [("content", m)]) ⟨some content, none⟩ :=
    Shape.recovers ⟨by decide, by simp [candidateShape, Slot.apart_of]⟩ (.one (h.option present) (.skip nofun .nil))
  exact Shape.recovers ⟨by decide, by simp [answerShape, Slot.apart_of]⟩ (.one candidate.singleton (.skip nofun .nil))

theorem parse_response {c : Completion} (named : ∀ call ∈ c.toolCalls, call.id = call.name)
    (settled : ∀ call ∈ c.toolCalls, call.input.Settled (depthLimit - 7)) :
    ∃ c', parse (Provider.gemini.response (turn c).toJson).compact = .ok c' ∧
      c'.text = c.text ∧ c'.toolCalls = c.toolCalls := by
  have answer := recovers_answer (recovers_content settled) nofun
  have calls : partCalls (turn c).parts = c.toolCalls := by
    have ids : c.toolCalls.map (fun call => ToolCall.mk call.name call.name call.input) = c.toolCalls.map id := by
      refine List.map_congr_left fun ⟨ident, name, input⟩ member => ?_
      obtain rfl : ident = name := named _ member
      rfl
    rw [List.map_id] at ids
    by_cases empty : c.text = "" <;> simp [turn, partCalls, empty, List.filterMap_map, ids]
  have text : String.join (partTexts (turn c).parts) = c.text := by
    by_cases empty : c.text = "" <;> simp [turn, partTexts, empty, List.filterMap_map]
  refine ⟨⟨c.text, c.toolCalls, stopReason c.toolCalls none, 0, 0⟩, ?_, rfl, rfl⟩
  rw [parse, ofText_compact answer.readable (answer.written .bracket whole_bracket)]
  show completion ⟨[⟨some (turn c), none⟩], none⟩ = _
  simp only [completion, Option.map_some, Option.getD_some, calls, text]
  rfl

end Gemini

/-! ## Replaying a turn -/

namespace Provider

/-- The turn goes into requests as one message, and an answer that says this message has the same text
    and the same calls. -/
def Replays (p : Provider) (c : Completion) : Prop :=
  ∃ m, p.encode c.toMessage = [m] ∧
    (∀ call before after, call.messages = before ++ c.toMessage :: after →
      (p.body call).itemsAt p.messagesKey = before.flatMap p.encode ++ m :: after.flatMap p.encode) ∧
    ∃ c', p.wireFormat.parse (p.response m).compact = .ok c' ∧ c'.text = c.text ∧ c'.toolCalls = c.toolCalls

/-- Whatever text a provider answers with: if the answer calls tools, it can be replayed. -/
theorem turn_replayed (p : Provider) {text : String} {c : Completion} (h : p.wireFormat.parse text = .ok c)
    (calls : c.toolCalls ≠ []) : p.Replays c := by
  have settled := p.settled_of_parse h
  obtain ⟨m, encoded, replayed⟩ : ∃ m, p.encode c.toMessage = [m] ∧
      ∃ c', p.wireFormat.parse (p.response m).compact = .ok c' ∧ c'.text = c.text ∧ c'.toolCalls = c.toolCalls := by
    cases p with
    | openAi => exact ⟨_, OpenAi.encode_toMessage calls, OpenAi.parse_response calls settled⟩
    | anthropic => exact ⟨_, Anthropic.encode_toMessage calls, Anthropic.parse_response settled⟩
    | gemini => exact ⟨_, Gemini.encode_toMessage calls, Gemini.parse_response (identifies_parse .gemini h rfl) settled⟩
  refine ⟨m, encoded, fun call before after parts => ?_, replayed⟩
  rw [itemsAt_body, parts, List.flatMap_append, List.flatMap_cons, encoded]
  rfl

/-- An answer with a text and a call; with Gemini, a call between two texts. -/
def sampleAnswer : Provider → String
  | openAi => "\x7b\"choices\":[\x7b\"message\":\x7b\"content\":\"Wait.\",\"tool_calls\":[\x7b\"id\":\"a\"," ++
      "\"function\":\x7b\"name\":\"docs\",\"arguments\":\"[2, 1]\"\x7d\x7d]\x7d\x7d]\x7d"
  | anthropic => "\x7b\"content\":[[\"text\",\"Wait.\"]," ++
      "\x7b\"type\":\"tool_use\",\"id\":\"a\",\"name\":\"docs\",\"input\":[2, 1]\x7d]\x7d"
  | gemini => "\x7b\"candidates\":[\x7b\"content\":\x7b\"parts\":[\x7b\"text\":\"Wa\"\x7d," ++
      "\x7b\"functionCall\":\x7b\"name\":\"docs\"\x7d\x7d,\x7b\"text\":\"it.\"\x7d]\x7d\x7d]\x7d"

def callTexts (c : Completion) : List (String × String × String) :=
  c.toolCalls.map fun call => (call.id, call.name, call.input.compact)

theorem samples_replayed :
    (∃ c, openAi.wireFormat.parse openAi.sampleAnswer = .ok c ∧ c.text = "Wait." ∧
      callTexts c = [("a", "docs", "[2,1]")] ∧ openAi.Replays c) ∧
    (∃ c, anthropic.wireFormat.parse anthropic.sampleAnswer = .ok c ∧ c.text = "Wait." ∧
      callTexts c = [("a", "docs", "[2,1]")] ∧ anthropic.Replays c) ∧
    ∃ c, gemini.wireFormat.parse gemini.sampleAnswer = .ok c ∧ c.text = "Wait." ∧
      callTexts c = [("docs", "docs", "null")] ∧ gemini.Replays c := by
  -- Values cannot be compared, but their texts can.
  have said (p : Provider) (calls : List (String × String × String)) (any : calls ≠ [])
      (h : ((p.wireFormat.parse p.sampleAnswer).toOption.map fun c => (c.text, callTexts c)) = some ("Wait.", calls)) :
      ∃ c, p.wireFormat.parse p.sampleAnswer = .ok c ∧ c.toolCalls ≠ [] ∧ c.text = "Wait." ∧ callTexts c = calls := by
    obtain ⟨c, reads, same⟩ := Option.map_eq_some_iff.mp h
    obtain ⟨text, rfl⟩ := Prod.mk.inj same
    exact ⟨c, toOption_eq_some reads, fun none => any (congrArg (List.map _) none), text, rfl⟩
  obtain ⟨c, reads, made, text, calls⟩ := said openAi [("a", "docs", "[2,1]")] nofun (by decide +kernel)
  obtain ⟨c', reads', made', text', calls'⟩ := said anthropic [("a", "docs", "[2,1]")] nofun (by decide +kernel)
  obtain ⟨d, again, some, same, calling⟩ := said gemini [("docs", "docs", "null")] nofun (by decide +kernel)
  exact ⟨⟨c, reads, text, calls, turn_replayed openAi reads made⟩,
    ⟨c', reads', text', calls', turn_replayed anthropic reads' made'⟩,
    d, again, same, calling, turn_replayed gemini again some⟩

end Provider

end EventFlow
