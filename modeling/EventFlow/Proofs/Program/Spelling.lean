/-
  EventFlow.Proofs.Program.Spelling — what the lines of a program say.

  The text of a program has a line for each constant, a block of lines for each handler and three lines for
  each branch of the driver. The lines that are found in a section are those that were put there, and what
  they say is written down here without the functions that print them (`Program.Spelled`).

  Proved:
  - `Handler.spelled` / `linesAt_driver`: the lines of a handler and of the driver.
  - `Identified.spelled`: a program whose names are identifiers.
  - `program_spelled`: the program of every workflow.
-/

import EventFlow.Proofs.Program.Lines

namespace EventFlow

/-! ## What the lines say -/

def ModelInstance.construction (m : ModelInstance) (keyed : Bool) : String :=
  "new " ++ m.provider.className ++ "(\x7b model: " ++ Program.literal m.modelId ++ ", temperature: " ++
    Constant.numberText m.temperature ++ (if keyed then ", apiKey: " ++ m.provider.keyConstant else "") ++ " \x7d)"

def Constant.Spelled (c : Constant) (line : String) : Prop :=
  ∃ value, line = "const " ++ c.name ++ " = " ++ value ++ ";" ∧ ∀ m keyed, c = .model m keyed → value = m.construction keyed

/-- Lines register a handler. The first names what triggers it, and the last but one returns its result. The
    lines between them stand within the braces, and none of them returns. -/
def Handler.Spelled (h : Handler) (block : List String) : Prop :=
  ∃ parameters body value,
    block = ["workflow.handle([" ++ Text.join ", " h.triggers ++ "], async " ++ parameters ++ " => \x7b"] ++ body ++
      ["    return " ++ h.action.result ++ ".with(" ++ value ++ ");", "\x7d);"] ∧
    (∀ line ∈ body, "    ".toList <+: line.toList ∧ ¬ "    return ".toList <+: line.toList) ∧
    ∀ model tools prompt event, h.action = .consult model tools prompt event →
      body.filter ("        llm: ".toList <+: ·.toList) = ["        llm: " ++ model ++ ","]

def Answer.test (request : String) : String := "        \x7d else if (" ++ request ++ ".include(event)) \x7b"

def Answer.branch (a : Answer) : List String :=
  [ test a.request,
    "            const input = await readline.question(event.data);",
    "            sendEvent(" ++ a.event ++ ".with(input));" ]

namespace Program

def declaration (event : String) : String := "const " ++ event ++ " = workflowEvent<any>();"

def linesAt (p : Program) (i : Nat) : List String := (p.sections[i]?.map Text.lines).getD []

def mentionsEvent (line : String) : Bool := ".with(".toList <:+: line.toList || ".include(".toList <:+: line.toList

structure Spelled (p : Program) : Prop where
  rendered : p.render = Text.join "\n\n" (p.sections.filter fun s => !s.isEmpty) ++ "\n"
  constants : List.Forall₂ Constant.Spelled p.constants (p.linesAt 1)
  events : p.linesAt 4 = p.events.map declaration
  handlers : ∃ blocks, p.linesAt 5 = [""].intercalate blocks ∧ List.Forall₂ Handler.Spelled p.handlers blocks
  /-- Besides its branches the driver sends the start and tests for the stop. -/
  driver : ∃ front back, p.linesAt 6 = front ++ p.answers.flatMap Answer.branch ++ back ∧
    (front ++ back).filter mentionsEvent = ["sendEvent(startEvent.with());", "        if (stopEvent.include(event)) \x7b"]

structure Identified (p : Program) : Prop where
  constants : ∀ c ∈ p.constants, Identifier c.name
  events : ∀ c ∈ p.events, Identifier c
  triggers : ∀ h ∈ p.handlers, ∀ c ∈ h.triggers, Identifier c
  results : ∀ h ∈ p.handlers, Identifier h.action.result
  consulted : ∀ h ∈ p.handlers, ∀ model tools prompt event, h.action = .consult model tools prompt event →
    Identifier model ∧ ∀ t ∈ tools, Identifier t
  answers : ∀ a ∈ p.answers, Identifier a.request ∧ Identifier a.event

end Program

/-! ## Sections -/

open Text

theorem Constant.spelled (c : Constant) : c.Spelled c.render := by
  refine ⟨c.value, rfl, ?_⟩
  rintro m keyed rfl
  rfl

theorem ModelInstance.unbroken_construction (m : ModelInstance) (keyed : Bool) : Unbroken (m.construction keyed) := by
  have provider : Unbroken m.provider.className ∧ Unbroken m.provider.keyConstant := by
    cases m.provider <;> exact ⟨unbroken_ofList (by decide), unbroken_ofList (by decide)⟩
  have number : Unbroken (Constant.numberText m.temperature) := by
    rw [Unbroken, Constant.numberText, String.toList_ofList]
    exact unbroken_write _ _ _
  have key : Unbroken (if keyed then ", apiKey: " ++ m.provider.keyConstant else "") := by
    cases keyed with
    | false => exact unbroken_ofList (by decide)
    | true => exact unbroken_append.mpr ⟨unbroken_ofList (by decide), provider.2⟩
  have labels : Unbroken "new " ∧ Unbroken "(\x7b model: " ∧ Unbroken ", temperature: " ∧ Unbroken " \x7d)" :=
    ⟨unbroken_ofList (by decide), unbroken_ofList (by decide), unbroken_ofList (by decide), unbroken_ofList (by decide)⟩
  simp only [construction, unbroken_append, labels, provider, Program.unbroken_literal, number, key, and_self]

theorem Constant.unbroken_render {c : Constant} (named : Program.Identifier c.name) : Unbroken c.render := by
  have value : Unbroken c.value := by
    cases c with
    | retrievalKey key =>
      cases key with
      | none => exact unbroken_append.mpr ⟨unbroken_append.mpr ⟨by decide, by decide⟩, unbroken_ofList (by decide)⟩
      | some key => exact Program.unbroken_literal key
    | index t => exact Program.unbroken_literal t.index
    | providerKey p key => exact Program.unbroken_literal key
    | model m keyed => exact m.unbroken_construction keyed
  have labels : Unbroken "const " ∧ Unbroken " = " ∧ Unbroken ";" :=
    ⟨unbroken_ofList (by decide), unbroken_ofList (by decide), unbroken_ofList (by decide)⟩
  simp only [render, unbroken_append, labels, named.unbroken, value, and_self]

namespace Handler

variable {model : String} {tools : List String} {systemPrompt : Option String}

/-! ### Agents -/

/-- The lines that run an agent, up to the one that returns. -/
def agentLines (model : String) (tools : List String) (systemPrompt : Option String) : List String :=
  ["    const configuredAgent = agent(\x7b", "        llm: " ++ model ++ ",", "        tools: [" ++ join ", " tools ++ "],"] ++
    (systemPrompt.map fun p => "        systemPrompt: " ++ Program.literal p ++ ",").toList ++
    ["    \x7d);", "    const result = await configuredAgent.run(ctx.data);"]

theorem body_consult (event : String) : body (.consult model tools systemPrompt event) =
    agentLines model tools systemPrompt ++ [sending event "result.data.result"] := by
  cases systemPrompt <;> rfl

def Inner (line : String) : Prop := "    ".toList <+: line.toList ∧ ¬ "    return ".toList <+: line.toList

theorem inner_ofList {line : List Char} (within : [' ', ' ', ' ', ' '] <+: line)
    (goesOn : ¬ [' ', ' ', ' ', ' ', 'r', 'e', 't', 'u', 'r', 'n', ' '] <+: line) : Inner (String.ofList line) :=
  ⟨begins_ofList.mpr within, mt begins_ofList.mp goesOn⟩

theorem inner_append {first : List Char} (rest : String) (long : 11 ≤ first.length) (within : [' ', ' ', ' ', ' '] <+: first)
    (goesOn : ¬ [' ', ' ', ' ', ' ', 'r', 'e', 't', 'u', 'r', 'n', ' '] <+: first) : Inner (String.ofList first ++ rest) :=
  ⟨(begins_append rest (by exact Nat.le_trans (by decide) long)).mpr within, mt (begins_append rest (by exact long)).mp goesOn⟩

theorem inner_agentLines : ∀ line ∈ agentLines model tools systemPrompt, Inner line := by
  refine List.forall_mem_append.mpr ⟨List.forall_mem_append.mpr ⟨?_, ?_⟩, ?_⟩
  · refine List.forall_mem_cons.mpr ⟨inner_ofList (by decide) (by decide), ?_⟩
    refine List.forall_mem_cons.mpr ⟨?_, List.forall_mem_singleton.mpr ?_⟩
    · rewrite [String.append_assoc]
      exact inner_append _ (by decide) (by decide) (by decide)
    · rewrite [String.append_assoc]
      exact inner_append _ (by decide) (by decide) (by decide)
  · intro line hline
    obtain ⟨prompt, -, rfl⟩ := Option.mem_map.mp (Option.mem_toList.mp hline)
    rewrite [String.append_assoc]
    exact inner_append _ (by decide) (by decide) (by decide)
  · exact List.forall_mem_cons.mpr
      ⟨inner_ofList (by decide) (by decide), List.forall_mem_singleton.mpr (inner_ofList (by decide) (by decide))⟩

/-- One line names the model. -/
theorem filter_agentLines : (agentLines model tools systemPrompt).filter ("        llm: ".toList <+: ·.toList) =
    ["        llm: " ++ model ++ ","] := by
  have own : "        llm: ".toList <+: ("        llm: " ++ model ++ ",").toList := by
    rewrite [String.append_assoc]
    exact (begins_append _ (by decide)).mpr (by decide)
  have listed : ¬ "        llm: ".toList <+: ("        tools: [" ++ join ", " tools ++ "],").toList := by
    rewrite [String.append_assoc]
    exact mt (begins_append _ (by decide)).mp (by decide)
  have prompt : (systemPrompt.map fun p => "        systemPrompt: " ++ Program.literal p ++ ",").toList.filter
      ("        llm: ".toList <+: ·.toList) = [] := by
    refine List.filter_eq_nil_iff.mpr fun line hline begins => ?_
    obtain ⟨prompt, -, rfl⟩ := Option.mem_map.mp (Option.mem_toList.mp hline)
    rw [decide_eq_true_eq, String.append_assoc, begins_append _ (by decide)] at begins
    exact absurd begins (by decide)
  have others : ["    \x7d);", "    const result = await configuredAgent.run(ctx.data);"].filter
      ("        llm: ".toList <+: ·.toList) = [] := by decide +kernel
  rw [agentLines, List.filter_append, List.filter_append, prompt, others, List.filter_cons_of_neg (by decide +kernel),
    List.filter_cons_of_pos (by exact decide_eq_true own), List.filter_cons_of_neg (by exact mt of_decide_eq_true listed)]
  rfl

theorem unbroken_agentLines (hmodel : Program.Identifier model) (htools : ∀ t ∈ tools, Program.Identifier t) :
    ∀ line ∈ agentLines model tools systemPrompt, Unbroken line := by
  have listed := unbroken_join (by decide : Unbroken ", ") fun t ht => (htools t ht).unbroken
  refine List.forall_mem_append.mpr ⟨List.forall_mem_append.mpr ⟨?_, ?_⟩, ?_⟩
  · refine List.forall_mem_cons.mpr ⟨unbroken_ofList (by decide), ?_⟩
    exact List.forall_mem_cons.mpr ⟨unbroken_around (by decide) hmodel.unbroken,
      List.forall_mem_singleton.mpr (unbroken_around (by decide) listed)⟩
  · intro line hline
    obtain ⟨prompt, -, rfl⟩ := Option.mem_map.mp (Option.mem_toList.mp hline)
    exact unbroken_around (by decide) (Program.unbroken_literal prompt)
  · exact List.forall_mem_cons.mpr ⟨unbroken_ofList (by decide), List.forall_mem_singleton.mpr (unbroken_ofList (by decide))⟩

/-! ### All handlers -/

variable {h : Handler}

def block (h : Handler) : List String :=
  ["workflow.handle([" ++ join ", " h.triggers ++ "], async " ++ parameters h.action ++ " => \x7b"] ++ body h.action ++
    ["\x7d);"]

theorem spelled (h : Handler) : h.Spelled h.block := by
  obtain ⟨triggers, action⟩ := h
  cases action with
  | forward event => exact ⟨"(ctx)", [], "ctx.data", rfl, by simp, nofun⟩
  | ask request prompt => exact ⟨"()", [], Program.literal prompt, rfl, by simp, nofun⟩
  | consult model tools systemPrompt event =>
    refine ⟨"(ctx)", agentLines model tools systemPrompt, "result.data.result", ?_, inner_agentLines, ?_⟩
    · cases systemPrompt <;> rfl
    · rintro _ _ _ _ same
      cases same
      exact filter_agentLines

theorem block_ne_nil (h : Handler) : h.block ≠ [] := List.cons_ne_nil _ _

theorem unbroken_block (triggers : ∀ c ∈ h.triggers, Program.Identifier c) (result : Program.Identifier h.action.result)
    (consulted : ∀ model tools prompt event, h.action = .consult model tools prompt event →
      Program.Identifier model ∧ ∀ t ∈ tools, Program.Identifier t) : ∀ line ∈ h.block, Unbroken line := by
  have first : Unbroken (join ", " h.triggers) := unbroken_join (by decide) fun c hc => (triggers c hc).unbroken
  have parameters : Unbroken (parameters h.action) := by
    cases h.action with
    | ask => exact (by decide : Unbroken "()")
    | _ => exact (by decide : Unbroken "(ctx)")
  have sends {event value : String} (hevent : Program.Identifier event) (hvalue : Unbroken value) :
      Unbroken (sending event value) := by
    have labels : Unbroken "    return " ∧ Unbroken ".with(" ∧ Unbroken ");" :=
      ⟨unbroken_ofList (by decide), unbroken_ofList (by decide), unbroken_ofList (by decide)⟩
    show Unbroken ("    return " ++ event ++ ".with(" ++ value ++ ");")
    simp only [unbroken_append, labels, hevent.unbroken, hvalue, and_self]
  have body : ∀ line ∈ body h.action, Unbroken line := by
    cases action : h.action with
    | forward event =>
      rw [action] at result
      exact List.forall_mem_singleton.mpr (sends result (by decide))
    | ask request prompt =>
      rw [action] at result
      exact List.forall_mem_singleton.mpr (sends result (Program.unbroken_literal prompt))
    | consult model tools systemPrompt event =>
      rw [action] at result
      obtain ⟨model, tools⟩ := consulted _ _ _ _ action
      rw [body_consult]
      exact List.forall_mem_append.mpr
        ⟨unbroken_agentLines model tools, List.forall_mem_singleton.mpr (sends result (unbroken_ofList (by decide)))⟩
  refine List.forall_mem_append.mpr ⟨List.forall_mem_append.mpr ⟨List.forall_mem_singleton.mpr ?_, body⟩, by decide⟩
  simp +decide [first, parameters]

end Handler

namespace Program

variable {p : Program}

theorem linesAt_driver (identified : p.Identified) : ∃ front back,
    p.linesAt 6 = front ++ p.answers.flatMap Answer.branch ++ back ∧
      (front ++ back).filter mentionsEvent = ["sendEvent(startEvent.with());", "        if (stopEvent.include(event)) \x7b"] := by
  obtain ⟨front, back, written, unbroken, mentions⟩ : ∃ front back,
      p.driver = join "\n" (front ++ p.answers.flatMap Answer.branch ++ back) ∧ (∀ line ∈ front ++ back, Unbroken line) ∧
      (front ++ back).filter mentionsEvent =
        ["sendEvent(startEvent.with());", "        if (stopEvent.include(event)) \x7b"] := by
    have regroup (a b c d e : List String) : a ++ b ++ c ++ d ++ e = a ++ b ++ (c ++ d ++ e) := by
      simp only [List.append_assoc]
    unfold driver
    refine ⟨_, _, congrArg (join "\n") (regroup _ (p.answers.flatMap Answer.branch) _ _ _), ?_⟩
    generalize p.readsInput = reads
    revert reads
    decide +kernel
  have answers : ∀ line ∈ p.answers.flatMap Answer.branch, Unbroken line := by
    intro line hline
    obtain ⟨a, ha, hline⟩ := List.mem_flatMap.mp hline
    obtain ⟨request, event⟩ := identified.answers a ha
    simp only [Answer.branch, List.mem_cons, List.not_mem_nil, or_false] at hline
    rcases hline with rfl | rfl | rfl
    · exact unbroken_around (by decide) request.unbroken
    · exact unbroken_ofList (by decide)
    · exact unbroken_around (by decide) event.unbroken
  refine ⟨front, back, ?_, mentions⟩
  show lines p.driver = _
  rw [written]
  refine lines_join ?_ ?_
  · intro line hline
    rcases List.mem_append.mp hline with hline | hline
    · rcases List.mem_append.mp hline with hline | hline
      · exact unbroken line (List.mem_append_left _ hline)
      · exact answers line hline
    · exact unbroken line (List.mem_append_right _ hline)
  · intro blank
    have sends : "sendEvent(startEvent.with());" ∈ front ++ p.answers.flatMap Answer.branch ++ back := by
      have sends : "sendEvent(startEvent.with());" ∈ front ++ back :=
        (List.mem_filter.mp (mentions ▸ List.mem_cons_self)).1
      rcases List.mem_append.mp sends with sends | sends
      · exact List.mem_append_left _ (List.mem_append_left _ sends)
      · exact List.mem_append_right _ sends
    rw [blank] at sends
    exact absurd sends (by decide)

theorem linesAt_constants (identified : p.Identified) : p.linesAt 1 = p.constants.map Constant.render := by
  refine lines_join_of_full ?_ ?_
  · exact List.forall_mem_map.mpr fun c hc => Constant.unbroken_render (identified.constants c hc)
  · exact List.forall_mem_map.mpr fun c _ => by simp [Constant.render]

theorem linesAt_events (identified : p.Identified) : p.linesAt 4 = p.events.map declaration := by
  refine lines_join_of_full ?_ ?_
  · exact List.forall_mem_map.mpr fun c hc => unbroken_around (by decide) (identified.events c hc).unbroken
  · exact List.forall_mem_map.mpr fun c _ => by simp [renderEvent]

theorem linesAt_handlers (identified : p.Identified) : p.linesAt 5 = [""].intercalate (p.handlers.map Handler.block) := by
  have joined := join_blocks (List.forall_mem_map.mpr fun h (_ : h ∈ p.handlers) => h.block_ne_nil)
  rw [List.map_map] at joined
  refine (congrArg lines joined).trans (lines_join ?_ ?_)
  · intro line hline
    rcases mem_blocks_iff.mp hline with ⟨b, hb, hline⟩ | ⟨rfl, -⟩
    · obtain ⟨h, hh, rfl⟩ := List.mem_map.mp hb
      exact h.unbroken_block (identified.triggers h hh) (identified.results h hh) (identified.consulted h hh) line hline
    · decide
  · intro blank
    cases handlers : p.handlers with
    | nil => simp [handlers] at blank
    | cons h rest =>
      have first : h.block ∈ p.handlers.map Handler.block := by simp [handlers]
      have long := (infix_blocks first).length_le
      rw [blank] at long
      simp [Handler.block] at long

/-- The sections of a program whose names are identifiers. -/
theorem Identified.spelled (identified : p.Identified) : p.Spelled := by
  constructor
  case rendered => rfl
  case constants =>
    rw [linesAt_constants identified, List.forall₂_map_right_iff, List.forall₂_same]
    exact fun c _ => c.spelled
  case events => exact linesAt_events identified
  case handlers =>
    refine ⟨_, linesAt_handlers identified, ?_⟩
    rw [List.forall₂_map_right_iff, List.forall₂_same]
    exact fun h _ => h.spelled
  case driver => exact linesAt_driver identified

end Program

/-! ## One line for a name -/

theorem eq_of_prefix_cut {α : Type} {a b x y : List α} {c : α} (ha : c ∉ a) (hb : c ∉ b)
    (h : a ++ c :: x <+: b ++ c :: y) : a = b := by
  induction a generalizing b with
  | nil =>
    cases b with
    | nil => rfl
    | cons d b =>
      obtain ⟨rfl, -⟩ := List.cons_prefix_cons.mp h
      exact absurd List.mem_cons_self hb
  | cons d a ih =>
    cases b with
    | nil =>
      obtain ⟨rfl, -⟩ := List.cons_prefix_cons.mp h
      exact absurd List.mem_cons_self ha
    | cons d' b =>
      obtain ⟨rfl, rest⟩ := List.cons_prefix_cons.mp h
      rw [ih (List.not_mem_of_not_mem_cons ha) (List.not_mem_of_not_mem_cons hb) rest]

/-- How the declaration of a name begins tells the name. -/
theorem Constant.Spelled.begins_iff {c : Constant} {line name : String} (spelled : c.Spelled line)
    (hc : Program.Identifier c.name) (hname : Program.Identifier name) :
    ("const " ++ name ++ " = ").toList <+: line.toList ↔ c.name = name := by
  obtain ⟨value, rfl, -⟩ := spelled
  have front : ("const " ++ name ++ " = ").toList = "const ".toList ++ (name.toList ++ ' ' :: ['=', ' ']) := by
    simp only [String.toList_append, List.append_assoc]
    rfl
  have whole : ("const " ++ c.name ++ " = " ++ value ++ ";").toList =
      "const ".toList ++ (c.name.toList ++ ' ' :: (['=', ' '] ++ (value ++ ";").toList)) := by
    simp only [String.toList_append, List.append_assoc]
    rfl
  rw [front, whole]
  constructor
  · intro h
    have h := (List.prefix_append_right_inj _).mp h
    exact String.toList_inj.mp (eq_of_prefix_cut (hname.not_mem (by decide)) (hc.not_mem (by decide)) h).symm
  · rintro rfl
    exact (List.prefix_append_right_inj _).mpr ((List.prefix_append_right_inj _).mpr ⟨_, rfl⟩)

/-- Lines that register an agent name its model. -/
theorem Handler.Spelled.mem_llm {h : Handler} {block : List String} (spelled : h.Spelled block) {model : String}
    {tools : List String} {prompt : Option String} {event : String} (consults : h.action = .consult model tools prompt event) :
    "        llm: " ++ model ++ "," ∈ block := by
  obtain ⟨parameters, body, value, rfl, -, llm⟩ := spelled
  have line : "        llm: " ++ model ++ "," ∈ body.filter ("        llm: ".toList <+: ·.toList) :=
    llm _ _ _ _ consults ▸ List.mem_cons_self
  exact List.mem_append_left _ (List.mem_append_right _ (List.mem_of_mem_filter line))

namespace Program

variable {p : Program}

theorem Spelled.count_declaration (spelled : p.Spelled) (c : String) :
    (p.linesAt 4).count (declaration c) = p.events.count c := by
  have injective : Function.Injective declaration := fun a b same =>
    (String.append_right_inj _).mp ((String.append_left_inj _).mp same)
  rw [spelled.events, List.count_map_of_injective _ _ injective]

theorem Spelled.exists_block (spelled : p.Spelled) {h : Handler} (hh : h ∈ p.handlers) :
    ∃ block, block <:+: p.linesAt 5 ∧ h.Spelled block := by
  obtain ⟨blocks, written, beside⟩ := spelled.handlers
  obtain ⟨i, inside, rfl⟩ := List.getElem_of_mem hh
  have inside' : i < blocks.length := beside.length_eq ▸ inside
  rw [written]
  exact ⟨blocks[i], infix_blocks (List.getElem_mem inside'), beside.get inside inside'⟩

/-- A model with one declaration among the constants has one line. -/
theorem Spelled.model_line (spelled : p.Spelled) (identified : p.Identified) {m : ModelInstance} {keyed : Bool}
    (once : p.constants.filter (·.name = m.name) = [.model m keyed]) :
    (p.linesAt 1).filter (("const " ++ m.name ++ " = ").toList <+: ·.toList) =
      ["const " ++ m.name ++ " = " ++ m.construction keyed ++ ";"] := by
  have named : Identifier m.name := by
    have member : Constant.model m keyed ∈ p.constants.filter (·.name = m.name) := once ▸ List.mem_cons_self
    exact identified.constants _ (List.mem_of_mem_filter member)
  have beside : List.Forall₂ (fun c line => Identifier c.name ∧ c.Spelled line) p.constants (p.linesAt 1) :=
    (List.forall₂_and_left _ _).mpr ⟨identified.constants, spelled.constants⟩
  have kept := List.rel_filter (p := fun c : Constant => decide (c.name = m.name))
    (q := fun line : String => decide (("const " ++ m.name ++ " = ").toList <+: line.toList))
    (fun c line h => by simpa only [decide_eq_true_eq] using (h.2.begins_iff h.1 named).symm) beside
  rw [once] at kept
  obtain ⟨line, rest, ⟨-, value, rfl, reads⟩, none, lines⟩ := List.forall₂_cons_left_iff.mp kept
  rw [List.forall₂_nil_left_iff.mp none, reads m keyed rfl] at lines
  exact lines

theorem mentionsEvent_test (request : String) : mentionsEvent (Answer.test request) = true := by
  have split : (Answer.test request).toList = ("        \x7d else if (" ++ request).toList ++ ".include(event)) \x7b".toList :=
    String.toList_append
  have closing : ".include(".toList <+: ".include(event)) \x7b".toList := begins_ofList.mpr (by decide)
  have tests : ".include(".toList <:+: (Answer.test request).toList :=
    split ▸ closing.isInfix.trans (List.suffix_append _ _).isInfix
  exact (Bool.or_eq_true _ _).mpr (.inr (decide_eq_true tests))

theorem begins_test (request : String) : "        \x7d".toList <+: (Answer.test request).toList := by
  have split : Answer.test request = "        \x7d else if (" ++ (request ++ ".include(event)) \x7b") :=
    String.append_assoc
  exact split ▸ (begins_append _ (by decide)).mpr (by decide)

/-- A branch tests for its own request alone. -/
theorem test_mem_branch_iff {a : Answer} {request : String} : Answer.test request ∈ a.branch ↔ a.request = request := by
  have other {line : String} (differs : ¬ "        \x7d".toList <+: line.toList) : Answer.test request ≠ line := by
    rintro rfl
    exact differs (begins_test request)
  constructor
  · intro member
    rcases List.mem_cons.mp member with same | member
    · exact ((String.append_right_inj _).mp ((String.append_left_inj _).mp same)).symm
    rcases List.mem_cons.mp member with reads | member
    · exact absurd reads (other (mt begins_ofList.mp (by decide)))
    · refine absurd (List.mem_singleton.mp member) (other ?_)
      rewrite [String.append_assoc]
      exact mt (begins_append _ (by decide)).mp (by decide)
  · rintro rfl
    exact List.mem_cons_self

/-- A request with one branch among the answers has one in the driver. -/
theorem Spelled.branch_once (spelled : p.Spelled) {a : Answer} (once : p.answers.filter (·.request = a.request) = [a]) :
    ∃ before after, p.linesAt 6 = before ++ a.branch ++ after ∧ Answer.test a.request ∉ before ++ after := by
  obtain ⟨front, back, written, mentions⟩ := spelled.driver
  obtain ⟨earlier, later, answers, unlike, -, unlike'⟩ := List.filter_eq_cons_iff.mp once
  have foreign : Answer.test a.request ∉ front ++ back := by
    intro member
    have fixed : Answer.test a.request ∈ (front ++ back).filter mentionsEvent :=
      List.mem_filter.mpr ⟨member, mentionsEvent_test _⟩
    rw [mentions] at fixed
    simp only [List.mem_cons, List.not_mem_nil, or_false] at fixed
    rcases fixed with start | stop
    · exact absurd (start ▸ begins_test a.request) (by decide)
    · exact absurd (stop ▸ begins_test a.request) (by decide)
  have others {l : List Answer} (unlike : ∀ x ∈ l, x.request ≠ a.request) : Answer.test a.request ∉ l.flatMap Answer.branch := by
    intro member
    obtain ⟨x, hx, member⟩ := List.mem_flatMap.mp member
    exact unlike x hx (test_mem_branch_iff.mp member)
  refine ⟨front ++ earlier.flatMap Answer.branch, later.flatMap Answer.branch ++ back, ?_, ?_⟩
  · rw [written, answers]
    simp only [List.flatMap_append, List.flatMap_cons, List.append_assoc]
  · simp only [List.mem_append, not_or] at foreign ⊢
    refine ⟨⟨foreign.1, others fun x hx same => unlike x hx (decide_eq_true same)⟩, others fun x hx same => ?_, foreign.2⟩
    exact List.filter_eq_nil_iff.mp unlike' x hx (decide_eq_true same)

end Program

/-! ## Programs of workflows -/

theorem identifier_numbered {base : String} (h : Program.Identifier base) (k : Nat) :
    Program.Identifier (numbered "_" base k) := by
  cases k with
  | zero => exact h
  | succ k =>
    have digits : Program.Identifier (toString (k + 2)) := by
      refine List.all_eq_true.mpr fun c hc => ?_
      rw [Nat.toString_eq_repr, Nat.toList_repr] at hc
      simp [Event.isIdentChar, isAlphanumeric, Outline.digits_toDigits _ _ hc]
    exact Program.identifier_append.mpr ⟨Program.identifier_append.mpr ⟨h, (by decide : Program.Identifier "_")⟩, digits⟩

namespace Workflow

variable {w : Workflow}

theorem identifier_get (w : Workflow) (e : Event) : Program.Identifier (w.eventNames.get e) := by
  by_cases named : e ∈ w.eventNames.map (·.1)
  · obtain ⟨k, same⟩ := EventNames.get_numbered w.eventNames_sound named
    rw [same]
    exact identifier_numbered (identifier_event e) k
  · have unknown : w.eventNames.find? (·.1 = e) = none := by
      refine List.find?_eq_none.mpr fun entry hentry same => named ?_
      exact List.mem_map.mpr ⟨entry, hentry, of_decide_eq_true same⟩
    rw [EventNames.get, unknown]
    exact identifier_event e

theorem identifier_request (w : Workflow) (e : Event) : Program.Identifier (w.eventNames.request e) :=
  Program.identifier_append.mpr ⟨(by decide : Program.Identifier "need_input_for_"), w.identifier_get e⟩

theorem identifier_modelName (w : Workflow) (id : String) : Program.Identifier (w.modelName w.models id) := by
  have usual : Program.Identifier "llm" := by decide
  unfold modelName
  split
  · next c _ =>
    dsimp only
    cases found : findModel? w.models (w.providerFor c.llm) (agentModelId (w.providerFor c.llm) c) with
    | none => exact usual
    | some m => exact Program.identifier_of_alphanumeric (w.models_sound.clean m (List.mem_of_find?_eq_some found))
  · exact usual

theorem identifier_toolName (t : IndexTool) : Program.Identifier t.toolName :=
  Program.identifier_append.mpr ⟨(by decide : Program.Identifier "search_index_"), Program.identifier_ident t.spec.id⟩

/-- Models are declared after all other constants. -/
theorem constants_split (w : Workflow) : ∃ others, w.program.constants =
    others ++ w.models.map (fun m => Constant.model m (w.settings.apiKey m.provider).isSome) ∧
      ∀ c ∈ others, ∀ m keyed, c ≠ .model m keyed := by
  refine ⟨_, rfl, fun c hc m keyed same => ?_⟩
  subst same
  simp only [List.mem_append, List.mem_map, List.mem_filterMap, Option.map_eq_some_iff, reduceCtorEq, and_false,
    exists_false, or_false] at hc
  split at hc
  · simp at hc
  · split at hc <;> simp at hc

theorem mem_constants_model {m : ModelInstance} {keyed : Bool} (h : .model m keyed ∈ w.program.constants) :
    m ∈ w.models ∧ keyed = (w.settings.apiKey m.provider).isSome := by
  obtain ⟨others, split, different⟩ := w.constants_split
  rw [split] at h
  rcases List.mem_append.mp h with other | model
  · exact absurd rfl (different _ other m keyed)
  · obtain ⟨m', hm, same⟩ := List.mem_map.mp model
    cases same
    exact ⟨hm, rfl⟩

theorem identified_constants : ∀ c ∈ w.program.constants, Program.Identifier c.name := by
  have key : Program.Identifier retrievalKeyConstant := by decide
  intro c hc
  cases c with
  | retrievalKey value => exact key
  | index t =>
    exact Program.identifier_append.mpr
      ⟨(by decide : Program.Identifier "LLAMACLOUD_INDEX_ID_"), Program.identifier_ident t.spec.id⟩
  | providerKey p value =>
    have keys : ∀ p : Provider, Program.Identifier p.keyConstant := by rintro (_ | _ | _) <;> decide
    exact keys p
  | model m keyed => exact Program.identifier_of_alphanumeric (w.models_sound.clean m (mem_constants_model hc).1)

theorem handler?_eq_some_iff {names : EventNames} {models : List ModelInstance} {tools : List IndexTool} {s : Step}
    {h : Handler} : w.handler? names models tools s = some h ↔
    h.triggers = triggers names s ∧ h.triggers ≠ [] ∧ w.action? names models tools s = some h.action := by
  obtain ⟨ts, a⟩ := h
  unfold handler?
  split
  · next untriggered =>
    rw [untriggered]
    exact ⟨nofun, fun ⟨same, triggered, _⟩ => absurd same triggered⟩
  · next triggered =>
    simp only [Option.map_eq_some_iff, Handler.mk.injEq]
    constructor
    · rintro ⟨a, acts, rfl, rfl⟩
      exact ⟨rfl, triggered, acts⟩
    · rintro ⟨rfl, -, acts⟩
      exact ⟨a, acts, rfl, rfl⟩

/-- What the action of a step names. -/
theorem identified_action {s : Step} {a : Action} (acts : w.action? w.eventNames w.models w.indexTools s = some a) :
    Program.Identifier a.result ∧ ∀ model tools prompt event, a = .consult model tools prompt event →
      Program.Identifier model ∧ ∀ t ∈ tools, Program.Identifier t := by
  unfold action? at acts
  split at acts
  · cases acts
    exact ⟨by decide, nofun⟩
  · cases acts
  · next c e _ _ =>
    cases acts
    exact ⟨w.identifier_request e, nofun⟩
  · next c e _ _ =>
    cases acts
    refine ⟨w.identifier_get e, ?_⟩
    rintro model tools prompt event same
    cases same
    refine ⟨w.identifier_modelName s.id, ?_⟩
    intro name member
    obtain ⟨t, -, rfl⟩ := List.mem_map.mp member
    exact identifier_toolName t
  · cases acts
    exact ⟨w.identifier_get _, nofun⟩
  · cases acts

theorem program_identified (w : Workflow) : w.program.Identified := by
  constructor
  case constants => exact identified_constants
  case events =>
    intro c hc
    rcases mem_foldl_new_iff.mp hc with none | hc
    · cases none
    rcases List.mem_append.mp hc with ends | hc
    · have fixed : ∀ c ∈ [Program.startEvent, Program.stopEvent], Program.Identifier c := by decide
      exact fixed c ends
    · obtain ⟨s, -, hc⟩ := List.mem_flatMap.mp hc
      rcases List.mem_append.mp hc with event | request
      · obtain ⟨e, -, rfl⟩ := List.mem_map.mp event
        exact w.identifier_get e
      · split at request
        · rw [List.mem_singleton.mp request]
          exact w.identifier_request _
        · cases request
  case triggers =>
    intro h hh c hc
    obtain ⟨s, -, handled⟩ := List.mem_filterMap.mp hh
    rw [(handler?_eq_some_iff.mp handled).1, triggers] at hc
    split at hc
    · rw [List.mem_singleton.mp hc]
      decide
    · obtain ⟨e, -, rfl⟩ := List.mem_map.mp hc
      exact w.identifier_get e
  case results =>
    intro h hh
    obtain ⟨s, -, handled⟩ := List.mem_filterMap.mp hh
    exact (identified_action (handler?_eq_some_iff.mp handled).2.2).1
  case consulted =>
    intro h hh
    obtain ⟨s, -, handled⟩ := List.mem_filterMap.mp hh
    exact (identified_action (handler?_eq_some_iff.mp handled).2.2).2
  case answers =>
    intro a ha
    obtain ⟨s, -, answered⟩ := List.mem_filterMap.mp ha
    unfold answer? at answered
    split at answered
    · cases answered
      exact ⟨w.identifier_request _, w.identifier_get _⟩
    · cases answered

theorem program_spelled (w : Workflow) : w.program.Spelled := w.program_identified.spelled

theorem generate_of_mem {s : Step} (hs : s ∈ w.steps) : w.generate = w.program.render := by
  have some : w.steps.isEmpty = false := List.isEmpty_eq_false_iff.mpr (List.ne_nil_of_mem hs)
  rw [generate, some]
  rfl

end Workflow
end EventFlow
