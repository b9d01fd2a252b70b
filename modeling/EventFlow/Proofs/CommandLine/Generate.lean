/-
  EventFlow.Proofs.CommandLine.Generate — a program from a graph, and from the workflow printed for it.

  Generating takes a text with an `edges` entry for a graph and any other for a workflow. What compiling
  prints has no such entry and is read back, so the program of a printed workflow is that of the compiled
  one. A graph with an `edges` entry is compiled again and gives the same program.

  A graph may also do without its edges, since both of its entries may be missing. Then generating takes
  it for a workflow: its nodes become steps as they stand, also those that no edge leads to. And what is
  printed for an agent with an infinite temperature has none (`generate_differs`).

  Proved:
  - `workflowOfText_pretty`: the text of a workflow is taken for that workflow.
  - `workflowOfText_graph`: a text with edges is taken for a graph.
  - `generate_agrees`: the two programs.
-/

import EventFlow.CommandLine
import EventFlow.Proofs.Program.Temperature

namespace EventFlow

open Outline in
/-- Sorting the keys of an object brings in no new ones. -/
theorem Json.field?_sorted {key : String} {fields : List (String × Json)} (absent : key ∉ fields.map (·.1)) :
    (Json.obj fields).sorted.field? key = none := by
  rw [Json.sorted, Json.ofDictionary, Json.field?, Option.map_eq_none_iff, List.find?_eq_none]
  intro e member
  have among : e.1 ∈ (Json.sortedEntries fields).map (·.1) := List.mem_map_of_mem (Dictionary.mem_ofEntries member)
  rw [Json.keys_sortedEntries] at among
  rw [decide_eq_true_eq]
  rintro rfl
  exact absent among

namespace CommandLine

/-- What a report puts out: the text of its file or, without one, its output. -/
def Report.printed (r : Report) : String :=
  match r.file with
  | some (_, text) => text
  | none => r.output

theorem newline_blank : ∀ c ∈ ['\n'], Outline.isSpace c = true := by
  intro c hc
  rw [List.mem_singleton.mp hc]
  rfl

theorem printed_ofText (path : Option String) (text : String) : ∃ blanks : List Char,
    (∀ c ∈ blanks, Outline.isSpace c = true) ∧ (Report.ofText path text).printed = String.ofList (text.toList ++ blanks) := by
  cases path with
  | some path =>
    refine ⟨[], List.forall_mem_nil _, ?_⟩
    rw [List.append_nil, String.ofList_toList]
    rfl
  | none =>
    refine ⟨['\n'], newline_blank, ?_⟩
    rw [String.ofList_append, String.ofList_toList]
    rfl

namespace Setup

variable (s : Setup)

/-- The text of a workflow is taken for that workflow, with blanks behind it too. -/
theorem workflowOfText_pretty (w : Workflow) {blanks : List Char} (blank : ∀ c ∈ blanks, Outline.isSpace c = true) :
    s.workflowOfText (String.ofList (w.toJson.pretty.toList ++ blanks)) = .ok w.withoutInfinite := by
  have value : Reader.ofText Reader.json (String.ofList (w.toJson.pretty.toList ++ blanks)) = .ok w.toJson.sorted :=
    Reader.ofText_pretty (w.recovers 121).readable (Reader.json_ofTree Reader.whole_bracket _) blank
  have noEdges : w.toJson.sorted.field? "edges" = none := Json.field?_sorted (by simp)
  rw [workflowOfText, value]
  simp only [noEdges, Option.isSome_none, Bool.false_eq_true, if_false, w.ofJsonText_pretty blank]
  rfl

/-- A text with edges is taken for a graph. -/
theorem workflowOfText_graph {text : String} {value : Json} (reads : Reader.ofText Reader.json text = .ok value)
    (edges : (value.field? "edges").isSome = true) :
    s.workflowOfText text = orTrouble ((Graph.ofJsonText text).bind s.compile) := by
  rw [workflowOfText, reads]
  simp only [edges, if_true]

/-- A file compiles if it holds a graph that does. -/
theorem compileFile_eq_ok_iff {s : Setup} {path text : String} (file : s.files path = .ok text) {w : Workflow} :
    s.compileFile path = .ok w ↔ ∃ g, Graph.ofJsonText text = .ok g ∧ s.compile g = .ok w := by
  have passed {r : Result Workflow} : orTrouble r = .ok w ↔ r = .ok w := by
    cases r with
    | error f => exact ⟨nofun, nofun⟩
    | ok w' => exact ⟨fun h => by cases h; rfl, fun h => by cases h; rfl⟩
  unfold compileFile
  simp only [file]
  cases Graph.ofJsonText text with
  | error f => exact ⟨nofun, fun ⟨g, h, _⟩ => nomatch h⟩
  | ok g =>
    refine passed.trans ⟨fun h => ⟨g, rfl, h⟩, ?_⟩
    rintro ⟨g', same, h⟩
    cases same
    exact h

theorem compile_eq_ok {s : Setup} {g : Graph} {w : Workflow} (h : s.compile g = .ok w) :
    ∃ configs, g.compile s.config.settings configs s.order = .ok w := by
  unfold compile at h
  cases loaded : loadToolConfigs s.files s.toolConfigs with
  | error f => rw [loaded] at h; cases h
  | ok configs =>
    rw [loaded] at h
    exact ⟨configs, h⟩

end Setup

/-- What compiling prints, and for which workflow. -/
theorem compile_work_iff {s : Setup} {path : String} {order : SearchOrder} {output : Option String} {r : Report} :
    Command.work (.compile path order output) s = .ok (.report r) ↔
      ∃ w, { s with order }.compileFile path = .ok w ∧ r = .ofText output w.toJson.pretty := by
  have work : Command.work (.compile path order output) s =
      (({ s with order }.compileFile path).map fun (w : Workflow) =>
        .report (.ofText output w.toJson.pretty)) := rfl
  rw [work]
  cases { s with order }.compileFile path with
  | error t => exact ⟨nofun, fun ⟨w, h, _⟩ => nomatch h⟩
  | ok w =>
    constructor
    · intro h
      cases h
      exact ⟨w, rfl, rfl⟩
    · rintro ⟨w', same, rfl⟩
      cases same
      rfl

/-- The program of a workflow that is loaded. -/
theorem generate_work {s : Setup} {path : String} {order : SearchOrder} {w : Workflow}
    (loads : { s with order }.loadWorkflow path = .ok w) (output : Option String) :
    Command.work (.generate path order output) s = .ok (.report (.ofText output w.generate)) := by
  simp only [Command.work, loads]
  rfl

/-- What was printed for a graph and, if it has an entry for its edges, the graph itself give the same
    program, if the temperatures of its agents are absent or finite. -/
theorem generate_agrees {s : Setup} {graph text : String} {order : SearchOrder} {output : Option String} {r : Report}
    (file : s.files graph = .ok text) (compiled : Command.work (.compile graph order output) s = .ok (.report r))
    (finite : ∀ g, Graph.ofJsonText text = .ok g → ∀ n ∈ g.nodes, n.kind = .promptAgent → n.config.FiniteTemperature) :
    ∃ program : String,
      (∀ (later : Files) (path : String) (order' : SearchOrder) (out : Option String), later path = .ok r.printed →
        Command.work (.generate path order' out) { s with files := later } = .ok (.report (.ofText out program))) ∧
      (∀ value, Reader.ofText Reader.json text = .ok value → (value.field? "edges").isSome = true →
        ∀ out, Command.work (.generate graph order out) s = .ok (.report (.ofText out program))) := by
  obtain ⟨w, compiles, rfl⟩ := compile_work_iff.mp compiled
  obtain ⟨g, parsed, made⟩ := (Setup.compileFile_eq_ok_iff (s := { s with order }) file).mp compiles
  obtain ⟨configs, made'⟩ := Setup.compile_eq_ok made
  have agents : ∀ s ∈ w.steps, s.kind = .promptAgent → s.config.FiniteTemperature := by
    intro step hs agent
    obtain ⟨n, hn, kind, same⟩ := Graph.compile_temperature made' hs
    rw [NodeConfig.FiniteTemperature, same]
    exact finite g parsed n hn (kind ▸ agent)
  refine ⟨w.generate, ?_, ?_⟩
  · intro later path order' out saved
    obtain ⟨blanks, blank, text⟩ := printed_ofText output w.toJson.pretty
    have loads : Setup.loadWorkflow ⟨s.config, later, s.toolConfigs, order'⟩ path = .ok w.withoutInfinite := by
      simp only [Setup.loadWorkflow, saved, text, Setup.workflowOfText_pretty _ w blank]
    rw [← Workflow.generate_withoutInfinite agents]
    exact generate_work loads out
  · intro value reads edges out
    refine generate_work ?_ out
    simp only [Setup.loadWorkflow, file, Setup.workflowOfText_graph _ reads edges, parsed, Except.bind, made]
    rfl

def Sample.directory (graph : String) (w : Workflow) : Files := fun path =>
  if path = "graph.json" then .ok graph
  else if path = "workflow.json" then .ok (w.toJson.pretty ++ "\n")
  else .error .absent

/-- An agent with a temperature of seven tenths. -/
theorem generate_agrees_heated :
    let g := Sample.heated (Single.ofDecimal 7 (-1))
    let w : Workflow := ⟨g.compiled .empty .breadthFirst 0, {}⟩
    let s : Setup := { config := {}, files := Sample.directory (Sample.heatedText "0.7") w }
    Command.work (.compile "graph.json" .breadthFirst none) s = .ok (.report (.ofText none w.toJson.pretty)) ∧
      ∃ program, Command.work (.generate "workflow.json" .breadthFirst none) s = .ok (.report (.ofText none program)) ∧
        Command.work (.generate "graph.json" .breadthFirst none) s = .ok (.report (.ofText none program)) := by
  intro g w s
  have made : g.compile {} .empty .breadthFirst = .ok w := Graph.compile_of_firstOfKind? (by decide) _ _ _
  have compiled : Command.work (.compile "graph.json" .breadthFirst none) s = .ok (.report (.ofText none w.toJson.pretty)) :=
    compile_work_iff.mpr ⟨w, (Setup.compileFile_eq_ok_iff (by rfl)).mpr ⟨g, Sample.parse_heated, made⟩, rfl⟩
  have finite : ∀ g', Graph.ofJsonText (Sample.heatedText "0.7") = .ok g' →
      ∀ n ∈ g'.nodes, n.kind = .promptAgent → n.config.FiniteTemperature := by
    intro g' h
    rw [Sample.parse_heated] at h
    cases h
    decide
  have edges : (Reader.ofText Reader.json (Sample.heatedText "0.7")).toOption.any
      (fun value => (value.field? "edges").isSome) = true := by decide +kernel
  obtain ⟨program, fromWorkflow, fromGraph⟩ := generate_agrees (s := s) (by rfl) compiled finite
  refine ⟨compiled, program, fromWorkflow s.files "workflow.json" .breadthFirst none (by rfl), ?_⟩
  cases reads : Reader.ofText Reader.json (Sample.heatedText "0.7") with
  | error f => rw [reads] at edges; cases edges
  | ok value => rw [reads] at edges; exact fromGraph value reads edges none

def Sample.edgelessText : String :=
  "\x7b\"nodes\":[\x7b\"id\":\"1\",\"type\":\"start\"\x7d,\x7b\"id\":\"2\",\"type\":\"promptLLM\"\x7d]\x7d"

/-- Generating from a graph and from what compiling printed for it comes out differently. -/
def Setup.GeneratesTwo (s : Setup) : Prop :=
  ∃ r p q : Report, Command.work (.compile "graph.json" .breadthFirst none) s = .ok (.report r) ∧
    s.files "workflow.json" = .ok r.printed ∧
    Command.work (.generate "graph.json" .breadthFirst none) s = .ok (.report p) ∧
    Command.work (.generate "workflow.json" .breadthFirst none) s = .ok (.report q) ∧ p ≠ q

theorem Setup.generatesTwo {graph : String} {w v : Workflow}
    (compiled : Setup.compileFile { config := {}, files := Sample.directory graph w } "graph.json" = .ok w)
    (loaded : Setup.loadWorkflow { config := {}, files := Sample.directory graph w } "graph.json" = .ok v)
    (differ : Report.ofText none v.generate ≠ .ofText none w.withoutInfinite.generate) :
    Setup.GeneratesTwo { config := {}, files := Sample.directory graph w } := by
  have printed : Sample.directory graph w "workflow.json" =
      .ok (String.ofList (w.toJson.pretty.toList ++ ['\n'])) := by
    rw [String.ofList_append, String.ofList_toList]
    rfl
  have workflow : Setup.loadWorkflow { config := {}, files := Sample.directory graph w } "workflow.json" =
      .ok w.withoutInfinite := by
    simp only [Setup.loadWorkflow, printed, Setup.workflowOfText_pretty _ w newline_blank]
  exact ⟨_, _, _, compile_work_iff.mpr ⟨w, compiled, rfl⟩, rfl, generate_work loaded none, generate_work workflow none,
    differ⟩

/-- Without an entry for its edges a graph is taken for a workflow: the program has the import for a
    prompt that compiling leaves out. And the model of an agent whose temperature is infinite has the usual
    temperature in the program of the printed workflow. -/
theorem generate_differs : ∃ w v : Workflow,
    Setup.GeneratesTwo { config := {}, files := Sample.directory Sample.edgelessText w } ∧
    Setup.GeneratesTwo { config := {}, files := Sample.directory (Sample.heatedText "1e39") v } := by
  let start : Workflow := ⟨[⟨"node-1", .start none, none, none⟩], {}⟩
  let heated : Workflow :=
    ⟨[⟨"node-1", .start none, none, some (.single ⟨"event-e"⟩)⟩,
      ⟨"node-2", .promptAgent { temperature := some ⟨.infinite false, trivial⟩ }, some (.single ⟨"event-e"⟩), none⟩], {}⟩
  refine ⟨start, heated, ?_, ?_⟩
  · have graph : Setup.loadWorkflow { config := {}, files := Sample.directory Sample.edgelessText start } "graph.json" =
        .ok ⟨[⟨"1", .start none, none, none⟩, ⟨"2", .promptLlm {}, none, none⟩], {}⟩ := by decide +kernel
    exact Setup.generatesTwo (by decide +kernel) graph (by decide +kernel)
  · have graph : Setup.loadWorkflow { config := {}, files := Sample.directory (Sample.heatedText "1e39") heated } "graph.json" =
        .ok heated := by decide +kernel
    exact Setup.generatesTwo (by decide +kernel) graph (by decide +kernel)

end CommandLine
end EventFlow
