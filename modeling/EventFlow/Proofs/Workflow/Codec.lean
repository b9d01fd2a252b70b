/-
  EventFlow.Proofs.Workflow.Codec — workflows are read as they were written, up to temperatures that
  are not finite.

  A workflow is a record of records, so each reader is followed by the readers of its fields. The wires
  of a step have no tag: a text is one event, a list is several, an object is one for each branch, and
  no value is two of these.

  Proved:
  - `Wires.recovers` / `Settings.recovers` / `Step.recovers` / `Workflow.recovers`: the parts of a workflow.
  - `Workflow.ofJsonText_pretty`: the text of a workflow, with any blanks behind it.
  - `wire_format`: for every graph and every workflow, what comes back is the value itself exactly if
    every temperature is absent or finite.
-/

import EventFlow.Graph.Sample
import EventFlow.Proofs.Compilation.Drafts
import EventFlow.Proofs.Graph.Codec
import EventFlow.Workflow.Codec

namespace EventFlow

open Shape Reader

/-! ## Wires -/

namespace Wires

/-- Wires with their keys sorted are the same wires. -/
theorem sorted_toJson (w : Wires) : w.toJson.sorted = w.toJson := by
  cases w with
  | single e => rfl
  | many es =>
    rw [toJson, Json.sorted, Json.sortedItems_eq_map, List.map_map]
    rfl
  | branches byHandle =>
    refine Json.sorted_ofDictionary fun entry member => ?_
    obtain ⟨e, -, rfl⟩ := List.mem_map.mp member
    rfl

theorem recovers (n : Nat) (title : String) (w : Wires) : Recovers (Wires.read title) (n + 1) w.toJson w := by
  have reads (close : Close) (whole : Whole close) : Wires.read title (Outline.ofTree close w.toJson) = .ok w := by
    refine untagged_ofTree whole ?_
    cases w with
    | single e => rfl
    | many es =>
      have list : Reader.list Event.read (Outline.ofTree .setAside (.arr (es.map Event.toJson))) = .ok es :=
        list_ofTree whole_setAside fun e _ => rfl
      rw [List.findSome?_cons_of_isNone (by rfl), List.findSome?_cons]
      simp only [toJson, list]
      rfl
    | branches byHandle =>
      have map : Reader.map Event.read (Outline.ofTree .setAside (.ofDictionary (byHandle.map Event.toJson))) =
          .ok byHandle := map_ofTree fun e _ => rfl
      rw [List.findSome?_cons_of_isNone (by rfl), List.findSome?_cons_of_isNone (by rfl), List.findSome?_cons]
      simp only [toJson, map]
      rfl
  have readable : w.toJson.Readable (n + 1) := by
    cases w with
    | single e => exact .str e.name
    | many es =>
      refine .arr fun v member => ?_
      obtain ⟨e, -, rfl⟩ := List.mem_map.mp member
      exact .str e.name
    | branches byHandle =>
      refine .obj fun entry member => ?_
      obtain ⟨e, -, rfl⟩ := List.mem_map.mp member
      exact .str e.2.name
  exact .of_eq w.sorted_toJson reads readable

theorem toJson_ne_null (w : Wires) : w.toJson ≠ .null := by cases w <;> exact nofun

end Wires

/-! ## Settings -/

theorem PerProvider.recovers (n : Nat) (title : String) (t : PerProvider) :
    Recovers (PerProvider.read title) (n + 1) t.toJson t := by
  have orderly : Orderly slots := ⟨by decide, by simp [slots, Slot.apart_of]⟩
  have written : Writes n slots (Json.entry? "openai" .str t.openAi ++ Json.entry? "anthropic" .str t.anthropic ++
      Json.entry? "google" .str t.google) {} t := by
    rw [← List.append_nil (_ ++ _)]
    simp only [List.append_assoc]
    exact .text? rfl (.text? rfl (.text? rfl .nil))
  show Recovers (Shape.read ⟨title, slots⟩ {}) _ _ _
  exact Shape.recovers orderly written

theorem Settings.recovers (n : Nat) (s : Settings) : Recovers Settings.read (n + 2) s.toJson s := by
  have topK : Recovers Reader.size (n + 1) (.nat s.retrievalTopK.toNat) s.retrievalTopK.toNat :=
    .nat s.retrievalTopK.toNat_lt (Nat.le_refl _)
  have same : UInt64.ofNat s.retrievalTopK.toNat = s.retrievalTopK := UInt64.ofNat_toNat
  refine Shape.recovers ⟨by decide, by simp [shape, Slot.apart_of]⟩ ?_
  simp only [List.cons_append, List.nil_append]
  refine .one (.text _) (.text? rfl (.one (s.apiKeys.recovers n _) (.one (s.baseUrls.recovers n _) (.one topK ?_))))
  rw [same]
  exact .nil

/-! ## Steps and workflows -/

namespace Step

def withoutInfinite (s : Step) : Step := { s with config := s.config.withoutInfinite }

theorem recovers (n : Nat) (s : Step) : Recovers Step.read (n + 4) s.toJson s.withoutInfinite := by
  obtain ⟨id, config, accepts, emits⟩ := s
  have wires (title : String) (o : Option Wires) (w : Wires) (some : w ∈ o) :
      Recovers (Reader.option (Wires.read title)) (n + 3) w.toJson o := by
    cases some
    exact (w.recovers (n + 2) title).option w.toJson_ne_null
  have raw : Recovers (shape.read ⟨"", .start, .null, none, none⟩) (n + 4) (toJson ⟨id, config, accepts, emits⟩)
      ⟨id, config.kind, config.toJson, accepts, emits⟩ := by
    refine Shape.recovers ⟨by decide, by simp [shape, Slot.apart_of]⟩ ?_
    rw [← List.append_nil (_ ++ _)]
    simp only [List.cons_append, List.nil_append, List.append_assoc]
    refine .one (.text id) (.one (config.kind.recovers _) (.one (config.json_toJson n) ?_))
    refine .perhaps nofun (wires "Accepts" accepts) (fun nothing => nothing ▸ rfl) ?_
    exact .perhaps nofun (wires "Emits" emits) (fun nothing => nothing ▸ rfl) .nil
  refine raw.bind ?_
  rw [config.ofJson_toJson]
  rfl

end Step

namespace Workflow

def withoutInfinite (w : Workflow) : Workflow := { w with steps := w.steps.map Step.withoutInfinite }

theorem recovers (n : Nat) (w : Workflow) : Recovers Workflow.read (n + 6) w.toJson w.withoutInfinite := by
  refine Shape.recovers ⟨by decide, by simp [shape, Slot.apart_of]⟩ ?_
  exact .one (.list fun step _ => step.recovers n) (.one (w.settings.recovers _) .nil)

theorem withoutInfinite_eq_iff (w : Workflow) :
    w.withoutInfinite = w ↔ ∀ s ∈ w.steps, s.config.FiniteTemperature := by
  obtain ⟨steps, settings⟩ := w
  simp only [withoutInfinite, mk.injEq, and_true]
  refine map_eq_self_iff.trans (forall₂_congr fun s _ => ?_)
  obtain ⟨id, config, accepts, emits⟩ := s
  simp only [Step.withoutInfinite, Step.mk.injEq, true_and, and_true]
  exact config.withoutInfinite_eq_iff

/-- The text of a workflow over lines, with blanks behind it. -/
theorem ofJsonText_pretty (w : Workflow) {blanks : List Char} (blank : ∀ c ∈ blanks, Outline.isSpace c = true) :
    ofJsonText (String.ofList (w.toJson.pretty.toList ++ blanks)) = .ok w.withoutInfinite := by
  have recovers := w.recovers 121
  rw [ofJsonText, ofText_pretty recovers.readable (recovers.written .bracket whole_bracket) blank]
  rfl

end Workflow

/-! ## The wire format -/

/-- Compilation keeps the kinds of nodes and sets no temperature. -/
theorem Graph.compile_temperature {g : Graph} {settings : Settings} {configs : ToolConfigs} {order : SearchOrder}
    {w : Workflow} (compiled : g.compile settings configs order = .ok w) {s : Step} (hs : s ∈ w.steps) :
    ∃ n ∈ g.nodes, s.kind = n.kind ∧ s.config.temperature = n.config.temperature := by
  obtain ⟨start, first, rfl⟩ := compile_eq_ok_iff.mp compiled
  obtain ⟨d, hd, rfl⟩ := mem_compiled_iff.mp hs
  obtain ⟨-, leads, -⟩ := mem_drafts first hd
  refine ⟨d.node, List.mem_of_getElem? leads.1, stepOf_kind, ?_⟩
  show (d.config g.index configs).temperature = _
  unfold Draft.config
  cases d.node.config <;> rfl

namespace Sample

/-- A start and an agent, with a temperature as it stands in the text. -/
def heatedText (temperature : String) : String :=
  "\x7b\"nodes\":[\x7b\"id\":\"1\",\"type\":\"start\"\x7d,\x7b\"id\":\"2\",\"type\":\"promptAgent\",\"data\":\x7b\"temperature\":"
    ++ temperature ++ "\x7d\x7d],\"edges\":[\x7b\"id\":\"e\",\"source\":\"1\",\"target\":\"2\"\x7d]\x7d"

def heated (temperature : Single) : Graph :=
  ⟨[.start "1", ⟨"2", .promptAgent { temperature := some temperature }⟩], [{ id := "e", source := "1", target := "2" }]⟩

theorem parse_heated : Graph.ofJsonText (heatedText "0.7") = .ok (heated (Single.ofDecimal 7 (-1))) := by decide +kernel

end Sample

/-- Graphs and workflows come back from their value trees, with entries as they were written or
    sorted by key, and workflows from their texts, without temperatures that are not finite; so they
    come back unchanged exactly if every temperature is absent or finite. A temperature that is not
    finite comes from a number beyond the range of single precision. -/
theorem wire_format :
    (∀ g : Graph, ofJson Graph.read g.toJson = .ok g.withoutInfinite ∧
      ofJson Graph.read g.toJson.sorted = .ok g.withoutInfinite ∧
      (g.withoutInfinite = g ↔ ∀ n ∈ g.nodes, n.config.FiniteTemperature)) ∧
    (∀ w : Workflow, ofJson Workflow.read w.toJson = .ok w.withoutInfinite ∧
      ofJson Workflow.read w.toJson.sorted = .ok w.withoutInfinite ∧
      Workflow.ofJsonText w.toJson.pretty = .ok w.withoutInfinite ∧
      (w.withoutInfinite = w ↔ ∀ s ∈ w.steps, s.config.FiniteTemperature)) ∧
    (∀ (text : String) (g : Graph) (settings : Settings) (configs : ToolConfigs) (order : SearchOrder) (w : Workflow),
      Graph.ofJsonText text = .ok g → g.compile settings configs order = .ok w →
      (∀ n ∈ g.nodes, n.config.FiniteTemperature) → Workflow.ofJsonText w.toJson.pretty = .ok w) ∧
    ∃ g, Graph.ofJsonText (Sample.heatedText "1e39") = .ok g ∧ ¬∀ n ∈ g.nodes, n.config.FiniteTemperature := by
  have pretty (w : Workflow) : Workflow.ofJsonText w.toJson.pretty = .ok w.withoutInfinite := by
    have := @Workflow.ofJsonText_pretty w [] (List.forall_mem_nil _)
    rwa [List.append_nil, String.ofList_toList] at this
  refine ⟨fun g => ?_, fun w => ?_, ?_, Sample.heated ⟨.infinite false, trivial⟩, by decide +kernel, by decide⟩
  · exact ⟨(g.recovers 0).written .tree Reader.whole_tree, (g.recovers 0).sorted .tree Reader.whole_tree, g.withoutInfinite_eq_iff⟩
  · exact ⟨(w.recovers 0).written .tree Reader.whole_tree, (w.recovers 0).sorted .tree Reader.whole_tree, pretty w, w.withoutInfinite_eq_iff⟩
  · intro text g settings configs order w _ compiled finite
    have unchanged : w.withoutInfinite = w := by
      refine w.withoutInfinite_eq_iff.mpr fun s hs => ?_
      obtain ⟨n, hn, -, same⟩ := Graph.compile_temperature compiled hs
      rw [NodeConfig.FiniteTemperature, same]
      exact finite n hn
    rw [pretty, unchanged]

/-- An agent with a temperature of seven tenths, from its text and back. -/
theorem wire_format_heated :
    let g := Sample.heated (Single.ofDecimal 7 (-1))
    let w : Workflow := ⟨g.compiled .empty .breadthFirst 0, {}⟩
    Graph.ofJsonText (Sample.heatedText "0.7") = .ok g ∧ g.compile {} .empty .breadthFirst = .ok w ∧
      Workflow.ofJsonText w.toJson.pretty = .ok w := by
  intro g w
  have compiled : g.compile {} .empty .breadthFirst = .ok w := Graph.compile_of_firstOfKind? (by decide) _ _ _
  have finite : ∀ n ∈ g.nodes, n.config.FiniteTemperature := by decide
  exact ⟨Sample.parse_heated, compiled,
    wire_format.2.2.1 _ g {} .empty .breadthFirst w Sample.parse_heated compiled finite⟩

end EventFlow
