/-
  EventFlow.Proofs.Graph.Codec — graphs are read as they were written, up to temperatures that are not
  finite.

  A number beyond the range of single precision is read as an infinite temperature. JSON has no such
  number, so it is written as null and read as no temperature at all. Everything else comes back.

  Proved:
  - `NodeConfig.recovers`: the settings of a node of any kind, field by field.
  - `Node.recovers` / `Edge.recovers` / `Graph.recovers`: nodes, edges and graphs.
-/

import EventFlow.Graph.Codec
import EventFlow.Proofs.Json.Number
import EventFlow.Proofs.Json.Record

namespace EventFlow

open Shape Reader

/-! ## Temperatures -/

/-- A number of single precision is one of double precision. -/
theorem Single.holds_double (x : Single) : BinaryFormat.double.Holds x.value := by
  obtain ⟨value, holds⟩ := x
  cases value with
  | infinite negative => exact trivial
  | finite negative m e =>
    rcases holds with zero | ⟨odd, small, least, greatest⟩
    · exact .inl zero
    · have small : m < 2 ^ 24 := small
      have least : -149 ≤ e := least
      have greatest : (m.log2 : Int) + e < 104 + 24 := greatest
      have wider : m < 2 ^ 53 := by omega
      have lower : -1074 ≤ e := by omega
      have higher : (m.log2 : Int) + e < 971 + 53 := by omega
      exact .inr ⟨odd, wider, lower, higher⟩

namespace NodeConfig

def temperature : NodeConfig → Option Single
  | promptLlm c => c.temperature
  | promptAgent c => c.temperature
  | _ => none

def withoutInfinite : NodeConfig → NodeConfig
  | promptLlm c => promptLlm { c with temperature := c.temperature.filter (·.value.isFinite) }
  | promptAgent c => promptAgent { c with temperature := c.temperature.filter (·.value.isFinite) }
  | c => c

def FiniteTemperature (c : NodeConfig) : Prop := ∀ t ∈ c.temperature, t.value.isFinite = true

instance (c : NodeConfig) : Decidable c.FiniteTemperature :=
  inferInstanceAs (Decidable (∀ t ∈ c.temperature, t.value.isFinite = true))

theorem withoutInfinite_eq_iff (c : NodeConfig) : c.withoutInfinite = c ↔ c.FiniteTemperature := by
  have filtered (o : Option Single) : o.filter (·.value.isFinite) = o ↔ ∀ t ∈ o, t.value.isFinite = true := by
    cases o with
    | none => simp
    | some t => simp [Option.filter_eq_some_iff]
  cases c with
  | promptLlm c =>
    rw [FiniteTemperature, temperature, ← filtered, withoutInfinite]
    exact ⟨fun h => congrArg PromptLlmConfig.temperature (promptLlm.inj h), fun h => by rw [h]⟩
  | promptAgent c =>
    rw [FiniteTemperature, temperature, ← filtered, withoutInfinite]
    exact ⟨fun h => congrArg PromptAgentConfig.temperature (promptAgent.inj h), fun h => by rw [h]⟩
  | _ => simp [FiniteTemperature, withoutInfinite, temperature]

end NodeConfig

/-- A finite temperature is read as it was written, any other is read as none. -/
theorem Shape.Writes.temperature? {σ : Type} {n : Nat} {slots : List (Slot σ)} {name : String}
    {put : Option Single → σ → σ} {aliases : List String} {o : Option Single} {es : List (String × Json)} {a c : σ}
    (absent : put none a = a) (rest : Writes n slots es (put (o.filter (·.value.isFinite)) a) c) :
    Writes n (.of name .defaulted (Reader.option Reader.single) put aliases :: slots)
      (Json.entry? name .ofWidened o ++ es) a c := by
  refine .perhaps nofun ?_ (fun nothing => nothing ▸ absent) rest
  rintro t rfl
  by_cases finite : t.value.isFinite = true
  · have reads (close : Close) : Reader.single (Outline.ofTree close (.num (.double t.value))) = .ok t :=
      congrArg Except.ok t.ofBinary_value
    have recovers : Recovers Reader.single n (.num (.double t.value)) t :=
      ⟨fun close _ => reads close, fun close _ => reads close, .num (readsBack_double t.holds_double finite)⟩
    rw [Option.filter_some_pos (p := fun t : Single => t.value.isFinite) finite, Json.ofWidened, Json.ofDouble,
      if_pos finite]
    exact recovers.option nofun
  · rw [Option.filter_some_neg (p := fun t : Single => t.value.isFinite) (Bool.not_eq_true _ ▸ finite), Json.ofWidened,
      Json.ofDouble, if_neg finite]
    exact ⟨fun _ _ => rfl, fun _ _ => rfl, .null⟩

/-! ## Tools -/

theorem ToolSpec.recovers (n : Nat) (t : ToolSpec) : Recovers ToolSpec.read (n + 1) t.toJson t := by
  refine Shape.recovers ⟨by decide, by simp [shape, Slot.apart_of]⟩ ?_
  rw [← List.append_nil (_ ++ _)]
  simp only [List.cons_append, List.nil_append, List.append_assoc]
  exact .one (.text _) (.one (.text _) (.one (.text _) (.one (.text _) (.text? rfl (.text? rfl (.text? rfl .nil))))))

/-! ## Settings of nodes -/

namespace NodeConfig

theorem label_writes (n : Nat) (title : String) (label : Option String) :
    Writes n (labelShape title).slots (Json.entry? "label" .str label) none label := by
  rw [← List.append_nil (Json.entry? ..)]
  exact .text? rfl .nil

theorem pair_writes (n : Nat) (title second : String) (label other : Option String) :
    Writes n (pairShape title second).slots (Json.entry? "label" .str label ++ Json.entry? second .str other)
      (none, none) (label, other) := by
  rw [← List.append_nil (_ ++ _), List.append_assoc]
  exact .text? rfl (.text? rfl .nil)

theorem userInput_writes (n : Nat) (c : UserInputConfig) : Writes n userInputShape.slots (userInput c).fields {} c := by
  rw [← List.append_nil (fields _), fields]
  simp only [List.append_assoc]
  exact .text? rfl (.text? rfl (.text? rfl .nil))

theorem promptLlm_writes (n : Nat) (c : PromptLlmConfig) :
    Writes n promptLlmShape.slots (promptLlm c).fields {}
      { c with temperature := c.temperature.filter (·.value.isFinite) } := by
  rw [← List.append_nil (fields _), fields]
  simp only [List.append_assoc]
  exact .text? rfl (.text? rfl (.text? rfl (.temperature? rfl (.text? rfl (.text? rfl .nil)))))

theorem promptAgent_writes (n : Nat) (c : PromptAgentConfig) :
    Writes (n + 2) promptAgentShape.slots (promptAgent c).fields {}
      { c with temperature := c.temperature.filter (·.value.isFinite) } := by
  obtain ⟨label, agentType, systemPrompt, llm, model, temperature, tools⟩ := c
  rw [fields]
  simp only [List.append_assoc]
  refine .text? rfl (.text? rfl (.text? rfl (.text? rfl (.text? rfl (.temperature? rfl ?_)))))
  cases tools with
  | nil => exact .skip nofun .nil
  | cons t tools =>
    have each := @Recovers.list ToolSpec ToolSpec _ _ _ id (t :: tools) fun t _ => t.recovers n
    rw [List.map_id] at each
    exact .one each .nil

theorem agentTool_writes (n : Nat) (c : AgentToolConfig) : Writes n agentToolShape.slots (agentTool c).fields {} c := by
  rw [← List.append_nil (fields _), fields]
  simp only [List.append_assoc]
  exact .text? rfl (.text? rfl (.text? rfl (.text? rfl (.text? rfl (.text? rfl .nil)))))

/-- The settings of a node are read back for the node's kind. -/
theorem recovers (n : Nat) (c : NodeConfig) : Recovers (read c.kind) (n + 3) (.obj c.fields) c.withoutInfinite := by
  have label (title : String) (label : Option String) :
      Recovers ((labelShape title).read none) (n + 3) (.obj (Json.entry? "label" .str label)) label :=
    Shape.recovers ⟨by show ["label"].Nodup; decide, List.pairwise_singleton _ _⟩ (label_writes (n + 2) title label)
  have pair (title second : String) (apart : "label" ≠ second) (label other : Option String) :
      Recovers ((pairShape title second).read (none, none)) (n + 3)
        (.obj (Json.entry? "label" .str label ++ Json.entry? second .str other)) (label, other) :=
    Shape.recovers ⟨by show ["label", second].Nodup; simp [apart], by simp [pairShape, textSlot, Slot.apart_of]⟩
      (pair_writes (n + 2) title second label other)
  cases c with
  | start l => exact (label "BasicConfig" l).map start
  | stop l => exact (label "BasicConfig" l).map stop
  | userInput c =>
    exact (Shape.recovers ⟨by decide, by simp [userInputShape, textSlot, Slot.apart_of]⟩
      (userInput_writes (n + 2) c)).map userInput
  | promptLlm c =>
    exact (Shape.recovers ⟨by decide, by simp [promptLlmShape, textSlot, Slot.apart_of]⟩
      (promptLlm_writes (n + 2) c)).map promptLlm
  | promptAgent c =>
    exact (Shape.recovers ⟨by decide, by simp [promptAgentShape, textSlot, Slot.apart_of]⟩
      (promptAgent_writes n c)).map promptAgent
  | agentTool c =>
    exact (Shape.recovers ⟨by decide, by simp [agentToolShape, textSlot, Slot.apart_of]⟩
      (agentTool_writes (n + 2) c)).map agentTool
  | splitter l splitType =>
    exact (pair "SplitterConfig" "splitType" (by decide) l splitType).map fun p => splitter p.1 p.2
  | collector l mergeType =>
    exact (pair "CollectorConfig" "mergeType" (by decide) l mergeType).map fun p => collector p.1 p.2
  | decision l question => exact (pair "DecisionConfig" "question" (by decide) l question).map fun p => decision p.1 p.2

/-- What is written for the settings is a value that goes through a reader of any value unchanged. -/
theorem json_toJson (n : Nat) (c : NodeConfig) : Recovers Reader.json (n + 3) c.toJson c.toJson :=
  .json (Json.sorted_sorted _) (c.recovers n).readable.sorted

theorem ofJson_toJson (c : NodeConfig) : ofJson c.kind c.toJson = .ok c.withoutInfinite := (c.recovers 0).sorted .tree whole_tree

end NodeConfig

/-! ## Nodes, edges and graphs -/

theorem map_eq_self_iff {α : Type} {f : α → α} {as : List α} : as.map f = as ↔ ∀ a ∈ as, f a = a := by
  have same : as.map f = as.map id ↔ ∀ a ∈ as, f a = id a := List.map_inj_left
  rwa [List.map_id] at same

theorem NodeKind.recovers (n : Nat) (k : NodeKind) : Recovers NodeKind.read n k.toJson k :=
  ⟨fun _ _ => by cases k <;> rfl, fun _ _ => by cases k <;> rfl, .str _⟩

namespace Node

def withoutInfinite (n : Node) : Node := { n with config := n.config.withoutInfinite }

theorem recovers (n : Nat) (node : Node) : Recovers Node.read (n + 4) node.toJson node.withoutInfinite := by
  obtain ⟨id, config⟩ := node
  have raw : Recovers (shape.read ⟨"", .start, .null⟩) (n + 4) (toJson ⟨id, config⟩) ⟨id, config.kind, config.toJson⟩ := by
    refine Shape.recovers ⟨by decide, by simp [shape, Slot.apart_of]⟩ ?_
    exact .one (.text id) (.one (config.kind.recovers _) (.one (config.json_toJson n) .nil))
  refine raw.bind ?_
  rw [config.ofJson_toJson]
  rfl

end Node

theorem Edge.recovers (n : Nat) (e : Edge) : Recovers Edge.read (n + 1) e.toJson e := by
  refine Shape.recovers ⟨by decide, by simp [shape, Slot.apart_of]⟩ ?_
  rw [← List.append_nil (_ ++ _)]
  simp only [List.cons_append, List.nil_append, List.append_assoc]
  exact .one (.text _) (.one (.text _) (.text? rfl (.one (.text _) (.text? rfl .nil))))

namespace Graph

def withoutInfinite (g : Graph) : Graph := { g with nodes := g.nodes.map Node.withoutInfinite }

theorem recovers (n : Nat) (g : Graph) : Recovers Graph.read (n + 6) g.toJson g.withoutInfinite := by
  have edges := @Recovers.list Edge Edge _ _ _ id g.edges fun e _ => e.recovers (n + 3)
  rw [List.map_id] at edges
  refine Shape.recovers ⟨by decide, by simp [shape, Slot.apart_of]⟩ ?_
  exact .one (.list fun node _ => node.recovers n) (.one edges .nil)

theorem withoutInfinite_eq_iff (g : Graph) : g.withoutInfinite = g ↔ ∀ n ∈ g.nodes, n.config.FiniteTemperature := by
  obtain ⟨nodes, edges⟩ := g
  simp only [withoutInfinite, mk.injEq, and_true]
  refine map_eq_self_iff.trans (forall₂_congr fun n _ => ?_)
  obtain ⟨id, config⟩ := n
  simp only [Node.withoutInfinite, Node.mk.injEq, true_and]
  exact config.withoutInfinite_eq_iff

end Graph
end EventFlow
