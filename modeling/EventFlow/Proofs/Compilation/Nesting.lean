/-
  EventFlow.Proofs.Compilation.Nesting — the tools of the agents.

  A tool has no step. It stands in the list of each agent that an edge joins to it, once however many
  edges do, at the place of the first of them, and edges to it are no events. What an agent's own data
  said about tools is gone.

  Compilation collects tools by position (`GraphIndex.tools`); here they are nodes of the graph
  (`Graph.attached`). The two agree since the node at a position is the one that its id means.

  Proved:
  - `takeFresh_eq_eraseDups` / `filterMap_eraseDups`: taking what is fresh keeps first occurrences, and a
    map that tells positions apart keeps them too.
  - `tools_eq_attached`: the tools of an agent are those of its attached nodes.
  - `dataLinks_no_tool`: an edge to a tool carries no data.
  - `compile_nested`: all of it, for every graph that compiles.
-/

import EventFlow.Proofs.Compilation.Discovery
import EventFlow.Proofs.Compilation.Wiring

namespace EventFlow

/-! ## First occurrences -/

section

variable {α β : Type} [DecidableEq α] [DecidableEq β]

theorem eraseDups_nodup (as : List α) : as.eraseDups.Nodup := by
  cases as with
  | nil => simp
  | cons a as =>
    rw [List.eraseDups_cons]
    refine List.nodup_cons.mpr ⟨?_, eraseDups_nodup _⟩
    simp
termination_by as.length
decreasing_by exact Nat.lt_succ_of_le (List.length_filter_le _ _)

/-- A partial map that tells apart the elements it is defined on keeps first occurrences. -/
theorem filterMap_eraseDups {f : α → Option β} :
    ∀ as : List α, (∀ a ∈ as, ∀ a' ∈ as, ∀ b, f a = some b → f a' = some b → a = a') →
      as.eraseDups.filterMap f = (as.filterMap f).eraseDups
  | [], _ => by simp
  | a :: as, inj => by
    have rest := filterMap_eraseDups (as.filter fun x => !x == a) fun x hx y hy =>
      inj x (List.mem_cons_of_mem _ (List.mem_of_mem_filter hx)) y (List.mem_cons_of_mem _ (List.mem_of_mem_filter hy))
    rw [List.eraseDups_cons]
    cases h : f a with
    | none =>
      have skipped : (as.filter fun x => !x == a).filterMap f = as.filterMap f := by
        rw [List.filterMap_filter]
        refine List.filterMap_congr fun x _ => ?_
        by_cases same : x = a
        · simp [same, h]
        · simp [same]
      rw [List.filterMap_cons_none h, List.filterMap_cons_none h, rest, skipped]
    | some b =>
      have others : (as.filter fun x => !x == a).filterMap f = (as.filterMap f).filter fun y => !y == b := by
        rw [List.filterMap_filter, List.filter_filterMap]
        refine List.filterMap_congr fun x hx => ?_
        by_cases same : x = a
        · simp [same, h, Option.filter]
        · cases hy : f x with
          | none => simp [Option.filter]
          | some y =>
            have differ : y ≠ b := by
              rintro rfl
              exact same (inj x (List.mem_cons_of_mem _ hx) a List.mem_cons_self y hy h)
            simp [same, differ, Option.filter]
      rw [List.filterMap_cons_some h, List.filterMap_cons_some h, List.eraseDups_cons, rest, others]
termination_by as => as.length
decreasing_by exact Nat.lt_succ_of_le (List.length_filter_le _ _)

end

/-- What is taken from fresh nodes is the first occurrence of each. -/
theorem Reach.takeFresh_eq_eraseDups (targets : List Nat) {fresh : List Nat} (nodup : fresh.Nodup) :
    (takeFresh targets fresh).1 = (targets.filter (· ∈ fresh)).eraseDups := by
  induction targets generalizing fresh with
  | nil => simp [takeFresh]
  | cons t targets ih =>
    by_cases h : t ∈ fresh
    · have others : targets.filter (· ∈ fresh.erase t) = (targets.filter (· ∈ fresh)).filter fun x => !x == t := by
        rw [List.filter_filter]
        refine List.filter_congr fun x _ => ?_
        rw [Bool.eq_iff_iff]
        simp [nodup.mem_erase_iff]
      rw [takeFresh_cons_of_mem h, List.filter_cons_of_pos (by simpa using h), List.eraseDups_cons,
        ih (nodup.erase t), others]
    · rw [takeFresh_cons_of_not_mem h, List.filter_cons_of_neg (by simpa using h), ih nodup]

/-! ## The tools of an agent -/

def firstKnown (texts : List (Option String)) : Option String := texts.findSome? id

structure ToolSpec.MadeFrom (spec : ToolSpec) (t : Node) (own : AgentToolConfig) (kept : Option ToolConfig) :
    Prop where
  tool : t.config = .agentTool own
  id : spec.id = stepId t.id
  nodeType : spec.nodeType = NodeKind.agentTool.name
  name : spec.name = (firstKnown [kept.bind (·.name), own.label, own.name]).getD ""
  description : spec.description = (firstKnown [kept.bind (·.description), own.description]).getD ""
  toolType : spec.toolType = firstKnown [kept.bind (·.toolType), own.toolType]
  selectedIndex : spec.selectedIndex = firstKnown [kept.bind (·.selectedIndex), own.selectedIndex]
  settings : spec.config = own.config

theorem GraphIndex.toolSpec_madeFrom {configs : ToolConfigs} {t : Node} {own : AgentToolConfig}
    (tool : t.config = .agentTool own) :
    (toolSpec configs t.id own).MadeFrom t own (configs.get? t.id) := by
  have pair : ∀ a b : Option String, (a <|> b) = firstKnown [a, b] := by
    intro a b
    cases a <;> cases b <;> rfl
  have triple : ∀ a b c : Option String, (a <|> b <|> c) = firstKnown [a, b, c] := by
    intro a b c
    cases a <;> cases b <;> cases c <;> rfl
  have field : ∀ get : ToolConfig → Option String, get {} = none →
      get ((configs.get? t.id).getD {}) = (configs.get? t.id).bind get := by
    intro get absent
    cases configs.get? t.id with
    | none => exact absent
    | some kept => rfl
  constructor
  case tool => exact tool
  case id => rfl
  case nodeType => rfl
  case name => rw [← field _ rfl, ← triple]; rfl
  case description => rw [← field _ rfl, ← pair]; rfl
  case toolType => rw [← field _ rfl, ← pair]; rfl
  case selectedIndex => rw [← field _ rfl, ← pair]; rfl
  case settings => rfl

namespace Graph

variable {g : Graph} {configs : ToolConfigs} {order : SearchOrder} {start : Nat}

/-- The tools that edges lead to from the node of an id, each once and in the order of the first edges. -/
def attached (g : Graph) (id : String) : List Node :=
  ((g.edges.filter (·.source = id)).filterMap fun e => (g.node? e.target).filter (·.kind = .agentTool)).eraseDups

theorem mem_attached {id : String} {t : Node} (ht : t ∈ g.attached id) : g.node? t.id = some t ∧ t.kind = .agentTool := by
  obtain ⟨e, -, he⟩ := List.mem_filterMap.mp (List.mem_eraseDups.mp ht)
  obtain ⟨known, tool⟩ := Option.filter_eq_some_iff.mp he
  have same : t.id = e.target := by simpa using List.find?_some known
  rw [same]
  exact ⟨known, of_decide_eq_true tool⟩

def toolOf? (configs : ToolConfigs) (n : Node) : Option ToolSpec :=
  match n.config with
  | .agentTool own => some (GraphIndex.toolSpec configs n.id own)
  | _ => none

theorem toolOf?_madeFrom (configs : ToolConfigs) {t : Node} (tool : t.kind = .agentTool) :
    ∃ spec own, toolOf? configs t = some spec ∧ spec.MadeFrom t own (configs.get? t.id) := by
  unfold Node.kind at tool
  cases h : t.config with
  | agentTool own => exact ⟨_, own, by rw [toolOf?, h], GraphIndex.toolSpec_madeFrom h⟩
  | _ => rw [h] at tool; cases tool

theorem tools_eq_attached {p : Nat} {n : Node} (hn : g.Leads p n) :
    g.index.tools configs p = (g.attached n.id).filterMap (toolOf? configs) := by
  have leads : ∀ t ∈ g.index.targets p, ∃ m, g.Leads t m := by
    intro t ht
    obtain ⟨l, hl, rfl⟩ := GraphIndex.mem_targets_iff.mp ht
    obtain ⟨-, -, target⟩ := mem_links_iff.mp (GraphIndex.mem_outgoing_iff.mp hl).1
    exact (leads_of_position? target).imp fun m hm => hm.1
  have inRange : (g.index.targets p).filter (· ∈ List.range g.nodes.length) = g.index.targets p := by
    refine List.filter_eq_self.mpr fun t ht => ?_
    obtain ⟨m, hm⟩ := leads t ht
    simpa using (List.getElem?_eq_some_iff.mp hm.1).1
  -- The nodes at the targets are those that the edges name.
  have nodes : (g.index.targets p).filterMap (fun t => g.nodes[t]?.filter (·.kind = .agentTool)) =
      (g.edges.filter (·.source = n.id)).filterMap fun e => (g.node? e.target).filter (·.kind = .agentTool) := by
    have sources : g.edges.filter (fun e => g.position? e.source = some p) = g.edges.filter (·.source = n.id) := by
      refine List.filter_congr fun e _ => decide_eq_decide.mpr ⟨fun h => (position?_id h hn.1).symm, ?_⟩
      intro h
      rw [h]
      exact hn.2
    rw [targets_eq_successors, successors, sources, List.filterMap_filterMap]
    refine List.filterMap_congr fun e _ => ?_
    cases target : g.position? e.target with
    | none =>
      have unknown : g.node? e.target = none := by
        rw [← Option.isNone_iff_eq_none, ← Option.not_isSome, ← isSome_position?, target]
        rfl
      rw [unknown]
      rfl
    | some t => rw [node?_eq_getElem? target]; rfl
  have apart : ∀ a ∈ g.index.targets p, ∀ b ∈ g.index.targets p, ∀ m,
      g.nodes[a]?.filter (·.kind = .agentTool) = some m → g.nodes[b]?.filter (·.kind = .agentTool) = some m →
        a = b := by
    intro a ha b hb m hma hmb
    obtain ⟨x, hx⟩ := leads a ha
    obtain ⟨y, hy⟩ := leads b hb
    have hxm := (Option.filter_eq_some_iff.mp hma).1
    have hym := (Option.filter_eq_some_iff.mp hmb).1
    rw [hx.1] at hxm
    rw [hy.1] at hym
    exact hx.eq_of_id_eq hy (by rw [Option.some.inj hxm, Option.some.inj hym])
  calc g.index.tools configs p
      = (g.index.targets p).eraseDups.filterMap fun t =>
          (g.nodes[t]?.filter (·.kind = .agentTool)).bind (toolOf? configs) := by
        have found : (Reach.takeFresh (g.index.targets p) (List.range g.index.graph.nodes.length)).1 =
            (g.index.targets p).eraseDups := by
          rw [Reach.takeFresh_eq_eraseDups _ List.nodup_range]
          exact congrArg List.eraseDups inRange
        rw [GraphIndex.tools, found]
        refine List.filterMap_congr fun t _ => ?_
        rw [GraphIndex.node?, index]
        rcases g.nodes[t]? with - | ⟨id, config⟩
        · rfl
        · cases config <;> rfl
    _ = (g.attached n.id).filterMap (toolOf? configs) := by
        rw [← List.filterMap_filterMap, filterMap_eraseDups _ apart, nodes, attached]

/-! ## Edges to tools -/

/-- No draft sets off the event of an edge from an agent to a tool. -/
theorem dataLinks_no_tool (distinct : (g.edges.map (·.id)).Nodup) {e : Edge} (he : e ∈ g.edges) {a t : Node}
    (source : g.node? e.source = some a) (agent : a.kind = .promptAgent) (target : g.node? e.target = some t)
    (tool : t.kind = .agentTool) {p : Nat} {l : Link} (hl : l ∈ g.index.dataLinks p) : l.event ≠ Event.ofEdge e.id := by
  intro event
  obtain ⟨out, data⟩ := GraphIndex.mem_dataLinks_iff.mp hl
  obtain ⟨hlinks, rfl⟩ := GraphIndex.mem_outgoing_iff.mp out
  obtain ⟨-, hsource, htarget⟩ := mem_links_iff.mp hlinks
  have same : l.edge = e :=
    List.inj_on_of_nodup_map distinct (edge_mem_of_mem_links hlinks) he (Event.ofEdge_inj.mp event)
  rw [same] at hsource htarget
  rw [node?_eq_getElem? hsource] at source
  rw [node?_eq_getElem? htarget] at target
  exact data ⟨by rw [kind?_eq source, agent], (isTool_iff target).mpr tool⟩

end Graph

/-! ## The workflow -/

/-- The tools of an agent's step are those that edges of its node lead to, whatever its data said. -/
structure Step.Nests (s : Step) (g : Graph) (configs : ToolConfigs) (c : PromptAgentConfig) : Prop where
  tools : ∃ n own, g.node? n.id = some n ∧ s.id = stepId n.id ∧ n.config = .promptAgent own ∧
    c = { own with tools := c.tools } ∧
    List.Forall₂ (fun spec t => ∃ own, spec.MadeFrom t own (configs.get? t.id)) c.tools (g.attached n.id)
  idsDistinct : (c.tools.map (·.id)).Nodup

structure Workflow.Nested (w : Workflow) (g : Graph) (configs : ToolConfigs) : Prop where
  agents : ∀ s ∈ w.steps, ∀ c, s.config = .promptAgent c → s.Nests g configs c
  apart : ∀ s ∈ w.steps, ∀ c, s.config = .promptAgent c → ∀ spec ∈ c.tools, ∀ q ∈ w.steps, spec.id ≠ q.id
  noEvents : (g.edges.map (·.id)).Nodup → ∀ e ∈ g.edges, ∀ a t,
    g.node? e.source = some a → a.kind = .promptAgent → g.node? e.target = some t → t.kind = .agentTool →
      ∀ s ∈ w.steps, Event.ofEdge e.id ∉ s.accepted ∧ Event.ofEdge e.id ∉ s.emitted

namespace Graph

variable {g : Graph} {configs : ToolConfigs} {order : SearchOrder} {start : Nat}

theorem forall₂_toolOf? (configs : ToolConfigs) {ts : List Node} (tools : ∀ t ∈ ts, t.kind = .agentTool) :
    List.Forall₂ (fun spec t => ∃ own, ToolSpec.MadeFrom spec t own (configs.get? t.id))
      (ts.filterMap (toolOf? configs)) ts := by
  induction ts with
  | nil => exact .nil
  | cons t ts ih =>
    obtain ⟨spec, own, made, madeFrom⟩ := toolOf?_madeFrom configs (tools t List.mem_cons_self)
    rw [List.filterMap_cons_some made]
    exact .cons ⟨own, madeFrom⟩ (ih fun x hx => tools x (List.mem_cons_of_mem _ hx))

/-- Different tools of an agent have different ids, since each is the node that its id means. -/
theorem attached_ids_nodup (id : String) : ((g.attached id).map fun t => stepId t.id).Nodup := by
  refine List.pairwise_map.mpr ((eraseDups_nodup _).imp_of_mem fun {a b} ha hb differ same => differ ?_)
  have ids := stepId_inj.mp same
  have known := (mem_attached ha).1
  rw [ids, (mem_attached hb).1] at known
  exact (Option.some.inj known).symm

/-- The ids of the tools are those of their nodes. -/
theorem map_id_of_madeFrom {specs : List ToolSpec} {ts : List Node}
    (made : List.Forall₂ (fun spec t => ∃ own, ToolSpec.MadeFrom spec t own (configs.get? t.id)) specs ts) :
    specs.map (·.id) = ts.map fun t => stepId t.id := by
  induction made with
  | nil => rfl
  | cons h _ ih =>
    obtain ⟨own, h⟩ := h
    rw [List.map_cons, List.map_cons, h.id, ih]

/-- The agent of a step is its draft's node, with the tools that are attached to it. -/
theorem config_eq_promptAgent (hs : g.firstOfKind? .start = some start) {d : Draft}
    (hd : d ∈ g.index.drafts order start) {c : PromptAgentConfig}
    (agent : (g.stepOf configs order start d).config = .promptAgent c) :
    ∃ own, d.node.config = .promptAgent own ∧
      c = { own with tools := (g.attached d.node.id).filterMap (toolOf? configs) } := by
  rw [← tools_eq_attached (mem_drafts hs hd).2.1]
  change d.config g.index configs = _ at agent
  unfold Draft.config at agent
  split at agent
  · next own h => exact ⟨own, h, (NodeConfig.promptAgent.inj agent).symm⟩
  · next own other => exact absurd agent (other c)

theorem compiled_nested (hs : g.firstOfKind? .start = some start) (settings : Settings) :
    Workflow.Nested ⟨g.compiled configs order start, settings⟩ g configs := by
  have agents : ∀ d ∈ g.index.drafts order start, ∀ c, (g.stepOf configs order start d).config = .promptAgent c →
      (g.stepOf configs order start d).Nests g configs c ∧ c.tools.map (·.id) =
        (g.attached d.node.id).map fun t => stepId t.id := by
    intro d hd c agent
    obtain ⟨own, node, rfl⟩ := config_eq_promptAgent hs hd agent
    have made := forall₂_toolOf? configs fun t (ht : t ∈ g.attached d.node.id) => (mem_attached ht).2
    have ids := map_id_of_madeFrom made
    refine ⟨⟨⟨d.node, own, (mem_drafts hs hd).2.1.node?, stepOf_id, node, rfl, made⟩, ?_⟩, ids⟩
    rw [ids]
    exact attached_ids_nodup _
  constructor
  case agents =>
    intro s hmem c agent
    obtain ⟨d, hd, rfl⟩ := mem_compiled_iff.mp hmem
    exact (agents d hd c agent).1
  case apart =>
    intro s hmem c agent spec hspec q hq same
    obtain ⟨d, hd, rfl⟩ := mem_compiled_iff.mp hmem
    obtain ⟨other, hother, rfl⟩ := mem_compiled_iff.mp hq
    have hid : spec.id ∈ c.tools.map (·.id) := List.mem_map_of_mem hspec
    rw [(agents d hd c agent).2] at hid
    obtain ⟨t, ht, tid⟩ := List.mem_map.mp hid
    -- The step's node would be the tool.
    obtain ⟨known, tool⟩ := mem_attached ht
    obtain ⟨-, leads, noTool, -⟩ := mem_drafts hs hother
    rw [stepId_inj.mp (tid.trans (same.trans stepOf_id)), leads.node?] at known
    exact noTool (by rw [Option.some.inj known]; exact tool)
  case noEvents =>
    intro distinct e he a t source agent target tool
    have silent : ∀ d ∈ g.index.drafts order start, Event.ofEdge e.id ∉ d.emitted := by
      intro d hd emitted
      obtain ⟨l, -, event, -, data⟩ := exists_link_of_mem_emitted hs hd emitted
      exact dataLinks_no_tool distinct he source agent target tool data event
    intro s hmem
    obtain ⟨d, hd, rfl⟩ := mem_compiled_iff.mp hmem
    refine ⟨fun accepted => ?_, silent d hd⟩
    obtain ⟨l, -, -, -, q, hq, emitted⟩ := mem_accepted_stepOf accepted
    exact silent q hq emitted

/-- In every compiled workflow the tools stand with their agents, each once, and nowhere else. -/
theorem compile_nested {g : Graph} {settings : Settings} {configs : ToolConfigs} {order : SearchOrder} {w : Workflow}
    (compiled : g.compile settings configs order = .ok w) : w.Nested g configs := by
  obtain ⟨start, hs, rfl⟩ := compile_eq_ok_iff.mp compiled
  exact compiled_nested hs settings

/-- Two agents share a tool, one edge to a tool is there twice, and the data of an agent names a tool that
    no edge leads to. A later node has the id of a tool. -/
def toolbox : Graph :=
  ({ nodes := [.start "1", ⟨"2", .promptAgent { tools := [{ id := "node-9" }] }⟩, .promptAgent "3" "Answer." none,
      .indexTool "4" "Docs" "pipe-1", ⟨"5", .agentTool { name := some "Wiki", description := some "All there is" }⟩,
      .stop "5", .stop "6"] } : Graph)
    |>.join "e1" "1" "2" |>.join "e2" "2" "5" |>.join "e3" "2" "4" |>.join "e4" "2" "5" |>.join "e5" "2" "3"
    |>.join "e6" "3" "4" |>.join "e7" "3" "6"

def toolboxConfigs : ToolConfigs :=
  .ofEntries [("4", { name := some "Manual" }), ("5", { toolType := some ToolSpec.indexType })]

theorem toolbox_nested :
    let w : Workflow := ⟨toolbox.compiled toolboxConfigs .breadthFirst 0, Sample.settings⟩
    toolbox.compile Sample.settings toolboxConfigs .breadthFirst = .ok w ∧ w.Nested toolbox toolboxConfigs ∧
    (toolbox.edges.map (·.id)).Nodup ∧ (toolbox.attached "2").map (·.id) = ["5", "4"] ∧
    (toolbox.attached "3").map (·.id) = ["4"] ∧
    (toolbox.attached "2").filterMap (toolOf? toolboxConfigs) =
      [{ id := "node-5", name := "Wiki", description := "All there is", toolType := some "llamacloud-index" },
       { id := "node-4", name := "Manual", description := "Search the Docs index",
         toolType := some "llamacloud-index", selectedIndex := some "pipe-1" }] := by
  intro w
  have compiled : toolbox.compile Sample.settings toolboxConfigs .breadthFirst = .ok w :=
    compile_of_firstOfKind? (by decide) _ _ _
  exact ⟨compiled, compile_nested compiled, by decide, by decide +kernel, by decide +kernel, by decide +kernel⟩

end Graph
end EventFlow
