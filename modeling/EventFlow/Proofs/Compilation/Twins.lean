/-
  EventFlow.Proofs.Compilation.Twins — compilation sees nothing of a graph but its live part.

  Two positions are twins if the same node stands there, each in its graph. Searches in two graphs with the
  same live part go side by side: from live twins the live edges lead to twins, in the same order, and of two
  twins both are found already or neither is. What a node sets off, its tools and the edges that it waits for
  are live, so the drafts and then the steps are the same. An edge into a live node may leave a node that is
  not live; nothing sets its event off, since events are those of edges with distinct ids.

  Proved:
  - `breadthFirst_twins` / `depthFirst_twins`: searches that go side by side, by induction on the search.
  - `targets_eq`, `emits_twins`, `tools_twins`, `inputs_eq`: what compilation asks of a live node.
  - `supported_twins`: the same drafts are kept, by induction on the rounds of dropping.
  - `compile_live`: graphs with the same live part compile alike.
-/

import EventFlow.Proofs.Compilation.Live
import Mathlib.Data.List.Forall2

namespace EventFlow

open List (Forall₂)

theorem map_eq_of_forall₂ {α β γ : Type} {R : α → β → Prop} {f : α → γ} {f' : β → γ} (same : ∀ a b, R a b → f a = f' b)
    {l : List α} {l' : List β} (h : Forall₂ R l l') : l.map f = l'.map f' := by
  induction h with
  | nil => rfl
  | cons first _ ih => rw [List.map_cons, List.map_cons, same _ _ first, ih]

theorem filterMap_eq_of_forall₂ {α β γ : Type} {R : α → β → Prop} {f : α → Option γ} {f' : β → Option γ}
    (same : ∀ a b, R a b → f a = f' b) {l : List α} {l' : List β} (h : Forall₂ R l l') :
    l.filterMap f = l'.filterMap f' := by
  have results := congrArg (List.filterMap id) (map_eq_of_forall₂ same h)
  rwa [List.filterMap_map, List.filterMap_map, Function.id_comp, Function.id_comp] at results

/-! ## Searches side by side -/

namespace Reach

/-- Nodes not found yet, none twice: of two twins both are among them or neither. -/
structure Matched (R : Nat → Nat → Prop) (fresh fresh' : List Nat) : Prop where
  nodup : fresh.Nodup
  nodup' : fresh'.Nodup
  mem_iff : ∀ x x', R x x' → (x ∈ fresh ↔ x' ∈ fresh')

section

variable {R : Nat → Nat → Prop} (exact : ∀ x x' y y', R x x' → R y y' → (x = y ↔ x' = y'))

include exact

theorem Matched.erase {fresh fresh' : List Nat} (matched : Matched R fresh fresh') {t t' : Nat} (twins : R t t') :
    Matched R (fresh.erase t) (fresh'.erase t') where
  nodup := matched.nodup.erase t
  nodup' := matched.nodup'.erase t'
  mem_iff x x' h := by
    rw [matched.nodup.mem_erase_iff, matched.nodup'.mem_erase_iff, matched.mem_iff x x' h, Ne, exact x x' t t' h twins]

theorem takeFresh_twins {ts ts' fresh fresh' : List Nat} (twins : Forall₂ R ts ts') (matched : Matched R fresh fresh') :
    Forall₂ (fun t t' => R t t' ∧ t ∈ fresh) (takeFresh ts fresh).1 (takeFresh ts' fresh').1 ∧
      Matched R (takeFresh ts fresh).2 (takeFresh ts' fresh').2 := by
  induction twins generalizing fresh fresh' with
  | nil => exact ⟨.nil, matched⟩
  | @cons t t' ts ts' first rest ih =>
    by_cases found : t ∈ fresh
    · have found' := (matched.mem_iff t t' first).mp found
      obtain ⟨taken, left⟩ := ih (matched.erase exact first)
      rw [takeFresh_cons_of_mem found, takeFresh_cons_of_mem found']
      exact ⟨.cons ⟨first, found⟩ (taken.imp fun _ _ h => ⟨h.1, List.mem_of_mem_erase h.2⟩), left⟩
    · have found' := mt (matched.mem_iff t t' first).mpr found
      rw [takeFresh_cons_of_not_mem found, takeFresh_cons_of_not_mem found']
      exact ih matched

variable {next next' : Nat → List Nat} {L : Nat → Nat → Prop}
  (leads : ∀ p p', L p p' → Forall₂ R (next p) (next' p'))

include leads

theorem breadthFirst_twins {fresh fresh' queue queue' : List Nat} (matched : Matched R fresh fresh')
    (enters : ∀ t t', R t t' → t ∈ fresh → L t t') (queued : Forall₂ L queue queue') :
    Forall₂ L (breadthFirst next fresh queue) (breadthFirst next' fresh' queue') := by
  induction fresh, queue using breadthFirst.induct next generalizing fresh' queue' with
  | case1 fresh =>
    cases queued
    rw [breadthFirst, breadthFirst]
    exact .nil
  | case2 fresh p queue ih =>
    cases queued with
    | cons first rest =>
      obtain ⟨taken, left⟩ := takeFresh_twins exact (leads _ _ first) matched
      have old : ∀ t ∈ (takeFresh (next p) fresh).2, t ∈ fresh := fun t ht =>
        (takeFresh_perm (next p) fresh).mem_iff.mp (List.mem_append_right _ ht)
      rw [breadthFirst, breadthFirst]
      refine .cons first (ih left (fun t t' h ht => enters t t' h (old t ht)) ?_)
      exact List.rel_append rest (taken.imp fun t t' h => enters t t' h.1 h.2)

theorem depthFirst_twins {fresh fresh' stack stack' : List Nat} (matched : Matched R fresh fresh')
    (enters : ∀ t t', R t t' → t ∈ fresh → L t t') (stacked : Forall₂ R stack stack') :
    Forall₂ L (depthFirst next fresh stack) (depthFirst next' fresh' stack') := by
  induction fresh, stack using depthFirst.induct next generalizing fresh' stack' with
  | case1 fresh =>
    cases stacked
    rw [depthFirst, depthFirst]
    exact .nil
  | case2 fresh p stack hp ih =>
    cases stacked with
    | cons first rest =>
      have enter := enters _ _ first hp
      rw [depthFirst, depthFirst, if_pos hp, if_pos ((matched.mem_iff _ _ first).mp hp)]
      refine .cons enter (ih (matched.erase exact first) ?_ (List.rel_append (leads _ _ enter) rest))
      exact fun t t' h ht => enters t t' h (List.mem_of_mem_erase ht)
  | case3 fresh p stack hp ih =>
    cases stacked with
    | cons first rest =>
      rw [depthFirst, depthFirst, if_neg hp, if_neg (mt (matched.mem_iff _ _ first).mpr hp)]
      exact ih matched enters rest

end

end Reach

/-! ## Twins -/

namespace Graph

def Twins (g g' : Graph) (p p' : Nat) : Prop := ∃ n, g.Leads p n ∧ g'.Leads p' n

def LiveTwins (g g' : Graph) (p p' : Nat) : Prop := ∃ n, g.Leads p n ∧ g'.Leads p' n ∧ g.Live n.id

def TargetTwins (g g' : Graph) (t t' : Nat) : Prop :=
  g.Twins g' t t' ∧ (t ∈ g.index.enterable → g.LiveTwins g' t t')

variable {g g' : Graph}

theorem Twins.exact (x x' y y' : Nat) (hx : g.Twins g' x x') (hy : g.Twins g' y y') : x = y ↔ x' = y' := by
  obtain ⟨n, hn, hn'⟩ := hx
  obtain ⟨m, hm, hm'⟩ := hy
  constructor
  · rintro rfl
    obtain rfl : n = m := Option.some.inj (hn.1.symm.trans hm.1)
    exact hn'.eq_of_id_eq hm' rfl
  · rintro rfl
    obtain rfl : n = m := Option.some.inj (hn'.1.symm.trans hm'.1)
    exact hn.eq_of_id_eq hm rfl

theorem matched_range (g g' : Graph) :
    Reach.Matched (g.Twins g') (List.range g.nodes.length) (List.range g'.nodes.length) where
  nodup := List.nodup_range
  nodup' := List.nodup_range
  mem_iff x x' h := by
    obtain ⟨n, hn, hn'⟩ := h
    rw [List.mem_range, List.mem_range]
    exact iff_of_true (List.getElem?_eq_some_iff.mp hn.1).1 (List.getElem?_eq_some_iff.mp hn'.1).1

theorem matched_enterable (g g' : Graph) : Reach.Matched (g.Twins g') g.index.enterable g'.index.enterable where
  nodup := g.index.nodup_enterable
  nodup' := g'.index.nodup_enterable
  mem_iff x x' h := by
    obtain ⟨n, hn, hn'⟩ := h
    have enterable {g : Graph} {p : Nat} (h : g.Leads p n) : p ∈ g.index.enterable ↔ n.kind ≠ .agentTool := by
      refine ⟨fun enter tool => ?_, mem_enterable h.1⟩
      obtain ⟨-, noTool⟩ := GraphIndex.mem_enterable_iff.mp enter
      rw [(isTool_iff h.1).mpr tool] at noTool
      cases noTool
    rw [enterable hn, enterable hn']

/-! ## What compilation asks of a live node -/

section

variable {p : Nat} {n : Node} (hn : g.Leads p n) (live : g.Live n.id)

include hn live

theorem map_edge_outgoing : (g.index.outgoing p).map Link.edge = g.liveEdges.filter (·.source = n.id) := by
  refine (map_edge_filter_source p).trans ?_
  rw [liveEdges, List.filter_filter]
  refine List.filter_congr fun e _ => ?_
  rw [Bool.eq_iff_iff]
  simp only [Bool.and_eq_true, decide_eq_true_eq, isSome_position?]
  constructor
  · rintro ⟨source, known⟩
    have id : n.id = e.source := position?_id source hn.1
    exact ⟨id.symm, id ▸ live, known⟩
  · rintro ⟨id, -, known⟩
    exact ⟨id ▸ hn.2, known⟩

theorem targets_eq :
    g.index.targets p = (g.liveEdges.filter (·.source = n.id)).map fun e => (g.position? e.target).getD 0 := by
  rw [← map_edge_outgoing hn live, List.map_map, GraphIndex.targets]
  refine List.map_congr_left fun l hl => ?_
  obtain ⟨-, -, target⟩ := mem_links_iff.mp (GraphIndex.mem_outgoing_iff.mp hl).1
  rw [Function.comp_apply, target, Option.getD_some]

theorem map_edge_dataLinks : (g.index.dataLinks p).map Link.edge =
    (g.liveEdges.filter (·.source = n.id)).filter fun e =>
      !(n.kind = .promptAgent && (g.node? e.target).any (·.kind = .agentTool)) := by
  have tool : ∀ l ∈ g.index.outgoing p,
      g.index.isTool l.target = (g.node? l.edge.target).any (·.kind = .agentTool) := by
    intro l hl
    obtain ⟨-, -, target⟩ := mem_links_iff.mp (GraphIndex.mem_outgoing_iff.mp hl).1
    obtain ⟨t, leads, -, known⟩ := leads_of_position? target
    rw [known, Bool.eq_iff_iff, isTool_iff leads.1, Option.any_some, decide_eq_true_eq]
  rw [← map_edge_outgoing hn live, List.filter_map, GraphIndex.dataLinks]
  simp only [kind?_eq hn.1, Option.some.injEq]
  split
  · next agent =>
    refine congrArg (List.map Link.edge) (List.filter_congr fun l hl => ?_)
    rw [tool l hl, Function.comp_apply, agent, decide_eq_true rfl, Bool.true_and]
  · next other =>
    refine congrArg (List.map Link.edge) (List.filter_eq_self.mpr fun l _ => ?_).symm
    rw [Function.comp_apply, decide_eq_false other, Bool.false_and, Bool.not_false]

end

end Graph

/-- What a node sets off depends on its kind and on the edges of its links. -/
theorem GraphIndex.emits_congr {ix ix' : GraphIndex} {p p' : Nat} (kind : ix.kind? p = ix'.kind? p')
    (edges : (ix.dataLinks p).map Link.edge = (ix'.dataLinks p').map Link.edge) : ix.emits p = ix'.emits p' := by
  have events (links : List Link) : links.map Link.event = (links.map Link.edge).map fun e => Event.ofEdge e.id := by
    rw [List.map_map]
    rfl
  have first (links : List Link) : (links.head?.map fun l => Wires.single l.event) =
      (links.map Link.edge).head?.map fun e => .single (Event.ofEdge e.id) := by
    cases links <;> rfl
  have branch (links : List Link) : branches links = .ofEntries (["true", "false"].filterMap fun handle =>
      ((links.map Link.edge).find? fun e => e.sourceHandle = some handle).map fun e => (handle, Event.ofEdge e.id)) := by
    simp only [branches, List.find?_map, Option.map_map]
    rfl
  simp only [emits, kind, events, first, branch, edges]

/-! ## Drafts -/

namespace Graph

variable {g g' : Graph}

structure LiveDraft (g : Graph) (d : Draft) : Prop where
  leads : g.Leads d.position d.node
  live : g.Live d.node.id
  emits : d.emits = g.index.emits d.position

structure DraftTwins (g g' : Graph) (d d' : Draft) : Prop where
  draft : g.LiveDraft d
  draft' : g'.LiveDraft d'
  node : d.node = d'.node
  emits : d.emits = d'.emits

/-- An edge whose event a draft sets off leaves the draft's node. -/
theorem LiveDraft.source_eq (distinct : (g.edges.map (·.id)).Nodup) {q : Draft} (hq : g.LiveDraft q) {e : Edge}
    (he : e ∈ g.edges) (sets : Event.ofEdge e.id ∈ q.emitted) : q.node.id = e.source := by
  obtain ⟨l, hlinks, same, leaves, -⟩ := exists_link_of_emits hq.emits sets
  have edge : l.edge = e := List.inj_on_of_nodup_map distinct (edge_mem_of_mem_links hlinks) he (Event.ofEdge_inj.mp same)
  obtain ⟨-, at_source, -⟩ := mem_links_iff.mp hlinks
  rw [leaves, edge] at at_source
  exact position?_id at_source hq.leads.1

/-- A draft waits for the events of live edges, since the drafts that set events off are live. -/
theorem inputs_eq (distinct : (g.edges.map (·.id)).Nodup) {ds : List Draft} (each : ∀ q ∈ ds, g.LiveDraft q) {d : Draft}
    (hd : g.LiveDraft d) : Draft.inputs g.index ds d =
      (g.liveEdges.filter fun e => e.target = d.node.id && ds.any (·.emitted.contains (Event.ofEdge e.id))).map
        fun e => Event.ofEdge e.id := by
  have events : (g.index.incoming d.position).map Link.event =
      ((g.index.incoming d.position).map Link.edge).map fun e => Event.ofEdge e.id := by
    rw [List.map_map]
    rfl
  have edges : (g.index.incoming d.position).map Link.edge =
      g.edges.filter fun e => (g.position? e.source).isSome && decide (g.position? e.target = some d.position) :=
    map_edge_filter_target d.position
  rw [Draft.inputs, events, edges, List.filter_map, List.filter_filter, liveEdges, List.filter_filter]
  refine congrArg _ (List.filter_congr fun e he => ?_)
  rw [Bool.eq_iff_iff]
  simp only [Function.comp_apply, Bool.and_eq_true, decide_eq_true_eq, List.any_eq_true, List.contains_iff_mem,
    isSome_position?]
  constructor
  · rintro ⟨⟨q, hq, sets⟩, -, enters⟩
    have source : g.Live e.source := (each q hq).source_eq distinct he sets ▸ (each q hq).live
    have id : e.target = d.node.id := (position?_id enters hd.leads.1).symm
    exact ⟨⟨id, q, hq, sets⟩, source, by rw [id, hd.leads.node?]; rfl⟩
  · rintro ⟨⟨id, q, hq, sets⟩, source, -⟩
    obtain ⟨m, known, -⟩ := source.node?
    exact ⟨⟨q, hq, sets⟩, by rw [known]; rfl, id ▸ hd.leads.2⟩

section

variable (same : g.SameLive g') (distinct : g.Distinct) (distinct' : g'.Distinct)

include same distinct distinct'

/-- From live twins the edges lead to twins, and if these are no tools, they are live. -/
theorem targets_twins {p p' : Nat} (twins : g.LiveTwins g' p p') :
    Forall₂ (g.TargetTwins g') (g.index.targets p) (g'.index.targets p') := by
  obtain ⟨n, hn, hn', live⟩ := twins
  rw [targets_eq hn live, targets_eq hn' (same.live distinct.nodes distinct'.nodes live), ← same.edges,
    List.forall₂_map_left_iff, List.forall₂_map_right_iff, List.forall₂_same]
  intro e he
  have he := (List.mem_filter.mp he).1
  obtain ⟨t, known⟩ := Option.isSome_iff_exists.mp (mem_liveEdges_iff.mp he).2.2
  obtain ⟨id, q, leads⟩ := exists_leads known
  obtain ⟨-, q', leads'⟩ := exists_leads (same.targets e he ▸ known)
  rw [← id, leads.2, leads'.2, Option.getD_some, Option.getD_some]
  refine ⟨⟨t, leads, leads'⟩, fun enter => ⟨t, leads, leads', id ▸ Live.target he known fun tool => ?_⟩⟩
  obtain ⟨-, noTool⟩ := GraphIndex.mem_enterable_iff.mp enter
  rw [(isTool_iff leads.1).mpr tool] at noTool
  cases noTool

theorem reach_twins (order : SearchOrder) {start start' : Nat} (twins : g.LiveTwins g' start start') :
    Forall₂ (g.LiveTwins g') (g.index.reach order start) (g'.index.reach order start') := by
  have exact (x x' y y' : Nat) (hx : g.TargetTwins g' x x') (hy : g.TargetTwins g' y y') : x = y ↔ x' = y' :=
    Twins.exact x x' y y' hx.1 hy.1
  have matched : Reach.Matched (g.TargetTwins g') g.index.enterable g'.index.enterable :=
    { matched_enterable g g' with mem_iff := fun x x' h => (matched_enterable g g').mem_iff x x' h.1 }
  have leads (p p' : Nat) (h : g.LiveTwins g' p p') := targets_twins same distinct distinct' h
  obtain ⟨n, hn, hn', -⟩ := id twins
  cases order with
  | breadthFirst =>
    refine Reach.breadthFirst_twins exact leads (matched.erase exact ⟨⟨n, hn, hn'⟩, fun _ => twins⟩) ?_ (.cons twins .nil)
    exact fun t t' h ht => h.2 (List.mem_of_mem_erase ht)
  | depthFirst =>
    exact Reach.depthFirst_twins exact leads matched (fun t t' h ht => h.2 ht) (.cons ⟨⟨n, hn, hn'⟩, fun _ => twins⟩ .nil)

theorem emits_twins {p p' : Nat} (twins : g.LiveTwins g' p p') : g.index.emits p = g'.index.emits p' := by
  obtain ⟨n, hn, hn', live⟩ := twins
  refine GraphIndex.emits_congr (by rw [kind?_eq hn.1, kind?_eq hn'.1]) ?_
  rw [map_edge_dataLinks hn live, map_edge_dataLinks hn' (same.live distinct.nodes distinct'.nodes live), ← same.edges]
  refine List.filter_congr fun e he => ?_
  rw [same.targets e (List.mem_filter.mp he).1]

theorem tools_twins (configs : ToolConfigs) {p p' : Nat} (twins : g.LiveTwins g' p p') :
    g.index.tools configs p = g'.index.tools configs p' := by
  have targets := (targets_twins same distinct distinct' twins).imp fun _ _ h => h.1
  obtain ⟨taken, -⟩ := Reach.takeFresh_twins Twins.exact targets (matched_range g g')
  refine filterMap_eq_of_forall₂ (fun t t' h => ?_) taken
  obtain ⟨⟨n, hn, hn'⟩, -⟩ := h
  have node : g.index.node? t = g'.index.node? t' := hn.1.trans hn'.1.symm
  rw [node]

/-- The drafts of what is reached. -/
theorem reached_twins {ps ps' : List Nat} (twins : Forall₂ (g.LiveTwins g') ps ps') :
    Forall₂ (g.DraftTwins g') (ps.filterMap g.index.draft?) (ps'.filterMap g'.index.draft?) := by
  induction twins with
  | nil => exact .nil
  | @cons p p' ps ps' first _ ih =>
    obtain ⟨n, hn, hn', live⟩ := id first
    have draft : g.index.draft? p = some ⟨p, n, g.index.emits p⟩ := draft?_eq_some_iff.mpr ⟨rfl, hn.1, rfl⟩
    have draft' : g'.index.draft? p' = some ⟨p', n, g'.index.emits p'⟩ := draft?_eq_some_iff.mpr ⟨rfl, hn'.1, rfl⟩
    rw [List.filterMap_cons_some draft, List.filterMap_cons_some draft']
    refine .cons ⟨⟨hn, live, rfl⟩, ⟨hn', same.live distinct.nodes distinct'.nodes live, rfl⟩, rfl, ?_⟩ ih
    exact emits_twins same distinct distinct' first

variable {ds ds' : List Draft} (twins : Forall₂ (g.DraftTwins g') ds ds')

include twins

theorem inputs_twins {d d' : Draft} (h : g.DraftTwins g' d d') :
    Draft.inputs g.index ds d = Draft.inputs g'.index ds' d' := by
  have each : ∀ q ∈ ds, g.LiveDraft q := ((List.forall₂_and_left _ _).mp (twins.imp fun q q' h => ⟨h.draft, h⟩)).1
  have each' : ∀ q ∈ ds', g'.LiveDraft q :=
    ((List.forall₂_and_left _ _).mp (twins.flip.imp fun q' q h => ⟨h.draft', h⟩)).1
  have sets : ds.map Draft.emitted = ds'.map Draft.emitted :=
    map_eq_of_forall₂ (fun q q' h => by rw [Draft.emitted, Draft.emitted, h.emits]) twins
  have any (ds : List Draft) (v : Event) : ds.any (·.emitted.contains v) = (ds.map Draft.emitted).any (·.contains v) := by
    rw [List.any_map]
    rfl
  rw [inputs_eq distinct.edges each h.draft, inputs_eq distinct'.edges each' h.draft', same.edges, h.node]
  simp only [any, sets]

theorem kept_twins : Forall₂ (g.DraftTwins g') (Draft.kept g.index ds) (Draft.kept g'.index ds') := by
  refine List.rel_filter (fun d d' h => ?_) twins
  have supported : Draft.isSupported g.index ds d = Draft.isSupported g'.index ds' d' := by
    rw [Draft.isSupported, Draft.isSupported, inputs_twins same distinct distinct' twins h, Draft.isStart, Draft.isStart,
      h.node]
  exact iff_of_eq (congrArg (· = true) supported)

theorem supported_twins : Forall₂ (g.DraftTwins g') (Draft.supported g.index ds) (Draft.supported g'.index ds') := by
  induction ds using Draft.supported.induct g.index generalizing ds' with
  | case1 ds dropped ih =>
    have kept := kept_twins same distinct distinct' twins
    have dropped' := dropped
    rw [kept.length_eq, twins.length_eq] at dropped'
    rw [Draft.supported_of_dropped dropped, Draft.supported_of_dropped dropped']
    exact ih kept
  | case2 ds fixed =>
    have fixed' := fixed
    rw [(kept_twins same distinct distinct' twins).length_eq, twins.length_eq] at fixed'
    rw [Draft.supported_of_fixed fixed, Draft.supported_of_fixed fixed']
    exact twins

theorem toStep_twins (configs : ToolConfigs) {d d' : Draft} (h : g.DraftTwins g' d d') :
    d.toStep g.index configs ds = d'.toStep g'.index configs ds' := by
  have live : g.LiveTwins g' d.position d'.position := ⟨d.node, h.draft.leads, h.node ▸ h.draft'.leads, h.draft.live⟩
  have config : d.config g.index configs = d'.config g'.index configs := by
    rw [Draft.config, Draft.config, h.node, tools_twins same distinct distinct' configs live]
  rw [Draft.toStep, Draft.toStep, config, Draft.accepts, Draft.accepts, inputs_twins same distinct distinct' twins h,
    Draft.isStart, Draft.isStart, h.node, h.emits]

end

/-! ## Compiled workflows -/

/-- Both graphs become the same workflow, or the same error. -/
def CompilesLike (g g' : Graph) : Prop :=
  ∀ settings configs order, g.compile settings configs order = g'.compile settings configs order

theorem SameLive.compilesLike (same : g.SameLive g') (distinct : g.Distinct) (distinct' : g'.Distinct) :
    g.CompilesLike g' := by
  intro settings configs order
  have leading := same.leading distinct.nodes distinct'.nodes
  cases first : g.leading? .start with
  | none =>
    have noStart {g : Graph} (absent : g.leading? .start = none) : g.firstOfKind? .start = none := by
      rw [leading?_eq_bind] at absent
      cases hs : g.firstOfKind? .start with
      | none => rfl
      | some p =>
        obtain ⟨n, hn, -⟩ := firstOfKind?_eq_some hs
        rw [hs, Option.bind_some, hn.1] at absent
        cases absent
    rw [compile, compile, noStart first, noStart (leading.symm.trans first)]
  | some start =>
    obtain ⟨p, hs, hn⟩ := leading?_eq_some_iff.mp first
    obtain ⟨p', hs', hn'⟩ := leading?_eq_some_iff.mp (leading.symm.trans first)
    have twins : g.LiveTwins g' p p' := ⟨start, hn, hn', start, first, .refl⟩
    have reached := reached_twins same distinct distinct' (reach_twins same distinct distinct' order twins)
    have drafts : Forall₂ (g.DraftTwins g') (g.index.drafts order p) (g'.index.drafts order p') :=
      supported_twins same distinct distinct' reached
    have step (d d' : Draft) (h : g.DraftTwins g' d d') : g.stepOf configs order p d = g'.stepOf configs order p' d' :=
      toStep_twins same distinct distinct' drafts configs h
    rw [compile_of_firstOfKind? hs, compile_of_firstOfKind? hs', compiled, compiled, map_eq_of_forall₂ step drafts]

/-- Graphs with the same live part compile alike. So the order of the nodes does not count, as long as the
    first start is the same, and what is not live can be dropped or added. -/
theorem compile_live (g g' : Graph) (distinct : g.Distinct) :
    (g'.Distinct → g.SameLive g' → g.CompilesLike g') ∧
      (g'.nodes.Perm g.nodes → g'.edges = g.edges → g'.startNode? = g.startNode? → g'.CompilesLike g) ∧
      ∀ keepNode keepEdge, g.Spares keepNode keepEdge → (g.restrict keepNode keepEdge).CompilesLike g := by
  refine ⟨fun distinct' same => same.compilesLike distinct distinct', fun nodes edges start => ?_,
    fun keepNode keepEdge spares => ?_⟩
  · have distinct' : g'.Distinct := ⟨(nodes.map _).nodup_iff.mpr distinct.nodes, edges ▸ distinct.edges⟩
    exact (sameLive_of_perm distinct.nodes nodes edges start).compilesLike distinct' distinct
  · have distinct' : (g.restrict keepNode keepEdge).Distinct :=
      ⟨restrict_distinct distinct.nodes, (List.filter_sublist.map _).nodup distinct.edges⟩
    exact (sameLive_restrict distinct.nodes spares).compilesLike distinct' distinct

/-- An agent's graph, its nodes in another order, between a node that nothing leads to, an edge from there to
    the agent and an edge to no node. -/
def crowded : Graph where
  nodes := .promptLlm "6" none :: Sample.agentWithTool.nodes.reverse
  edges := { id := "e0", source := "6", target := "3" } :: Sample.agentWithTool.edges ++
    [{ id := "e5", source := "2", target := "7" }]

theorem crowded_live : crowded.CompilesLike Sample.agentWithTool ∧
    ({ crowded with nodes := crowded.nodes.reverse } : Graph).CompilesLike crowded ∧
    (crowded.restrict (·.id ≠ "6") (·.id ∉ ["e0", "e5"])).CompilesLike crowded := by
  have distinct : crowded.Distinct := ⟨by decide +kernel, by decide +kernel⟩
  have distinct' : Sample.agentWithTool.Distinct := ⟨by decide +kernel, by decide +kernel⟩
  have same : crowded.SameLive Sample.agentWithTool := by
    refine ⟨by decide +kernel, by decide +kernel, fun id live => ?_, by decide +kernel⟩
    have nodes : ∀ id ∈ crowded.reachedIds, crowded.node? id = Sample.agentWithTool.node? id := by decide +kernel
    exact nodes id (mem_reachedIds_iff.mpr live)
  refine ⟨(compile_live crowded Sample.agentWithTool distinct).1 distinct' same,
    (compile_live crowded _ distinct).2.1 (List.reverse_perm _) rfl (by decide +kernel),
    (compile_live crowded crowded distinct).2.2 _ _ ⟨by decide +kernel, by decide +kernel, by decide +kernel⟩⟩

end Graph
end EventFlow
