/-
  EventFlow.Proofs.Compilation.Pruning — what a node sets off, and which nodes are kept.

  - `emits_cases`: the wires that a node of each kind sets off.
  - `exists_link_of_mem_emits`: an event that is set off stands for a data link of the node.
  - `supported_fixed`: each draft that is left is supported by those that are left.
  - `mem_supported_of_selfSupporting`: drafts that support each other are left.
-/

import EventFlow.Compilation.Support
import EventFlow.Proofs.Graph.Adjacency
import EventFlow.Proofs.Workflow.Lookup

namespace EventFlow

namespace GraphIndex

variable {ix : GraphIndex} {pos : Nat}

/-! ## What a node sets off -/

theorem mem_dataLinks_iff {l : Link} :
    l ∈ ix.dataLinks pos ↔ l ∈ ix.outgoing pos ∧ ¬(ix.kind? pos = some .promptAgent ∧ ix.isTool l.target = true) := by
  simp only [dataLinks]
  split
  · rename_i h
    simp [h]
  · rename_i h
    simp [h]

theorem mem_branches {links : List Link} {handle : String} {e : Event}
    (h : (handle, e) ∈ (branches links).entries) :
    (handle = "true" ∨ handle = "false") ∧ ∃ l ∈ links, l.edge.sourceHandle = some handle ∧ l.event = e := by
  obtain ⟨handle', hmem, hsome⟩ := List.mem_filterMap.mp (Dictionary.mem_ofEntries h)
  obtain ⟨l, hl, heq⟩ := Option.map_eq_some_iff.mp hsome
  cases heq
  refine ⟨by simpa using hmem, l, List.mem_of_find?_eq_some hl, ?_, rfl⟩
  simpa using List.find?_some hl

theorem head?_single_cases (links : List Link) :
    (links.head?.map fun l => Wires.single l.event) = none ∨
      ∃ l ∈ links, (links.head?.map fun l => Wires.single l.event) = some (.single l.event) := by
  cases links with
  | nil => exact Or.inl rfl
  | cons l links => exact Or.inr ⟨l, List.mem_cons_self, rfl⟩

/-- A node sets off nothing, one event for each branch of a decision, all events of a splitter
    that has several, or one event. -/
theorem emits_cases (ix : GraphIndex) (pos : Nat) :
    ix.emits pos = none ∨
      (ix.kind? pos = some .decision ∧ (branches (ix.dataLinks pos)).isEmpty = false ∧
        ix.emits pos = some (.branches (branches (ix.dataLinks pos)))) ∨
      (ix.kind? pos = some .splitter ∧ 2 ≤ (ix.dataLinks pos).length ∧
        ix.emits pos = some (.many ((ix.dataLinks pos).map Link.event))) ∨
      (ix.kind? pos ≠ some .stop ∧ ix.kind? pos ≠ some .decision ∧
        ∃ l ∈ ix.dataLinks pos, ix.emits pos = some (.single l.event)) := by
  have once := head?_single_cases (ix.dataLinks pos)
  unfold emits
  cases hk : ix.kind? pos with
  | none => exact Or.inl rfl
  | some kind =>
    cases kind with
    | stop => exact Or.inl rfl
    | agentTool => exact Or.inl rfl
    | decision =>
      cases he : (branches (ix.dataLinks pos)).isEmpty with
      | true => simp [he]
      | false => simp [he]
    | splitter =>
      rcases Wires.ofEvents?_cases ((ix.dataLinks pos).map Link.event) with ⟨-, h⟩ | ⟨e, hes, h⟩ | ⟨hl, h⟩
      · exact Or.inl h
      · obtain ⟨l, hl, rfl⟩ := List.mem_map.mp (hes ▸ List.mem_singleton_self e : e ∈ (ix.dataLinks pos).map Link.event)
        exact Or.inr (Or.inr (Or.inr ⟨by simp, by simp, l, hl, h⟩))
      · exact Or.inr (Or.inr (Or.inl ⟨rfl, by simpa using hl, h⟩))
    | start => exact once.imp_right fun h => Or.inr (Or.inr ⟨by simp, by simp, h⟩)
    | userInput => exact once.imp_right fun h => Or.inr (Or.inr ⟨by simp, by simp, h⟩)
    | promptLlm => exact once.imp_right fun h => Or.inr (Or.inr ⟨by simp, by simp, h⟩)
    | promptAgent => exact once.imp_right fun h => Or.inr (Or.inr ⟨by simp, by simp, h⟩)
    | collector => exact once.imp_right fun h => Or.inr (Or.inr ⟨by simp, by simp, h⟩)

/-- An event that a node sets off stands for one of its data links. -/
theorem exists_link_of_mem_emits {v : Event} (h : v ∈ ((ix.emits pos).map Wires.events).getD []) :
    ∃ l ∈ ix.dataLinks pos, l.event = v := by
  rcases emits_cases ix pos with he | ⟨-, -, he⟩ | ⟨-, -, he⟩ | ⟨-, -, l, hl, he⟩
  · rw [he] at h
    cases h
  · rw [he] at h
    obtain ⟨⟨handle, e⟩, hmem, rfl⟩ := List.mem_map.mp h
    obtain ⟨-, l, hl, -, he⟩ := mem_branches hmem
    exact ⟨l, hl, he⟩
  · rw [he] at h
    exact List.mem_map.mp h
  · rw [he] at h
    cases List.mem_singleton.mp h
    exact ⟨l, hl, rfl⟩

end GraphIndex

/-! ## Which drafts are kept -/

namespace Draft

variable {ix : GraphIndex} {drafts : List Draft}

theorem mem_inputs_iff {d : Draft} {v : Event} :
    v ∈ inputs ix drafts d ↔ (∃ l ∈ ix.incoming d.position, l.event = v) ∧ ∃ q ∈ drafts, v ∈ q.emitted := by
  simp [inputs, List.mem_filter]

theorem isSupported_iff {d : Draft} :
    isSupported ix drafts d = true ↔ d.isStart = true ∨ ∃ v, v ∈ inputs ix drafts d := by
  rw [isSupported, Bool.or_eq_true, Bool.not_eq_true', List.isEmpty_eq_false_iff_exists_mem]

theorem isSupported_mono {more : List Draft} (sub : ∀ q ∈ drafts, q ∈ more) {d : Draft}
    (h : isSupported ix drafts d = true) : isSupported ix more d = true := by
  rw [isSupported_iff] at h ⊢
  rcases h with h | ⟨v, hv⟩
  · exact Or.inl h
  · obtain ⟨hl, q, hq, hqv⟩ := mem_inputs_iff.mp hv
    exact Or.inr ⟨v, mem_inputs_iff.mpr ⟨hl, q, sub q hq, hqv⟩⟩

theorem mem_kept_iff {d : Draft} : d ∈ kept ix drafts ↔ d ∈ drafts ∧ isSupported ix drafts d = true :=
  List.mem_filter

theorem supported_of_dropped (h : (kept ix drafts).length < drafts.length) :
    supported ix drafts = supported ix (kept ix drafts) := by
  rw [supported, if_pos h]

theorem supported_of_fixed (h : ¬(kept ix drafts).length < drafts.length) : supported ix drafts = drafts := by
  rw [supported, if_neg h]

theorem kept_of_fixed (h : ¬(kept ix drafts).length < drafts.length) : kept ix drafts = drafts :=
  List.filter_sublist.eq_of_length_le (Nat.le_of_not_lt h)

theorem supported_sublist (ix : GraphIndex) (drafts : List Draft) : (supported ix drafts).Sublist drafts := by
  induction drafts using supported.induct ix with
  | case1 drafts h ih =>
    rw [supported_of_dropped h]
    exact ih.trans List.filter_sublist
  | case2 drafts h =>
    simp only [supported_of_fixed h, List.Sublist.refl]

/-- Nothing more is dropped from the drafts that are left. -/
theorem kept_supported (ix : GraphIndex) (drafts : List Draft) :
    kept ix (supported ix drafts) = supported ix drafts := by
  induction drafts using supported.induct ix with
  | case1 drafts h ih => rwa [supported_of_dropped h]
  | case2 drafts h =>
    rw [supported_of_fixed h, kept_of_fixed h]

theorem supported_fixed {d : Draft} (h : d ∈ supported ix drafts) :
    isSupported ix (supported ix drafts) d = true := by
  rw [← kept_supported] at h
  exact (mem_kept_iff.mp h).2

/-- Drafts that support each other are never dropped. -/
theorem mem_supported_of_selfSupporting (own : List Draft) (sub : ∀ d ∈ own, d ∈ drafts)
    (self : ∀ d ∈ own, isSupported ix own d = true) : ∀ d ∈ own, d ∈ supported ix drafts := by
  induction drafts using supported.induct ix with
  | case1 drafts h ih =>
    rw [supported_of_dropped h]
    exact ih fun d hd => mem_kept_iff.mpr ⟨sub d hd, isSupported_mono sub (self d hd)⟩
  | case2 drafts h =>
    rw [supported_of_fixed h]
    exact sub

/-- A draft that waits for an event that a draft left sets off is left too. -/
theorem mem_supported_of_fed {d q : Draft} (hd : d ∈ drafts) (hq : q ∈ supported ix drafts) {l : Link}
    (hl : l ∈ ix.incoming d.position) (hv : l.event ∈ q.emitted) : d ∈ supported ix drafts := by
  refine mem_supported_of_selfSupporting (d :: supported ix drafts) ?_ ?_ d List.mem_cons_self
  · intro x hx
    rcases List.mem_cons.mp hx with rfl | hx
    · exact hd
    · exact (supported_sublist ix drafts).subset hx
  · intro x hx
    rcases List.mem_cons.mp hx with rfl | hx
    · exact isSupported_iff.mpr (Or.inr ⟨l.event, mem_inputs_iff.mpr ⟨⟨l, hl, rfl⟩, q, List.mem_cons_of_mem _ hq, hv⟩⟩)
    · exact isSupported_mono (fun y hy => List.mem_cons_of_mem _ hy) (supported_fixed hx)

/-- A start that comes first stays first. -/
theorem supported_eq_cons {d : Draft} (h : d.isStart = true) (rest : List Draft) :
    ∃ others, supported ix (d :: rest) = d :: others := by
  generalize hds : d :: rest = drafts
  induction drafts using supported.induct ix generalizing rest with
  | case1 drafts hlt ih =>
    rw [supported_of_dropped hlt]
    subst hds
    refine ih (rest.filter (isSupported ix (d :: rest))) ?_
    rw [kept, List.filter_cons_of_pos (isSupported_iff.mpr (Or.inl h))]
  | case2 drafts hlt =>
    rw [supported_of_fixed hlt]
    exact ⟨rest, hds.symm⟩

end Draft
end EventFlow
