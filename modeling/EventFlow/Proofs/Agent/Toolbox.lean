/-
  EventFlow.Proofs.Agent.Toolbox — which tools an agent is offered.

  Each attached index that is selected makes a tool, which is named after the index's label. Several
  labels may come to one name, and a tool that is put in replaces the one that has its name. So of the
  tools of one name only the last is offered, in the place of the first, and the indexes of the others
  are out of reach.

  Proved:
  - `offersAll_iff`: when all indexes are within reach, as a matter of the tools that are made.
  - `offered_tools`: names are distinct, and all indexes are offered just if each has a tool that is left.
-/

import EventFlow.Proofs.Agent.Registry
import EventFlow.Proofs.Agent.Rounds

namespace EventFlow

namespace Toolbox

def registered (made : List SearchTool) : Toolbox := made.foldl register []

def OffersAll (tools : Toolbox) (specs : List ToolSpec) : Prop :=
  ∀ spec ∈ specs, spec.isIndex → ∀ index, Text.nonEmpty spec.selectedIndex = some index → ∃ t ∈ tools, t.index = index

theorem ofSpec?_index {spec : ToolSpec} {index : String} :
    (∃ t, SearchTool.ofSpec? spec = some t ∧ t.index = index) ↔
      spec.isIndex ∧ Text.nonEmpty spec.selectedIndex = some index := by
  unfold SearchTool.ofSpec?
  cases spec.isIndex with
  | false => simp
  | true => cases Text.nonEmpty spec.selectedIndex <;> simp

/-- That is to say that each tool's index is searched by a tool that is offered. -/
theorem offersAll_iff {tools : Toolbox} {specs : List ToolSpec} :
    tools.OffersAll specs ↔ ∀ t ∈ specs.filterMap SearchTool.ofSpec?, ∃ u ∈ tools, u.index = t.index := by
  constructor
  · intro all t ht
    obtain ⟨spec, hspec, made⟩ := List.mem_filterMap.mp ht
    obtain ⟨isIndex, selected⟩ := ofSpec?_index.mp ⟨t, made, rfl⟩
    exact all spec hspec isIndex t.index selected
  · intro all spec hspec isIndex index selected
    obtain ⟨t, made, rfl⟩ := ofSpec?_index.mpr ⟨isIndex, selected⟩
    exact all t (List.mem_filterMap.mpr ⟨spec, hspec, made⟩)

variable (made : List SearchTool)

/-- Each name stands where it came first. -/
theorem names_registered : (registered made).names = (made.map (·.name)).eraseDups :=
  Registry.names_registered SearchTool.name made

theorem nodup_registered : (registered made).names.Nodup := Registry.nodup_registered SearchTool.name made

theorem mem_registered_iff {t : SearchTool} :
    t ∈ registered made ↔ ∃ before after, made = before ++ t :: after ∧ ∀ u ∈ after, u.name ≠ t.name :=
  Registry.mem_registered_iff SearchTool.name made

/-- Every tool stays just if no two of them have one name. -/
theorem registered_eq_iff : registered made = made ↔ (made.map (·.name)).Nodup :=
  Registry.registered_eq_iff SearchTool.name made

end Toolbox

namespace AgentRuntime

variable {σ : Type}

/-- The tools that an agent is offered have different names. A tool of a selected index is offered if no
    later one has its name: so nothing is left out just if no name is given twice, and every index is
    within reach just if one of its tools is the last of its name. -/
theorem offered_tools {r : AgentRuntime σ} {settings : Settings} {service : RetrievalService σ}
    (available : r.retrievalFor settings = some service) (config : PromptAgentConfig) :
    let tools := (r.equipment settings config).1
    let made := config.tools.filterMap SearchTool.ofSpec?
    tools.names.Nodup ∧ tools.names = (made.map (·.name)).eraseDups ∧
      (∀ t, t ∈ tools ↔ ∃ before after, made = before ++ t :: after ∧ ∀ u ∈ after, u.name ≠ t.name) ∧
      (tools = made ↔ (made.map (·.name)).Nodup) ∧
      (tools.OffersAll config.tools ↔ ∀ t ∈ made, ∃ before u after, made = before ++ u :: after ∧
        u.index = t.index ∧ ∀ v ∈ after, v.name ≠ u.name) := by
  intro tools made
  have registered : tools = Toolbox.registered made := by
    show (r.equipment settings config).1 = _
    rw [equipment, available]
    rfl
  clear_value tools
  subst registered
  refine ⟨Toolbox.nodup_registered made, Toolbox.names_registered made, fun t => Toolbox.mem_registered_iff made,
    Toolbox.registered_eq_iff made, Toolbox.offersAll_iff.trans (forall₂_congr fun t _ => ?_)⟩
  simp only [Toolbox.mem_registered_iff]
  constructor
  · rintro ⟨u, ⟨before, after, parts, last⟩, same⟩
    exact ⟨before, u, after, parts, same, last⟩
  · rintro ⟨before, u, after, parts, same, last⟩
    exact ⟨u, ⟨before, after, parts, last⟩, same⟩

/-- Two labels that come to one name, and another one between them. -/
def likeNamed : PromptAgentConfig where
  tools := [
    { id := "4", name := "Docs", toolType := some ToolSpec.indexType, selectedIndex := some "pipe-1" },
    { id := "5", name := "FAQ", toolType := some ToolSpec.indexType, selectedIndex := some "pipe-2" },
    { id := "6", name := "docs!", toolType := some ToolSpec.indexType, selectedIndex := some "pipe-3" }]

/-- The last of them is offered in the place of the first. -/
theorem likeNamed_offered :
    (docsAgent.equipment {} likeNamed).1.names = ["docs", "faq"] ∧
      (docsAgent.equipment {} likeNamed).1.names.Nodup ∧
      (∃ t ∈ (docsAgent.equipment {} likeNamed).1, t.index = "pipe-3") ∧
      (docsAgent.equipment {} likeNamed).1 ≠ likeNamed.tools.filterMap SearchTool.ofSpec? := by
  obtain ⟨service, available⟩ : ∃ service, docsAgent.retrievalFor {} = some service := ⟨_, rfl⟩
  obtain ⟨nodup, names, offered, all, -⟩ := offered_tools available likeNamed
  refine ⟨names.trans (by decide +kernel), nodup, ?_, ?_⟩
  · exact ⟨_, (offered _).mpr ⟨likeNamed.tools.take 2 |>.filterMap SearchTool.ofSpec?, [], rfl, by simp⟩, rfl⟩
  · exact all.not.mpr (by decide +kernel)

/-- The index of the first is lost. -/
theorem likeNamed_lost : ∃ service, docsAgent.retrievalFor {} = some service ∧
    ¬ (docsAgent.equipment {} likeNamed).1.OffersAll likeNamed.tools := by
  refine ⟨_, rfl, fun all => ?_⟩
  obtain ⟨t, offered, index⟩ := all likeNamed.tools[0] (by decide) (by decide) "pipe-1" rfl
  have indexes : (docsAgent.equipment {} likeNamed).1.map (·.index) = ["pipe-3", "pipe-2"] := by decide +kernel
  have reached : "pipe-1" ∈ ["pipe-3", "pipe-2"] := indexes ▸ index ▸ List.mem_map_of_mem offered
  exact absurd reached (by decide)

end AgentRuntime
end EventFlow
