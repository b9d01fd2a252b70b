/-
  EventFlow.Proofs.Agent.Registry — what a registry holds after any registrations.

  A tool that is put in takes the place of the one that has its name, or the place after all others. So a
  name stands where it came first, for as long as the registry is used, and it means the tool that came last
  under it: to whom looks the tool up, to whom reads the list of definitions and to whom calls it.

  Proved:
  - `get?_register` / `names_register`: one tool that is put in.
  - `get?_registered` / `names_registered`: a list of them, by induction on it from its end.
  - `mem_registered_iff`: a tool is left if it is the last of its name.
  - `names_ascending`: names stand in the order in which they came.
  - `registered_latest`: what each name means.
-/

import EventFlow.Agent.Toolbox
import EventFlow.Proofs.Compilation.Nesting
import Mathlib.Data.List.Induction

namespace EventFlow.Registry

variable {τ : Type} {name : τ → String} (tools : List τ) (t : τ)

/-! ## One tool -/

theorem get?_register (called : String) :
    get? name (register name tools t) called = if name t = called then some t else get? name tools called := by
  induction tools with
  | nil => by_cases h : name t = called <;> simp [register, get?, h]
  | cons x rest ih =>
    unfold get? at ih ⊢
    rw [register]
    split
    case isTrue same =>
      by_cases h : name t = called
      · simp [h]
      · simp [h, same]
    case isFalse other =>
      rw [List.find?_cons, List.find?_cons, ih]
      by_cases h : name t = called
      · simp [← h, other]
      · simp [h]

theorem names_register : names name (register name tools t) =
    if name t ∈ names name tools then names name tools else names name tools ++ [name t] := by
  induction tools with
  | nil => rfl
  | cons x rest ih =>
    unfold names at ih ⊢
    rw [register]
    split
    case isTrue same => simp [same]
    case isFalse other =>
      simp only [List.map_cons, List.mem_cons, Ne.symm other, false_or, ih]
      split <;> rfl

theorem register_of_fresh (fresh : name t ∉ names name tools) : register name tools t = tools ++ [t] := by
  induction tools with
  | nil => rfl
  | cons x rest ih =>
    obtain ⟨other, fresh⟩ := not_or.mp (mt List.mem_cons.mpr fresh)
    rw [register, if_neg (Ne.symm other), ih fresh]
    rfl

/-! ## All of them -/

def registered (name : τ → String) (made : List τ) : List τ := made.foldl (register name) []

theorem registered_concat (made : List τ) : registered name (made ++ [t]) = register name (registered name made) t := by
  rw [registered, List.foldl_append]
  rfl

variable (name) (made : List τ)

/-- The last tool of a name is the one that is called by it. -/
theorem get?_registered (called : String) :
    get? name (registered name made) called = made.reverse.find? (name · = called) := by
  induction made using List.reverseRecOn with
  | nil => rfl
  | append_singleton made t ih =>
    rw [registered_concat, get?_register, ih, List.reverse_concat, List.find?_cons]
    by_cases h : name t = called <;> simp [h]

/-- Each name stands where it came first. -/
theorem names_registered : names name (registered name made) = (made.map name).eraseDups := by
  induction made using List.reverseRecOn with
  | nil => rfl
  | append_singleton made t ih =>
    rw [registered_concat, names_register, ih, List.map_append, List.map_singleton, List.eraseDups_append]
    generalize made.map name = came
    by_cases known : name t ∈ came <;> simp [List.removeAll, known, List.eraseDups_cons]

theorem nodup_registered : (names name (registered name made)).Nodup := names_registered name made ▸ eraseDups_nodup _

/-- The tool that came last under a name. -/
def Latest (name : τ → String) (made : List τ) (called : String) (t : τ) : Prop :=
  ∃ before after, made = before ++ t :: after ∧ name t = called ∧ ∀ u ∈ after, name u ≠ called

theorem get?_registered_eq_some_iff {called : String} {t : τ} :
    get? name (registered name made) called = some t ↔ Latest name made called t := by
  rw [get?_registered, List.find?_eq_some_iff_append]
  constructor
  · rintro ⟨named, after, before, reversed, others⟩
    refine ⟨before.reverse, after.reverse, ?_, of_decide_eq_true named, fun u hu => ?_⟩
    · rw [List.reverse_eq_iff.mp reversed, List.reverse_append, List.reverse_cons, List.append_assoc]
      rfl
    · simpa using others u (List.mem_reverse.mp hu)
  · rintro ⟨before, after, rfl, named, others⟩
    refine ⟨decide_eq_true named, after.reverse, before.reverse, by simp, fun u hu => ?_⟩
    simpa using others u (List.mem_reverse.mp hu)

theorem mem_registered_iff {t : τ} :
    t ∈ registered name made ↔ ∃ before after, made = before ++ t :: after ∧ ∀ u ∈ after, name u ≠ name t := by
  have called : t ∈ registered name made ↔ get? name (registered name made) (name t) = some t :=
    ⟨find?_eq_of_nodup (nodup_registered name made), List.mem_of_find?_eq_some⟩
  simp only [called, get?_registered_eq_some_iff, Latest, true_and]

/-- Every tool stays just if no two of them have one name. -/
theorem registered_eq_iff : registered name made = made ↔ (made.map name).Nodup := by
  constructor
  · intro same
    have nodup := nodup_registered name made
    rwa [same] at nodup
  · intro nodup
    induction made using List.reverseRecOn with
    | nil => rfl
    | append_singleton made t ih =>
      rw [List.map_append, List.map_singleton, List.nodup_append] at nodup
      obtain ⟨nodup, -, fresh⟩ := nodup
      rw [registered_concat, ih nodup]
      exact register_of_fresh made t fun known => fresh _ known _ (List.mem_singleton_self _) rfl

theorem mem_names_iff {called : String} : called ∈ names name (registered name made) ↔ called ∈ made.map name := by
  rw [names_registered, List.mem_eraseDups]

/-- Names stand in the order in which they came. -/
theorem names_ascending : (names name (registered name made)).Pairwise
    fun a b => (made.map name).idxOf a < (made.map name).idxOf b := by
  induction made using List.reverseRecOn with
  | nil => exact .nil
  | append_singleton made t ih =>
    -- What came before is where it was.
    have stays {a : String} (ha : a ∈ names name (registered name made)) :
        ((made ++ [t]).map name).idxOf a = (made.map name).idxOf a := by
      rw [List.map_append, List.idxOf_append_of_mem ((mem_names_iff name made).mp ha)]
    have ih : (names name (registered name made)).Pairwise
        fun a b => ((made ++ [t]).map name).idxOf a < ((made ++ [t]).map name).idxOf b :=
      ih.imp_of_mem fun ha hb before => by rwa [stays ha, stays hb]
    rw [registered_concat, names_register]
    split
    case isTrue known => exact ih
    case isFalse new =>
      refine List.pairwise_append.mpr ⟨ih, List.pairwise_singleton _ _, fun a ha b hb => ?_⟩
      obtain rfl := List.mem_singleton.mp hb
      have absent : name t ∉ made.map name := mt (mem_names_iff name made).mpr new
      calc ((made ++ [t]).map name).idxOf a
        _ = (made.map name).idxOf a := stays ha
        _ < (made.map name).length := List.idxOf_lt_length_of_mem ((mem_names_iff name made).mp ha)
        _ ≤ ((made ++ [t]).map name).idxOf (name t) := by
          rw [List.map_append, List.idxOf_append_of_notMem absent]
          exact Nat.le_add_right _ _

/-! ## What a name means -/

/-- A tool that is found by its name is described where the name stands. -/
theorem definitions_at (describe : τ → ToolDefinition) {called : String} {t : τ} (found : get? name tools called = some t) :
    ∃ i : Nat, (names name tools)[i]? = some called ∧ (definitions describe tools)[i]? = some (describe t) := by
  obtain ⟨i, here⟩ := List.mem_iff_getElem?.mp (List.mem_of_find?_eq_some found)
  unfold get? at found
  obtain rfl : name t = called := by simpa using List.find?_some found
  exact ⟨i, by rw [names, List.getElem?_map, here, Option.map_some],
    by rw [definitions, List.getElem?_map, here, Option.map_some]⟩

/-- After any registrations names are listed once, in the order in which they came. A name means the tool
    that came last under it, by whichever way it is asked for, and other names mean none. -/
theorem registered_latest {σ : Type} (describe : τ → ToolDefinition) (call : τ → Service σ Json ToolResult) :
    let tools := registered name made
    (names name tools).Nodup ∧ (∀ called, called ∈ names name tools ↔ called ∈ made.map name) ∧
      ((names name tools).Pairwise fun a b => (made.map name).idxOf a < (made.map name).idxOf b) ∧
      (∀ called ∈ made.map name, ∃ t, Latest name made called t ∧ get? name tools called = some t ∧
        (∃ i : Nat, (names name tools)[i]? = some called ∧ (definitions describe tools)[i]? = some (describe t)) ∧
        execute name call tools called = call t) ∧
      ∀ called ∉ made.map name, get? name tools called = none ∧
        ∀ input s, execute name call tools called input s = (.error (.toolNotFound called), s) := by
  intro tools
  have known {called : String} : (get? name tools called).isSome ↔ called ∈ made.map name := by
    rw [get?, List.find?_isSome, ← mem_names_iff, names]
    simp [tools]
  refine ⟨nodup_registered name made, fun _ => mem_names_iff name made, names_ascending name made, ?_, ?_⟩
  · intro called came
    obtain ⟨t, found⟩ := Option.isSome_iff_exists.mp (known.mpr came)
    refine ⟨t, (get?_registered_eq_some_iff name made).mp found, found, definitions_at name tools describe found, ?_⟩
    funext input s
    rw [execute, found]
  · intro called never
    have none : get? name tools called = none := Option.not_isSome_iff_eq_none.mp (mt known.mp never)
    exact ⟨none, fun input s => by rw [execute, none]⟩

/-- Two tools of one name, and another one between them. -/
def docsTools : List SearchTool :=
  [⟨"docs", "Search the manual.", "pipe-1"⟩, ⟨"faq", "Search the answers.", "pipe-2"⟩, ⟨"docs", "Search the wiki.", "pipe-3"⟩]

/-- The second one is listed, told of and called, in the place of the first. -/
theorem docsTools_latest :
    let tools : Toolbox := docsTools.foldl Toolbox.register []
    let retrieve : RetrievalService Unit := fun _ s => (.ok [], s)
    tools.names = ["docs", "faq"] ∧ "docs" ∈ docsTools.map (·.name) ∧
      (∃ t, Latest SearchTool.name docsTools "docs" t ∧ t.index = "pipe-3" ∧ tools.get? "docs" = some t ∧
        tools.definitions[0]? = some t.definition ∧ tools.execute retrieve "docs" = t.execute retrieve) ∧
      "wiki" ∉ docsTools.map (·.name) ∧ tools.get? "wiki" = none := by
  intro tools retrieve
  have known : "docs" ∈ docsTools.map (·.name) := by decide
  have unknown : "wiki" ∉ docsTools.map (·.name) := by decide
  obtain ⟨-, -, -, latest, none⟩ := registered_latest SearchTool.name docsTools SearchTool.definition (·.execute retrieve)
  obtain ⟨t, last, found, -, executes⟩ := latest "docs" known
  have index : (tools.get? "docs").map (·.index) = some "pipe-3" := by decide
  have first : tools.definitions[0]? = (tools.get? "docs").map (·.definition) := rfl
  have found : tools.get? "docs" = some t := found
  rw [found] at index first
  exact ⟨by decide, known, ⟨t, last, Option.some.inj index, found, first, executes⟩, unknown, (none "wiki" unknown).1⟩

end EventFlow.Registry
