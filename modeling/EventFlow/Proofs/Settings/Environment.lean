/-
  EventFlow.Proofs.Settings.Environment — what becomes of references to the environment.

  A text is read from the left in pieces (`Divided`). A reference runs from its opening to the next closing
  brace, whatever stands between them, and every other character stands for itself. Only at the end of a text
  something else can be left over: an opening that nothing closes.

  A text is expanded piece by piece, so what is put in for one piece is not looked at again. A reference to a
  variable that is set becomes the value, and every other piece is copied. What is left over is not copied:
  it counts as a reference that the end of the text closes. So it becomes the value, or it gets a brace that
  the text does not have.

  Proved:
  - `exists_divided` / `Divided.unique` / `Divided.text_eq`: a text has pieces, in one way, and they are all of it.
  - `Divided.expand_eq`: a text is expanded piece by piece.
  - `expand_pieces`: what is left over decides whether all but the references to set variables is copied.
-/

import EventFlow.Settings.Config
import Mathlib.Data.List.TakeWhile

namespace EventFlow

namespace Environment

inductive Piece where
  | plain (c : Char)
  | reference (name : List Char)

def opened (name : List Char) : List Char := '$' :: '{' :: name

namespace Piece

def written : Piece → List Char
  | plain c => [c]
  | reference name => opened name ++ ['}']

/-- A reference to a variable that is set becomes the value, and every other piece stays. -/
def expanded (env : Environment) : Piece → List Char
  | plain c => [c]
  | reference name =>
    match env (String.ofList name) with
    | some value => value.toList
    | none => (reference name).written

end Piece

/-- The pieces of a text from the left, and the name that is left over behind an opening that nothing closes. -/
inductive Divided : List Char → List Piece → Option (List Char) → Prop
  | nil : Divided [] [] none
  | plain {c : Char} {rest : List Char} {pieces : List Piece} {cut : Option (List Char)}
      (other : ¬ opened [] <+: c :: rest) (more : Divided rest pieces cut) : Divided (c :: rest) (.plain c :: pieces) cut
  | reference {name rest : List Char} {pieces : List Piece} {cut : Option (List Char)}
      (closing : '}' ∉ name) (more : Divided rest pieces cut) :
      Divided (opened (name ++ '}' :: rest)) (.reference name :: pieces) cut
  | cut {name : List Char} (unclosed : '}' ∉ name) : Divided (opened name) [] (some name)

def substitute (env : Environment) (pieces : List Piece) (cut : Option (List Char)) : List Char :=
  pieces.flatMap (·.expanded env) ++ cut.elim [] opened

/-! ## The pieces of a text -/

theorem exists_divided (text : List Char) : ∃ pieces cut, Divided text pieces cut := by
  induction size : text.length using Nat.strongRecOn generalizing text with
  | _ n shorter =>
    subst size
    by_cases opens : opened [] <+: text
    · obtain ⟨behind, rfl⟩ := opens
      by_cases closes : '}' ∈ behind
      · obtain ⟨name, rest, rfl, closing⟩ := List.eq_append_cons_of_mem closes
        have less : rest.length < (opened [] ++ (name ++ '}' :: rest)).length := by
          simp only [List.length_append, List.length_cons]
          omega
        obtain ⟨pieces, cut, more⟩ := shorter _ less rest rfl
        exact ⟨_, _, .reference closing more⟩
      · exact ⟨_, _, .cut closes⟩
    · cases text with
      | nil => exact ⟨_, _, .nil⟩
      | cons c rest =>
        obtain ⟨pieces, cut, more⟩ := shorter _ (Nat.lt_succ_self rest.length) rest rfl
        exact ⟨_, _, .plain opens more⟩

/-- The first closing brace is where it is. -/
theorem closing_unique {name name' rest rest' : List Char} (closing : '}' ∉ name) (closing' : '}' ∉ name')
    (same : name ++ '}' :: rest = name' ++ '}' :: rest') : name = name' ∧ rest = rest' := by
  have stops {name rest : List Char} (closing : '}' ∉ name) :
      (name ++ '}' :: rest).takeWhile (· ≠ '}') = name := by
    have plain : ∀ c ∈ name, decide (c ≠ '}') = true := fun c hc => decide_eq_true fun brace => closing (brace ▸ hc)
    rw [List.takeWhile_append_of_pos plain, List.takeWhile_cons_of_neg (by decide), List.append_nil]
  have names : name = name' := by rw [← stops closing, same, stops closing']
  subst names
  exact ⟨rfl, List.tail_eq_of_cons_eq (List.append_cancel_left same)⟩

variable {env : Environment} {text : List Char} {pieces : List Piece} {cut : Option (List Char)}

theorem Divided.unique (divided : Divided text pieces cut) {pieces' : List Piece} {cut' : Option (List Char)}
    (divided' : Divided text pieces' cut') : pieces' = pieces ∧ cut' = cut := by
  induction divided generalizing pieces' cut' with
  | nil => cases divided'; exact ⟨rfl, rfl⟩
  | plain other more ih =>
    cases divided' with
    | plain _ more' => exact (ih more').imp_left (congrArg _)
    | reference => exact absurd ⟨_, rfl⟩ other
    | cut => exact absurd ⟨_, rfl⟩ other
  | @reference name rest pieces cut closing more ih =>
    generalize whole : opened (name ++ '}' :: rest) = text at divided'
    cases divided' with
    | nil => cases whole
    | plain other => exact absurd ⟨_, whole⟩ other
    | reference closing' more' =>
      obtain ⟨rfl, rfl⟩ := closing_unique closing closing' (by simpa [opened] using whole)
      exact (ih more').imp_left (congrArg _)
    | cut unclosed =>
      obtain rfl : name ++ '}' :: rest = _ := by simpa [opened] using whole
      exact absurd (List.mem_append_right _ List.mem_cons_self) unclosed
  | @cut name unclosed =>
    generalize whole : opened name = text at divided'
    cases divided' with
    | nil => cases whole
    | plain other => exact absurd ⟨_, whole⟩ other
    | reference =>
      obtain rfl : name = _ := by simpa [opened] using whole
      exact absurd (List.mem_append_right _ List.mem_cons_self) unclosed
    | cut =>
      obtain rfl : name = _ := by simpa [opened] using whole
      exact ⟨rfl, rfl⟩

/-- The pieces and what is left over are the whole text. -/
theorem Divided.text_eq (divided : Divided text pieces cut) :
    text = pieces.flatMap Piece.written ++ cut.elim [] opened := by
  induction divided with
  | nil => rfl
  | plain other more ih => rw [List.flatMap_cons, List.append_assoc, ← ih]; rfl
  | reference closing more ih => rw [List.flatMap_cons, List.append_assoc, ← ih]; simp [Piece.written, opened]
  | cut unclosed => rfl

/-! ## What they become -/

theorem expand_plain {c : Char} {rest : List Char} (other : ¬ opened [] <+: c :: rest) :
    env.expand (c :: rest) = c :: env.expand rest := by
  rw [expand]
  rintro behind rfl rfl
  exact other ⟨behind, rfl⟩

/-- A reference is expanded alone. Its name goes up to the next closing brace or to the end of the text. -/
theorem expand_opened (name : List Char) : env.expand (opened name) =
    (Piece.reference (name.takeWhile (· ≠ '}'))).expanded env ++ env.expand ((name.dropWhile (· ≠ '}')).drop 1) := by
  rw [opened, expand, resolve, Piece.expanded]
  rfl

theorem Divided.expand_eq (divided : Divided text pieces cut) : env.expand text =
    pieces.flatMap (·.expanded env) ++ cut.elim [] fun name => (Piece.reference name).expanded env := by
  have inside {name : List Char} (closing : '}' ∉ name) : ∀ c ∈ name, decide (c ≠ '}') = true :=
    fun c hc => decide_eq_true fun brace => closing (brace ▸ hc)
  induction divided with
  | nil => rw [expand]; rfl
  | plain other more ih => rw [expand_plain other, ih]; rfl
  | reference closing more ih =>
    rw [expand_opened, List.takeWhile_append_of_pos (inside closing), List.dropWhile_append_of_pos (inside closing),
      List.takeWhile_cons_of_neg (by decide), List.dropWhile_cons_of_neg (by decide), List.append_nil, List.drop_one,
      List.tail_cons, ih, List.flatMap_cons, List.append_assoc]
  | cut unclosed =>
    rw [expand_opened, List.takeWhile_eq_self_iff.mpr (inside unclosed), List.dropWhile_eq_nil_iff.mpr (inside unclosed),
      List.drop_nil, expand, List.append_nil]
    rfl

/-- A reference that the end of the text cuts off stays as it is only if its variable is set to just that. -/
theorem expanded_eq_opened_iff {name : List Char} : (Piece.reference name).expanded env = opened name ↔
    env (String.ofList name) = some (String.ofList (opened name)) := by
  cases value : env (String.ofList name) with
  | none => simp [Piece.expanded, Piece.written, value]
  | some value' => simp [Piece.expanded, value, ← String.toList_inj]

/-- Without set variables there is nothing to replace. -/
theorem Divided.substitute_eq (divided : Divided text pieces cut)
    (unset : ∀ name, .reference name ∈ pieces → env (String.ofList name) = none) : substitute env pieces cut = text := by
  have stays : ∀ p ∈ pieces, p.expanded env = p.written := by
    intro p hp
    cases p with
    | plain c => rfl
    | reference name => rw [Piece.expanded, unset name hp]
  rw [substitute, List.flatMap_def, List.map_congr_left stays, ← List.flatMap_def, ← divided.text_eq]

/-- A text is expanded piece by piece. References to set variables are replaced and all else is copied, unless
    a reference is left over at the end. Then that holds only if its variable is set to the very text that is
    left over. And if no variable is set, the text stays as it is just if nothing is left over. -/
theorem expand_pieces (env : Environment) (text : List Char) :
    ∃ pieces cut, Divided text pieces cut ∧
      (∀ pieces' cut', Divided text pieces' cut' → pieces' = pieces ∧ cut' = cut) ∧
      text = pieces.flatMap Piece.written ++ cut.elim [] opened ∧
      env.expand text = pieces.flatMap (·.expanded env) ++
        cut.elim [] (fun name => (Piece.reference name).expanded env) ∧
      (env.expand text = substitute env pieces cut ↔
        ∀ name ∈ cut, env (String.ofList name) = some (String.ofList (opened name))) ∧
      ((∀ name, .reference name ∈ pieces ∨ cut = some name → env (String.ofList name) = none) →
        (env.expand text = text ↔ cut = none)) := by
  obtain ⟨pieces, cut, divided⟩ := exists_divided text
  have substituted : env.expand text = substitute env pieces cut ↔
      ∀ name ∈ cut, env (String.ofList name) = some (String.ofList (opened name)) := by
    rw [divided.expand_eq, substitute, List.append_cancel_left_eq]
    cases cut with
    | none => simp
    | some name => simpa using expanded_eq_opened_iff
  refine ⟨pieces, cut, divided, fun _ _ => divided.unique, divided.text_eq, divided.expand_eq, substituted, fun unset => ?_⟩
  have stays : substitute env pieces cut = text := divided.substitute_eq fun name among => unset name (.inl among)
  have same : env.expand text = text ↔ env.expand text = substitute env pieces cut := by rw [stays]
  rw [same, substituted]
  cases cut with
  | none => simp
  | some name => simp [unset name (.inr rfl)]

def unclosed : String := "[settings]\ndefault_llm = \"$\x7bLLM\"\n"

/-- It is a configuration, but with no variable set it does not stay one: it gets a brace. -/
theorem unclosed_changed :
    expand (fun _ => none) unclosed.toList = unclosed.toList ++ ['}'] ∧
      (∀ pieces cut, Divided unclosed.toList pieces cut →
        expand (fun _ => none) unclosed.toList ≠ substitute (fun _ => none) pieces cut) ∧
      ((Toml.parse? unclosed).bind fun table => (AppConfig.read table.outline).toOption) =
        some { settings := { defaultLlm := "$\x7bLLM" } } ∧
      AppConfig.ofToml (fun _ => none) unclosed = .error AppConfig.refusal := by
  have changed : expand (fun _ => none) unclosed.toList = unclosed.toList ++ ['}'] := by decide +kernel
  refine ⟨changed, fun pieces cut divided same => ?_, by decide +kernel, by decide +kernel⟩
  rw [divided.substitute_eq fun _ _ => rfl, changed] at same
  exact absurd same (by simp)

end Environment
end EventFlow
