/-
  EventFlow.Settings.Environment — references to the environment in a text.

  A reference is a variable's name between a dollar sign with an opening brace and the
  next closing brace. Names of variables that are not set stay as they are, and what is
  put in for a reference is not looked at again.
-/

namespace EventFlow

/-- The variables that are set. -/
abbrev Environment := String → Option String

namespace Environment

/-- The names in a text that may be looked up: one for each place where a reference could
start. -/
def references : List Char → List String
  | '$' :: '{' :: rest =>
    String.ofList (rest.takeWhile (· ≠ '}')) :: references rest
  | _ :: rest => references rest
  | [] => []

/-- What stands for a reference. A reference that the end of the text cuts off is one too. -/
def resolve (env : Environment) (name : List Char) : List Char :=
  match env (String.ofList name) with
  | some value => value.toList
  | none => '$' :: '{' :: name ++ ['}']

def expand (env : Environment) : List Char → List Char
  | [] => []
  | '$' :: '{' :: rest =>
    env.resolve (rest.takeWhile (· ≠ '}')) ++ expand env ((rest.dropWhile (· ≠ '}')).drop 1)
  | c :: rest => c :: expand env rest
termination_by s => s.length
decreasing_by
  · have := (List.dropWhile_sublist (· ≠ '}') (l := rest)).length_le
    simp only [List.length_drop, List.length_cons]
    omega
  · simp

end Environment
end EventFlow
