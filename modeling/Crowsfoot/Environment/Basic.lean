import Crowsfoot.Text.Case

/-!
# Environments

The variables of an environment, in the order in which they were first set. Names keep their case;
`Environment.find?` looks a name up whatever its case, and then the last variable counts.

`Environment.setDefault` never changes a variable that is set (`get?_setDefault`).
-/

namespace Crowsfoot

open Crowsfoot.Text

/-- Variables with their values. -/
structure Environment where
  bindings : List (String × String) := []
  deriving Repr, DecidableEq, Inhabited

namespace Environment

/-- The value of a variable of exactly this name. -/
def get? (env : Environment) (name : String) : Option String :=
  env.bindings.lookup name

/-- The value of the last variable whose name is this one in lower case. -/
def find? (env : Environment) (name : String) : Option String :=
  (env.bindings.reverse.find? fun v => lowered v.1 == name).map Prod.snd

/-- Sets a variable, unless it is set. -/
def setDefault (env : Environment) (name value : String) : Environment :=
  if (env.get? name).isSome then env else ⟨env.bindings ++ [(name, value)]⟩

/-- Sets several variables, unless they are set. -/
def setDefaults (env : Environment) (values : List (String × String)) : Environment :=
  values.foldl (fun env v => env.setDefault v.1 v.2) env

/-- A variable that is set keeps its value, and one that is not gets the default. -/
theorem get?_setDefault (env : Environment) (name value : String) :
    (env.setDefault name value).get? name = some ((env.get? name).getD value) := by
  unfold setDefault
  split
  · next h =>
    obtain ⟨v, hv⟩ := Option.isSome_iff_exists.1 h
    simp [hv]
  · next h =>
    have hn : env.get? name = none := Option.not_isSome_iff_eq_none.1 h
    rw [hn]
    unfold get? at hn ⊢
    simp [List.lookup_append, hn]

end Environment

end Crowsfoot
