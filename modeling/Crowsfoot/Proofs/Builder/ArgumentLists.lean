import Crowsfoot.Proofs.Builder.Positions
import Crowsfoot.Proofs.Builder.Values

/-!
# Argument lists

The values that generated code passes to a method stand between two brackets, with commas between
them. `arguments_written`: they are read back as they are, and the bracket behind them is found,
whatever the strings among them hold and whatever follows.

A written string is the inside of a literal (`inside_escaped`), so that generated code is items for
any bracket around it (`Code.items`).
-/

namespace Crowsfoot.Builder

open Crowsfoot.Text

/-- What is escaped can stand in a literal. -/
theorem inside_escaped (cs : List Char) : Inside '\'' (escaped cs) := by
  induction cs with
  | nil => exact .nil
  | cons c cs ih =>
    rcases escaped_cons c cs with ⟨h, -⟩ | ⟨h, hslash, hquote⟩ <;> rw [h]
    · exact .escaped ih
    · exact .plain hslash hquote ih

/-- **Generated code is items** between brackets of any kind. -/
theorem Code.items {held : String → Prop} {p : Char → Bool} {cs : List Char} (h : Code held p cs)
    (hp : ∀ c, p c = true → isPlain c = true) {closer : Char} (hcloser : depthStep closer = -1) :
    Items closer cs := by
  induction h generalizing closer with
  | nil => exact .nil
  | @char p c cs plain _ ih =>
    have hc := plainFacts (hp c plain)
    have hother : c ≠ closer := by
      rintro rfl
      exact absurd (hc.depth.symm.trans hcloser) (by decide)
    exact .char hc.quote (closerOf?_eq_none hc.depth) hother (ih hp hcloser)
  | @literal p s cs _ _ ih =>
    rw [toList_literal, List.cons_append, List.append_assoc]
    exact .literal (by decide) (inside_escaped s.toList) (ih hp hcloser)
  | brackets pair _ _ ihInside ih =>
    exact .group pair (ihInside (fun _ => id) (pairFacts pair).closingDepth) (ih hp hcloser)

/-- The values of a call as they are written, with commas between them. -/
theorem items_values (vs : List Value) : Items ')' (commaList (vs.map Value.write)).toList := by
  have hcode : Code (fun _ => True) isPlain (commaList (vs.map Value.write)).toList := by
    apply code_commaList
    intro text htext
    obtain ⟨v, -, rfl⟩ := List.mem_map.mp htext
    exact (Value.code fun _ _ => trivial).mono fun _ => isPlain_of_plainBut
  exact hcode.items (fun _ => id) (by decide)

/-- **The arguments of a call are read as they were written**, and the bracket that closes them is the
one behind them. -/
theorem arguments_written (vs : List Value) :
    Argument.parseAll (commaList (vs.map Value.write)).toList = .ok (vs.map Value.argument)
      ∧ ∀ rest : String, closingIndex ("(" ++ commaList (vs.map Value.write) ++ ")" ++ rest) 0
        = .ok (some ↑(1 + (commaList (vs.map Value.write)).length)) := by
  refine ⟨parseAll_write vs, fun rest => ?_⟩
  have htext : ("(" ++ commaList (vs.map Value.write) ++ ")" ++ rest).toList.drop 0
      = '(' :: ((commaList (vs.map Value.write)).toList ++ ')' :: rest.toList) := by
    simp
  rw [← String.length_toList, ← Nat.zero_add 1]
  exact closingIndex_append rfl (items_values vs) htext

/-- Quotes, brackets, commas and backslashes in strings are no syntax. -/
example : commaList ([.text "a\\", .texts [")'", ","], .int (-7)].map Value.write)
    = "'a\\\\', [')\\'', ','], -7" := by
  decide

end Crowsfoot.Builder
