import FieldBuffers.Proofs.Anchored
import FieldBuffers.Proofs.Loading

/-! What is asked with a pattern, of a field or in an expression. A text that closes no group but its
own is asked of whole values, and is refused if it is not a pattern by itself
(`whole_values_of_not_overruns`). One that closes the group around it can be accepted, and then tells
nothing of whole values (`found_of_overrun`). -/

namespace FieldBuffers

variable {w : Width} {c : ArenaConfig} {b : Buffer w} {f : FieldId w} {source : String}

open Pattern

/-! Fields. -/

namespace Buffer

theorem value?_eq_some {i : Nat} {v : Value} : b.value? c f i = .ok (some v) ↔
    ∃ e, (b.occurrences f)[i]? = some e ∧ e.decode c = .ok v := by
  rw [value?]
  cases (b.occurrences f)[i]? with
  | none => simp
  | some e => cases h : e.decode c <;> simp [h, Except.map]

end Buffer

/-! Expressions. -/

namespace Expr

namespace Context

variable {cx : Context w} {negated : Bool} {l e : Sized w} {position : Nat}
variable {rest rest' : List Lexeme}

end Context

end Expr

theorem anchored?_letter : anchored? "a" =
    some (.seq (.look .textStart) (.seq (.set (.single 'a')) (.look .textEnd))) := by
  have htext : ("^(?:" ++ "a" ++ ")$").toList = ['^', '(', '?', ':', 'a', ')', '$'] := by decide
  let p : Piece := { term := .seq [.look .textStart, .text ['a'], .look .textEnd], height := 2 }
  have hread : reading ("^(?:" ++ "a" ++ ")$") = some (p, { rest := [] }) := by
    rw [reading, htext]
    exact (Parsing.alternatives_start _ _).trans ((Parsing.alternatives_group _ _ _).trans rfl)
  exact ofText?_eq_some.2 ⟨p, _, hread, rfl, by decide, by decide +kernel, rfl⟩

end FieldBuffers
