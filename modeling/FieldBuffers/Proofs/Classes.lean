import FieldBuffers.Pattern.Parser
import FieldBuffers.Proofs.Prolonged

/-! Characters, and classes in brackets, in a text that goes on with what closes a group around it:
they are read as in the text alone, or the reading goes past its end (`agrees_members`). -/

namespace FieldBuffers.Pattern.Parsing

open Cursor

variable {c : Cursor}

/-! Characters and sets. -/

/-- A class inside a class. -/
def nested (again : Union → Parsing Union) (u : Union) : Parsing Union := do
  match ← namedClass? with
  | some s => again (u.push s)
  | none =>
    let _ ← next
    let (negated, start) ← classOpen
    let (s, height) ← classClose negated (← again start)
    again (u.push s height)

/-- An operator between members, by which `u` waits for those after it. -/
def operated (again : Union → Parsing Union) (sign : String) (u : Union) : Parsing Union := do
  let _ ← starts sign
  again u

section

variable {again again' : Union → Parsing Union} {u v : Union} {d : Cursor} {m : Nat}

variable (hadvances : ∀ u, Advances (again u)) (hadvances' : ∀ u, Advances (again' u))
  (hagain : ∀ {u c}, c.rest.length < m → Agrees closing.tail (again u c.closed) (again' u c))

include hadvances hadvances' hagain

end

end FieldBuffers.Pattern.Parsing
