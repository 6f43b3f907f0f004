import FieldBuffers.Expr.Basic
import FieldBuffers.Error

/-!
Wildcards and the occurrences they are bound to. A test goes through the combinations of occurrences
of its wildcard fields like the digits of a counter, the first field fastest.
-/

namespace FieldBuffers.Expr

variable {w : Width}

/-- The occurrences that enclosing tests have chosen. -/
abbrev Bindings (w : Width) := List (FieldId w × Nat)

/-- The fields written with a wildcard, from left to right. Tests within see to their own. -/
def wildcards : Expr w → List (FieldId w)
  | field r => if r.occurrence = .any then [r.id] else []
  | signed .not _ => []
  | signed _ e => e.wildcards
  | binary (.arithmetic _) l r => l.wildcards ++ r.wildcards
  | binary _ _ _ => []
  | number _ | text _ => []
  | like _ _ _ _ => []

/-- Those of some fields that are not bound yet, each once. -/
def unbound (bound : Bindings w) (fs : List (FieldId w)) : List (FieldId w) :=
  (fs.filter fun f => !bound.any (·.1 == f)).eraseDups

/-- The occurrence that a reference reads: the one it names, or the one its wildcard is bound to. -/
def Reference.chosen (r : Reference w) (bound : Bindings w) : Option Nat :=
  match r.occurrence with
  | .at n => some n
  | .any => (bound.find? (·.1 == r.id)).map (·.2)

/-- The digits that follow others below their limits, and whether there were any: after the last
combination the digits are back at zero. -/
def advance : List Nat → List Nat → Bool × List Nat
  | limit :: limits, d :: ds =>
    if d + 1 < limit then (true, (d + 1) :: ds)
    else
      let (more, ds) := advance limits ds
      (more, 0 :: ds)
  | _, ds => (false, ds)

/-- What a combination's outcome says of the whole test, if it ends the search. A combination that
reads an occurrence the buffer does not have does not hold. -/
def settled? : Except Error Bool → Option (Except Error Bool)
  | .ok true => some (.ok true)
  | .ok false => none
  | .error (.notPresent _ _) => none
  | .error e => some (.error e)

/-- Whether a test holds for some combination from `ds` on; `fuel` bounds how many are left. -/
def holdsFrom (limits : List Nat) (test : List Nat → Except Error Bool) :
    Nat → List Nat → Except Error Bool
  | 0, _ => .ok false
  | fuel + 1, ds =>
    match settled? (test ds), advance limits ds with
    | some outcome, _ => outcome
    | none, (true, ds) => holdsFrom limits test fuel ds
    | none, (false, _) => .ok false

/-- Whether a test holds for some combination below the limits. -/
def holdsSome (limits : List Nat) (test : List Nat → Except Error Bool) : Except Error Bool :=
  if 0 ∈ limits then .ok false
  else holdsFrom limits test (limits.foldl (· * ·) 1) (limits.map fun _ => 0)

end FieldBuffers.Expr
