import FieldBuffers.Proofs.Classes

/-! Patterns in a text that goes on with what closes a group around them: a pattern is read as in
the text alone, or the reading goes past its end (`agrees_alternatives`). -/

namespace FieldBuffers.Pattern.Parsing

open Cursor

variable {c : Cursor}

/-- A part that an escape writes. -/
def written (ascii : Bool) : Escaped → Parsing Piece
  | .char x => do return ⟨← literal x, 0, false⟩
  | .class s => return ⟨.ofSet ascii s, 0, false⟩
  | .look l => return ⟨.look l, 0, false⟩

/-- A repetition with its mark. -/
def counted : Option (Nat × Option Nat) → Parsing (Option (Nat × Option Nat × Bool))
  | none => return none
  | some (low, high) => do
    let marked ← starts "?"
    return some (low, high, marked != (← get).flags.swapGreed)

/-- A group, or flags for what follows, once it is told how the parenthesis opens. -/
def opened (again : List Piece → List Piece → Parsing Piece) (done items : List Piece)
    (outer : Flags) : Opening → Parsing Piece
  | .directive flags => do
    modify fun c => { c with flags }
    again done (⟨.empty, 0, true⟩ :: items)
  | .group number flags => do
    modify fun c => { c with flags }
    let inner ← again [] []
    expect ')'
    modify fun c => { c with flags := outer }
    again done (inner.group number :: items)

/-- A repetition of the part before, or a part that is not a group where there is none. -/
def repeated (fuel : Nat) (again : List Piece → List Piece → Parsing Piece) (done : List Piece) :
    Option (Nat × Option Nat × Bool) → List Piece → Parsing Piece
  | some (low, high, lazy), item :: items =>
    match item.repeat? low high lazy with
    | some p => again done (p :: items)
    | none => refuse
  | some _, [] => refuse
  | none, items => do again done ((← primitive fuel) :: items)

section

variable {again again' : List Piece → List Piece → Parsing Piece} {done items : List Piece}
variable {fuel fuel' m : Nat}

section

variable (hadvances : ∀ done items, Advances (again done items))

include hadvances

end

variable (hadvances : ∀ done items, Advances (again done items))
  (hadvances' : ∀ done items, Advances (again' done items))
  (hagain : ∀ {done items c}, c.rest.length < m →
    Agrees closing.tail (again done items c.closed) (again' done items c))

include hadvances hagain

include hadvances'

end

end FieldBuffers.Pattern.Parsing
