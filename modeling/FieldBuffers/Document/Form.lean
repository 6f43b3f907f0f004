import FieldBuffers.Catalog.Table

/-!
Field tables in structured documents. A way of writing documents says what its nodes stand for; what
a table is made of is the same for all.
-/

namespace FieldBuffers

/-- What the nodes of a way of writing stand for. -/
structure Form (ν : Type) where
  text? : ν → Option String
  natural? : ν → Option Nat
  /-- A text, or the mark that there is none. -/
  optionalText? : ν → Option (Option String)
  type? : ν → Option FieldType
  items? : ν → Option (List ν)
  /-- The values of the named members in their order, none for one that is missing. -/
  members? : List String → ν → Option (List (Option ν))

namespace Form

variable {ν : Type} (F : Form ν)

/-- The values of some names among pairs. A name that is there twice spoils the pairs; a key that is
not named is passed over. -/
def pick (names : List String) (pairs : List (String × ν)) : Option (List (Option ν)) :=
  names.mapM fun name =>
    match pairs.filter (·.1 == name) with
    | [] => some none
    | [(_, v)] => some (some v)
    | _ => none

/-- A number of 32 bits. -/
def number? (n : ν) : Option Nat :=
  (F.natural? n).bind fun n => if n ≤ FieldTable.maxNumber then some n else none

def definition? (n : ν) : Option FieldDef := do
  match ← F.members? ["name", "number", "type", "comment"] n with
  | [some name, some number, some type, comment] =>
    let name ← F.text? name
    let number ← F.number? number
    let type ← F.type? type
    let comment ←
      match comment with
      | none => some none
      | some c => F.optionalText? c
    return { name, number, type, comment }
  | _ => none

def table? (n : ν) : Option FieldTable := do
  match ← F.members? ["base", "fields"] n with
  | [base, some fields] =>
    let base ←
      match base with
      | none => some 0
      | some b => F.number? b
    return { base, fields := ← (← F.items? fields).mapM F.definition? }
  | _ => none

end Form

end FieldBuffers
