import FieldBuffers.Error

/-!
What a block of an arena is for, and the names that frames and reports use.
-/

namespace FieldBuffers

inductive BlockKind where
  | fml | fml32 | view | view32 | string | carray
  deriving DecidableEq, Repr

namespace BlockKind

def all : List BlockKind := [.fml, .fml32, .view, .view32, .string, .carray]

def name : BlockKind → String
  | fml => "FML"
  | fml32 => "FML32"
  | view => "VIEW"
  | view32 => "VIEW32"
  | string => "STRING"
  | carray => "CARRAY"

/-- The form for inspection. -/
def inspect : BlockKind → String
  | fml => "Fml"
  | fml32 => "Fml32"
  | view => "View"
  | view32 => "View32"
  | string => "String"
  | carray => "Carray"

def ofName (s : String) : Except Error BlockKind :=
  match all.find? (·.name == s) with
  | some k => .ok k
  | none => .error (.transport s!"unknown buffer kind '{s}'")

end BlockKind

/-- The blocks that hold the family's buffers. -/
def Width.blockKind : Width → BlockKind
  | .narrow => .fml
  | .wide => .fml32

end FieldBuffers
