/-!
The kinds of value a field can hold, with their tags and keywords.
-/

namespace FieldBuffers

inductive FieldType where
  | short | long | char | float | double | string | carray | int | ptr | fml | view | mbstring
  deriving DecidableEq, Repr

namespace FieldType

/-- Every kind, in the order of the tags. -/
def all : List FieldType :=
  [.short, .long, .char, .float, .double, .string, .carray, .int, .ptr, .fml, .view, .mbstring]

def tag : FieldType → Nat
  | short => 0
  | long => 1
  | char => 2
  | float => 3
  | double => 4
  | string => 5
  | carray => 6
  | int => 7
  | ptr => 9
  | fml => 10
  | view => 11
  | mbstring => 12

def ofTag? : Nat → Option FieldType
  | 0 => some short
  | 1 => some long
  | 2 => some char
  | 3 => some float
  | 4 => some double
  | 5 => some string
  | 6 => some carray
  | 7 => some int
  | 9 => some ptr
  | 10 => some fml
  | 11 => some view
  | 12 => some mbstring
  | _ => none

def keyword : FieldType → String
  | short => "short"
  | long => "long"
  | char => "char"
  | float => "float"
  | double => "double"
  | string => "string"
  | carray => "carray"
  | int => "int"
  | ptr => "ptr"
  | fml => "fml32"
  | view => "view32"
  | mbstring => "mbstring"

/-- The kind with exactly this keyword. -/
def ofExactKeyword? (s : String) : Option FieldType := all.find? (·.keyword == s)

/-- The kind with this keyword, in any mix of ASCII case. -/
def ofKeyword? (s : String) : Option FieldType :=
  ofExactKeyword? (String.ofList (s.toList.map Char.toLower))

/-- The bytes each value of the kind takes, where all take the same. -/
def fixedSize : FieldType → Option Nat
  | short => some 2
  | long | double => some 8
  | char => some 1
  | float | int => some 4
  | ptr => some 9
  | string | carray | fml | view | mbstring => none

def isNumeric : FieldType → Bool
  | short | long | char | float | double | int => true
  | _ => false

def isTextual : FieldType → Bool
  | string | carray | mbstring => true
  | _ => false

@[simp] theorem ofTag?_tag (t : FieldType) : ofTag? t.tag = some t := by cases t <;> rfl

theorem tag_le (t : FieldType) : t.tag ≤ 12 := by cases t <;> decide

theorem tag_of_ofTag? {n : Nat} {t : FieldType} (h : ofTag? n = some t) : t.tag = n := by
  unfold ofTag? at h
  split at h <;> simp_all <;> subst h <;> rfl

end FieldType

end FieldBuffers
