import FieldBuffers.Catalog.Table

/-!
A table with a field of every kind that a family has, and the classic form of tables without
comments.
-/

namespace FieldBuffers.FieldTable

def common : List FieldDef :=
  [⟨"NAME", 1, .string, none⟩, ⟨"COUNT", 2, .long, none⟩, ⟨"PRICE", 3, .double, none⟩,
    ⟨"RAW", 4, .carray, none⟩, ⟨"FLAG", 5, .char, none⟩, ⟨"SHORTV", 6, .short, none⟩,
    ⟨"INTV", 7, .int, none⟩, ⟨"FLOATV", 8, .float, none⟩]

def sample : Width → FieldTable
  | .narrow => { fields := common }
  | .wide => { fields := common ++
      [⟨"TEXT", 9, .mbstring, none⟩, ⟨"PTR", 10, .ptr, none⟩, ⟨"REC", 11, .view, none⟩,
        ⟨"SUB", 12, .fml, none⟩] }

/-- The definitions in the classic form, one a line, numbered from zero. -/
def toText (t : FieldTable) : String :=
  String.join (t.resolved.map fun (name, number, type) =>
    s!"{name} {number} {type.keyword}\n")

end FieldBuffers.FieldTable
