import FieldBuffers.FieldId
import FieldBuffers.Document.Json

/-!
The fields of a catalog as a table for reading, and as a document.
-/

namespace FieldBuffers.Command

variable {w : Width}

/-- Blanks after a text up to a number of characters. -/
def padEnd (n : Nat) (s : String) : String :=
  s ++ String.ofList (List.replicate (n - s.length) ' ')

def padStart (n : Nat) (s : String) : String :=
  String.ofList (List.replicate (n - s.length) ' ') ++ s

def row (width : Nat) (name type number id : String) : String :=
  padEnd width name ++ "  " ++ padEnd 8 type ++ "  " ++ padStart 8 number ++ "  " ++ padStart 10 id
    ++ "\n"

/-- A table as wide as the longest name in UTF-8 asks for. -/
def listing (fields : List (String × FieldId w)) : String :=
  let width := fields.foldl (fun n (name, _) => max n name.utf8ByteSize) 4
  row width "NAME" "TYPE" "NUMBER" "ID"
    ++ String.ofList (List.replicate (width + 32) '-') ++ "\n"
    ++ String.join (fields.map fun (name, f) =>
      row width name f.type.keyword (toString f.number) (toString f.raw))
    ++ s!"Total: {fields.length} fields ({w.name})\n"

def record (name : String) (f : FieldId w) : String :=
  s!"  \x7b\n    \"id\": {f.raw},\n    \"name\": {Json.quote name},\n    \"number\": {f.number},\n"
    ++ s!"    \"type\": {Json.quote f.type.keyword}\n  \x7d"

/-- A list with a record for each field. -/
def document (fields : List (String × FieldId w)) : String :=
  if fields.isEmpty then "[]"
  else "[\n" ++ ",\n".intercalate (fields.map fun (name, f) => record name f) ++ "\n]"

end FieldBuffers.Command
