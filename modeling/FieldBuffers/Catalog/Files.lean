import FieldBuffers.Document.Yaml

/-!
Files as a program sees them, and field tables read from them. The end of a file's name says how
its table is written.
-/

namespace FieldBuffers

/-- What reading a path gives: bytes, or the system's words for why it cannot be read. -/
abbrev Files := String → Except String Bytes

namespace Files

/-- The last part of a path that names something. -/
def lastName (path : String) : Option String :=
  let parts := (Text.pieces (· == '/') path.toList).filter fun p => !p.isEmpty && p != ['.']
  match parts.getLast? with
  | some ['.', '.'] => none
  | some p => some (String.ofList p)
  | none => none

/-- What follows the last point of a file's name, in small letters. A point in front counts for
nothing. -/
def extension? (path : String) : Option String :=
  match lastName path with
  | none => none
  | some name =>
    let cs := name.toList.reverse
    let tail := cs.takeWhile (· != '.')
    let stem := (cs.dropWhile (· != '.')).drop 1
    if tail.length == cs.length || stem.isEmpty then none
    else some (String.ofList (tail.reverse.map Char.toLower))

def notText : String := "stream did not contain valid UTF-8"

def readText (files : Files) (path : String) : Except String String := do
  match Bytes.toText? (← files path) with
  | some s => return s
  | none => throw notText

end Files

/-- The ways in which a table may be written. -/
inductive TableFormat where
  | classic | json | yaml
  deriving DecidableEq, Repr

def TableFormat.ofPath (path : String) : TableFormat :=
  match Files.extension? path with
  | some "yaml" | some "yml" => .yaml
  | some "json" => .json
  | _ => .classic

namespace FieldTable

/-- A table of a file. What is wrong with it is told with the file's path. -/
def ofDocument (path : String) (text : String) : Except Error FieldTable :=
  let invalid : Error := .tableLoad path "invalid document"
  match TableFormat.ofPath path with
  | .yaml => (Yaml.table? text).elim (.error invalid) .ok
  | .json => (Json.table? text).elim (.error invalid) .ok
  | .classic =>
    (ofText text).mapError fun
      | .textParse line cause => .tableLoad path s!"line {line}: {cause}"
      | e => e

def ofFile (files : Files) (path : String) : Except Error FieldTable := do
  ofDocument path (← (files.readText path).mapError (Error.tableLoad path ·))

end FieldTable

end FieldBuffers
