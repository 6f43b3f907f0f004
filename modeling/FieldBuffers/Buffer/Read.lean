import FieldBuffers.Buffer.Equality
import FieldBuffers.Value.Conversion
import FieldBuffers.Checksum
import FieldBuffers.Pattern.Parser

/-!
Reading buffers: occurrences by number, searches, and walks over all entries. What goes by number
needs an index.
-/

namespace FieldBuffers.Buffer

variable {w : Width}

def count (b : Buffer w) (f : FieldId w) : Nat := (b.occurrences f).length

def has (b : Buffer w) (f : FieldId w) (occurrence : Nat) : Bool := occurrence < b.count f

/-- An occurrence's value in whatever state the buffer is, if it has the occurrence. -/
def value? (c : ArenaConfig) (b : Buffer w) (f : FieldId w) (occurrence : Nat) :
    Except Error (Option Value) :=
  match (b.occurrences f)[occurrence]? with
  | none => .ok none
  | some e => (e.decode c).map some

/-- The entry of an occurrence, for an operation that needs the index. -/
def entry (b : Buffer w) (operation : String) (f : FieldId w) (occurrence : Nat) :
    Except Error (Entry w) := do
  let s ← b.requireIndex operation
  match (s.occurrences f)[occurrence]? with
  | some e => return e
  | none => throw (.notPresent (.ident w f) occurrence)

def get (c : ArenaConfig) (b : Buffer w) (f : FieldId w) (occurrence : Nat) :
    Except Error Value := do
  (← b.entry "get" f occurrence).decode c

/-- An occurrence as a reader of some kind wants it. -/
def getAs (c : ArenaConfig) (t : FieldType) (b : Buffer w) (f : FieldId w) (occurrence : Nat) :
    Except Error Value := do
  (← b.get c f occurrence).read t (.ident w f)

def getLast (c : ArenaConfig) (b : Buffer w) (f : FieldId w) : Except Error Value := do
  let _ ← b.requireIndex "get_last"
  match b.count f with
  | 0 => throw (.notPresent (.ident w f) 0)
  | n + 1 => b.get c f n

/-- The bytes of an occurrence's value. -/
def valueLength (b : Buffer w) (f : FieldId w) (occurrence : Nat) : Except Error Nat := do
  return (← b.entry "field_len" f occurrence).value.length

/-- The fields, in the order of their first entries. -/
def fields (b : Buffer w) : List (FieldId w) := (b.entries.map (·.id)).eraseDups

/-- The number of the first value that a test accepts. A value that cannot be read ends the
search. -/
def firstWhere (c : ArenaConfig) (test : Value → Bool) : Nat → List (Entry w) →
    Except Error (Option Nat)
  | _, [] => .ok none
  | k, e :: es => do
    if test (← e.decode c) then return some k else firstWhere c test (k + 1) es

/-- The first occurrence equal to a value. -/
def find (c : ArenaConfig) (b : Buffer w) (f : FieldId w) (v : Value) :
    Except Error (Option Nat) := do
  let s ← b.requireIndex "find"
  let wanted ← v.coerce f.type (.ident w f)
  firstWhere c (fun u => u.same c wanted) 0 (s.occurrences f)

/-- The first occurrence whose text is, as a whole, what a pattern describes. -/
def findMatch (c : ArenaConfig) (b : Buffer w) (f : FieldId w) (source : String) :
    Except Error (Option Nat) := do
  let s ← b.requireIndex "find_match"
  if !f.type.isTextual then
    throw (.mismatch f "string, carray or mbstring" f.type.keyword)
  match Pattern.anchored? source with
  | none => throw (.malformedExpression source 0 "invalid regex")
  | some p => firstWhere c (fun v => v.text?.any fun t => p.found t.toList) 0 (s.occurrences f)

/-- Each field with the number of the occurrence, in the order of the entries. -/
def positionsAfter (seen : List (FieldId w)) : List (Entry w) → List (FieldId w × Nat)
  | [] => []
  | e :: es => (e.id, seen.count e.id) :: positionsAfter (e.id :: seen) es

def positions (b : Buffer w) : List (FieldId w × Nat) := positionsAfter [] b.entries

/-- Every occurrence with its value; bytes that cannot be read are given as they are. -/
def toList (c : ArenaConfig) (b : Buffer w) : List (FieldId w × Nat × Value) :=
  (b.positions.zip b.entries).map fun ((f, k), e) =>
    (f, k, (e.decode c).toOption.getD (.carray e.value))

/-- The position after another in the order of the entries, or the first of all. -/
def next? (b : Buffer w) (after : Option (FieldId w × Nat)) : Option (FieldId w × Nat) :=
  match after with
  | none => b.positions.head?
  | some p => ((b.positions.dropWhile (· != p)).drop 1).head?

/-- The check sum of the entries as they stand. -/
def checksum (b : Buffer w) : Except Error UInt32 := do
  return Checksum.crc32 (← b.require "checksum").live

end FieldBuffers.Buffer
