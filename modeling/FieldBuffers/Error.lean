import FieldBuffers.FieldId

/-!
What can go wrong, and how it is told. Each error has a code; a field in an error is told by its
catalog name when the reader of the message has one.
-/

namespace FieldBuffers

/-- A field as an error speaks of it. -/
inductive FieldRef where
  | named (name : String)
  | ident (w : Width) (f : FieldId w)

inductive Error where
  | notPresent (field : FieldRef) (occurrence : Nat)
  | typeMismatch (field : FieldRef) (expected actual : String)
  | spaceExhausted (needed available : Nat)
  | bufferNull (operation : String)
  | notIndexed (operation : String)
  | unknownName (name : String)
  | unknownIdentifier (raw : Nat)
  | invalidIdentifier (type : String) (number : Nat) (cause : String)
  | tableLoad (path cause : String)
  | malformedExpression (source : String) (position : Nat) (cause : String)
  | arenaCapacity (requested limit : Nat)
  | corrupt (offset : Nat) (cause : String)
  | textParse (line : Nat) (cause : String)
  | transport (cause : String)
  | io (path cause : String)

/-- The names in force for identifiers, where there are any. -/
abbrev Names := (w : Width) → FieldId w → Option String

def FieldRef.text (names : Names) : FieldRef → String
  | .named s => s
  | .ident w f => (names w f).getD f.label

namespace Error

def code : Error → String
  | notPresent .. => "E001"
  | typeMismatch .. => "E002"
  | spaceExhausted .. => "E003"
  | bufferNull .. => "E004"
  | notIndexed .. => "E005"
  | unknownName .. => "E020"
  | unknownIdentifier .. => "E021"
  | invalidIdentifier .. => "E022"
  | tableLoad .. => "E023"
  | malformedExpression .. => "E040"
  | arenaCapacity .. => "E060"
  | corrupt .. => "E061"
  | textParse .. => "E062"
  | transport .. => "E063"
  | io .. => "E090"

def explanation (names : Names) : Error → String
  | notPresent f k => s!"Field {f.text names} occurrence {k} not present"
  | typeMismatch f e a => s!"Type mismatch for field {f.text names}: expected {e}, got {a}"
  | spaceExhausted n a => s!"Buffer space exhausted: need {n} bytes, {a} available"
  | bufferNull op => s!"Operation '{op}' requires an allocated buffer"
  | notIndexed op => s!"Operation '{op}' requires an indexed buffer"
  | unknownName n => s!"Unknown field name '{n}'"
  | unknownIdentifier r => s!"Unknown field identifier {r}"
  | invalidIdentifier t n c => s!"Invalid field identifier ({t}, {n}): {c}"
  | tableLoad p c => s!"Failed to load field table {p}: {c}"
  | malformedExpression s p c => s!"Malformed expression '{s}' at position {p}: {c}"
  | arenaCapacity r l => s!"Arena capacity exceeded: requested {r} bytes, limit {l} bytes"
  | corrupt o c => s!"Corrupt buffer at offset {o}: {c}"
  | textParse l c => s!"Text parse error on line {l}: {c}"
  | transport c => s!"Transport frame invalid: {c}"
  | io p c => s!"I/O error on {p}: {c}"

def message (names : Names) (e : Error) : String := s!"{e.code}: {e.explanation names}"

/-- Only a lack of room can go away by trying again. -/
def isRetriable : Error → Bool
  | spaceExhausted .. => true
  | _ => false

/-- Errors that come from names and tables. -/
def isCatalog : Error → Bool
  | unknownName .. | unknownIdentifier .. | invalidIdentifier .. | tableLoad .. => true
  | _ => false

/-- The message of an error in which no field is spoken of by identifier. -/
def plainMessage (e : Error) : String := e.message fun _ _ => none

def ofFault (w : Width) (type : FieldType) (number : Nat) (fault : FieldId.Fault) : Error :=
  .invalidIdentifier type.keyword number (fault.message w)

def mismatch {w : Width} (f : FieldId w) (expected actual : String) : Error :=
  .typeMismatch (.ident w f) expected actual

end Error

/-- An identifier of the given kind and number. -/
def FieldId.new (w : Width) (type : FieldType) (number : Nat) : Except Error (FieldId w) :=
  (make w type number).mapError (Error.ofFault w type number)

def FieldId.ofRaw (w : Width) (raw : Nat) : Except Error (FieldId w) :=
  match ofRaw? w raw with
  | some f => .ok f
  | none => .error (.unknownIdentifier raw)

end FieldBuffers
