import FieldBuffers.Catalog.Files
import FieldBuffers.Text.Inspected

/-!
Catalogs resolve names and identifiers. A catalog reads its tables when it is first asked, keeps
what it found, and reads them again only after it was told to forget or was given another table.
-/

namespace FieldBuffers

variable {w : Width}

/-- Names with their identifiers, each name once, in the order of the definitions. -/
structure NameTable (w : Width) where
  entries : List (String × FieldId w) := []
  deriving DecidableEq

namespace NameTable

def ident? (t : NameTable w) (name : String) : Option (FieldId w) :=
  (t.entries.find? (·.1 == name)).map (·.2)

/-- The first name of an identifier. -/
def name? (t : NameTable w) (f : FieldId w) : Option String :=
  (t.entries.find? (·.2 == f)).map (·.1)

/-- One more definition; a name may be defined again, but not as something else. -/
def define (origin : String) (t : NameTable w) (d : String × Nat × FieldType) :
    Except Error (NameTable w) :=
  let (name, number, type) := d
  let number := min number FieldTable.maxNumber
  match FieldId.new w type number with
  | .error e => .error (.tableLoad origin s!"field '{name}': {e.plainMessage}")
  | .ok f =>
    match t.ident? name with
    | none => .ok ⟨t.entries ++ [(name, f)]⟩
    | some g =>
      if g = f then .ok t
      else
        let before := s!"{g.type.keyword}:{g.number}"
        .error (.tableLoad origin
          s!"field '{name}' redefined as {type.keyword}:{f.number} (was {before})")

/-- The definitions of some tables, each with where it is from. -/
def build (sources : List (String × FieldTable)) : Except Error (NameTable w) :=
  sources.foldlM (fun t (origin, table) => table.resolved.foldlM (define origin) t) {}

/-- Every name, in the order of their characters. -/
def sorted (t : NameTable w) : List (String × FieldId w) :=
  t.entries.mergeSort fun a b => decide (a.1 ≤ b.1)

end NameTable

structure Catalog (w : Width) where
  /-- The files with tables, in the order in which they are read. -/
  sources : List String := []
  /-- The tables that were given, which come after those of the files. -/
  registered : List FieldTable := []
  /-- What was found, while it is kept. -/
  cache : Option (NameTable w) := none

abbrev Resolving (w : Width) := EStateM Error (Catalog w)

namespace Catalog

def registeredOrigin : String := "<registered>"

def isLoaded (c : Catalog w) : Bool := c.cache.isSome

def unload (c : Catalog w) : Catalog w := { c with cache := none }

def register (c : Catalog w) (t : FieldTable) : Catalog w :=
  { c with registered := c.registered ++ [t], cache := none }

/-- The name of an identifier if it is at hand; nothing is read for it. -/
def cachedName (c : Catalog w) (f : FieldId w) : Option String := c.cache.bind (·.name? f)

/-- The tables as they stand. -/
def read (files : Files) (c : Catalog w) : Except Error (NameTable w) := do
  let found ← c.sources.mapM fun path => return (path, ← FieldTable.ofFile files path)
  NameTable.build (found ++ c.registered.map fun t => (registeredOrigin, t))

/-- The names, read if they are not at hand. -/
def table (files : Files) : Resolving w (NameTable w) := fun c =>
  match c.cache with
  | some t => .ok t c
  | none =>
    match c.read files with
    | .error e => .error e c
    | .ok t => .ok t { c with cache := some t }

def identFor (files : Files) (name : String) : Resolving w (FieldId w) := do
  match (← table files).ident? name with
  | some f => return f
  | none => throw (.unknownName name)

def nameFor (files : Files) (f : FieldId w) : Resolving w String := do
  match (← table files).name? f with
  | some name => return name
  | none => throw (.unknownIdentifier f.raw)

def fields (files : Files) : Resolving w (List (String × FieldId w)) := do
  return (← table files).sorted

/-- The name of an identifier, or its kind and number where it has none. -/
def labelFor (files : Files) (f : FieldId w) : Resolving w String := fun c =>
  match nameFor files f c with
  | .ok name c => .ok name c
  | .error _ c => .ok f.label c

/-- The form for inspection. -/
def inspect (c : Catalog w) : String :=
  let sources := ", ".intercalate (c.sources.map Text.inspected)
  s!"Catalog \x7b width: \"{w.name}\", sources: [{sources}], loaded: {c.isLoaded} \x7d"

end Catalog

/-- The catalogs of both families. -/
structure Catalogs where
  narrow : Catalog .narrow := {}
  wide : Catalog .wide := {}

namespace Catalogs

def get (cs : Catalogs) : (w : Width) → Catalog w
  | .narrow => cs.narrow
  | .wide => cs.wide

def set (cs : Catalogs) : (w : Width) → Catalog w → Catalogs
  | .narrow, c => { cs with narrow := c }
  | .wide, c => { cs with wide := c }

/-- The names at hand. -/
def names (cs : Catalogs) : Names := fun w f => (cs.get w).cachedName f

end Catalogs

end FieldBuffers
