import FieldBuffers.Buffer.Write
import FieldBuffers.Buffer.Algebra
import FieldBuffers.Dump.Printer
import FieldBuffers.Dump.Reader
import FieldBuffers.Expr.Compiled
import FieldBuffers.Expr.Evaluation
import FieldBuffers.Frame

/-!
Sessions: buffers, arenas and compiled expressions under names, with the catalogs that they share.
A name that nothing was put under is a null buffer. A null buffer gets its block from the arena
without a name.
-/

namespace FieldBuffers

/-- A buffer, and the name of the arena of its block. -/
structure Slot (w : Width) where
  arena : Option String := none
  buffer : Buffer w := .null

structure Session (w : Width) where
  files : Files
  catalogs : Catalogs := {}
  arenas : List (Option String × Arena) := []
  slots : List (String × Slot w) := []
  exprs : List (String × Expr.Kind × Expr.Compiled w) := []
  /-- Blocks of copies that are to be given back. -/
  loans : List (Option String × Nat) := []

/-- What uses a session; an error leaves the session in the state it had come to. -/
abbrev Scripted (w : Width) := EStateM Error (Session w)

/-- What an expression gives. -/
inductive Expr.Outcome where
  | truth (b : Bool)
  /-- The word of a number of double precision. -/
  | number (word : Nat)

variable {w : Width} {α : Type}

namespace Session

/-- Puts a value under a name, in place of what was there. -/
def assign {κ β : Type} [BEq κ] (k : κ) (b : β) (xs : List (κ × β)) : List (κ × β) :=
  (k, b) :: xs.filter (·.1 != k)

def slot (s : Session w) (name : String) : Slot w := (s.slots.lookup name).getD {}

def buffer (s : Session w) (name : String) : Buffer w := (s.slot name).buffer

def arena (s : Session w) (name : Option String) : Arena := (s.arenas.lookup name).getD {}

/-- The arena that decides how much room nested buffers may take. -/
def config (s : Session w) : ArenaConfig := (s.arena none).config

def setArena (name : Option String) (a : Arena) (s : Session w) : Session w :=
  { s with arenas := assign name a s.arenas }

def setSlot (name : String) (arena : Option String) (b : Buffer w) (s : Session w) : Session w :=
  { s with slots := assign name ⟨if b.isNull then none else arena, b⟩ s.slots }

/-- The block of a buffer given back. -/
def discard (slot : Slot w) (s : Session w) : Session w :=
  match slot.buffer with
  | .null => s
  | .allocated st => s.setArena slot.arena ((s.arena slot.arena).release st.handle)

/-- Edits the buffer of a name in the arena of its block. -/
def edit (name : String) (e : Edit w α) : Scripted w α := fun s =>
  let slot := s.slot name
  let settle (p : Place w) := (s.setArena slot.arena p.arena).setSlot name slot.arena p.buffer
  match e ⟨s.arena slot.arena, slot.buffer⟩ with
  | .ok a p => .ok a (settle p)
  | .error e p => .error e (settle p)

def resolve (r : Resolving w α) : Scripted w α := fun s =>
  match r (s.catalogs.get w) with
  | .ok a c => .ok a { s with catalogs := s.catalogs.set w c }
  | .error e c => .error e { s with catalogs := s.catalogs.set w c }

/-- Resolves among the fields of nested buffers. -/
def resolveWide (r : Resolving .wide α) : Scripted w α := fun s =>
  match r s.catalogs.wide with
  | .ok a c => .ok a { s with catalogs := s.catalogs.set .wide c }
  | .error e c => .error e { s with catalogs := s.catalogs.set .wide c }

def attempt (r : Except Error α) : Scripted w α :=
  match r with
  | .ok a => pure a
  | .error e => throw e

/-- A buffer made in an arena and put under a name. What was there is given back last. -/
def create (name : String) (arena : Option String)
    (make : Arena → Except Error (Buffer w × Arena)) : Scripted w Unit := do
  let s ← get
  let (b, a) ← attempt (make (s.arena arena))
  modify fun s => (discard (s.slot name) (s.setArena arena a)).setSlot name arena b

/-- An arena under a name. -/
def addArena (name : String) (config : ArenaConfig) : Scripted w Unit :=
  modify (setArena (some name) { config })

def new (name : String) : Scripted w Unit := create name none fun a => .ok (.null, a)

def withCapacity (name : String) (arena : Option String) (bytes : Nat) : Scripted w Unit :=
  create name arena (Buffer.allocate w bytes)

/-- A buffer with room for some entries. -/
def withRoom (name : String) (entries valueBytes : Nat) : Scripted w Unit :=
  withCapacity name none (Buffer.bytesNeeded w entries valueBytes)

def withInitial (name : String) (arena : Option String) : Scripted w Unit := do
  withCapacity name arena ((← get).arena arena).config.initial

def imported (name : String) (m : ExportMode) (bs : Bytes) : Scripted w Unit :=
  create name none (Buffer.imported w m bs)

/-- A copy of a buffer under another name, in the arena of the first. -/
def copy (source target : String) : Scripted w Unit := do
  let slot := (← get).slot source
  create target slot.arena slot.buffer.copy

/-- A copy, or a null buffer where there is no room for one. -/
def copyOrNull (source target : String) : Scripted w Unit := do
  let slot := (← get).slot source
  create target slot.arena fun a =>
    match slot.buffer.copy a with
    | .ok r => .ok r
    | .error _ => .ok (.null, a)

/-- Moves a buffer to another name and leaves a null one. -/
def take (source target : String) : Scripted w Unit := modify fun s =>
  let moved := s.slot source
  let s := s.setSlot source none .null
  (discard (s.slot target) s).setSlot target moved.arena moved.buffer

/-- A copy of a buffer as a value, whose block is given back with `repay`. -/
def lend (name : String) : Scripted w (Buffer w) := do
  let slot := (← get).slot name
  let (b, a) ← attempt (slot.buffer.copy ((← get).arena slot.arena))
  modify fun s =>
    let s := s.setArena slot.arena a
    match b with
    | .null => s
    | .allocated st => { s with loans := (slot.arena, st.handle) :: s.loans }
  return b

def repay (s : Session w) : Session w :=
  s.loans.foldl (fun s (arena, handle) => s.setArena arena ((s.arena arena).release handle))
    { s with loans := [] }

/-- The other side of a step on a buffer, which is a copy where it is that buffer itself. -/
def operand (name other : String) : Scripted w (Buffer w) := do
  if other = name then lend other else return (← get).buffer other

/-- Merges another buffer into one. -/
def merge (m : Merge) (name other : String) : Scripted w Unit := do
  edit name (Edit.merge m (← operand name other))

/-- Whether two buffers hold the same. -/
def same (name other : String) : Scripted w Bool := do
  let right ← operand name other
  let s ← get
  return (s.buffer name).same s.config right

/-- A nested buffer, put under a name as a buffer of its own. -/
def extract (name : String) (f : FieldId .wide) (occurrence : Nat) (target : String) :
    Scripted .wide Unit := do
  let s ← get
  match ← attempt ((s.buffer name).getAs s.config .fml f occurrence) with
  | .fml b => create target none b.snapshot
  | v => throw (.mismatch f FieldType.fml.keyword v.type.keyword)

/-- Reads the lines of a dump into a buffer. -/
def readDump (name : String) (dump : Bytes) : Scripted w Unit := fun s =>
  let slot := s.slot name
  let settle (p : Dump.Progress w) : Session w :=
    { (s.setArena slot.arena p.place.arena).setSlot name slot.arena p.place.buffer with
      catalogs := p.catalogs }
  match Dump.read s.config s.files dump ⟨⟨s.arena slot.arena, slot.buffer⟩, s.catalogs⟩ with
  | .ok () p => .ok () (settle p)
  | .error e p => .error e (settle p)

def dump (name : String) : Scripted w String := fun s =>
  match Dump.text s.config s.files s.catalogs (s.buffer name) with
  | (.ok text, catalogs) => .ok text { s with catalogs }
  | (.error e, catalogs) => .error e { s with catalogs }

def compile (source : String) : Scripted w (Expr.Compiled w) := do
  resolve (Expr.compile (← get).files source)

/-- What an expression gives on the buffer of a name. -/
def evaluate (name : String) (kind : Expr.Kind) (e : Expr.Compiled w) :
    Scripted w Expr.Outcome := do
  let s ← get
  let b := s.buffer name
  attempt <| match kind with
    | .predicate => (e.root.test s.config b).map .truth
    | .formula => (e.root.compute s.config b).map .number

def addExpr (name : String) (kind : Expr.Kind) (e : Expr.Compiled w) : Scripted w Unit :=
  modify fun s => { s with exprs := assign name (kind, e) s.exprs }

end Session

end FieldBuffers
