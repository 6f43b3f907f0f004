import FieldBuffers.Command.Invocation
import FieldBuffers.Command.Listing
import FieldBuffers.Session

/-!
Commands as functions of files and variables: what goes to the output or into a file, or what went
wrong.
-/

namespace FieldBuffers.Command

/-- What a command sees of the system. -/
structure System where
  files : Files
  /-- The system's words for why a path cannot be opened, if it cannot. -/
  closed : String → Option String
  /-- The value of a variable, if it is set. -/
  lookup : String → Option String

/-- What went wrong, in the words of the command and, where those are not all, of the cause. -/
structure Report where
  outer : String
  cause : Option String := none
deriving DecidableEq

/-- A cause is indented, each line of it. -/
def Report.text (r : Report) : String :=
  s!"Error: {r.outer}\n" ++
    match r.cause with
    | none => ""
    | some c =>
      let lines := (Text.pieces (· == '\n') c.toList).map String.ofList
      "\nCaused by:\n" ++ String.join (lines.map fun l => s!"    {l}\n")

/-- What is done at the end of a command. -/
inductive Effect where
  | write (output : Bytes)
  | save (path : String) (content : Bytes)

def Effect.writeText (s : String) : Effect := .write (Bytes.ofText s)

/-- A file could not be written. -/
def saveReport (path cause : String) : Report := ⟨s!"Failed to write {path}", some cause⟩

/-- The size in a variable, if it holds one. -/
def System.size? (sys : System) (name : String) : Option Nat :=
  (sys.lookup name).bind fun s => (Decimal.integer? 0 (2 ^ 64 - 1) s.toList).map Int.toNat

def System.arenaConfig (sys : System) : ArenaConfig :=
  let base : ArenaConfig := {}
  { initial := (sys.size? "FML_ARENA_INITIAL").getD base.initial
    ceiling := (sys.size? "FML_ARENA_MAX").getD base.ceiling }

/-- The table files in a family's variable, a list with colons between. -/
def System.sources (sys : System) (w : Width) : List String :=
  match sys.lookup w.tablesVariable with
  | none => []
  | some s => (Text.pieces (· == ':') s.toList).map String.ofList

def System.session (sys : System) (w : Width) : Session w where
  files := sys.files
  catalogs := ⟨{ sources := sys.sources .narrow }, { sources := sys.sources .wide }⟩
  arenas := [(none, { config := sys.arenaConfig })]

variable {w : Width} {α : Type}

/-- A step of a command. An error is told in the names that the session has by then. -/
abbrev Task (w : Width) := EStateM Report (Session w)

/-- A step of a session, whose error is told as it is. -/
def plainly (x : Scripted w α) : Task w α := fun s =>
  match x s with
  | .ok a s => .ok a s
  | .error e s => .error ⟨e.message s.catalogs.names, none⟩ s

/-- A step of a session, whose error is told as the cause of another. -/
def within (outer : String) (x : Scripted w α) : Task w α := fun s =>
  match x s with
  | .ok a s => .ok a s
  | .error e s => .error ⟨outer, some (e.message s.catalogs.names)⟩ s

/-- The name of the one buffer that a command works on. -/
def subject : String := "a"

def addTables : List String → Task w Unit
  | [] => return
  | path :: paths => do
    let table ← within s!"Failed to load field table {path}" do
      Session.attempt (FieldTable.ofFile (← get).files path)
    modify fun s => { s with catalogs := s.catalogs.set w ((s.catalogs.get w).register table) }
    addTables paths

/-- Reads an exported buffer, whichever way it was exported. -/
def readExport (path : String) : Task w Unit := do
  match (← get).files path with
  | .error cause => throw ⟨s!"Failed to read {path}", some cause⟩
  | .ok bs =>
    within s!"{path} is not an exported {w.name} buffer"
      (Session.imported subject (ExportMode.detect bs) bs)

def compileContext : Expr.Kind → String
  | .predicate => "Failed to compile predicate"
  | .formula => "Failed to compile formula"

def outcomeText : Expr.Outcome → String
  | .truth b => if b then "true" else "false"
  | .number word => String.ofList (Decimal.text Binary.binary64 word)

def Action.run (sys : System) : Action → Task w Effect
  | .print file => do
    readExport file
    return .writeText (← plainly (Session.dump subject))
  | .extread file output mode => do
    if let some cause := sys.closed file then throw ⟨s!"Failed to open {file}", some cause⟩
    within s!"Failed to read text dump {file}" do
      match (← get).files file with
      | .error cause => throw (.io "<stream>" cause)
      | .ok bs => Session.readDump subject bs
    let bs := ((← get).buffer subject).exported mode
    return match output with
      | none => .write bs
      | some path => .save path bs
  | .convert file output mode => do
    readExport file
    return .save output (((← get).buffer subject).exported mode)
  | .eval file expr kind => do
    readExport file
    let e ← within (compileContext kind) (Session.compile expr)
    let r ← plainly (Session.evaluate subject kind e)
    return .writeText (outcomeText r ++ "\n")
  | .fields json => do
    let fields ← plainly (Session.resolve (w := w) (Catalog.fields (← get).files))
    return .writeText (if json then document fields else listing fields)

/-- What a command line that is well formed comes to. -/
def Invocation.run (sys : System) (i : Invocation) : Except Report Effect :=
  let task : Task i.width Effect := do
    addTables i.tables
    i.action.run sys
  match task (sys.session i.width) with
  | .ok e _ => .ok e
  | .error r _ => .error r

/-- The paths that a command may read. -/
def Invocation.paths (sys : System) (i : Invocation) : List String :=
  let file := match i.action with
    | .print f | .extread f _ _ | .convert f _ _ | .eval f _ _ => [f]
    | .fields _ => []
  sys.sources i.width ++ sys.sources .wide ++ i.tables ++ file

end FieldBuffers.Command
