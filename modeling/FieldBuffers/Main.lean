import FieldBuffers.Command.Run

/-!
The program. What a command may read is read first; then the command is run on it, and what it comes
to is written out.
-/

namespace FieldBuffers.Main

/-- The system's words for what went wrong. -/
def cause : IO.Error → String
  | .noFileOrDirectory _ code details => s!"{details} (os error {code})"
  | .permissionDenied _ code details => s!"{details} (os error {code})"
  | .inappropriateType _ code details => s!"{details} (os error {code})"
  | .noSuchThing _ code details => s!"{details} (os error {code})"
  | e => toString e

def attempt {α : Type} (x : IO α) : IO (Except String α) := do
  try return .ok (← x) catch e => return .error (cause e)

def settings : List String :=
  ["FML_FIELD_TABLES", "FML_FIELD_TABLES32", "FML_ARENA_INITIAL", "FML_ARENA_MAX"]

/-- A path with what reading it gives, and why it cannot be opened if it cannot. -/
def probe (path : String) : IO (String × Except String Bytes × Option String) := do
  match ← attempt (IO.FS.Handle.mk path .read) with
  | .error e => return (path, .error e, some e)
  | .ok _ =>
    let content ← attempt (IO.FS.readBinFile path)
    return (path, content.map fun bs => bs.data.toList, none)

def usage : String :=
  "Usage: fml [-v] [--log-format FORMAT] [--tables PATH] [--narrow] COMMAND\n\n" ++
  "Commands:\n" ++
  "  print FILE\n" ++
  "  extread FILE [-o OUTPUT] [--text-safe]\n" ++
  "  convert FILE -o OUTPUT [--to MODE]\n" ++
  "  eval FILE -e EXPR [--arith]\n" ++
  "  fields [--json]\n"

def perform : Command.Effect → IO (Option Command.Report)
  | .write bs => do
    let out ← IO.getStdout
    out.write ⟨bs.toArray⟩
    out.flush
    return none
  | .save path bs => do
    match ← attempt (IO.FS.writeBinFile path ⟨bs.toArray⟩) with
    | .ok () => return none
    | .error e => return some (Command.saveReport path e)

end FieldBuffers.Main

open FieldBuffers FieldBuffers.Main in
def main (arguments : List String) : IO UInt32 := do
  match Command.Invocation.ofArguments? arguments with
  | none =>
    (← IO.getStderr).putStr usage
    return 2
  | some invocation =>
    let values ← settings.filterMapM fun name => do
      return (← IO.getEnv name).map fun v => (name, v)
    let bare : Command.System :=
      { files := fun _ => .error "", closed := fun _ => none, lookup := (values.lookup ·) }
    let known ← (invocation.paths bare).mapM probe
    let system : Command.System :=
      { bare with
        files := fun path => ((known.lookup path).map (·.1)).getD (.error "not read")
        closed := fun path => (known.lookup path).bind (·.2) }
    let report ← match invocation.run system with
      | .error r => pure (some r)
      | .ok effect => perform effect
    match report with
    | none => return 0
    | some r =>
      (← IO.getStderr).putStr r.text
      return 1
