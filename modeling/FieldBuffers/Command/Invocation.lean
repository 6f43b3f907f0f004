import FieldBuffers.Command.Words
import FieldBuffers.Frame
import FieldBuffers.Expr.Compiled

/-!
What a command line asks for. Options that hold for every command may stand before its name or after
it; those after it win.
-/

namespace FieldBuffers.Command

/-- A command with its own options. -/
inductive Action where
  | print (file : String)
  /-- Reads a dump, and writes the buffer to a file or to the output. -/
  | extread (file : String) (output : Option String) (mode : ExportMode)
  | convert (file output : String) (mode : ExportMode)
  | eval (file expr : String) (kind : Expr.Kind)
  | fields (json : Bool)

structure Invocation where
  width : Width
  /-- Files with tables, in addition to those of the environment. -/
  tables : List String
  action : Action

/-- The options of every command. How much is logged, and how, has no bearing on the outcome. -/
def globalSwitches : List Switch :=
  [{ name := "verbose", letter := 'v', repeats := true },
    { name := "log-format", takesValue := true },
    { name := "tables", takesValue := true, repeats := true },
    { name := "narrow" }]

def switchesOf : String → Option (List Switch)
  | "print" => some []
  | "extread" =>
    some [{ name := "output", letter := 'o', takesValue := true }, { name := "text-safe" }]
  | "convert" =>
    some [{ name := "output", letter := 'o', takesValue := true },
      { name := "to", takesValue := true }]
  | "eval" =>
    some [{ name := "expr", letter := 'e', takesValue := true }, { name := "arith" }]
  | "fields" => some [{ name := "json" }]
  | _ => none

def logFormats : List String := ["json", "pretty", "compact"]

/-- The words of every command are well formed. -/
def globalsValid (ws : Words) : Bool :=
  withinLimits globalSwitches ws && (ws.values "log-format").all logFormats.contains
    && (ws.values "tables").all (!·.isEmpty)

/-- A path, which is not empty. -/
def path? (s : String) : Option String := if s.isEmpty then none else some s

/-- The one file that a command is about. -/
def file? : List String → Option String
  | [f] => path? f
  | _ => none

def mode? (s : String) : Option ExportMode := (ExportMode.ofName s).toOption

/-- What a command asks for. -/
def action? (command : String) (ws : Words) : Option Action := do
  match command with
  | "print" => return .print (← file? ws.plain)
  | "extread" =>
    let output ← (ws.value? "output").mapM path?
    return .extread (← file? ws.plain) output (if ws.has "text-safe" then .textSafe else .binary)
  | "convert" =>
    let output ← path? (← ws.value? "output")
    return .convert (← file? ws.plain) output (← mode? ((ws.value? "to").getD "binary"))
  | "eval" =>
    return .eval (← file? ws.plain) (← ws.value? "expr")
      (if ws.has "arith" then .formula else .predicate)
  | "fields" => if ws.plain.isEmpty then some (.fields (ws.has "json")) else none
  | _ => none

/-- What a command line asks for, if it is well formed. -/
def Invocation.ofArguments? (arguments : List String) : Option Invocation := do
  let (before, rest) ← readWords globalSwitches true none arguments
  let command :: rest := rest | none
  let own ← switchesOf command
  let (after, _) ← readWords (own ++ globalSwitches) false none rest
  if !(globalsValid before && globalsValid after && withinLimits own after) then none
  let tables := if after.has "tables" then after.values "tables" else before.values "tables"
  let narrow := before.has "narrow" || after.has "narrow"
  return { width := if narrow then .narrow else .wide, tables, action := ← action? command after }

end FieldBuffers.Command
