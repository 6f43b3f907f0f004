/-!
The words of a command line: options, long or of one letter, with a value or without, and the words
between them. Two hyphens alone end the options.
-/

namespace FieldBuffers.Command

/-- An option that a command knows. -/
structure Switch where
  name : String
  letter : Option Char := none
  takesValue : Bool := false
  /-- Whether it may be given more than once. -/
  repeats : Bool := false
deriving DecidableEq

/-- An option that was given, with its value if it takes one. -/
structure Given where
  name : String
  value : String := ""
deriving DecidableEq

/-- What a command line holds. -/
structure Words where
  given : List Given := []
  plain : List String := []
deriving DecidableEq

namespace Words

def count (ws : Words) (name : String) : Nat := ws.given.countP (·.name == name)

def has (ws : Words) (name : String) : Bool := 0 < ws.count name

def values (ws : Words) (name : String) : List String :=
  (ws.given.filter (·.name == name)).map (·.value)

def value? (ws : Words) (name : String) : Option String := (ws.values name).head?

def addGiven (gs : List Given) (ws : Words) : Words := { ws with given := gs ++ ws.given }

def addPlain (w : String) (ws : Words) : Words := { ws with plain := w :: ws.plain }

end Words

/-- What one word says: options that are complete, and one that waits for its value. -/
structure Piece where
  given : List Given := []
  pending : Option Switch := none

/-- An option by its name, with a value after an equals sign or without. -/
def longPiece? (switches : List Switch) (body : List Char) : Option Piece := do
  let name := body.takeWhile (· != '=')
  let s ← switches.find? fun s => s.name.toList == name
  match body.drop name.length with
  | [] => if s.takesValue then some { pending := s } else some { given := [⟨s.name, ""⟩] }
  | _ :: value =>
    if s.takesValue then some { given := [⟨s.name, String.ofList value⟩] } else none

/-- Options of one letter, the last of which may have its value right after it. -/
def letterPiece? (switches : List Switch) : List Char → Option Piece
  | [] => some {}
  | c :: cs => do
    let s ← switches.find? fun s => s.letter == some c
    if s.takesValue then
      match cs with
      | [] => some { pending := s }
      | '=' :: value => some { given := [⟨s.name, String.ofList value⟩] }
      | value => some { given := [⟨s.name, String.ofList value⟩] }
    else
      let rest ← letterPiece? switches cs
      some { rest with given := ⟨s.name, ""⟩ :: rest.given }

/-- How a word is taken. -/
inductive Shape where
  | finish
  | options (p : Option Piece)
  | plain

def shape (switches : List Switch) (word : String) : Shape :=
  match word.toList with
  | ['-', '-'] => .finish
  | '-' :: '-' :: body => .options (longPiece? switches body)
  | '-' :: c :: cs => .options (letterPiece? switches (c :: cs))
  | _ => .plain

/-- Reads a command line, or its part before the first plain word where `halt` is set; what is not
read is given back. -/
def readWords (switches : List Switch) (halt : Bool) :
    Option Switch → List String → Option (Words × List String)
  | some _, [] => none
  | none, [] => some ({}, [])
  | some s, w :: ws =>
    match shape switches w with
    | .plain => (readWords switches halt none ws).map fun (r, rest) =>
      (r.addGiven [⟨s.name, w⟩], rest)
    | _ => none
  | none, w :: ws =>
    match shape switches w with
    | .finish => if halt then (if ws.isEmpty then some ({}, []) else none) else some ({ plain := ws }, [])
    | .options none => none
    | .options (some p) => (readWords switches halt p.pending ws).map fun (r, rest) =>
      (r.addGiven p.given, rest)
    | .plain =>
      if halt then some ({}, w :: ws)
      else (readWords switches halt none ws).map fun (r, rest) => (r.addPlain w, rest)

/-- No option is there more often than it may. -/
def withinLimits (switches : List Switch) (ws : Words) : Bool :=
  switches.all fun s => s.repeats || ws.count s.name ≤ 1

end FieldBuffers.Command
