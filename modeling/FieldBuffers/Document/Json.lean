import FieldBuffers.Document.Form
import FieldBuffers.Text.Hexadecimal

/-!
Documents in JavaScript Object Notation: reading them, and writing field tables compactly or spread
over lines.
-/

namespace FieldBuffers.Json

inductive Node where
  /-- A number, or one of the words for truth, falsehood and nothing. -/
  | word (s : String)
  /-- A text; none where it holds half of a character. -/
  | quoted (s : Option String)
  | list (xs : List Node)
  | map (kvs : List (Node × Node))

def isSpace (c : Char) : Bool := c == ' ' || c == '\t' || c == '\n' || c == '\r'

def skip (cs : List Char) : List Char := cs.dropWhile isSpace

/-- The number that four hexadecimal digits give. -/
def unit? (cs : List Char) : Option (Nat × List Char) :=
  let ds := cs.take 4
  if ds.length = 4 then (Text.hexNumber? ds).map (·, cs.drop 4) else none

def simpleEscape? : Char → Option Char
  | '"' => some '"'
  | '\\' => some '\\'
  | '/' => some '/'
  | 'b' => some '\x08'
  | 'f' => some '\x0c'
  | 'n' => some '\n'
  | 'r' => some '\r'
  | 't' => some '\t'
  | _ => none

/-- The units of a text up to its closing quote, and what follows. A unit above `0xD800` that is
half of a character stands for itself. -/
def units (fuel : Nat) (done : List Nat) (cs : List Char) : Option (List Nat × List Char) :=
  match fuel with
  | 0 => none
  | fuel + 1 =>
    match cs with
    | [] => none
    | '"' :: rest => some (done.reverse, rest)
    | '\\' :: 'u' :: rest => do
      let (u, rest) ← unit? rest
      units fuel (u :: done) rest
    | '\\' :: c :: rest => do
      let e ← simpleEscape? c
      units fuel (e.toNat :: done) rest
    | c :: rest => if c.toNat < 0x20 then none else units fuel (c.toNat :: done) rest

/-- Characters from units, where the halves of a character stand together. -/
def join? : List Nat → Option (List Char)
  | [] => some []
  | u :: rest =>
    if 0xD800 ≤ u ∧ u < 0xDC00 then
      match rest with
      | v :: rest =>
        if 0xDC00 ≤ v ∧ v < 0xE000 then
          (join? rest).map (Char.ofNat (0x10000 + (u - 0xD800) * 0x400 + (v - 0xDC00)) :: ·)
        else none
      | [] => none
    else if 0xDC00 ≤ u ∧ u < 0xE000 then none
    else (join? rest).map (Char.ofNat u :: ·)

/-- A text after its opening quote. -/
def text? (cs : List Char) : Option (Option String × List Char) :=
  (units (cs.length + 1) [] cs).map fun (us, rest) => ((join? us).map String.ofList, rest)

/-- The digits of a number's fraction or exponent: at least one. -/
def someDigits? (cs : List Char) : Option (List Char × List Char) :=
  let ds := cs.takeWhile Char.isDigit
  if ds.isEmpty then none else some (ds, cs.dropWhile Char.isDigit)

/-- The characters of a number, which has no zeros in front. -/
def number? (cs : List Char) : Option (List Char × List Char) := do
  let (sign, cs) :=
    match cs with
    | '-' :: rest => (['-'], rest)
    | _ => ([], cs)
  let (whole, cs) ← someDigits? cs
  if 1 < whole.length && whole.head? == some '0' then none
  let (fraction, cs) ←
    match cs with
    | '.' :: rest => (someDigits? rest).map fun (ds, rest) => ('.' :: ds, rest)
    | _ => some ([], cs)
  let (exponent, cs) ←
    match cs with
    | c :: rest =>
      if c == 'e' || c == 'E' then
        let (sign, rest) :=
          match rest with
          | '+' :: more => (['+'], more)
          | '-' :: more => (['-'], more)
          | _ => ([], rest)
        (someDigits? rest).map fun (ds, rest) => (c :: sign ++ ds, rest)
      else some ([], cs)
    | [] => some ([], cs)
  return (sign ++ whole ++ fraction ++ exponent, cs)

mutual

/-- A value, and what follows it. -/
def value? (fuel : Nat) (cs : List Char) : Option (Node × List Char) :=
  match fuel with
  | 0 => none
  | fuel + 1 =>
    match skip cs with
    | '"' :: rest => (text? rest).map fun (s, rest) => (.quoted s, rest)
    | '[' :: rest =>
      match skip rest with
      | ']' :: rest => some (.list [], rest)
      | rest => items? fuel [] rest
    | '{' :: rest =>
      match skip rest with
      | '}' :: rest => some (.map [], rest)
      | rest => members? fuel [] rest
    | 'n' :: 'u' :: 'l' :: 'l' :: rest => some (.word "null", rest)
    | 't' :: 'r' :: 'u' :: 'e' :: rest => some (.word "true", rest)
    | 'f' :: 'a' :: 'l' :: 's' :: 'e' :: rest => some (.word "false", rest)
    | cs => (number? cs).map fun (ds, rest) => (.word (String.ofList ds), rest)

/-- The rest of a list, from one of its items on. -/
def items? (fuel : Nat) (done : List Node) (cs : List Char) : Option (Node × List Char) :=
  match fuel with
  | 0 => none
  | fuel + 1 => do
    let (x, rest) ← value? fuel cs
    match skip rest with
    | ',' :: rest => items? fuel (x :: done) rest
    | ']' :: rest => some (.list (x :: done).reverse, rest)
    | _ => none

/-- The rest of a map, from one of its keys on. -/
def members? (fuel : Nat) (done : List (Node × Node)) (cs : List Char) :
    Option (Node × List Char) :=
  match fuel with
  | 0 => none
  | fuel + 1 => do
    let ('"' :: rest) := skip cs | none
    let (k, rest) ← text? rest
    let (':' :: rest) := skip rest | none
    let (v, rest) ← value? fuel rest
    match skip rest with
    | ',' :: rest => members? fuel ((.quoted k, v) :: done) rest
    | '}' :: rest => some (.map ((.quoted k, v) :: done).reverse, rest)
    | _ => none

end

/-- A document of one value. Each call of a reader takes a character or passes to a smaller reader
at the same place, so twice the length is fuel enough. -/
def parse? (s : String) : Option Node := do
  let cs := s.toList
  let (n, rest) ← value? (2 * cs.length + 2) cs
  if (skip rest).isEmpty then some n else none

namespace Node

def text? : Node → Option String
  | quoted s => s
  | _ => none

def natural? : Node → Option Nat
  | word s => Decimal.natural? s.toList
  | _ => none

def optionalText? : Node → Option (Option String)
  | word s => if s == "null" then some none else none
  | n => n.text?.map some

/-- A kind by its name, or by a map from its name to nothing. -/
def type? : Node → Option FieldType
  | map [(k, word s)] => if s == "null" then k.text?.bind FieldType.ofExactKeyword? else none
  | n => n.text?.bind FieldType.ofExactKeyword?

def items? : Node → Option (List Node)
  | list xs => some xs
  | _ => none

/-- A list gives the values by position. -/
def members? (names : List String) : Node → Option (List (Option Node))
  | map kvs => do Form.pick names (← kvs.mapM fun (k, v) => k.text?.map fun s => (s, v))
  | list xs =>
    if xs.length ≤ names.length then
      some (xs.map some ++ List.replicate (names.length - xs.length) none)
    else none
  | _ => none

end Node

def form : Form Node where
  text? := Node.text?
  natural? := Node.natural?
  optionalText? := Node.optionalText?
  type? := Node.type?
  items? := Node.items?
  members? := Node.members?

def table? (s : String) : Option FieldTable := (parse? s).bind form.table?

/-- A character as it stands between quotes. -/
def escape (c : Char) : List Char :=
  if c == '"' then ['\\', '"']
  else if c == '\\' then ['\\', '\\']
  else if c == '\x08' then ['\\', 'b']
  else if c == '\x0c' then ['\\', 'f']
  else if c == '\n' then ['\\', 'n']
  else if c == '\r' then ['\\', 'r']
  else if c == '\t' then ['\\', 't']
  else if c.toNat < 0x20 then
    let ds := Nat.toDigits 16 c.toNat
    ['\\', 'u'] ++ List.replicate (4 - ds.length) '0' ++ ds
  else [c]

def quote (s : String) : String := String.ofList ('"' :: s.toList.flatMap escape ++ ['"'])

def renderField (d : FieldDef) : String :=
  let comment :=
    match d.comment with
    | none => ""
    | some c => s!",\"comment\":{quote c}"
  s!"\x7b\"name\":{quote d.name},\"number\":{d.number},\"type\":{quote d.type.keyword}{comment}\x7d"

/-- A table on one line. -/
def renderTable (t : FieldTable) : String :=
  let fields := ",".intercalate (t.fields.map renderField)
  s!"\x7b\"base\":{t.base},\"fields\":[{fields}]\x7d"

end FieldBuffers.Json
