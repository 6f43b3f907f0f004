import FieldBuffers.Document.Json
import FieldBuffers.Document.Yaml.Node

/-!
Field tables in documents whose structure is given by indentation. A word without quotes may be a
number or stand for nothing, and is a text as well; a tag may say which of them it is, or name a kind.
-/

namespace FieldBuffers.Yaml

/-- Whole numbers may have a plus sign and may be written in base 16, 8 or 2 after a mark. Digits
after a zero in front make no number. -/
def natural? (s : String) : Option Nat :=
  let cs := match s.toList with
    | '+' :: cs => cs
    | cs => cs
  match cs with
  | '0' :: 'x' :: ds => based 16 ds
  | '0' :: 'o' :: ds => based 8 ds
  | '0' :: 'b' :: ds => based 2 ds
  | '0' :: _ :: _ => none
  | _ => Decimal.natural? cs
where
  based (b : Nat) (ds : List Char) : Option Nat := do
    let ds ← ds.mapM Text.hexValue?
    if ds.isEmpty || ds.any (b ≤ ·) then none else some (ds.foldl (b * · + ·) 0)

/-- The words for nothing. -/
def isNull (s : String) : Bool := ["~", "null", "Null", "NULL"].contains s

def nullTag : Bytes := Bytes.ofText "tag:yaml.org,2002:null"

def intTag : Bytes := Bytes.ofText "tag:yaml.org,2002:int"

/-- A tag of the document's own names a choice. -/
def choice? : Bytes → Option String
  | [] => none
  | b :: name => if b == '!'.toUInt8 then Bytes.toText? name else none

/-- The nodes of a document that aliases stand for, the latest first. -/
abbrev Named := List (Nat × Node)

namespace Named

/-- What an alias stands for: the latest node of its number. -/
def follow (named : Named) (n : Node) : Node :=
  match n with
  | .reference i => ((named.find? (·.1 == i)).map (·.2)).getD n
  | _ => n

def text? (named : Named) (n : Node) : Option String :=
  match named.follow n with
  | .scalar _ _ _ s => some s
  | _ => none

/-- A number has no quotes; in a block of lines it takes a tag. -/
def natural? (named : Named) (n : Node) : Option Nat :=
  match named.follow n with
  | .scalar _ tag style s =>
    if style = .plain || (style = .literal && tag == some intTag) then Yaml.natural? s else none
  | _ => none

def optionalText? (named : Named) (n : Node) : Option (Option String) :=
  match named.follow n with
  | .scalar _ tag .plain s =>
    match tag with
    | none => some (if s.isEmpty || isNull s then none else some s)
    | some t => if t != nullTag then some (some s) else if isNull s then some none else none
  | .scalar _ _ _ s => some (some s)
  | _ => none

/-- A kind by its name, or by its name as the tag of nothing. -/
def type? (named : Named) (n : Node) : Option FieldType :=
  match named.follow n with
  | .scalar _ tag style s =>
    match tag.bind choice? with
    | none => FieldType.ofExactKeyword? s
    | some name =>
      if style = .plain && (s.isEmpty || isNull s) then FieldType.ofExactKeyword? name else none
  | _ => none

/-- The items of a list; nothing is a list of none. -/
def items? (named : Named) (n : Node) : Option (List Node) :=
  match named.follow n with
  | .list _ xs => some xs
  | .scalar _ _ .plain s => if s.isEmpty then some [] else none
  | _ => none

def members? (named : Named) (names : List String) (n : Node) : Option (List (Option Node)) :=
  match named.follow n with
  | .map _ pairs => do
    Form.pick names (← pairs.mapM fun (k, v) => (named.text? k).map fun s => (s, v))
  | _ => none

def form (named : Named) : Form Node where
  text? := named.text?
  natural? := named.natural?
  optionalText? := named.optionalText?
  type? := named.type?
  items? := named.items?
  members? := named.members?

/-- How often an alias is followed to read the named members of a map. -/
def follows (named : Named) (names : List String) (n : Node) : Nat :=
  match named.follow n with
  | .map _ pairs =>
    pairs.countP (fun (k, _) => k matches .reference _)
      + pairs.countP (fun (k, v) => v matches .reference _ && (named.text? k).any names.contains)
  | _ => 0

/-- How often an alias is followed to read a table. -/
def followsOfTable (named : Named) (root : Node) : Nat :=
  let items :=
    match named.members? ["fields"] root with
    | some [some fields] => (named.items? fields).getD []
    | _ => []
  named.follows ["base", "fields"] root + items.countP (· matches .reference _)
    + (items.map (named.follows ["name", "number", "type", "comment"])).sum

end Named

/-- The table of a document. Its aliases are followed at most a hundred times for each of its
signs. -/
def table? (s : String) : Option FieldTable := do
  let root ← Node.ofText? s
  let named : Named := root.numbered.reverse
  if 100 * root.signs < named.followsOfTable root then none
  else named.form.table? root

end FieldBuffers.Yaml
