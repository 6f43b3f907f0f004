import FieldBuffers.Bytes
import FieldBuffers.Document.Yaml.Place
import FieldBuffers.Text.Hexadecimal

/-!
The names and tags that nodes may carry, and the directives in front of a document. A tag is a handle
and a suffix; a directive says what a handle stands for.
-/

namespace FieldBuffers.Yaml

def isNameChar (c : Char) : Bool := c.isAlphanum || c == '_' || c == '-'

structure Tag where
  handle : String
  suffix : Bytes

/-- A name of a node after its mark. -/
def anchorName? (p : Place) : Option (String × Place) :=
  let name := p.rest.takeWhile isNameChar
  let p := p.skip name.length
  let ends := atGap p.rest || p.rest.head?.any "?:,]\x7d%@\x60".toList.contains
  if !name.isEmpty && ends then some (String.ofList name, p) else none

/-- The character that leads a byte, by how many bytes it has. -/
def byteCount? (b : Nat) : Option Nat :=
  if b < 0x80 then some 1
  else if 0xC0 ≤ b && b < 0xE0 then some 2
  else if 0xE0 ≤ b && b < 0xF0 then some 3
  else if 0xF0 ≤ b && b < 0xF8 then some 4
  else none

/-- A byte that is given by a percent sign and two digits. -/
def percent? : List Char → Option (Nat × List Char)
  | '%' :: a :: b :: rest => (Text.hexNumber? [a, b]).map (·, rest)
  | _ => none

/-- As many more bytes of one character, each given by its number. -/
def percents? : Nat → List Char → Option (Bytes × List Char)
  | 0, cs => some ([], cs)
  | n + 1, cs => do
    let (b, cs) ← percent? cs
    if b < 0x80 || 0xC0 ≤ b then none
    let (bs, cs) ← percents? n cs
    return (UInt8.ofNat b :: bs, cs)

/-- Whether a character may stand in a tag; brackets and commas only where it is `wide`. -/
def isTagChar (wide : Bool) (c : Char) : Bool :=
  isNameChar c || ";/?:@&=+$.%!~*'()".toList.contains c
    || (wide && (c == ',' || c == '[' || c == ']'))

/-- The bytes of a tag, and what follows. -/
def tagBytes? (wide : Bool) (fuel : Nat) (done : Bytes) (cs : List Char) :
    Option (Bytes × List Char) :=
  match fuel with
  | 0 => none
  | fuel + 1 =>
    match cs with
    | '%' :: _ => do
      let (b, rest) ← percent? cs
      let n ← byteCount? b
      let (bs, rest) ← percents? (n - 1) rest
      tagBytes? wide fuel (bs.reverse ++ UInt8.ofNat b :: done) rest
    | c :: rest =>
      if isTagChar wide c then
        tagBytes? wide fuel ((Bytes.ofText (String.singleton c)).reverse ++ done) rest
      else some (done.reverse, cs)
    | [] => some (done.reverse, [])

/-- What a tag's characters write, after what stands before them; a zero byte ends it. -/
def tagText? (wide : Bool) (before : List Char) (p : Place) : Option (Bytes × Place) :=
  (tagBytes? wide (p.rest.length + 1) [] p.rest).map fun (bs, rest) =>
    ((Bytes.ofText (String.ofList before) ++ bs).takeWhile (· != 0),
      p.skip (p.rest.length - rest.length))

/-- What at least one character of a tag writes. -/
def someTagText? (wide : Bool) (p : Place) : Option (Bytes × Place) :=
  (tagText? wide [] p).filter fun (_, q) => p.index < q.index

/-- An exclamation mark, the name after it, and the mark that may close it. -/
def handle? (p : Place) : Option (List Char × Place) :=
  match p.rest with
  | '!' :: rest =>
    let name := rest.takeWhile isNameChar
    let close := (rest.drop name.length).head? == some '!'
    let handle := '!' :: name ++ if close then ['!'] else []
    some (handle, p.skip handle.length)
  | _ => none

/-- Whether a handle is one, and no start of a tag. -/
def isHandle (handle : List Char) : Bool := 1 < handle.length && handle.getLast? == some '!'

/-- A tag. One between angle brackets stands for itself, and so does a lone exclamation mark. -/
def tag? (flow : Bool) (p : Place) : Option (Tag × Place) := do
  let (tag, p) ←
    match p.rest with
    | '!' :: '<' :: _ => do
      let (suffix, p) ← someTagText? true (p.skip 2)
      if p.rest.head? == some '>' then some (⟨"", suffix⟩, p.skip 1) else none
    | _ => do
      let (handle, p) ← handle? p
      if isHandle handle then do
        let (suffix, p) ← someTagText? false p
        some (⟨String.ofList handle, suffix⟩, p)
      else do
        let (suffix, p) ← tagText? false (handle.drop 1) p
        some (if suffix.isEmpty then ⟨"", Bytes.ofText "!"⟩ else ⟨"!", suffix⟩, p)
  if atGap p.rest || (flow && p.rest.head? == some ',') then some (tag, p) else none

inductive Directive where
  | version (major minor : Nat)
  | handle (handle : String) (stands : Bytes)

/-- A number of at most nine digits. -/
def versionNumber? (p : Place) : Option (Nat × Place) :=
  let ds := p.rest.takeWhile Char.isDigit
  if ds.isEmpty || 9 < ds.length then none
  else some (ds.foldl (fun n d => 10 * n + (d.toNat - '0'.toNat)) 0, p.skip ds.length)

/-- A directive from its percent sign to the end of its line. -/
def directive? (p : Place) : Option (Directive × Place) := do
  let p := p.skip 1
  let name := p.rest.takeWhile isNameChar
  let p := p.skip name.length
  if !atGap p.rest then none
  let p := p.skipWhile isBlank
  match String.ofList name with
  | "YAML" => do
    let (major, p) ← versionNumber? p
    if p.rest.head? != some '.' then none
    let (minor, p) ← versionNumber? (p.skip 1)
    return (.version major minor, ← p.endLine?)
  | "TAG" => do
    let (handle, p) ← handle? p
    if !isHandle handle && handle != ['!'] then none
    if !p.rest.head?.any isBlank then none
    let (stands, p) ← someTagText? true (p.skipWhile isBlank)
    if !atGap p.rest then none
    return (.handle (String.ofList handle) stands, ← p.endLine?)
  | _ => none

end FieldBuffers.Yaml
