import FieldBuffers.Buffer.Read
import FieldBuffers.Buffer.Write
import FieldBuffers.Catalog.Basic
import FieldBuffers.Dump.Escape

/-!
Reading dumps. Each line is one edit of the buffer it belongs to: it adds an occurrence, or with a
flag in front sets the first one, erases the field, or says nothing. The lines of a nested buffer
follow the line of its field, one tab further in.
-/

namespace FieldBuffers.Dump

/-- A line that is not blank, with its number. -/
structure Line where
  number : Nat
  text : List Char

def Line.tabs (l : Line) : Nat := (l.text.takeWhile (· == '\t')).length

/-- The lines before the first blank one. -/
def linesFrom : Nat → List Bytes → Except Error (List Line)
  | _, [] => .ok []
  | number, bs :: rest =>
    match Bytes.toText? bs with
    | none => .error (.io "<stream>" Files.notText)
    | some s =>
      if (Text.trim s.toList).isEmpty then .ok []
      else (linesFrom (number + 1) rest).map (⟨number, s.toList⟩ :: ·)

/-- What a line does. -/
inductive Flag where
  | add | set | erase
  deriving DecidableEq, Repr

def splitFlag : List Char → Flag × List Char
  | '+' :: cs => (.add, cs)
  | '=' :: cs => (.set, cs)
  | '-' :: cs => (.erase, cs)
  | cs => (.add, cs)

/-- The name and the value of a line. -/
def splitLine (cs : List Char) : List Char × List Char :=
  (Text.splitOnce '\t' cs).getD (cs, [])

def unescaped (line : Nat) (cs : List Char) : Except Error Bytes :=
  (unescape (Bytes.ofText (String.ofList cs))).mapError fun column =>
    .textParse line s!"invalid escape at column {column}"

/-- A name and the bytes after it. -/
def named (line : Nat) (type : FieldType) (cs : List Char) : Except Error (String × Bytes) :=
  match Text.splitOnce ':' cs with
  | none => .error (.textParse line s!"{type.keyword} value must be '<name>:<data>'")
  | some (name, data) => do
    match Bytes.toText? (← unescaped line name) with
    | none => throw (.textParse line "name is not valid UTF-8")
    | some s => return (s, ← unescaped line data)

/-- What is left after dropping `0x` as often as it stands in front. -/
def dropHexMark : List Char → List Char
  | '0' :: 'x' :: cs => dropHexMark cs
  | cs => cs

/-- A number of 64 bits in base 16, with a plus sign in front or not. -/
def address? (cs : List Char) : Option Nat := do
  let cs := match cs with
    | '+' :: cs => cs
    | cs => cs
  let n ← Text.hexNumber? cs
  if cs.isEmpty || 2 ^ 64 ≤ n then none else some n

/-- The value that a line gives a field of some kind. -/
def value (line : Nat) (type : FieldType) (cs : List Char) : Except Error Value :=
  match type with
  | .short | .long | .int | .float | .double =>
    match Value.ofNumeral? type (Text.trim cs) with
    | some v => .ok v
    | none => .error (.textParse line s!"invalid {type.keyword} value '{String.ofList cs}'")
  | .char => do
    match ← unescaped line cs with
    | [b] => return .char b
    | _ => throw (.textParse line s!"char value must be one byte, got '{String.ofList cs}'")
  | .string => do
    match Bytes.toText? (← unescaped line cs) with
    | some s => return .string s
    | none => throw (.textParse line "string is not valid UTF-8")
  | .carray => (unescaped line cs).map .carray
  | .mbstring => (named line type cs).map fun (encoding, data) => .mbstring encoding data
  | .view => (named line type cs).map fun (name, data) => .view name data
  | .ptr =>
    match address? (dropHexMark (Text.trim cs)) with
    | some n => .ok (.ptr (UInt64.ofNat n) .borrowed)
    | none => .error (.textParse line s!"invalid pointer '{String.ofList cs}'")
  | .fml => .error (.textParse line "nested buffers take their fields on the following lines")

/-- A kind and a number in parentheses. -/
def reference? (cs : List Char) : Option (List Char) :=
  match cs with
  | '(' :: rest => if rest.getLast? = some ')' then some rest.dropLast else none
  | _ => none

def referred (w : Width) (line : Nat) (name inner : List Char) : Except Error (FieldId w) :=
  let parts := do
    let (keyword, number) ← Text.splitOnce ':' inner
    let type ← FieldType.ofKeyword? (String.ofList keyword)
    let number ← FieldTable.natural? number
    return (type, number)
  match parts with
  | none => .error (.textParse line s!"invalid field reference '{String.ofList name}'")
  | some (type, number) => FieldId.new w type number

/-- What reading changes: a buffer in its arena, and the catalogs, which may be loaded. -/
structure Progress (w : Width) where
  place : Place w
  catalogs : Catalogs

abbrev Reading (w : Width) := EStateM Error (Progress w)

variable {w : Width} {α : Type}

namespace Reading

def edit (e : Edit w α) : Reading w α := fun p =>
  match e p.place with
  | .ok a place => .ok a { p with place }
  | .error e place => .error e { p with place }

def resolve (r : Resolving w α) : Reading w α := fun p =>
  match r (p.catalogs.get w) with
  | .ok a c => .ok a { p with catalogs := p.catalogs.set w c }
  | .error e c => .error e { p with catalogs := p.catalogs.set w c }

/-- Reads into a new buffer, which stays outside the arena. -/
def nested {β : Type} (config : ArenaConfig) (r : Reading .wide β) :
    Reading w (β × Buffer .wide) := fun p =>
  match r ⟨⟨{ config }, .null⟩, p.catalogs⟩ with
  | .ok b q => .ok (b, q.place.buffer) { p with catalogs := q.catalogs }
  | .error e q => .error e { p with catalogs := q.catalogs }

/-- What a resolution finds, if it does not fail. -/
def attempt (r : Resolving w α) : Reading w (Option α) := fun p =>
  match r (p.catalogs.get w) with
  | .ok a c => .ok (some a) { p with catalogs := p.catalogs.set w c }
  | .error _ c => .ok none { p with catalogs := p.catalogs.set w c }

end Reading

def field (files : Files) (line : Nat) (name : List Char) : Reading w (FieldId w) :=
  match reference? name with
  | some inner => Reading.edit (Edit.ofExcept (referred w line name inner))
  | none => Reading.resolve (Catalog.identFor files (String.ofList name))

/-- The first occurrence of the field that a value names, if it names one. -/
def copied (config : ArenaConfig) (files : Files) (cs : List Char) :
    Reading w (Option Value) := do
  let name := String.ofList (Text.trim cs)
  match ← Reading.attempt (Catalog.identFor files name) with
  | none => return none
  | some source =>
    match ← Reading.edit (Edit.ofExcept ((← get).place.buffer.value? config source 0)) with
    | some v => return some v
    | none => throw (.notPresent (.named name) 0)

/-- A value put where the flag says. -/
def store (flag : Flag) (f : FieldId w) (v : Value) : Reading w Unit :=
  Reading.edit <| match flag with
    | .set => Edit.set f 0 v
    | _ => Edit.add f v

/-- The lines of one buffer, up to the first that stands further out; what is left is given
back. -/
def readLevel (config : ArenaConfig) (files : Files) (w : Width) (depth : Nat)
    (lines : List Line) : Reading w { rest : List Line // rest.length ≤ lines.length } :=
  match lines with
  | [] => return ⟨[], Nat.le_refl _⟩
  | line :: rest =>
    if line.tabs < depth then return ⟨line :: rest, Nat.le_refl _⟩
    else if depth < line.tabs then throw (.textParse line.number "unexpected indentation")
    else do
      let content := line.text.drop depth
      let left : { r : List Line // r.length ≤ rest.length } ←
        if content.head? = some '#' then pure ⟨rest, Nat.le_refl _⟩
        else do
          let (flag, content) := splitFlag content
          let (name, raw) := splitLine content
          let f ← field files line.number (Text.trim name)
          if flag = .erase then
            if !(← get).place.buffer.isNull then
              let _ ← Reading.edit (Edit.eraseAll f)
            pure ⟨rest, Nat.le_refl _⟩
          else if f.type = .fml then do
            if maxNesting ≤ depth then
              throw (.textParse line.number s!"buffers nested more than {maxNesting} levels deep")
            let (left, b) ← Reading.nested config (readLevel config files .wide (depth + 1) rest)
            store flag f (.fml b)
            pure left
          else do
            let copy ← if flag = .set then copied config files raw else pure none
            let v ←
              match copy with
              | some v => pure v
              | none => Reading.edit (Edit.ofExcept (value line.number f.type raw))
            store flag f v
            pure ⟨rest, Nat.le_refl _⟩
      have hl : left.1.length ≤ rest.length := left.2
      let ⟨last, h⟩ ← readLevel config files w depth left.1
      return ⟨last, by simp only [List.length_cons]; omega⟩
termination_by lines.length
decreasing_by
  all_goals simp only [List.length_cons]
  all_goals omega

/-- Applies the lines of a dump up to the first blank one. They are applied to a copy, which takes
the buffer's place when all of them could be. -/
def read (config : ArenaConfig) (files : Files) (dump : Bytes) : Reading w Unit := fun p =>
  match linesFrom 1 (Text.linesBy 0x0A 0x0D dump) with
  | .error e => .error e p
  | .ok lines =>
    match p.place.buffer.snapshot p.place.arena with
    | .error e => .error e p
    | .ok (copy, arena) =>
      match readLevel config files w 0 lines ⟨⟨arena, copy⟩, p.catalogs⟩ with
      | .error e q =>
        let arena := match q.place.buffer with
          | .null => q.place.arena
          | .allocated s => q.place.arena.release s.handle
        .error e ⟨⟨arena, p.place.buffer⟩, q.catalogs⟩
      | .ok _ q =>
        let arena := match p.place.buffer with
          | .null => q.place.arena
          | .allocated s => q.place.arena.release s.handle
        .ok () ⟨⟨arena, q.place.buffer⟩, q.catalogs⟩

end FieldBuffers.Dump
