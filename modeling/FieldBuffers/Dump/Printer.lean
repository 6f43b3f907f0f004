import FieldBuffers.Buffer.Read
import FieldBuffers.Catalog.Basic
import FieldBuffers.Dump.Escape

/-!
Dumps: a line for each occurrence, with the field's name, a tab and the value, and an empty line
after the last. A nested buffer has a line without a value, and its own lines after it, each one
tab further in.
-/

namespace FieldBuffers.Dump

def escaped (bs : Bytes) : String :=
  String.ofList ((escape bs).map fun b => Char.ofNat b.toNat)

/-- A value as it stands after the tab. -/
def valueText : Value → String
  | .char b => escaped [b]
  | .string s => escaped (Bytes.ofText s)
  | .carray data => escaped data
  | .mbstring name data | .view name data =>
    escaped (Bytes.ofText name) ++ ":" ++ escaped data
  | v => v.display

def lineText (depth : Nat) (label text : String) : String :=
  String.ofList (List.replicate depth '\t') ++ label ++ "\t" ++ text ++ "\n"

/-- How identifiers are told in a dump: by name where the catalog has one. -/
abbrev Labels := (w : Width) → FieldId w → String

/-- The lines of some entries. Buffers nest no deeper than `levels`. -/
def entryLines (c : ArenaConfig) (labels : Labels) (levels : Nat) {w : Width} (depth : Nat)
    (b : Buffer w) : String :=
  String.join <| (b.toList c).map fun (f, _, v) =>
    match v with
    | .fml nested =>
      lineText depth (labels w f) "" ++
        match levels with
        | 0 => ""
        | levels + 1 => entryLines c labels levels (depth + 1) nested
    | v => lineText depth (labels w f) (valueText v)

/-- Asks the catalog for the identifier's name, which may load it. -/
def loaded (files : Files) (cs : Catalogs) (w : Width) : Catalogs :=
  match Catalog.table files (cs.get w) with
  | .ok _ c | .error _ c => cs.set w c

/-- The families whose fields a dump tells of. -/
def families (c : ArenaConfig) {w : Width} (b : Buffer w) : List Width :=
  let own := if b.entries.isEmpty then [] else [w]
  let nested := (b.toList c).any fun
    | (_, _, .fml n) => !n.entries.isEmpty
    | _ => false
  own ++ if nested then [.wide] else []

/-- The dump of a buffer. Catalogs whose fields it tells of are loaded for it. -/
def text (c : ArenaConfig) (files : Files) (cs : Catalogs) {w : Width} (b : Buffer w) :
    Except Error String × Catalogs :=
  match b.require "print" with
  | .error e => (.error e, cs)
  | .ok _ =>
    let cs := (families c b).foldl (loaded files) cs
    let labels : Labels := fun w f => ((cs.get w).cachedName f).getD f.label
    (.ok (entryLines c labels maxNesting 0 b ++ "\n"), cs)

end FieldBuffers.Dump
