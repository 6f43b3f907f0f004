import FieldBuffers.Document.Yaml.Place
import FieldBuffers.Text.Hexadecimal

/-!
Texts in a document: without quotes, in single or double quotes, and blocks of lines. Lines are
folded, so that one line break stands for a space and more of them for one less.
-/

namespace FieldBuffers.Yaml

inductive Style where
  | plain | single | double | literal | folded
  deriving DecidableEq

/-- What stands between the words of a text. -/
structure Gap where
  /-- The blanks before the first line break, last first. -/
  blanks : List Char := []
  /-- The line breaks, last first. -/
  breaks : List Char := []

namespace Gap

/-- What a gap is in a text that is folded. -/
def folded (g : Gap) : List Char :=
  match g.breaks.reverse with
  | [] => g.blanks.reverse
  | ['\n'] => [' ']
  | '\n' :: more => more
  | breaks => breaks

/-- The rest of a gap. On a later line no tab may stand in the first `indent` columns. -/
def read? (indent : Nat) (g : Gap) (p : Place) : Option (Gap × Place) :=
  match h : p.rest with
  | [] => some (g, p)
  | c :: _ =>
    have : p.next.rest.length < p.rest.length := Place.length_next_lt (by simp [h])
    if isBreak c then read? indent { g with breaks := breakText c :: g.breaks } p.next
    else if !isBlank c then some (g, p)
    else if g.breaks.isEmpty then read? indent { g with blanks := c :: g.blanks } p.next
    else if c == '\t' && p.column < indent then none
    else read? indent g p.next
termination_by p.rest.length

end Gap

/-- The brackets and commas that end a text without quotes inside brackets. -/
def isFlowMark (c : Char) : Bool := c == ',' || c == '[' || c == ']' || c == '{' || c == '}'

/-- A text without quotes up to a blank or what ends it. Inside brackets no colon may stand right
before one of their marks. -/
def run? (flow : Bool) : List Char → Option (List Char)
  | [] => some []
  | c :: rest =>
    if isBlank c || isBreak c then some []
    else if flow && c == ':' && rest.head?.any (fun d => isFlowMark d || d == '?') then none
    else if c == ':' && atGap rest then some []
    else if flow && isFlowMark c then some []
    else (run? flow rest).map (c :: ·)

/-- A text without quotes, whether its line ended with it, and what follows. Its later lines are
indented by `indent`. -/
def plain? (flow : Bool) (indent : Nat) (fuel : Nat) (done : List Char) (g : Gap) (p : Place) :
    Option (List Char × Bool × Place) :=
  match fuel with
  | 0 => none
  | fuel + 1 =>
    let stop := some (done, !g.breaks.isEmpty, p)
    if p.isMarker || p.rest.head? == some '#' then stop
    else do
      let chars ← run? flow p.rest
      if chars.isEmpty then stop
      else
        let done := done ++ g.folded ++ chars
        let q := p.skip chars.length
        let (g, next) ← Gap.read? indent {} q
        if next.index == q.index || (!flow && next.column < indent) then
          some (done, !g.breaks.isEmpty, next)
        else plain? flow indent fuel done g next

/-- A character that is given by some number of hexadecimal digits. -/
def numbered? (digits : Nat) (cs : List Char) : Option Char := do
  let ds := cs.take digits
  if ds.length = digits then Text.character? (← Text.hexNumber? ds) else none

/-- What stands after a backslash, and how many characters that takes. -/
def escape? : List Char → Option (Char × Nat)
  | [] => none
  | c :: rest =>
    match c with
    | '0' => some ('\x00', 1)
    | 'a' => some ('\x07', 1)
    | 'b' => some ('\x08', 1)
    | 't' => some ('\t', 1)
    | '\t' => some ('\t', 1)
    | 'n' => some ('\n', 1)
    | 'v' => some ('\x0b', 1)
    | 'f' => some ('\x0c', 1)
    | 'r' => some ('\r', 1)
    | 'e' => some ('\x1b', 1)
    | ' ' => some (' ', 1)
    | '"' => some ('"', 1)
    | '/' => some ('/', 1)
    | '\\' => some ('\\', 1)
    | 'N' => some ('\u0085', 1)
    | '_' => some ('\u00a0', 1)
    | 'L' => some ('\u2028', 1)
    | 'P' => some ('\u2029', 1)
    | 'x' => (numbered? 2 rest).map (·, 3)
    | 'u' => (numbered? 4 rest).map (·, 5)
    | 'U' => (numbered? 8 rest).map (·, 9)
    | _ => none

/-- A text in quotes after the first one; `done` holds what was read, last first. -/
def quoted? (double : Bool) (fuel : Nat) (done : List Char) (p : Place) :
    Option (List Char × Place) :=
  match fuel with
  | 0 => none
  | fuel + 1 =>
    let across (folded : Gap → List Char) (p : Place) : Option (List Char × Place) := do
      let (g, next) ← Gap.read? 0 {} p
      if next.isMarker then none
      else quoted? double fuel ((folded g).reverse ++ done) next
    match p.rest with
    | [] => none
    | c :: rest =>
      if isBlank c || isBreak c then across Gap.folded p
      else if !double && c == '\'' && rest.head? == some '\'' then
        quoted? double fuel ('\'' :: done) (p.skip 2)
      else if c == (if double then '"' else '\'') then some (done.reverse, p.skip 1)
      else if double && c == '\\' then
        if rest.head?.any isBreak then across (fun g => g.breaks.reverse.drop 1) (p.skip 1)
        else do
          let (e, n) ← escape? rest
          quoted? double fuel (e :: done) (p.skip (n + 1))
      else quoted? double fuel (c :: done) (p.skip 1)

/-- What becomes of the line breaks that end a block of lines. -/
inductive Chomping where
  | clip | strip | keep
  deriving DecidableEq

/-- How the line that starts a block of lines goes on: with marks for its last line breaks and its
indentation, in any order. -/
def blockMarks? (p : Place) : Option (Chomping × Option Nat × Place) :=
  let chomping (c : Option Char) : Option Chomping :=
    if c == some '+' then some .keep else if c == some '-' then some .strip else none
  let depth (c : Option Char) : Option Nat :=
    (c.filter Char.isDigit).map fun c => c.toNat - '0'.toNat
  let first := p.rest.head?
  let second := (p.rest.drop 1).head?
  let marks : Chomping × Option Nat × Nat :=
    match chomping first, depth first with
    | some k, _ => (k, depth second, if (depth second).isSome then 2 else 1)
    | none, some d => ((chomping second).getD .clip, some d, if (chomping second).isSome then 2 else 1)
    | none, none => (.clip, none, 0)
  let (k, d, n) := marks
  if d == some 0 then none else some (k, d, p.skip n)

/-- The line breaks before the next line of a block, last first, with the most columns that any of
the lines passed over has. Where the block's indentation is known, no more than that is passed over
on a line; no tab may stand in it. -/
def blockGap? (depth : Option Nat) (widest : Nat) (breaks : List Char) (p : Place) :
    Option (List Char × Nat × Place) :=
  match h : p.rest with
  | [] => some (breaks, max widest p.column, p)
  | c :: _ =>
    have : p.next.rest.length < p.rest.length := Place.length_next_lt (by simp [h])
    let inside := depth.all (p.column < ·)
    if inside && c == ' ' then blockGap? depth widest breaks p.next
    else if inside && c == '\t' then none
    else if isBreak c then
      blockGap? depth (max widest p.column) (breakText c :: breaks) p.next
    else some (breaks, max widest p.column, p)
termination_by p.rest.length

/-- What a block of lines ends with. -/
structure BlockTail where
  /-- The break of the last line with text; the file may end without one. -/
  last : Option Char := none
  /-- Whether that line starts with a blank. -/
  indented : Bool := false
  /-- The breaks after it, last first. -/
  more : List Char := []

/-- The lines of a block, each with what parts it from the one before. -/
def blockLines? (folds : Bool) (depth : Nat) (fuel : Nat) (done : List Char) (t : BlockTail)
    (p : Place) : Option (List Char × BlockTail × Place) :=
  match fuel with
  | 0 => none
  | fuel + 1 =>
    if p.column != depth || p.rest.isEmpty then some (done, t, p)
    else do
      let indented := p.rest.head?.any isBlank
      let parting :=
        if folds && t.last == some '\n' && !t.indented && !indented then
          if t.more.isEmpty then [' '] else []
        else t.last.toList
      let chars := p.rest.takeWhile fun c => !isBreak c
      let q := p.skip chars.length
      let (more, _, next) ← blockGap? (some depth) 0 [] q.next
      blockLines? folds depth fuel (done ++ parting ++ t.more.reverse ++ chars)
        ⟨q.rest.head?.map breakText, indented, more⟩ next

/-- A block of lines after its mark. Its indentation is counted from the block it stands in, which
has `level` columns at the least, or taken from its first line. -/
def block? (folds : Bool) (level : Nat) (p : Place) : Option (List Char × Place) := do
  let (chomping, depth, p) ← blockMarks? p
  let p ← p.endLine?
  let depth := depth.map (level - 1 + ·)
  let (breaks, widest, p) ← blockGap? depth 0 [] p
  let depth := depth.getD (max widest (max level 1))
  let (text, t, p) ← blockLines? folds depth (p.rest.length + 1) [] { more := breaks } p
  return match chomping with
    | .strip => (text, p)
    | .clip => (text ++ t.last.toList, p)
    | .keep => (text ++ t.last.toList ++ t.more.reverse, p)

end FieldBuffers.Yaml
