/-!
Places in a document whose structure is given by lines and columns. Main statement:
`length_next_lt`, a reader that goes on to the next place comes to an end.
-/

namespace FieldBuffers.Yaml

/-- The characters a document may hold anywhere. -/
def isAllowed (c : Char) : Bool :=
  let n := c.toNat
  n == 9 || n == 10 || n == 13 || (0x20 ≤ n && n ≤ 0x7E) || n == 0x85 || (0xA0 ≤ n && n ≤ 0xFFFD)
    || 0x10000 ≤ n

def isBlank (c : Char) : Bool := c == ' ' || c == '\t'

def isBreak (c : Char) : Bool :=
  c == '\n' || c == '\r' || c == '\u0085' || c == '\u2028' || c == '\u2029'

/-- What a line break is in a text. -/
def breakText (c : Char) : Char := if c == '\u2028' || c == '\u2029' then c else '\n'

/-- Whether a line break or the end comes next. -/
def atLineEnd : List Char → Bool
  | [] => true
  | c :: _ => isBreak c

/-- Whether a blank, a line break or the end comes next. -/
def atGap : List Char → Bool
  | [] => true
  | c :: _ => isBlank c || isBreak c

/-- What is left of a document, and how much of it, and of its line, came before. -/
structure Place where
  rest : List Char
  index : Nat := 0
  line : Nat := 0
  column : Nat := 0

namespace Place

/-- Passes over `n` characters that are no line breaks. -/
def skip (n : Nat) (p : Place) : Place :=
  { p with rest := p.rest.drop n, index := p.index + n, column := p.column + n }

/-- Passes over characters of one line while they satisfy `f`. -/
def skipWhile (f : Char → Bool) (p : Place) : Place :=
  p.skip (p.rest.takeWhile fun c => f c && !isBreak c).length

/-- Passes over a character or a line break. -/
def next (p : Place) : Place :=
  match p.rest with
  | [] => p
  | '\r' :: '\n' :: rest => ⟨rest, p.index + 2, p.line + 1, 0⟩
  | c :: rest =>
    if isBreak c then ⟨rest, p.index + 1, p.line + 1, 0⟩
    else ⟨rest, p.index + 1, p.line, p.column + 1⟩

theorem length_next_lt {p : Place} (h : p.rest ≠ []) : p.next.rest.length < p.rest.length := by
  unfold next
  split
  · contradiction
  · next h' =>
    simp only [h', List.length_cons]
    omega
  · next h' => split <;> simp only [h', List.length_cons, Nat.lt_succ_self]

/-- Passes over blanks and a comment to the end of the line, and over its break. Nothing else may
stand there. -/
def endLine? (p : Place) : Option Place :=
  let p := p.skipWhile isBlank
  let p := if p.rest.head? == some '#' then p.skipWhile fun _ => true else p
  if atLineEnd p.rest then some p.next else none

/-- Whether a line starts here that starts or ends a document. -/
def isMarker (p : Place) : Bool :=
  p.column == 0 &&
    match p.rest with
    | '-' :: '-' :: '-' :: rest => atGap rest
    | '.' :: '.' :: '.' :: rest => atGap rest
    | _ => false

end Place

end FieldBuffers.Yaml
