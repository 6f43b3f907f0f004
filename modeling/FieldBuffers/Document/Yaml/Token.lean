import FieldBuffers.Document.Yaml.Scalar
import FieldBuffers.Document.Yaml.Tag

/-!
Tokens of a document. Indentation becomes tokens that open and close blocks; the token of a key stands
before the key, though only the colon after it tells that it is one.
-/

namespace FieldBuffers.Yaml

inductive Token where
  | directive (d : Directive)
  | documentStart | documentEnd
  | listStart | mapStart | blockEnd
  | openList | openMap | closeList | closeMap
  | item | comma
  | key | value
  | reference (name : String)
  | anchor (name : String)
  | tag (t : Tag)
  | scalar (style : Style) (text : String)

/-- A place where a key may have started. -/
structure KeyStart where
  /-- How many tokens came before. -/
  number : Nat
  index : Nat
  line : Nat
  column : Nat
  /-- Whether nothing but a key may stand there. -/
  required : Bool

/-- How far the tokens of a document are read. Blocks have a level: one more than their column, and
zero outside all blocks. -/
structure Layout where
  place : Place
  tokens : Array Token := #[]
  level : Nat := 0
  /-- The levels of the blocks around. -/
  outerLevels : List Nat := []
  /-- Where a key may have started, within the innermost brackets. -/
  keyStart : Option KeyStart := none
  /-- The same for each pair of brackets around. -/
  outerKeyStarts : List (Option KeyStart) := []
  /-- Whether a key may start here. -/
  keyAllowed : Bool := true

namespace Layout

def inFlow (l : Layout) : Bool := !l.outerKeyStarts.isEmpty

def push (t : Token) (l : Layout) : Layout := { l with tokens := l.tokens.push t }

/-- Puts a token before those that came after the first `number`. -/
def insert (number : Nat) (t : Token) (l : Layout) : Layout :=
  { l with tokens := l.tokens.insertIdxIfInBounds number t }

/-- A token of `n` characters. -/
def mark (t : Token) (n : Nat) (l : Layout) : Layout :=
  { l.push t with place := l.place.skip n }

/-- Passes over blanks, comments and line breaks. Where a key may start, a tab is no blank. -/
def skipGap (fuel : Nat) (l : Layout) : Layout :=
  match fuel with
  | 0 => l
  | fuel + 1 =>
    let p := l.place
    let p := if p.column == 0 && p.rest.head? == some '\uFEFF' then p.skip 1 else p
    let tabs := l.inFlow || !l.keyAllowed
    let p := p.skipWhile fun c => c == ' ' || (tabs && c == '\t')
    let p := if p.rest.head? == some '#' then p.skipWhile fun _ => true else p
    if p.rest.head?.any isBreak then
      skipGap fuel { l with place := p.next, keyAllowed := l.keyAllowed || !l.inFlow }
    else { l with place := p }

/-- A key stands on one line and has at most 1024 characters. -/
def isStale (p : Place) (k : KeyStart) : Bool := k.line < p.line || k.index + 1024 < p.index

/-- Gives up keys that were not told to be keys in time. -/
def dropStale? (l : Layout) : Option Layout := do
  let fresh (k : Option KeyStart) : Option (Option KeyStart) :=
    match k with
    | none => some none
    | some k =>
      if !isStale l.place k then some (some k) else if k.required then none else some none
  return { l with keyStart := ← fresh l.keyStart, outerKeyStarts := ← l.outerKeyStarts.mapM fresh }

/-- Gives up the key that may have started within the innermost brackets. -/
def dropKey? (l : Layout) : Option Layout :=
  if l.keyStart.any (·.required) then none else some { l with keyStart := none }

/-- Takes a note that a key may start here. -/
def noteKey? (l : Layout) : Option Layout :=
  if l.keyAllowed then do
    let p := l.place
    let required := !l.inFlow && l.level == p.column + 1
    let l ← l.dropKey?
    return { l with keyStart := some ⟨l.tokens.size, p.index, p.line, p.column, required⟩ }
  else some l

/-- Opens a block in a column, unless one is open there. -/
def openBlock (column number : Nat) (t : Token) (l : Layout) : Layout :=
  if !l.inFlow && l.level ≤ column then
    { l.insert number t with level := column + 1, outerLevels := l.level :: l.outerLevels }
  else l

/-- Closes the blocks above a level, of which there are at most as many as are around. -/
def closeBlocks (level : Nat) (l : Layout) : Layout :=
  if l.inFlow then l else go l.outerLevels l
where
  go (outer : List Nat) (l : Layout) : Layout :=
    match outer with
    | [] => l
    | o :: outer =>
      if level < l.level then go outer { l.push .blockEnd with level := o, outerLevels := outer }
      else l

/-- The end of all blocks, at a mark of documents or the end of the text. -/
def closeAll? (l : Layout) : Option Layout := do
  let l ← (l.closeBlocks 0).dropKey?
  return { l with keyAllowed := false }

def openFlow? (t : Token) (l : Layout) : Option Layout := do
  let l ← l.noteKey?
  return { l.mark t 1 with
    keyStart := none, outerKeyStarts := l.keyStart :: l.outerKeyStarts, keyAllowed := true }

def closeFlow? (t : Token) (l : Layout) : Option Layout := do
  let l ← l.dropKey?
  let l := { l.mark t 1 with keyAllowed := false }
  return match l.outerKeyStarts with
    | [] => l
    | k :: outer => { l with keyStart := k, outerKeyStarts := outer }

/-- A mark of the block context: it may start a block. -/
def blockMark? (opening t : Token) (l : Layout) : Option Layout := do
  if !l.inFlow && !l.keyAllowed then none
  let l ← (l.openBlock l.place.column l.tokens.size opening).dropKey?
  return { l.mark t 1 with keyAllowed := t matches .item || !l.inFlow }

/-- The colon after a key. -/
def value? (l : Layout) : Option Layout :=
  match l.keyStart with
  | some k =>
    let l := (l.insert k.number .key).openBlock k.column k.number .mapStart
    some { l.mark .value 1 with keyStart := none, keyAllowed := false }
  | none =>
    if !l.inFlow && !l.keyAllowed then none
    else
      let l := l.openBlock l.place.column l.tokens.size .mapStart
      some { l.mark .value 1 with keyAllowed := !l.inFlow }

/-- A token that may be a key, or stand before one. -/
def node? (read : Place → Option (Token × Bool × Place)) (l : Layout) : Option Layout := do
  let l ← l.noteKey?
  let (t, keyAllowed, place) ← read l.place
  return { l.push t with place, keyAllowed }

/-- Whether a text without quotes may start here. -/
def startsPlain (flow : Bool) : List Char → Bool
  | [] => false
  | c :: rest =>
    if c == '-' then !rest.head?.any isBlank
    else if c == '?' || c == ':' then !flow && !atGap rest
    else !(",[]\x7b\x7d#&*!|>'\"%@\x60".toList.contains c) && !isBlank c && !isBreak c

def scalar (style : Style) (text : List Char) : Token := .scalar style (String.ofList text)

/-- The token that starts here; the end is not reached. -/
def token? (l : Layout) : Option Layout :=
  let p := l.place
  let fuel := p.rest.length + 1
  let ending := atGap (p.rest.drop 1)
  match p.rest with
  | [] => none
  | c :: _ =>
    if p.column == 0 && c == '%' then do
      let l ← l.closeAll?
      let (d, place) ← directive? p
      return { l.push (.directive d) with place }
    else if p.isMarker then do
      return (← l.closeAll?).mark (if c == '-' then .documentStart else .documentEnd) 3
    else match c with
    | '[' => l.openFlow? .openList
    | '{' => l.openFlow? .openMap
    | ']' => l.closeFlow? .closeList
    | '}' => l.closeFlow? .closeMap
    | ',' => do return { (← l.dropKey?).mark .comma 1 with keyAllowed := true }
    | '*' => l.node? fun p => (anchorName? (p.skip 1)).map fun (s, p) => (.reference s, false, p)
    | '&' => l.node? fun p => (anchorName? (p.skip 1)).map fun (s, p) => (.anchor s, false, p)
    | '!' => l.node? fun p => (tag? l.inFlow p).map fun (t, p) => (.tag t, false, p)
    | '\'' => l.node? fun p =>
      (quoted? false fuel [] (p.skip 1)).map fun (s, p) => (scalar .single s, false, p)
    | '"' => l.node? fun p =>
      (quoted? true fuel [] (p.skip 1)).map fun (s, p) => (scalar .double s, false, p)
    | _ =>
      if c == '-' && ending then l.blockMark? .listStart .item
      else if c == '?' && (l.inFlow || ending) then l.blockMark? .mapStart .key
      else if c == ':' && (l.inFlow || ending) then l.value?
      else if (c == '|' || c == '>') && !l.inFlow then do
        let l ← l.dropKey?
        let (s, place) ← block? (c == '>') l.level (p.skip 1)
        return { l.push (scalar (if c == '>' then .folded else .literal) s) with
          place, keyAllowed := true }
      else if startsPlain l.inFlow p.rest then
        l.node? fun p =>
          (plain? l.inFlow l.level fuel [] {} p).map fun (s, ended, p) => (scalar .plain s, ended, p)
      else none

/-- Reads tokens to the end. Each takes a character at the least. -/
def read? (fuel : Nat) (l : Layout) : Option Layout :=
  match fuel with
  | 0 => none
  | fuel + 1 => do
    let l ← (l.skipGap (l.place.rest.length + 1)).dropStale?
    let l := l.closeBlocks (l.place.column + 1)
    if l.place.rest.isEmpty then l.closeAll? else read? fuel (← l.token?)

end Layout

/-- The tokens of a text. -/
def tokens? (cs : List Char) : Option (List Token) :=
  if cs.all isAllowed then
    (Layout.read? (cs.length + 1) { place := ⟨cs, 0, 0, 0⟩ }).map (·.tokens.toList)
  else none

end FieldBuffers.Yaml
