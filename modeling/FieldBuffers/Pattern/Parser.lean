import FieldBuffers.Pattern.Cursor
import FieldBuffers.Pattern.Room

/-!
The written form of patterns. A pattern is refused when it is malformed, when it nests too deep, or
when it takes too much room.
-/

namespace FieldBuffers.Pattern

/-- A part of a pattern with the depth it nests to. -/
structure Piece where
  term : Term
  height : Nat := 0
  /-- Sets flags and matches nothing, so that it cannot be repeated. -/
  directive : Bool := false

namespace Piece

def maxHeight : Nat := 250

def concat : List Piece → Piece
  | [p] => p
  | ps =>
    { term := .concat (ps.map (·.term))
      height := if ps.isEmpty then 0 else (ps.foldl (fun h p => max h p.height) 0) + 1 }

def alternation : List Piece → Piece
  | [p] => p
  | ps =>
    { term := .alternation (ps.map (·.term))
      height := (ps.foldl (fun h p => max h p.height) 0) + 1 }

/-- A part in parentheses; `number` counts the groups that have one. -/
def group (number : Option Nat) (p : Piece) : Piece :=
  { term := number.elim p.term (.group · p.term), height := p.height + 1 }

/-- At least `low` times, and at most `high` times if that is given. -/
def repeat? (p : Piece) (low : Nat) (high : Option Nat) (lazy : Bool) : Option Piece :=
  if p.directive || high.any (· < low) then none
  else some { term := p.term.repeated low high lazy, height := p.height + 1 }

end Piece

namespace Parsing

/-- A set as the flags see it. Without Unicode only ASCII can be asked for. -/
def ofFlags (flags : Flags) (negated : Bool) (s : CharSet) : Option CharSet :=
  let limit := if flags.unicode then CharSet.lastPoint else 0x7F
  let s := if flags.ignoreCase then s.foldCase limit else s
  let s := if negated then s.complement else s
  if flags.unicode || s.isAscii then some s else none

/-- A set under the flags in force. -/
def flagged (negated : Bool) (s : CharSet) : Parsing CharSet := fun c =>
  (ofFlags c.flags negated s).map (·, c)

/-- A character as itself, or in any case where case is ignored. -/
def literal (x : Char) : Parsing Term := do
  let flags := (← get).flags
  if flags.ignoreCase && (flags.unicode || x.toNat < 0x80) then
    return .ofSet (!flags.unicode) (← flagged false (.single x))
  else return .text [x]

/-- A character by its number. Without Unicode, two digits write a byte, and a byte that stands for
itself is ASCII. -/
def numbered (width : Nat) : Parsing Char := do
  let (inBraces, x) ← hex width
  if !inBraces && width = 2 && 0x80 ≤ x.toNat && !(← get).flags.unicode then refuse
  return x

def metaCharacters : List Char := "\\.+*?()|[]\x7b\x7d^$#&-~".toList

def isEscapable (x : Char) : Bool :=
  x ∈ metaCharacters || (x.toNat < 0x80 && !x.isAlphanum && x != '<' && x != '>')

/-- What stands after a backslash. -/
inductive Escaped where
  | char (x : Char)
  | class (s : CharSet)
  | look (l : Look)

def wordSet : Parsing CharSet := do
  return if (← get).flags.unicode then CharSet.words else CharSet.asciiWords

/-- The edges of words that are named in braces. Braces that no name follows hold the bounds of a
repetition, and stay. -/
def namedEdge? (word : CharSet) : Parsing (Option Look) := do
  let here ← get
  if !(← starts "\x7b") then return none
  skip
  let name ← takeSpaced fun x => x.isAlpha || x == '-'
  if name.isEmpty then
    modify fun _ => here
    return none
  expect '\x7d'
  match String.ofList name with
  | "start" => return some (.wordStart word)
  | "end" => return some (.wordEnd word)
  | "start-half" => return some (.wordStartHalf word)
  | "end-half" => return some (.wordEndHalf word)
  | _ => refuse

def escape : Parsing Escaped := do
  let flags := (← get).flags
  let sort (wide narrow : CharSet) : CharSet := if flags.unicode then wide else narrow
  let x ← next
  match x with
  | 'x' => .char <$> numbered 2
  | 'u' => .char <$> numbered 4
  | 'U' => .char <$> numbered 8
  | 'd' => .class <$> flagged false (sort .digits .asciiDigits)
  | 'D' => .class <$> flagged true (sort .digits .asciiDigits)
  | 's' => .class <$> flagged false (sort .blanks .asciiBlanks)
  | 'S' => .class <$> flagged true (sort .blanks .asciiBlanks)
  | 'w' => .class <$> flagged false (sort .words .asciiWords)
  | 'W' => .class <$> flagged true (sort .words .asciiWords)
  | 'a' => return .char '\x07'
  | 'f' => return .char '\x0c'
  | 't' => return .char '\t'
  | 'n' => return .char '\n'
  | 'r' => return .char '\r'
  | 'v' => return .char '\x0b'
  | 'A' => return .look .textStart
  | 'z' => return .look .textEnd
  | 'b' =>
    let word ← wordSet
    return .look ((← namedEdge? word).getD (.wordEdge word))
  | 'B' => return .look (.noWordEdge (← wordSet))
  | '<' => return .look (.wordStart (← wordSet))
  | '>' => return .look (.wordEnd (← wordSet))
  | _ => if isEscapable x then return .char x else refuse

/-- A class written by its name, as `[:alpha:]`, if one stands here. -/
def namedClass? : Parsing (Option CharSet) := orElse? do
  expect '['
  expect ':'
  let negated ← starts "^"
  let name ← takeWhile (· != ':')
  expect ':'
  expect ']'
  match CharSet.named? (String.ofList name) with
  | some s => flagged negated s
  | none => refuse

/-- A member of a class: a character, or a class that an escape names. -/
def member : Parsing Escaped := do
  match ← next with
  | '\\' => escape
  | x => return .char x

/-- A character as a bound or a member of a class. Without Unicode it is ASCII. -/
def Escaped.point : Escaped → Parsing Char
  | .char x => do if (← get).flags.unicode || x.toNat < 0x80 then return x else refuse
  | _ => refuse

/-- The character by which a hyphen before it is told from the sign of a range. Blanks are passed
over, and so is the sign of a comment, but not what it says. -/
def beyond? (flags : Flags) (cs : List Char) : Option Char :=
  if flags.spaced then
    match cs.dropWhile Text.isBlank with
    | '#' :: rest => (rest.dropWhile Text.isBlank).head?
    | rest => rest.head?
  else cs.head?

/-- A member or a range of a class. -/
def memberRange : Parsing CharSet := do
  let low ← member
  skip
  let c ← get
  match c.rest with
  | '-' :: rest =>
    let beyond := beyond? c.flags rest
    if beyond == some ']' || beyond == some '-' then alone low
    else
      let _ ← next
      skip
      let high ← member
      let a ← low.point
      let b ← high.point
      if a ≤ b then return [(a.toNat, b.toNat)] else refuse
  | [] => refuse
  | _ => alone low
where
  alone : Escaped → Parsing CharSet
    | .class s => return s
    | x => return .single (← x.point)

/-- A class under construction: what the operators so far leave, the operator that waits, and the
members since then with their number and greatest height. -/
structure Union where
  waiting : Option ((CharSet → CharSet → CharSet) × CharSet × Nat) := none
  members : CharSet := []
  count : Nat := 0
  height : Nat := 0

def Union.push (u : Union) (s : CharSet) (height : Nat := 0) : Union :=
  { u with members := u.members.union s, count := u.count + 1, height := max u.height height }

/-- The set that is written so far, and its height. Operators group to the left. -/
def Union.close (flags : Flags) (u : Union) : CharSet × Nat :=
  let height := if 2 ≤ u.count then u.height + 1 else u.height
  match u.waiting with
  | none => (u.members, height)
  | some (op, left, leftHeight) =>
    let fold (s : CharSet) : CharSet :=
      if flags.ignoreCase then
        s.foldCase (if flags.unicode then CharSet.lastPoint else 0x7F)
      else s
    (op (fold left) (fold u.members), max leftHeight height + 1)

def Union.operate (flags : Flags) (u : Union) (op : CharSet → CharSet → CharSet) : Union :=
  let (s, height) := u.close flags
  { waiting := some (op, s, height) }

/-- The start of a class: whether it is negated, and hyphens or one bracket that stand for
themselves there. -/
def classOpen : Parsing (Bool × Union) := do
  skip
  let negated ← starts "^"
  skip
  let hyphens ← takeWhile (· == '-')
  skip
  if hyphens.isEmpty then
    if ← starts "]" then return (negated, ({} : Union).push (.single ']'))
    else return (negated, {})
  else return (negated, hyphens.foldl (fun u x => u.push (.single x)) {})

def classClose (negated : Bool) (u : Union) : Parsing (CharSet × Nat) := do
  let (s, height) := u.close (← get).flags
  return (← flagged negated s, height + 1)

/-- The members of a class up to the bracket that closes it. -/
def members : Nat → Union → Parsing Union
  | 0, _ => refuse
  | fuel + 1, u => do
    skip
    let flags := (← get).flags
    match (← get).rest with
    | ']' :: _ => do
      let _ ← next
      return u
    | '[' :: _ =>
      match ← namedClass? with
      | some s => members fuel (u.push s)
      | none => do
        let _ ← next
        let (negated, start) ← classOpen
        let (s, height) ← classClose negated (← members fuel start)
        members fuel (u.push s height)
    | '&' :: '&' :: _ => do
      let _ ← starts "&&"
      members fuel (u.operate flags .inter)
    | '-' :: '-' :: _ => do
      let _ ← starts "--"
      members fuel (u.operate flags .diff)
    | '~' :: '~' :: _ => do
      let _ ← starts "~~"
      members fuel (u.operate flags .symmDiff)
    | _ => do members fuel (u.push (← memberRange))

/-- A class after its opening bracket, with its height. -/
def bracketed (fuel : Nat) : Parsing (CharSet × Nat) := do
  let (negated, start) ← classOpen
  classClose negated (← members fuel start)

def dot : Parsing CharSet := do
  let flags := (← get).flags
  let excluded := if flags.dotAll then []
    else if flags.anyLine then [('\n'.toNat, '\n'.toNat), ('\r'.toNat, '\r'.toNat)]
    else CharSet.single '\n'
  if flags.unicode then return CharSet.complement excluded else refuse

def lineLook (start : Bool) : Parsing Look := do
  let flags := (← get).flags
  return match start, flags.multiLine, flags.anyLine with
    | true, true, true => .anyLineStart
    | true, true, false => .lineStart
    | true, false, _ => .textStart
    | false, true, true => .anyLineEnd
    | false, true, false => .lineEnd
    | false, false, _ => .textEnd

/-- A character, a class, a dot or an assertion. -/
def primitive (fuel : Nat) : Parsing Piece := do
  let ascii := !(← get).flags.unicode
  match ← next with
  | '\\' =>
    match ← escape with
    | .char x => do return ⟨← literal x, 0, false⟩
    | .class s => return ⟨.ofSet ascii s, 0, false⟩
    | .look l => return ⟨.look l, 0, false⟩
  | '.' => do return ⟨.ofSet ascii (← dot), 0, false⟩
  | '^' => do return ⟨.look (← lineLook true), 0, false⟩
  | '$' => do return ⟨.look (← lineLook false), 0, false⟩
  | '[' => do
    let (s, height) ← bracketed fuel
    return ⟨.ofSet ascii s, height, false⟩
  | x => do return ⟨← literal x, 0, false⟩

/-- The bounds of a repetition after its opening brace. -/
def bounds : Parsing (Nat × Option Nat) := do
  skip
  let low ← decimal
  if ← starts "," then
    skip
    if ← starts "\x7d" then return (low, none)
    let high ← decimal
    expect '\x7d'
    return (low, some high)
  else
    expect '\x7d'
    return (low, some low)

/-- How often the part before is repeated, and whether as seldom as may be, if a repetition stands
here. -/
def repetition? : Parsing (Option (Nat × Option Nat × Bool)) := do
  let range ← match (← get).rest with
    | '?' :: _ => do
      let _ ← next
      pure (some (0, some 1))
    | '*' :: _ => do
      let _ ← next
      pure (some (0, none))
    | '+' :: _ => do
      let _ ← next
      pure (some (1, none))
    | '\x7b' :: _ => do
      let _ ← next
      let range ← bounds
      skip
      pure (some range)
    | _ => pure none
  match range with
  | none => return none
  | some (low, high) =>
    let marked ← starts "?"
    return some (low, high, marked != (← get).flags.swapGreed)

def Flags.assign? (flags : Flags) (on : Bool) : Char → Option Flags
  | 'i' => some { flags with ignoreCase := on }
  | 'm' => some { flags with multiLine := on }
  | 's' => some { flags with dotAll := on }
  | 'U' => some { flags with swapGreed := on }
  | 'u' => some { flags with unicode := on }
  | 'R' => some { flags with anyLine := on }
  | 'x' => some { flags with spaced := on }
  | _ => none

/-- The flags that letters set, and clear after a hyphen. No letter comes twice. -/
def assignAll (flags : Flags) (letters : List Char) : Option Flags := do
  if letters.eraseDups.length != letters.length || letters.getLast? == some '-' then none
  let on := letters.takeWhile (· != '-')
  let off := (letters.dropWhile (· != '-')).drop 1
  let flags ← on.foldlM (Flags.assign? · true) flags
  off.foldlM (Flags.assign? · false) flags

/-- How a parenthesis opens: a group with its flags, or flags for what follows. -/
inductive Opening where
  | group (number : Option Nat) (flags : Flags)
  | directive (flags : Flags)

def isNameStart (x : Char) : Bool := x == '_' || CharSet.letters.contains x.toNat

def isNameRest (x : Char) : Bool :=
  isNameStart x || x == '.' || x == '[' || x == ']' || CharSet.numbers.contains x.toNat

def groupName : Parsing Unit := do
  let name ← takeWhile (· != '>')
  expect '>'
  match name with
  | [] => refuse
  | x :: xs => if !(isNameStart x && xs.all isNameRest) then refuse
  let name := String.ofList name
  if name ∈ (← get).names then refuse
  modify fun c => { c with names := name :: c.names }

/-- A group that has a number. -/
def numberedGroup : Parsing Opening := do
  modify fun c => { c with groups := c.groups + 1 }
  let c ← get
  return .group (some c.groups) c.flags

/-- What stands after an opening parenthesis. Looking around is refused. -/
def opening : Parsing Opening := do
  skip
  let flags := (← get).flags
  for around in ["?=", "?!", "?<=", "?<!"] do
    if ← starts around then refuse
  if ← starts "?P<" then
    groupName
    numberedGroup
  else if ← starts "?<" then
    groupName
    numberedGroup
  else if ← starts "?" then
    let letters ← takeWhile fun x => x != ':' && x != ')'
    match assignAll flags letters with
    | none => refuse
    | some flags =>
      if (← next) == ':' then return .group none flags
      else if letters.isEmpty then refuse
      else return .directive flags
  else numberedGroup

/-- Alternatives up to a closing parenthesis or the end, both left in place. `done` holds the
alternatives already closed and `items` the parts of the open one, last first. -/
def alternatives : Nat → List Piece → List Piece → Parsing Piece
  | 0, _, _ => refuse
  | fuel + 1, done, items => do
    skip
    match (← get).rest with
    | [] => return Piece.alternation (Piece.concat items.reverse :: done).reverse
    | ')' :: _ => return Piece.alternation (Piece.concat items.reverse :: done).reverse
    | '|' :: _ => do
      let _ ← next
      alternatives fuel (Piece.concat items.reverse :: done) []
    | '(' :: _ => do
      let _ ← next
      let outer := (← get).flags
      match ← opening with
      | .directive flags => do
        modify fun c => { c with flags }
        alternatives fuel done (⟨.empty, 0, true⟩ :: items)
      | .group number flags => do
        modify fun c => { c with flags }
        let inner ← alternatives fuel [] []
        expect ')'
        modify fun c => { c with flags := outer }
        alternatives fuel done (inner.group number :: items)
    | _ => do
      match ← repetition?, items with
      | some (low, high, lazy), item :: items =>
        match item.repeat? low high lazy with
        | some p => alternatives fuel done (p :: items)
        | none => refuse
      | some _, [] => refuse
      | none, items => do alternatives fuel done ((← primitive (fuel + 1)) :: items)

/-- A whole pattern. -/
def whole : Parsing Pattern := do
  let p ← alternatives ((← get).rest.length + 1) [] []
  if !(← get).rest.isEmpty || Piece.maxHeight < p.height || !p.term.fits then refuse
  return p.term.pattern

end Parsing

/-- The pattern that a text writes. -/
def ofText? (text : String) : Option Pattern :=
  (Parsing.whole { rest := text.toList }).map (·.1)

/-- The pattern that a text writes, put between a group's parentheses and tied to both ends of what
it is searched in. A text that closes the group itself opens alternatives that are not tied. -/
def anchored? (text : String) : Option Pattern := ofText? ("^(?:" ++ text ++ ")$")

end FieldBuffers.Pattern
