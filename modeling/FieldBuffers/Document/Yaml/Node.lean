import FieldBuffers.Document.Yaml.Token

/-!
Nodes of a document: texts, lists and maps, and aliases of nodes that were given a name. Names are
counted as they come, so that an alias holds a number.
-/

namespace FieldBuffers.Yaml

inductive Node where
  | scalar (anchor : Option Nat) (tag : Option Bytes) (style : Style) (text : String)
  | list (anchor : Option Nat) (items : List Node)
  | map (anchor : Option Nat) (pairs : List (Node × Node))
  | reference (number : Nat)

/-- What of a document's tokens is left, and what was said so far. -/
structure Reading where
  tokens : List Token
  /-- What the handles of tags stand for. -/
  handles : List (String × Bytes) := []
  /-- The names of nodes with their numbers, the latest first. -/
  names : List (String × Nat) := []

abbrev Building := StateT Reading Option

namespace Building

def refuse {α : Type} : Building α := fun _ => none

def peek : Building (Option Token) := fun r => some (r.tokens.head?, r)

def advance : Building Unit := modify fun r => { r with tokens := r.tokens.drop 1 }

/-- A number for a name: how many other names there are. A name may be given again. -/
def number (name : String) : Building Nat := fun r =>
  let n := (r.names.map (·.1)).eraseDups.length
  some (n, { r with names := (name, n) :: r.names })

/-- The number that a name has. -/
def numberOf (name : String) : Building Nat := fun r =>
  (r.names.find? (·.1 == name)).map fun (_, n) => (n, r)

/-- A tag with its handle replaced by what it stands for. -/
def tagBytes (t : Tag) : Building Bytes := fun r =>
  if t.handle.isEmpty then some (t.suffix, r)
  else (r.handles.find? (·.1 == t.handle)).map fun (_, stands) => (stands ++ t.suffix, r)

def anchor? : Building (Option String) := do
  match ← peek with
  | some (.anchor name) => advance; return some name
  | _ => return none

def tag? : Building (Option Tag) := do
  match ← peek with
  | some (.tag t) => advance; return some t
  | _ => return none

/-- The name and the tag in front of a node, in any order. -/
def properties : Building (Option String × Option Tag) := do
  match ← anchor? with
  | some name => return (some name, ← tag?)
  | none =>
    match ← tag? with
    | some t => return (← anchor?, some t)
    | none => return (none, none)

def nothing : Node := .scalar none none .plain ""

/-- The tag that says of a text that it has none of its own. -/
def noTag : Bytes := Bytes.ofText "!"

mutual

/-- A node. Blocks may start only where `block` is set, and the marks of list items without a block
of their own only where `loose` is. -/
def node (fuel : Nat) (block loose : Bool) : Building Node :=
  match fuel with
  | 0 => refuse
  | fuel + 1 => do
    if let some (.reference name) ← peek then
      advance
      return .reference (← numberOf name)
    let (name, t) ← properties
    let tag ← t.mapM tagBytes
    let next ← peek
    let plainItems := loose && next matches some .item
    let opens :=
      match next with
      | some (.scalar ..) | some .openList | some .openMap => true
      | some .listStart | some .mapStart => block
      | _ => plainItems
    if !opens && name.isNone && tag.isNone then refuse
    let anchor ← name.mapM number
    if !opens then return .scalar anchor tag .plain ""
    if plainItems then return .list anchor (← looseItems fuel [])
    advance
    match next with
    | some (.scalar style text) =>
      return .scalar anchor (if tag == some noTag then none else tag) style text
    | some .openList => return .list anchor (← flowItems fuel true [])
    | some .openMap => return .map anchor (← flowPairs fuel true [])
    | some .listStart => return .list anchor (← blockItems fuel [])
    | _ => return .map anchor (← blockPairs fuel [])

/-- A node of a block, or nothing before one of the tokens that follow one. -/
def blockNode (fuel : Nat) (loose : Bool) (isEnd : Token → Bool) : Building Node :=
  match fuel with
  | 0 => refuse
  | fuel + 1 => do
    match ← peek with
    | some t => if isEnd t then return nothing else node fuel true loose
    | none => refuse

/-- A node in brackets, or nothing before one of the tokens that follow one. -/
def flowNode (fuel : Nat) (isEnd : Token → Bool) : Building Node :=
  match fuel with
  | 0 => refuse
  | fuel + 1 => do
    match ← peek with
    | some t => if isEnd t then return nothing else node fuel false false
    | none => refuse

/-- The rest of a block's items. -/
def blockItems (fuel : Nat) (done : List Node) : Building (List Node) :=
  match fuel with
  | 0 => refuse
  | fuel + 1 => do
    match ← peek with
    | some .item =>
      advance
      blockItems fuel ((← blockNode fuel false (· matches .item | .blockEnd)) :: done)
    | some .blockEnd => advance; return done.reverse
    | _ => refuse

/-- The rest of the items that stand in the column of the keys around. -/
def looseItems (fuel : Nat) (done : List Node) : Building (List Node) :=
  match fuel with
  | 0 => refuse
  | fuel + 1 => do
    match ← peek with
    | some .item =>
      advance
      looseItems fuel ((← blockNode fuel false (· matches .item | .key | .value | .blockEnd)) :: done)
    | _ => return done.reverse

/-- The rest of a block's pairs. -/
def blockPairs (fuel : Nat) (done : List (Node × Node)) : Building (List (Node × Node)) :=
  match fuel with
  | 0 => refuse
  | fuel + 1 => do
    match ← peek with
    | some .key =>
      advance
      let k ← blockNode fuel true (· matches .key | .value | .blockEnd)
      match ← peek with
      | some .value =>
        advance
        let v ← blockNode fuel true (· matches .key | .value | .blockEnd)
        blockPairs fuel ((k, v) :: done)
      | _ => blockPairs fuel ((k, nothing) :: done)
    | some .blockEnd => advance; return done.reverse
    | _ => refuse

/-- The rest of a list in brackets. A key in it is a map of one pair. -/
def flowItems (fuel : Nat) (first : Bool) (done : List Node) : Building (List Node) :=
  match fuel with
  | 0 => refuse
  | fuel + 1 => do
    match ← peek with
    | some .closeList => advance; return done.reverse
    | some .comma => if first then refuse else advance
    | _ => if !first then refuse
    match ← peek with
    | some .closeList => advance; return done.reverse
    | some .key => advance; flowItems fuel false ((← flowPair fuel) :: done)
    | _ => flowItems fuel false ((← node fuel false false) :: done)

/-- A map of one pair. Where its key is missing, the token after the mark of the key is lost. -/
def flowPair (fuel : Nat) : Building Node :=
  match fuel with
  | 0 => refuse
  | fuel + 1 => do
    let k ←
      match ← peek with
      | some .value | some .comma | some .closeList => advance; pure nothing
      | _ => node fuel false false
    match ← peek with
    | some .value =>
      advance
      return .map none [(k, ← flowNode fuel (· matches .comma | .closeList))]
    | _ => return .map none [(k, nothing)]

/-- The rest of a map in brackets. -/
def flowPairs (fuel : Nat) (first : Bool) (done : List (Node × Node)) :
    Building (List (Node × Node)) :=
  match fuel with
  | 0 => refuse
  | fuel + 1 => do
    match ← peek with
    | some .closeMap => advance; return done.reverse
    | some .comma => if first then refuse else advance
    | _ => if !first then refuse
    match ← peek with
    | some .closeMap => advance; return done.reverse
    | some .key =>
      advance
      let k ← flowNode fuel (· matches .value | .comma | .closeMap)
      match ← peek with
      | some .value =>
        advance
        let v ← flowNode fuel (· matches .comma | .closeMap)
        flowPairs fuel false ((k, v) :: done)
      | _ => flowPairs fuel false ((k, nothing) :: done)
    | _ => flowPairs fuel false ((← node fuel false false, nothing) :: done)

end

/-- What the handles stand for that no directive names. -/
def commonHandles : List (String × Bytes) :=
  [("!", Bytes.ofText "!"), ("!!", Bytes.ofText "tag:yaml.org,2002:")]

/-- The directives in front of a document: at most one of its version, and one of each handle. -/
def directives (fuel : Nat) (versioned : Bool) (handles : List (String × Bytes)) : Building Unit :=
  match fuel with
  | 0 => refuse
  | fuel + 1 => do
    match ← peek with
    | some (.directive (.version major minor)) =>
      if versioned || major != 1 || (minor != 1 && minor != 2) then refuse
      advance
      directives fuel true handles
    | some (.directive (.handle handle stands)) =>
      if handles.any (·.1 == handle) then refuse
      advance
      directives fuel versioned ((handle, stands) :: handles)
    | _ => modify fun r => { r with handles := handles ++ commonHandles }

/-- The one document that some tokens hold. Each reader takes a token or passes to another at the
same place, at most three times. -/
def document : Building Node := do
  let tokens := (← get).tokens
  let fuel := 4 * tokens.length + 4
  directives fuel false []
  let explicit := tokens.head? matches some (.directive _) | some .documentStart
  if explicit && !((← peek) matches some .documentStart) then refuse
  if explicit then advance
  let root ←
    match ← peek with
    | none => if explicit then pure nothing else refuse
    | some (.directive _) | some .documentStart | some .documentEnd =>
      if explicit then pure nothing else refuse
    | some _ => node fuel true false
  modify fun r => { r with tokens := r.tokens.dropWhile (· matches .documentEnd) }
  if (← get).tokens.isEmpty then return root else refuse

end Building

namespace Node

/-- The node of a text. -/
def ofText? (s : String) : Option Node := do
  let tokens ← tokens? s.toList
  return (← Building.document.run { tokens }).1

def anchor? : Node → Option Nat
  | scalar anchor .. | list anchor _ | map anchor _ => anchor
  | reference _ => none

mutual

/-- The nodes that have a number, in the order in which they start. -/
def numbered (n : Node) : List (Nat × Node) :=
  n.anchor?.toList.map (·, n) ++
    match n with
    | scalar .. | reference _ => []
    | list _ items => numberedItems items
    | map _ pairs => numberedPairs pairs

def numberedItems : List Node → List (Nat × Node)
  | [] => []
  | x :: xs => x.numbered ++ numberedItems xs

def numberedPairs : List (Node × Node) → List (Nat × Node)
  | [] => []
  | (k, v) :: rest => k.numbered ++ v.numbered ++ numberedPairs rest

end

mutual

/-- How many signs a reader of the node sees: its texts and aliases, and where its lists and maps
start and end. -/
def signs : Node → Nat
  | scalar .. | reference _ => 1
  | list _ items => signsOfItems items + 2
  | map _ pairs => signsOfPairs pairs + 2

def signsOfItems : List Node → Nat
  | [] => 0
  | x :: xs => x.signs + signsOfItems xs

def signsOfPairs : List (Node × Node) → Nat
  | [] => 0
  | (k, v) :: rest => k.signs + v.signs + signsOfPairs rest

end

end Node

end FieldBuffers.Yaml
