import FieldBuffers.Bytes
import FieldBuffers.Pattern.ByteRanges
import FieldBuffers.Pattern.Term
import Std.Data.HashMap

/-!
The room that a pattern takes as an automaton over bytes, with its repetitions written out. There are
two automata, one that reads forwards and one that reads backwards; a pattern is refused unless each
fits into ten mebibytes. A state takes 32 bytes, a step of a state with several steps 8 more, and a way
out of a fork 4 more.
-/

namespace FieldBuffers.Pattern

/-- What an automaton holds so far. -/
structure Room where
  states : Nat := 0
  /-- The bytes that states take beyond what each takes. -/
  more : Nat := 0

namespace Room

def limit : Nat := 10 * 2 ^ 20

/-- Room for some states, and for more bytes. -/
def take? (states more : Nat) (r : Room) : Option Room :=
  let r : Room := ⟨r.states + states, r.more + more⟩
  if r.states * 32 + r.more ≤ limit then some r else none

end Room

abbrev Laying := StateT Room Option

namespace Laying

/-- Adds a state with some steps of its own, and gives its number. -/
def state (steps : Nat := 0) : Laying Nat := fun r =>
  (r.take? 1 (8 * steps)).map fun r' => (r.states, r')

def states (n : Nat) : Laying Unit := fun r => (r.take? n 0).map ((), ·)

/-- Adds ways out of a fork. -/
def ways (n : Nat) : Laying Unit := fun r => (r.take? 0 (4 * n)).map ((), ·)

/-- Leads from the end of a part to what follows. Where the part ends in a fork, that is one more
way. -/
def follow (fork : Bool) : Laying Unit := if fork then ways 1 else pure ()

/-- A step over a range of bytes to a state. -/
structure Step where
  range : ByteRange
  next : Nat
deriving BEq

/-- Numbers mixed into one. -/
def mixed (ns : List Nat) : UInt64 :=
  ns.foldl (fun h n => (h ^^^ UInt64.ofNat n) * 1099511628211) 14695981039346656037

/-- States that may be used again, each in a slot that its steps choose. A later state takes the slot
of an earlier one. -/
abbrev Known (κ : Type) := Std.HashMap UInt64 (κ × Nat)

/-- The state with a key: the known one, or a new one. -/
def shared {κ : Type} [BEq κ] (slots : UInt64) (numbers : κ → List Nat) (steps : κ → Nat) (key : κ) :
    StateT (Known κ) Laying Nat := do
  let slot := mixed (numbers key) % slots
  match (← get)[slot]? with
  | some (k, n) => if k == key then return n
  | none => pure ()
  let n ← state (steps key)
  modify (·.insert slot (key, n))
  return n

/-- The state that some sequences of byte ranges start from, all of which lead to `target`. Sequences
that go on alike share their states; there are 10000 slots to know them by. -/
def tree (target : Nat) : Nat → List (List ByteRange) → StateT (Known (List Step)) Laying Nat
  | 0, _ => pure target
  | depth + 1, seqs => do
    let steps ← (seqs.splitBy fun s t => s.head? == t.head?).filterMapM fun group =>
      match group.head?.bind List.head? with
      | none => pure none
      | some range => return some ⟨range, ← tree target depth (group.map (·.drop 1))⟩
    if steps.isEmpty then return target
    shared 10000 (fun steps => steps.flatMap fun s => [s.range.1, s.range.2, s.next]) List.length steps

/-- The states of one sequence that is read from its end: known steps to the same state are used
again. There are 1000 slots to know them by. -/
def chain (target : Nat) (seq : List ByteRange) : StateT (Known Step) Laying Nat :=
  seq.foldlM (fun next range =>
    shared 1000 (fun s => [s.next, s.range.1, s.range.2]) (fun _ => 0) ⟨range, next⟩) target

/-- A set of characters. -/
def set (back : Bool) (s : CharSet) : Laying Unit := do
  if s.isAscii then
    let _ ← state
    let _ ← state s.length
  else
    let seqs := s.flatMap byteRanges
    if back then
      let _ ← state
      let target ← state
      let _ ← (seqs.forM fun seq => do
        let _ ← chain target seq
        ways 1).run ∅
    else
      let target ← state
      let _ ← (tree target 4 seqs).run ∅

/-- Texts that share how they start. What comes after a text has ended is kept apart from what came
before; `closed` holds those parts. -/
inductive Shelf where
  | mk (closed : List (List (UInt8 × Shelf))) (opened : List (UInt8 × Shelf))

namespace Shelf

def bare : Shelf := mk [] []

def isLeaf : Shelf → Bool
  | mk closed opened => opened.isEmpty && closed.all List.isEmpty

/-- With one more text. -/
def add : Bytes → Shelf → Shelf
  | [], mk closed opened =>
    if (mk closed opened).isLeaf && !closed.isEmpty then mk closed opened
    else mk (opened :: closed) []
  | b :: bs, mk closed opened =>
    match opened.find? (·.1 == b) with
    | some (_, s) => mk closed ((b, s.add bs) :: opened.filter (·.1 != b))
    | none => mk closed ((b, bare.add bs) :: opened)

mutual

/-- The states of the texts: a fork with a way to each part and to the ends between them, and for each
part that is not empty a state with its steps. -/
def lay : Shelf → Laying Unit
  | mk closed opened => do
    let _ ← state
    ways closed.length
    layParts closed
    layPart opened

def layParts : List (List (UInt8 × Shelf)) → Laying Unit
  | [] => pure ()
  | part :: parts => do
    layPart part
    layParts parts

def layPart (part : List (UInt8 × Shelf)) : Laying Unit := do
  if !part.isEmpty then
    ways 1
    let _ ← state (if part.length = 1 then 0 else part.length)
  layUnder part

def layUnder : List (UInt8 × Shelf) → Laying Unit
  | [] => pure ()
  | (_, s) :: rest => do
    if !s.isLeaf then s.lay
    layUnder rest

end

end Shelf

/-- One state. -/
def single : Laying Bool := do
  let _ ← state
  return false

/-- `n` more times of a part, after one that may end in a fork. -/
def times (part : Laying Bool) : Nat → Bool → Laying Bool
  | 0, fork => pure fork
  | n + 1, fork => do
    let next ← part
    follow fork
    times part n next

/-- `n` times of a part. -/
def copies (part : Laying Bool) : Nat → Laying Bool
  | 0 => single
  | n + 1 => do times part n (← part)

/-- `n` times of a part each of which may be left out with all that follow. -/
def options (part : Laying Bool) : Nat → Bool → Laying Unit
  | 0, fork => follow fork
  | n + 1, fork => do
    let _ ← state
    let next ← part
    follow fork
    ways 2
    options part n next

/-- A part that is repeated; `takes` says that it takes at least one character. -/
def repeated (takes : Bool) (low : Nat) (high : Option Nat) (part : Laying Bool) : Laying Bool := do
  match low, high with
  | 0, some 1 =>
    let _ ← state
    ways 2
    let fork ← part
    follow fork
    let _ ← state
    return false
  | 0, none =>
    if takes then
      let _ ← state
      follow (← part)
      ways 1
      return true
    else
      follow (← part)
      states 3
      ways 4
      return false
  | low + 1, none =>
    let before ← if low = 0 then pure false else copies part low
    let last ← part
    let _ ← state
    follow before
    follow last
    ways 1
    return true
  | low, some high =>
    let fork ← copies part low
    if low = high then return fork
    let _ ← state
    options part (high - low) fork
    return false

mutual

/-- The states of a term, and whether it ends in a fork. -/
def term (back : Bool) : Term → Laying Bool
  | .empty => single
  | .text cs => do
    states (Term.size cs)
    return false
  | .set _ s => do
    set back s
    return false
  | .look _ => single
  | .group _ t => do
    if back then term back t
    else
      let _ ← state
      follow (← term back t)
      let _ ← state
      return false
  | .times low high _ t =>
    repeated (t.shortest.any (0 < ·)) low high (term back t)
  | .seq ts => if back then seqBack ts else seq ts
  | .alt ts => do
    if ts.all (·.text?.isSome) then
      let _ ← state
      let texts := ts.filterMap fun t => t.text?.map fun cs => Bytes.ofText (String.ofList cs)
      (texts.foldl (fun s bs => s.add (if back then bs.reverse else bs)) Shelf.bare).lay
    else alt back 0 ts
    return false

def seq : List Term → Laying Bool
  | [] => pure false
  | [t] => term false t
  | t :: ts => do
    follow (← term false t)
    seq ts

def seqBack : List Term → Laying Bool
  | [] => pure false
  | [t] => term true t
  | t :: ts => do
    follow (← seqBack ts)
    term true t

/-- The states of alternatives, of which some were laid before; the fork to them and the state that
they lead to come after two of them. -/
def alt (back : Bool) (before : Nat) : List Term → Laying Unit
  | [] => pure ()
  | t :: ts => do
    follow (← term back t)
    ways 1
    if before = 1 then states 2
    alt back (before + 1) ts

end

/-- The automaton of a whole pattern. Where it need not start at the start of what is read, it may
pass over any bytes first. -/
def whole (back : Bool) (t : Term) : Laying Unit := do
  if t.tied back (if back then .textEnd else .textStart) then states 1
  else
    states 2
    let _ ← state 1
    ways 2
  let _ ← if back then pure 0 else state
  follow (← term back t)
  let _ ← if back then pure 0 else state
  states 1

end Laying

/-- Whether both automata of a pattern fit. -/
def Term.fits (t : Term) : Bool :=
  [false, true].all fun back => ((Laying.whole back t).run {}).isSome

end FieldBuffers.Pattern
