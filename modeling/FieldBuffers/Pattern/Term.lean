import FieldBuffers.Pattern.Basic

/-!
Patterns as they are written, made simple: sequences and alternatives hold no others of their kind,
neighbouring characters are one text, and alternatives that all start alike share their start.
-/

namespace FieldBuffers.Pattern

inductive Term where
  | empty
  | text (cs : List Char)
  /-- A set of characters; `ascii` where characters beyond ASCII cannot be asked for. -/
  | set (ascii : Bool) (s : CharSet)
  | look (l : Look)
  /-- A group with its number. -/
  | group (number : Nat) (t : Term)
  | times (low : Nat) (high : Option Nat) (lazy : Bool) (t : Term)
  | seq (ts : List Term)
  | alt (ts : List Term)
deriving BEq

namespace Term

/-- The bytes of a text in UTF-8. -/
def size (cs : List Char) : Nat := (cs.map Char.utf8Size).sum

/-- How many bytes the character of a code point has. -/
def pointSize (n : Nat) : Nat :=
  if n < 0x80 then 1 else if n < 0x800 then 2 else if n < 0x10000 then 3 else 4

mutual

/-- The fewest bytes a term matches; none if some part of it matches nothing. -/
def shortest : Term → Option Nat
  | empty => some 0
  | text cs => some (size cs)
  | set _ s => s.head?.map fun (low, _) => pointSize low
  | look _ => some 0
  | group _ t => t.shortest
  | times low _ _ t => t.shortest.map (low * ·)
  | seq ts => shortestOfSeq ts
  | alt ts => shortestOfAlt ts

def shortestOfSeq : List Term → Option Nat
  | [] => some 0
  | t :: ts => do return (← t.shortest) + (← shortestOfSeq ts)

def shortestOfAlt : List Term → Option Nat
  | [] => none
  | [t] => t.shortest
  | t :: ts => do return min (← t.shortest) (← shortestOfAlt ts)

end

mutual

/-- The most bytes a term matches; none if there is no end to them, or some part of it matches
nothing. -/
def longest : Term → Option Nat
  | empty => some 0
  | text cs => some (size cs)
  | set _ s => s.getLast?.map fun (_, high) => pointSize high
  | look _ => some 0
  | group _ t => t.longest
  | times _ high _ t => do return (← high) * (← t.longest)
  | seq ts => longestOfSeq ts
  | alt ts => longestOfAlt ts

def longestOfSeq : List Term → Option Nat
  | [] => some 0
  | t :: ts => do return (← t.longest) + (← longestOfSeq ts)

def longestOfAlt : List Term → Option Nat
  | [] => none
  | [t] => t.longest
  | t :: ts => do return max (← t.longest) (← longestOfAlt ts)

end

mutual

/-- Whether a match must start where an assertion holds, or end there if `back` is set, before it
takes any character. -/
def tied (back : Bool) (l : Look) : Term → Bool
  | look m => m == l
  | group _ t => t.tied back l
  | times low _ _ t => 0 < low && t.tied back l
  | seq ts => if back then (tiedEnd l ts).1 else tiedStart l ts
  | alt ts => tiedAll back l ts
  | _ => false

def tiedStart (l : Look) : List Term → Bool
  | [] => false
  | t :: ts => t.tied false l || (t.longest == some 0 && tiedStart l ts)

/-- Whether the end of a sequence is tied, and whether the sequence takes no character. -/
def tiedEnd (l : Look) : List Term → Bool × Bool
  | [] => (false, true)
  | t :: ts =>
    let (tied, bare) := tiedEnd l ts
    (tied || (bare && t.tied true l), bare && t.longest == some 0)

def tiedAll (back : Bool) (l : Look) : List Term → Bool
  | [] => true
  | t :: ts => t.tied back l && tiedAll back l ts

end

def never : Term := set true []

/-- A set; one character is a text. -/
def ofSet (ascii : Bool) (s : CharSet) : Term :=
  let s := s.normal
  match s with
  | [] => never
  | [(a, b)] => if h : a = b ∧ a.isValidChar then text [Char.ofNatAux a h.2] else set ascii s
  | _ => set ascii s

/-- The parts of a sequence. -/
def parts : Term → List Term
  | empty => []
  | seq ts => ts
  | t => [t]

/-- A term before others; neighbouring texts become one. -/
def glue : Term → List Term → List Term
  | text a, text b :: ts => text (a ++ b) :: ts
  | t, ts => t :: ts

def concat (ts : List Term) : Term :=
  match (ts.flatMap parts).foldr glue [] with
  | [] => empty
  | [t] => t
  | ts => seq ts

def choices : Term → List Term
  | alt ts => ts
  | t => [t]

def text? : Term → Option (List Char)
  | text cs => some cs
  | _ => none

/-- The character of a text that has just one. -/
def char? : Term → Option Char
  | text [c] => some c
  | _ => none

def set? : Term → Option CharSet
  | set _ s => some s
  | _ => none

/-- Alternatives without others inside. Where all are characters, or all are sets, they are one
set. -/
def union (ts : List Term) : Term :=
  match ts.flatMap choices with
  | [] => never
  | [t] => t
  | ts =>
    match ts.mapM char? with
    | some cs => ofSet false (cs.flatMap CharSet.single)
    | none =>
      match ts.mapM set? with
      | some ss => ofSet false ss.flatten
      | none => alt ts

/-- What two lists start with alike. -/
def common : List Term → List Term → List Term
  | t :: ts, u :: us => if t == u then t :: common ts us else []
  | _, _ => []

def seq? : Term → Option (List Term)
  | seq ts => some ts
  | _ => none

/-- Alternatives. Where all are sequences that start alike, the start is taken out; what is left of
them then starts differently. -/
def alternation (ts : List Term) : Term :=
  match union ts with
  | alt ts =>
    match ts.mapM seq? with
    | some (s :: ss) =>
      let start := ss.foldl common s
      if start.isEmpty then alt ts
      else concat (start ++ [union ((s :: ss).map fun s => concat (s.drop start.length))])
    | _ => alt ts
  | t => t

/-- At least `low` times, and at most `high` times if that is given. What matches no character needs
no second time. -/
def repeated (low : Nat) (high : Option Nat) (lazy : Bool) (t : Term) : Term :=
  let (low, high) :=
    if t.longest == some 0 then (min low 1, some (high.elim 1 (min · 1))) else (low, high)
  if high == some 0 then empty
  else if low = 1 && high == some 1 then t
  else times low high lazy t

mutual

/-- The pattern that a term stands for. -/
def pattern : Term → Pattern
  | empty => .empty
  | text cs => cs.foldr (fun c p => join (.set (.single c)) p) .empty
  | set _ s => .set s
  | look l => .look l
  | group _ t => t.pattern
  | times low high _ t => .times low high t.pattern
  | seq ts => patternOfSeq ts
  | alt ts => patternOfAlt ts

def patternOfSeq : List Term → Pattern
  | [] => .empty
  | t :: ts => join t.pattern (patternOfSeq ts)

def patternOfAlt : List Term → Pattern
  | [] => Pattern.never
  | [t] => t.pattern
  | t :: ts => .alt t.pattern (patternOfAlt ts)

end

end Term

end FieldBuffers.Pattern
