import FieldBuffers.Numerals
import FieldBuffers.Pattern.NameCharacters
import FieldBuffers.Pattern.WordCharacters
import FieldBuffers.Pattern.CaseOrbits

/-!
Sets of characters, held as ranges of code points. Main statement: `contains_union`; complement is
taken within the code points, and the other operations come from those two.
-/

namespace FieldBuffers.Pattern

/-- The bounds of ranges of code points, both ends included. -/
abbrev CharSet := List (Nat × Nat)

/-- A set that is met again is known without a look at its ranges. -/
instance : DecidableEq CharSet := fun s t =>
  withPtrEqDecEq s t fun _ => instDecidableEqList s t

namespace CharSet

def lastPoint : Nat := 0x10FFFF

def single (c : Char) : CharSet := [(c.toNat, c.toNat)]

def contains (s : CharSet) (n : Nat) : Bool := s.any fun (lo, hi) => lo ≤ n && n ≤ hi

def union (s t : CharSet) : CharSet := s ++ t

theorem contains_union (s t : CharSet) (n : Nat) :
    (s.union t).contains n = (s.contains n || t.contains n) := by
  simp [contains, union]

/-- The ranges between those of a list that ascends by lower bound, from `start` on. -/
def gaps : Nat → CharSet → CharSet
  | start, [] => if start ≤ lastPoint then [(start, lastPoint)] else []
  | start, (lo, hi) :: rest =>
    let tail := gaps (max start (hi + 1)) rest
    if start < lo then (start, lo - 1) :: tail else tail

def complement (s : CharSet) : CharSet := gaps 0 (s.mergeSort fun a b => a.1 ≤ b.1)

/-- The same characters in the fewest ranges, ascending. -/
def normal (s : CharSet) : CharSet := complement (complement s)

def inter (s t : CharSet) : CharSet := complement (union (complement s) (complement t))

def diff (s t : CharSet) : CharSet := inter s (complement t)

def symmDiff (s t : CharSet) : CharSet := union (diff s t) (diff t s)

/-- The set with every character that differs in case only from one of its own, within `limit`. -/
def foldCase (limit : Nat) (s : CharSet) : CharSet :=
  let met := caseRuns.flatMap fun (lo, hi, step, _) =>
    (List.range ((hi - lo) / step + 1)).filterMap fun k =>
      let n := lo + k * step
      if n ≤ limit && s.contains n then some n else none
  s ++ (met.flatMap otherCases).filterMap fun n => if n ≤ limit then some (n, n) else none

def isAscii (s : CharSet) : Bool := s.all fun (_, hi) => hi < 0x80

def words : CharSet := wordRanges
def asciiWords : CharSet := [(0x30, 0x39), (0x41, 0x5A), (0x5F, 0x5F), (0x61, 0x7A)]
def digits : CharSet := digitRanges
def letters : CharSet := letterRanges
def numbers : CharSet := numberRanges
def asciiDigits : CharSet := [(0x30, 0x39)]
def blanks : CharSet :=
  [(9, 13), (0x20, 0x20), (0x85, 0x85), (0xA0, 0xA0), (0x1680, 0x1680), (0x2000, 0x200A),
    (0x2028, 0x2029), (0x202F, 0x202F), (0x205F, 0x205F), (0x3000, 0x3000)]
def asciiBlanks : CharSet := [(9, 13), (0x20, 0x20)]

/-- The classes that are written as a name between brackets and colons. -/
def named? : String → Option CharSet
  | "alnum" => some [(0x30, 0x39), (0x41, 0x5A), (0x61, 0x7A)]
  | "alpha" => some [(0x41, 0x5A), (0x61, 0x7A)]
  | "ascii" => some [(0, 0x7F)]
  | "blank" => some [(9, 9), (0x20, 0x20)]
  | "cntrl" => some [(0, 0x1F), (0x7F, 0x7F)]
  | "digit" => some asciiDigits
  | "graph" => some [(0x21, 0x7E)]
  | "lower" => some [(0x61, 0x7A)]
  | "print" => some [(0x20, 0x7E)]
  | "punct" => some [(0x21, 0x2F), (0x3A, 0x40), (0x5B, 0x60), (0x7B, 0x7E)]
  | "space" => some asciiBlanks
  | "upper" => some [(0x41, 0x5A)]
  | "word" => some asciiWords
  | "xdigit" => some [(0x30, 0x39), (0x41, 0x46), (0x61, 0x66)]
  | _ => none

end CharSet

end FieldBuffers.Pattern
