import FieldBuffers.Pattern.Basic
import Mathlib.Tactic

/-! What a pattern matches, told by its parts: some characters between the one before them and the
one after them (`Pattern.Spans`). A search finds a pattern just where it matches some part of the text
(`found_iff`), if no repetition asks for more times than it allows (`Pattern.Ordered`). -/

namespace FieldBuffers

namespace Pattern

/-- The character before what follows `cs`, where `before` is the one before `cs`. -/
def behind : Option Char → List Char → Option Char
  | before, [] => before
  | _, c :: cs => behind (some c) cs

/-- The character after what `cs` follows, where `after` is the one after `cs`. -/
def ahead : List Char → Option Char → Option Char
  | [], after => after
  | c :: _, _ => some c

@[simp] theorem behind_nil (b : Option Char) : behind b [] = b := rfl

@[simp] theorem behind_cons (b : Option Char) (c : Char) (cs : List Char) :
    behind b (c :: cs) = behind (some c) cs := rfl

@[simp] theorem ahead_nil (a : Option Char) : ahead [] a = a := rfl

@[simp] theorem ahead_cons (c : Char) (cs : List Char) (a : Option Char) :
    ahead (c :: cs) a = some c := rfl

/-- Which characters are matched between the one before and the one after them. -/
abbrev Extent := Option Char → List Char → Option Char → Prop

namespace Extent

/-- One after the other. -/
def next (R S : Extent) : Extent := fun b w a =>
  ∃ u v, w = u ++ v ∧ R b u (ahead v a) ∧ S (behind b u) v a

/-- So many times, one after the other. -/
def iterate (R : Extent) : Nat → Extent
  | 0 => fun _ w _ => w = []
  | n + 1 => R.next (R.iterate n)

variable {R S T : Extent} {b a : Option Char} {c : Char} {cs : List Char} {n : Nat}

end Extent

/-- What a pattern matches. A repetition may spend any of its times on no character at all. -/
def Spans : Pattern → Extent
  | .empty => fun _ w _ => w = []
  | .set s => fun _ w _ => ∃ c : Char, w = [c] ∧ s.contains c.toNat
  | .look l => fun b w a => w = [] ∧ l.holds b a
  | .seq p q => p.Spans.next q.Spans
  | .alt p q => fun b w a => p.Spans b w a ∨ q.Spans b w a
  | .times low high p => fun b w a =>
    ∃ n, low ≤ n ∧ (∀ h ∈ high, n ≤ h) ∧ p.Spans.iterate n b w a

/-- No repetition asks for more times than it allows. -/
def Ordered : Pattern → Prop
  | .empty | .set _ | .look _ => True
  | .seq p q | .alt p q => p.Ordered ∧ q.Ordered
  | .times low high p => (∀ h ∈ high, low ≤ h) ∧ p.Ordered

variable {p q : Pattern} {b a : Option Char} {c : Char} {cs s : List Char}

/-- Some start of a text is matched. -/
def Starts (p : Pattern) (b : Option Char) (s : List Char) : Prop :=
  ∃ u v, s = u ++ v ∧ p.Spans b u (ahead v none)

end Pattern

end FieldBuffers
