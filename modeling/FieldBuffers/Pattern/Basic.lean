import FieldBuffers.Pattern.CharSet
import Std.Data.HashSet

/-!
Regular expressions over characters, with assertions about the place between two characters. A
search reads the text once and keeps the set of what may still follow.
-/

namespace FieldBuffers

namespace Pattern

/-- What can be asked of the place between two characters. -/
inductive Look where
  | textStart | textEnd
  | lineStart | lineEnd
  /-- Lines that end in a carriage return, a newline, or both together. -/
  | anyLineStart | anyLineEnd
  | wordEdge (word : CharSet) | noWordEdge (word : CharSet)
  | wordStart (word : CharSet) | wordEnd (word : CharSet)
  | wordStartHalf (word : CharSet) | wordEndHalf (word : CharSet)
deriving DecidableEq

/-- Whether an assertion holds between the characters `before` and `after`. -/
def Look.holds (before after : Option Char) : Look → Bool
  | textStart => before.isNone
  | textEnd => after.isNone
  | lineStart => before.isNone || before == some '\n'
  | lineEnd => after.isNone || after == some '\n'
  | anyLineStart => before.isNone || before == some '\n' || (before == some '\r' && after != some '\n')
  | anyLineEnd => after.isNone || after == some '\r' || (after == some '\n' && before != some '\r')
  | wordEdge w => inside w before != inside w after
  | noWordEdge w => inside w before == inside w after
  | wordStart w => !inside w before && inside w after
  | wordEnd w => inside w before && !inside w after
  | wordStartHalf w => !inside w before
  | wordEndHalf w => !inside w after
where
  inside (w : CharSet) (c : Option Char) : Bool := c.any fun c => w.contains c.toNat

end Pattern

inductive Pattern where
  | empty
  | set (s : Pattern.CharSet)
  | look (l : Pattern.Look)
  | seq (p q : Pattern)
  | alt (p q : Pattern)
  /-- At least `low` times, and at most `high` times if that is given. -/
  | times (low : Nat) (high : Option Nat) (p : Pattern)
deriving DecidableEq

namespace Pattern

/-- Matches nothing at all. -/
def never : Pattern := .set []

/-- `p` then `q`, where an empty part leaves the other. -/
def join : Pattern → Pattern → Pattern
  | .empty, q => q
  | p, .empty => p
  | p, q => .seq p q

/-- Whether the pattern matches the empty text at a place. -/
def nullable (before after : Option Char) : Pattern → Bool
  | .empty => true
  | .set _ => false
  | .look l => l.holds before after
  | .seq p q => p.nullable before after && q.nullable before after
  | .alt p q => p.nullable before after || q.nullable before after
  | .times low _ p => low == 0 || p.nullable before after

/-- What is left of a repetition after one time of `p`. Where `p` matches the empty text as well, any
of the times that are left may have been spent on it. -/
def remaining (spent : Bool) (low : Nat) (high : Option Nat) (p : Pattern) : Pattern :=
  if high == some 1 then .empty
  else .times (if spent then 0 else low - 1) (high.map (· - 1)) p

/-- What may follow once the pattern has read `c`, which comes after `before`. -/
def after (before : Option Char) (c : Char) : Pattern → List Pattern
  | .empty => []
  | .set s => if s.contains c.toNat then [.empty] else []
  | .look _ => []
  | .seq p q =>
    let left := (p.after before c).map (join · q)
    if p.nullable before (some c) then left ++ q.after before c else left
  | .alt p q => p.after before c ++ q.after before c
  | .times low high p =>
    if high == some 0 then []
    else
      let rest := remaining (p.nullable before (some c)) low high p
      (p.after before c).map (join · rest)

/-- A number for a pattern, by which most patterns that differ are told apart. -/
def fingerprint : Pattern → UInt64
  | .empty => 3
  | .set s => mixHash 5 (hash s.head?)
  | .look _ => 7
  | .seq p q => mixHash p.fingerprint (mixHash 11 q.fingerprint)
  | .alt p q => mixHash p.fingerprint (mixHash 13 q.fingerprint)
  | .times low high p => mixHash (hash (low, high)) (mixHash 17 p.fingerprint)

instance : Hashable Pattern := ⟨fingerprint⟩

/-- The patterns of a list, each once. -/
def distinct (ps : List Pattern) : List Pattern :=
  (ps.foldl (fun (seen, done) p =>
    if seen.contains p then (seen, done) else (seen.insert p, p :: done))
    ((∅ : Std.HashSet Pattern), [])).2

/-- Whether one of `live`, or `p` begun at this place or later, matches up to some place. -/
def search (p : Pattern) : Option Char → List Pattern → List Char → Bool
  | before, live, [] => (p :: live).any (·.nullable before none)
  | before, live, c :: cs =>
    let here := p :: live
    here.any (·.nullable before (some c)) ||
      search p (some c) (distinct (here.flatMap (·.after before c))) cs

/-- Whether the pattern matches somewhere in a text. -/
def found (p : Pattern) (text : List Char) : Bool := p.search none [] text

end Pattern

end FieldBuffers
