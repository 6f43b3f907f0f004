import FieldBuffers.Pattern.Basic
import FieldBuffers.Text.Blank
import FieldBuffers.Text.Hexadecimal

/-!
Where the reading of a pattern stands: the text that is left, the flags in force, and the groups
so far. A step that fails refuses the whole pattern.
-/

namespace FieldBuffers.Pattern

structure Flags where
  ignoreCase : Bool := false
  multiLine : Bool := false
  dotAll : Bool := false
  swapGreed : Bool := false
  unicode : Bool := true
  anyLine : Bool := false
  /-- Blanks and comments between the parts of a pattern are skipped. -/
  spaced : Bool := false

structure Cursor where
  rest : List Char
  flags : Flags := {}
  /-- How many groups have been opened. -/
  groups : Nat := 0
  names : List String := []

abbrev Parsing := StateT Cursor Option

namespace Parsing

def refuse {α : Type} : Parsing α := fun _ => none

def peek? : Parsing (Option Char) := fun c => some (c.rest.head?, c)

def next : Parsing Char := fun c =>
  match c.rest with
  | [] => none
  | x :: rest => some (x, { c with rest })

def expect (x : Char) : Parsing Unit := do
  if (← next) != x then refuse

/-- Takes `s` off the text if it starts with it. -/
def starts (s : String) : Parsing Bool := fun c =>
  if s.toList.isPrefixOf c.rest then some (true, { c with rest := c.rest.drop s.length })
  else some (false, c)

/-- A text without the blanks and comments that it starts with. -/
def withoutComments (cs : List Char) : List Char :=
  match _h : cs.dropWhile Text.isBlank with
  | '#' :: rest => withoutComments ((rest.dropWhile (· != '\n')).drop 1)
  | rest => rest
termination_by cs.length
decreasing_by
  have hcs := (List.dropWhile_suffix Text.isBlank (l := cs)).length_le
  have hrest := (List.dropWhile_suffix (· != '\n') (l := rest)).length_le
  simp only [_h, List.length_cons, List.length_drop] at *
  omega

theorem length_withoutComments_le (cs : List Char) :
    (withoutComments cs).length ≤ cs.length := by
  fun_induction withoutComments cs with
  | case1 cs rest h ih =>
    have hcs := (List.dropWhile_suffix Text.isBlank (l := cs)).length_le
    have hrest := (List.dropWhile_suffix (· != '\n') (l := rest)).length_le
    simp only [h, List.length_cons, List.length_drop] at *
    omega
  | case2 cs rest => exact (List.dropWhile_suffix Text.isBlank (l := cs)).length_le

def skipped (flags : Flags) (cs : List Char) : List Char :=
  if flags.spaced then withoutComments cs else cs

theorem length_skipped_le (flags : Flags) (cs : List Char) :
    (skipped flags cs).length ≤ cs.length := by
  unfold skipped
  split
  · exact length_withoutComments_le cs
  · exact Nat.le_refl _

def skip : Parsing Unit := modify fun c => { c with rest := skipped c.flags c.rest }

/-- Takes characters while they satisfy `p`. -/
def takeWhile (p : Char → Bool) : Parsing (List Char) := fun c =>
  some (c.rest.takeWhile p, { c with rest := c.rest.dropWhile p })

/-- A step, or the state from before it and nothing. -/
def orElse? {α : Type} (step : Parsing α) : Parsing (Option α) := fun c =>
  match step c with
  | some (a, c') => some (some a, c')
  | none => some (none, c)

/-- The characters that a text starts with while they satisfy `p`, and the rest. What the flags let
be skipped after each is left out. -/
def spanSpaced (flags : Flags) (p : Char → Bool) : List Char → List Char × List Char
  | [] => ([], [])
  | x :: cs =>
    if p x then
      let (xs, rest) := spanSpaced flags p (skipped flags cs)
      (x :: xs, rest)
    else ([], x :: cs)
termination_by cs => cs.length
decreasing_by
  have := length_skipped_le flags cs
  simp only [List.length_cons]
  omega

/-- Takes characters while they satisfy `p`, and what may be skipped after each. -/
def takeSpaced (p : Char → Bool) : Parsing (List Char) := fun c =>
  let (xs, rest) := spanSpaced c.flags p c.rest
  some (xs, { c with rest })

/-- A number in decimal below `2 ^ 32`, between blanks. -/
def decimal : Parsing Nat := do
  let _ ← takeWhile Text.isBlank
  let digits ← takeSpaced Char.isDigit
  let _ ← takeWhile Text.isBlank
  if digits.isEmpty then refuse
  let n := digits.foldl (fun n d => n * 10 + (d.toNat - '0'.toNat)) 0
  if n < 2 ^ 32 then return n else refuse

/-- The character whose code point some digits write. -/
def ofHexDigits (digits : List Char) : Parsing Char :=
  match (Text.hexNumber? digits).bind Text.character? with
  | some x => pure x
  | none => refuse

/-- A character by its code point in `width` hexadecimal digits, or in braces; whether it was in
braces. -/
def hex (width : Nat) : Parsing (Bool × Char) := do
  skip
  if ← starts "\x7b" then
    skip
    let digits ← takeSpaced (· != '\x7d')
    expect '\x7d'
    if digits.isEmpty then refuse
    return (true, ← ofHexDigits digits)
  else
    let digits ← (List.range width).mapM fun _ => do
      skip
      next
    return (false, ← ofHexDigits digits)

end Parsing

end FieldBuffers.Pattern
