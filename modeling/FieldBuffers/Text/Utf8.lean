import FieldBuffers.Bytes

/-!
Reading bytes as text where they may not be UTF-8: each longest start of a character that does not
go on to be one is read as the replacement character.
-/

namespace FieldBuffers.Text

def replacement : Char := '\uFFFD'

def isContinuation (b : UInt8) : Bool := 0x80 ≤ b && b ≤ 0xBF

/-- For a leading byte: how many bytes follow, and the bounds of the first of them. -/
def followers (a : UInt8) : Option (Nat × UInt8 × UInt8) :=
  if 0xC2 ≤ a && a ≤ 0xDF then some (1, 0x80, 0xBF)
  else if a == 0xE0 then some (2, 0xA0, 0xBF)
  else if a == 0xED then some (2, 0x80, 0x9F)
  else if 0xE1 ≤ a && a ≤ 0xEF then some (2, 0x80, 0xBF)
  else if a == 0xF0 then some (3, 0x90, 0xBF)
  else if 0xF1 ≤ a && a ≤ 0xF3 then some (3, 0x80, 0xBF)
  else if a == 0xF4 then some (3, 0x80, 0x8F)
  else none

def low (b : UInt8) : Nat := b.toNat % 64

/-- The character that starts with `a`, and how many of the bytes after `a` it takes. -/
def character (a : UInt8) (rest : Bytes) : Char × Nat :=
  if a < 0x80 then (Char.ofNat a.toNat, 0)
  else
    match followers a with
    | none => (replacement, 0)
    | some (n, lo, hi) =>
      match rest with
      | [] => (replacement, 0)
      | b :: rest =>
        if b < lo || hi < b then (replacement, 0)
        else if n = 1 then (Char.ofNat (a.toNat % 32 * 64 + low b), 1)
        else
          match rest with
          | [] => (replacement, 1)
          | c :: rest =>
            if !isContinuation c then (replacement, 1)
            else if n = 2 then (Char.ofNat ((a.toNat % 16 * 64 + low b) * 64 + low c), 2)
            else
              match rest with
              | [] => (replacement, 2)
              | d :: _ =>
                if !isContinuation d then (replacement, 2)
                else (Char.ofNat (((a.toNat % 8 * 64 + low b) * 64 + low c) * 64 + low d), 3)

/-- The characters of some bytes after those already read, which stand in reverse. -/
def lenientAfter (done : List Char) : Bytes → List Char
  | [] => done.reverse
  | a :: rest =>
    let (c, n) := character a rest
    lenientAfter (c :: done) (rest.drop n)
termination_by bs => bs.length
decreasing_by simp only [List.length_drop, List.length_cons]; omega

/-- The bytes as text, whatever they are. -/
def lenient (bs : Bytes) : String :=
  match bs.toText? with
  | some s => s
  | none => String.ofList (lenientAfter [] bs)

end FieldBuffers.Text
