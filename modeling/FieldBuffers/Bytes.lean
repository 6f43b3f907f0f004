import FieldBuffers.Numerals

/-!
Byte strings and little-endian words. Main statements: `ofLittle_little` and `little_ofLittle`,
a word of `n` bytes and the numbers below `256 ^ n` are the same thing.
-/

namespace FieldBuffers

abbrev Bytes := List UInt8

namespace Bytes

/-- The lowest `n` bytes of a number, least significant first. -/
def little : Nat → Nat → Bytes
  | 0, _ => []
  | n + 1, v => UInt8.ofNat (v % 256) :: little n (v / 256)

def ofLittle : Bytes → Nat
  | [] => 0
  | b :: bs => b.toNat + 256 * ofLittle bs

def zeros (n : Nat) : Bytes := List.replicate n 0

/-- The bytes of a text in UTF-8. -/
def ofText (s : String) : Bytes := s.toUTF8.data.toList

/-- The text whose UTF-8 form the bytes are, if they are one. -/
def toText? (bs : Bytes) : Option String := String.fromUTF8? ⟨bs.toArray⟩

@[simp] theorem length_little (n v : Nat) : (little n v).length = n := by
  induction n generalizing v with
  | zero => rfl
  | succ n ih => simp [little, ih]

@[simp] theorem length_zeros (n : Nat) : (zeros n).length = n := by simp [zeros]

theorem ofLittle_lt (bs : Bytes) : ofLittle bs < 256 ^ bs.length := by
  induction bs with
  | nil => simp [ofLittle]
  | cons b bs ih =>
    have hb : b.toNat < 256 := b.toNat_lt
    simp only [ofLittle, List.length_cons, Nat.pow_succ]
    omega

theorem ofLittle_little (n v : Nat) : ofLittle (little n v) = v % 256 ^ n := by
  induction n generalizing v with
  | zero => simp [little, ofLittle, Nat.mod_one]
  | succ n ih =>
    have h : v % 256 % 2 ^ 8 = v % 256 := Nat.mod_eq_of_lt (Nat.mod_lt v (by decide))
    rw [little, ofLittle, ih, UInt8.toNat_ofNat', h, Nat.pow_succ, Nat.mul_comm _ 256, Nat.mod_mul]

theorem little_ofLittle (bs : Bytes) : little bs.length (ofLittle bs) = bs := by
  induction bs with
  | nil => rfl
  | cons b bs ih =>
    have hb : b.toNat < 256 := b.toNat_lt
    rw [List.length_cons, little, ofLittle]
    congr 1
    · rw [Nat.add_mul_mod_self_left, Nat.mod_eq_of_lt hb, UInt8.ofNat_toNat]
    · rw [Nat.add_mul_div_left _ _ (by decide), Nat.div_eq_of_lt hb, Nat.zero_add, ih]

end Bytes

end FieldBuffers
