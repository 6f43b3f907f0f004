import FieldBuffers.Bytes

/-!
Bytes in dumps. Printable ASCII stands for itself, a backslash is written twice, and any other byte
is a backslash and two hexadecimal digits. Main statement: `unescape_escape`, what is written is
read back.
-/

namespace FieldBuffers.Dump

def backslash : UInt8 := 0x5C

/-- A digit of base 16, in small letters. -/
def hexDigit (n : Nat) : UInt8 := UInt8.ofNat (if n < 10 then 48 + n else 87 + n)

def escapeByte (b : UInt8) : Bytes :=
  if b = backslash then [backslash, backslash]
  else if 0x20 ≤ b ∧ b ≤ 0x7E then [b]
  else [backslash, hexDigit (b.toNat / 16), hexDigit (b.toNat % 16)]

def escape (bs : Bytes) : Bytes := bs.flatMap escapeByte

def hexValue? (b : UInt8) : Option Nat :=
  if 48 ≤ b ∧ b ≤ 57 then some (b.toNat - 48)
  else if 97 ≤ b ∧ b ≤ 102 then some (b.toNat - 87)
  else if 65 ≤ b ∧ b ≤ 70 then some (b.toNat - 55)
  else none

/-- The byte of two characters in base 16; the first may be a plus sign. -/
def byte? (a b : UInt8) : Option UInt8 := do
  let low ← hexValue? b
  if a = 0x2B then return UInt8.ofNat low
  let high ← hexValue? a
  return UInt8.ofNat (16 * high + low)

/-- The bytes of an escaped text whose first byte is in some column, or the column of a backslash
that starts no escape. -/
def unescapeFrom (column : Nat) (done : Bytes) : Bytes → Except Nat Bytes
  | [] => .ok done.reverse
  | a :: rest =>
    if a ≠ backslash then unescapeFrom (column + 1) (a :: done) rest
    else
      match rest with
      | [] => .error column
      | b :: rest =>
        if b = backslash then unescapeFrom (column + 2) (backslash :: done) rest
        else
          match rest with
          | [] => .error column
          | c :: rest =>
            match byte? b c with
            | some x => unescapeFrom (column + 3) (x :: done) rest
            | none => .error column

/-- Columns count from one. -/
def unescape (bs : Bytes) : Except Nat Bytes := unescapeFrom 1 [] bs

theorem byte?_hexDigits : ∀ b : UInt8,
    byte? (hexDigit (b.toNat / 16)) (hexDigit (b.toNat % 16)) = some b := by
  intro b
  have h : ∀ n : Fin 256, byte? (hexDigit ((UInt8.ofNat n).toNat / 16))
      (hexDigit ((UInt8.ofNat n).toNat % 16)) = some (UInt8.ofNat n) := by decide +kernel
  have := h ⟨b.toNat, b.toNat_lt⟩
  simpa using this

theorem hexDigit_ne_backslash : ∀ b : UInt8, hexDigit (b.toNat / 16) ≠ backslash := by
  intro b
  have h : ∀ n : Fin 256, hexDigit ((UInt8.ofNat n).toNat / 16) ≠ backslash := by decide +kernel
  simpa using h ⟨b.toNat, b.toNat_lt⟩

theorem unescapeFrom_plain (column : Nat) (done rest : Bytes) {a : UInt8} (h : a ≠ backslash) :
    unescapeFrom column done (a :: rest) = unescapeFrom (column + 1) (a :: done) rest := by
  rw [unescapeFrom.eq_def]
  simp [h]

theorem unescapeFrom_backslash (column : Nat) (done rest : Bytes) :
    unescapeFrom column done (backslash :: backslash :: rest)
      = unescapeFrom (column + 2) (backslash :: done) rest := by
  rw [unescapeFrom.eq_def]
  simp

theorem unescapeFrom_digits (column : Nat) (done rest : Bytes) {b c x : UInt8}
    (hb : b ≠ backslash) (hx : byte? b c = some x) :
    unescapeFrom column done (backslash :: b :: c :: rest)
      = unescapeFrom (column + 3) (x :: done) rest := by
  rw [unescapeFrom.eq_def]
  simp [hb, hx]

/-- Reading an escaped byte leads past it. -/
theorem unescapeFrom_escapeByte (column : Nat) (done rest : Bytes) (b : UInt8) :
    ∃ k, unescapeFrom column done (escapeByte b ++ rest) = unescapeFrom k (b :: done) rest := by
  unfold escapeByte
  split
  · next h =>
    subst h
    exact ⟨_, unescapeFrom_backslash column done rest⟩
  · next h =>
    split
    · exact ⟨_, unescapeFrom_plain column done rest h⟩
    · exact ⟨_, unescapeFrom_digits column done rest (hexDigit_ne_backslash b) (byte?_hexDigits b)⟩

theorem unescapeFrom_escape (column : Nat) (done bs : Bytes) :
    unescapeFrom column done (escape bs) = .ok (done.reverse ++ bs) := by
  induction bs generalizing column done with
  | nil => simp [escape, unescapeFrom]
  | cons b bs ih =>
    obtain ⟨k, hk⟩ := unescapeFrom_escapeByte column done (escape bs) b
    have he : escape (b :: bs) = escapeByte b ++ escape bs := by simp [escape]
    rw [he, hk, ih]
    simp

theorem unescape_escape (bs : Bytes) : unescape (escape bs) = .ok bs := by
  simpa [unescape] using unescapeFrom_escape 1 [] bs

end FieldBuffers.Dump
