import FieldBuffers.Error

/-!
The sixteen bytes at the start of every buffer. Main statement: `decode?_encode`, a header is read
back as it was written.
-/

namespace FieldBuffers

structure Header where
  magic : UInt32
  /-- The bytes of a word in the entries. -/
  word : UInt8
  flags : UInt8
  reserved : UInt16
  capacity : UInt32
  /-- The bytes in use, these sixteen included. -/
  used : UInt32
  deriving DecidableEq, Repr

namespace Header

def size : Nat := 16

/-- The letters `FMLB`. -/
def expectedMagic : UInt32 := 0x424C4D46

def indexedFlag : UInt8 := 1

/-- The header of an empty buffer. -/
def empty (w : Width) (capacity : Nat) : Header where
  magic := expectedMagic
  word := UInt8.ofNat w.wordBytes
  flags := indexedFlag
  reserved := 0
  capacity := UInt32.ofNat capacity
  used := UInt32.ofNat size

def encode (h : Header) : Bytes :=
  Bytes.little 4 h.magic.toNat ++ h.word :: h.flags :: Bytes.little 2 h.reserved.toNat
    ++ Bytes.little 4 h.capacity.toNat ++ Bytes.little 4 h.used.toNat

/-- The header at the front of some bytes. -/
def decode? : Bytes → Option Header
  | a :: b :: c :: d :: word :: flags :: e :: f :: g :: h :: i :: j :: k :: l :: m :: n :: _ =>
    some
      { magic := UInt32.ofNat (Bytes.ofLittle [a, b, c, d])
        word, flags
        reserved := UInt16.ofNat (Bytes.ofLittle [e, f])
        capacity := UInt32.ofNat (Bytes.ofLittle [g, h, i, j])
        used := UInt32.ofNat (Bytes.ofLittle [k, l, m, n]) }
  | _ => none

def decode (bs : Bytes) : Except Error Header :=
  match decode? bs with
  | some h => .ok h
  | none => .error (.corrupt 0 "buffer too small for header")

def isIndexed (h : Header) : Bool := h.flags &&& indexedFlag != 0

def setIndexed (h : Header) (indexed : Bool) : Header :=
  { h with flags := if indexed then h.flags ||| indexedFlag else h.flags &&& ~~~indexedFlag }

def available (h : Header) : Nat := h.capacity.toNat - h.used.toNat

/-- A word width is compared before the sizes, the lower bound on what is in use before the
upper one. -/
def check (h : Header) (word : Nat) : Except Error Unit :=
  if h.magic ≠ expectedMagic then .error (.corrupt 0 "invalid magic number")
  else if h.word.toNat ≠ word then
    .error (.corrupt 4 s!"word width {h.word} does not match expected {word}")
  else if h.used.toNat < size then .error (.corrupt 12 "used size smaller than header")
  else if h.capacity < h.used then .error (.corrupt 12 "used size exceeds capacity")
  else .ok ()

@[simp] theorem length_encode (h : Header) : h.encode.length = size := by
  simp [encode, size]

theorem decode?_encode (h : Header) (rest : Bytes) : decode? (h.encode ++ rest) = some h := by
  have h1 := Bytes.ofLittle_little 4 h.magic.toNat
  have h2 := Bytes.ofLittle_little 2 h.reserved.toNat
  have h3 := Bytes.ofLittle_little 4 h.capacity.toNat
  have h4 := Bytes.ofLittle_little 4 h.used.toNat
  have b1 := h.magic.toNat_lt
  have b2 := h.reserved.toNat_lt
  have b3 := h.capacity.toNat_lt
  have b4 := h.used.toNat_lt
  rw [Nat.mod_eq_of_lt (by omega)] at h1 h2 h3 h4
  simp only [Bytes.little] at h1 h2 h3 h4
  simp only [encode, Bytes.little, List.cons_append, List.nil_append, decode?, h1, h2, h3, h4,
    UInt32.ofNat_toNat, UInt16.ofNat_toNat]

end Header

end FieldBuffers
