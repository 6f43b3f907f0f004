import FieldBuffers.Bytes
import FieldBuffers.FieldType

/-!
The two families of buffers: narrow ones, with words of two bytes and the plain kinds, and wide
ones, with words of four bytes and every kind.
-/

namespace FieldBuffers

inductive Width where
  | narrow | wide
  deriving DecidableEq, Repr

namespace Width

def name : Width → String
  | narrow => "fml16"
  | wide => "fml32"

/-- The environment variable that lists the family's tables. -/
def tablesVariable : Width → String
  | narrow => "FML_FIELD_TABLES"
  | wide => "FML_FIELD_TABLES32"

/-- The bytes of an identifier, and of a length, in an entry. -/
def wordBytes : Width → Nat
  | narrow => 2
  | wide => 4

/-- The bits of an identifier below its type tag. -/
def numberBits : Width → Nat
  | narrow => 13
  | wide => 25

def maxNumber (w : Width) : Nat := 2 ^ w.numberBits - 1

/-- The longest value whose length a word can state. -/
def maxValueLength (w : Width) : Nat := 256 ^ w.wordBytes - 1

def supports : Width → FieldType → Bool
  | narrow, t => t.tag ≤ FieldType.int.tag
  | wide, _ => true

def encodeWord (w : Width) (n : Nat) : Bytes := Bytes.little w.wordBytes n

/-- The word at the head of some bytes. -/
def decodeWord (w : Width) (bs : Bytes) : Nat := Bytes.ofLittle (bs.take w.wordBytes)

/-- The bytes that an entry spends besides its value: an identifier and a length. -/
def overhead (w : Width) : Nat := 2 * w.wordBytes

theorem lt_two_pow_iff {w : Width} {n : Nat} : n < 2 ^ w.numberBits ↔ n ≤ w.maxNumber :=
  (Nat.le_sub_one_iff_lt (Nat.two_pow_pos _)).symm

theorem lt_word_iff {w : Width} {n : Nat} : n < 256 ^ w.wordBytes ↔ n ≤ w.maxValueLength :=
  (Nat.le_sub_one_iff_lt (Nat.pow_pos (by decide))).symm

@[simp] theorem length_encodeWord (w : Width) (n : Nat) : (w.encodeWord n).length = w.wordBytes := by
  simp [encodeWord]

theorem decodeWord_append (w : Width) (n : Nat) (rest : Bytes) :
    w.decodeWord (w.encodeWord n ++ rest) = n % 256 ^ w.wordBytes := by
  rw [decodeWord, encodeWord, List.take_left' (Bytes.length_little _ _), Bytes.ofLittle_little]

theorem decodeWord_encodeWord {w : Width} {n : Nat} (h : n < 256 ^ w.wordBytes) (rest : Bytes) :
    w.decodeWord (w.encodeWord n ++ rest) = n := by
  rw [decodeWord_append, Nat.mod_eq_of_lt h]

theorem wordBytes_pos (w : Width) : 0 < w.wordBytes := by cases w <;> decide

end Width

end FieldBuffers
