import FieldBuffers.Header

/-!
Entries: an identifier, the length of a value and the value, each word in the family's width. A
region is a header and then entries; scanning one stops at the first bytes that are no entry.
-/

namespace FieldBuffers

structure Entry (w : Width) where
  id : FieldId w
  /-- Where the entry starts in its region. -/
  offset : Nat
  value : Bytes
  deriving DecidableEq

namespace Entry

variable {w : Width}

def size (e : Entry w) : Nat := w.overhead + e.value.length

/-- Where the value starts. -/
def valueOffset (e : Entry w) : Nat := e.offset + w.overhead

/-- Where the next entry starts. -/
def stop (e : Entry w) : Nat := e.offset + e.size

def encode (e : Entry w) : Bytes :=
  w.encodeWord e.id.raw ++ w.encodeWord e.value.length ++ e.value

/-- The parts of the first entry of some bytes, before its identifier is looked at: the identifier
word, the length word, as much of the value as there is, and what follows. -/
structure Parts where
  raw : Nat
  length : Nat
  value : Bytes
  rest : Bytes

def parts? (w : Width) (bs : Bytes) : Option Parts :=
  let idWord := bs.take w.wordBytes
  let bs := bs.drop w.wordBytes
  let lengthWord := bs.take w.wordBytes
  let bs := bs.drop w.wordBytes
  if lengthWord.length < w.wordBytes then none
  else
    let length := Bytes.ofLittle lengthWord
    some ⟨Bytes.ofLittle idWord, length, bs.take length, bs.drop length⟩

/-- The first entry of some bytes that start at an offset, and the bytes after it. -/
def next? (w : Width) (offset : Nat) (bs : Bytes) : Option (Entry w × Bytes) :=
  match parts? w bs with
  | none => none
  | some p =>
    if p.value.length < p.length then none
    else (FieldId.ofRaw? w p.raw).map fun id => (⟨id, offset, p.value⟩, p.rest)

theorem length_rest_lt {bs : Bytes} {p : Parts} (h : parts? w bs = some p) :
    p.rest.length < bs.length := by
  have hw := w.wordBytes_pos
  simp only [parts?] at h
  split at h
  · simp at h
  · rename_i hl
    simp only [Option.some.injEq] at h
    subst h
    simp only [List.length_take, List.length_drop] at hl ⊢
    omega

theorem length_value_lt {bs : Bytes} {p : Parts} (h : parts? w bs = some p) :
    p.value.length < bs.length := by
  have hw := w.wordBytes_pos
  simp only [parts?] at h
  split at h
  · simp at h
  · rename_i hl
    simp only [Option.some.injEq] at h
    subst h
    simp only [List.length_take, List.length_drop] at hl ⊢
    omega

theorem next?_lt {offset : Nat} {bs rest : Bytes} {e : Entry w}
    (h : next? w offset bs = some (e, rest)) : rest.length < bs.length := by
  unfold next? at h
  split at h
  · simp at h
  · rename_i p hp
    split at h
    · simp at h
    · obtain ⟨id, _, hid⟩ := Option.map_eq_some_iff.1 h
      simp only [Prod.mk.injEq] at hid
      rw [← hid.2]
      exact length_rest_lt hp

/-- The entries of some bytes that start at an offset, up to the first bytes that are none. -/
def scan (w : Width) (offset : Nat) (bs : Bytes) : List (Entry w) :=
  match h : next? w offset bs with
  | none => []
  | some (e, rest) =>
    have := next?_lt h
    e :: scan w e.stop rest
termination_by bs.length

/-- The entries of a region, its header left out. -/
def ofRegion (w : Width) (region : Bytes) : List (Entry w) :=
  scan w Header.size (region.drop Header.size)

end Entry

end FieldBuffers
