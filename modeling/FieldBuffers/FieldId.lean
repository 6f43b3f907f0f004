import FieldBuffers.Width

/-!
Field identifiers: a kind and a number that fit a width family, and the word that packs them.
Main statements: `ofRaw?_raw` and `raw_of_ofRaw?`, packing loses nothing and unpacking accepts
nothing else.
-/

namespace FieldBuffers

structure FieldId (w : Width) where
  type : FieldType
  number : Nat
  number_pos : 0 < number
  number_le : number ≤ w.maxNumber
  supported : w.supports type = true
  deriving DecidableEq

namespace FieldId

variable {w : Width}

/-- Why a kind and a number make no identifier. -/
inductive Fault where
  | number | type

def Fault.message (w : Width) : Fault → String
  | .number => s!"number must be in 1..={w.maxNumber} for {w.name}"
  | .type => s!"type not supported by {w.name}"

/-- The number is looked at before the kind. -/
def make (w : Width) (type : FieldType) (number : Nat) : Except Fault (FieldId w) :=
  if hn : 0 < number ∧ number ≤ w.maxNumber then
    if hs : w.supports type = true then .ok ⟨type, number, hn.1, hn.2, hs⟩ else .error .type
  else .error .number

def make? (w : Width) (type : FieldType) (number : Nat) : Option (FieldId w) :=
  (make w type number).toOption

/-- The tag above the number bits, the number below. -/
def raw (f : FieldId w) : Nat := f.type.tag * 2 ^ w.numberBits + f.number

def ofRaw? (w : Width) (raw : Nat) : Option (FieldId w) :=
  (FieldType.ofTag? (raw / 2 ^ w.numberBits)).bind (make? w · (raw % 2 ^ w.numberBits))

/-- The form shown where no name is known. -/
def label (f : FieldId w) : String := s!"({f.type.keyword}:{f.number})"

/-- The form with the family, for inspection. -/
def inspect (f : FieldId w) : String := s!"FieldId<{w.name}>({f.type.keyword}:{f.number})"

theorem number_lt (f : FieldId w) : f.number < 2 ^ w.numberBits :=
  Width.lt_two_pow_iff.2 f.number_le

@[simp] theorem make?_self (f : FieldId w) : make? w f.type f.number = some f := by
  simp [make?, make, f.number_pos, f.number_le, f.supported, Except.toOption]

theorem ofRaw?_raw (f : FieldId w) : ofRaw? w f.raw = some f := by
  have h := f.number_lt
  have hd : f.raw / 2 ^ w.numberBits = f.type.tag := by
    rw [raw, Nat.mul_comm, Nat.mul_add_div (Nat.two_pow_pos _), Nat.div_eq_of_lt h, Nat.add_zero]
  have hm : f.raw % 2 ^ w.numberBits = f.number := by
    rw [raw, Nat.mul_comm, Nat.mul_add_mod, Nat.mod_eq_of_lt h]
  simp [ofRaw?, hd, hm]

theorem make?_eq_some {t : FieldType} {n : Nat} {f : FieldId w} (h : make? w t n = some f) :
    f.type = t ∧ f.number = n := by
  unfold make? make at h
  split at h
  · split at h
    · simp only [Except.toOption, Option.some.injEq] at h
      subst h
      exact ⟨rfl, rfl⟩
    · simp [Except.toOption] at h
  · simp [Except.toOption] at h

theorem raw_of_ofRaw? {n : Nat} {f : FieldId w} (h : ofRaw? w n = some f) : f.raw = n := by
  obtain ⟨t, ht, hf⟩ := Option.bind_eq_some_iff.1 h
  obtain ⟨h1, h2⟩ := make?_eq_some hf
  rw [raw, h1, h2, FieldType.tag_of_ofTag? ht, Nat.mul_comm, Nat.div_add_mod]

theorem raw_injective {f g : FieldId w} (h : f.raw = g.raw) : f = g := by
  have := ofRaw?_raw f
  rw [h, ofRaw?_raw] at this
  exact (Option.some.inj this).symm

theorem supported_tag_lt (f : FieldId w) :
    (f.type.tag + 1) * 2 ^ w.numberBits ≤ 256 ^ w.wordBytes := by
  have hs := f.supported
  cases w with
  | narrow =>
    simp only [Width.supports, decide_eq_true_eq] at hs
    change f.type.tag ≤ 7 at hs
    simp only [Width.numberBits, Width.wordBytes]
    omega
  | wide =>
    have := f.type.tag_le
    simp only [Width.numberBits, Width.wordBytes]
    omega

/-- Every identifier fits a word of its family. -/
theorem raw_lt (f : FieldId w) : f.raw < 256 ^ w.wordBytes := by
  have h := f.number_lt
  have h' := f.supported_tag_lt
  rw [Nat.add_mul, Nat.one_mul] at h'
  simp only [raw]
  omega

end FieldId

end FieldBuffers
