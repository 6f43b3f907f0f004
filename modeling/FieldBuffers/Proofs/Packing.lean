import FieldBuffers.Proofs.Outcome
import FieldBuffers.Error

/-! Identifiers as words of 32 bits, the tag shifted above the number. The words that are read as
identifiers are those of the kinds and numbers that make one, and the words of an entry hold every
identifier and every length that a value may have. -/

namespace FieldBuffers

namespace Width

variable {w : Width} {t : FieldType} {n : UInt32} {m : Nat}

def shift (w : Width) : UInt32 := UInt32.ofNat w.numberBits

def pack (w : Width) (t : FieldType) (n : UInt32) : UInt32 := UInt32.ofNat t.tag <<< w.shift ||| n

def unpackNumber (w : Width) (word : UInt32) : UInt32 := word &&& UInt32.ofNat w.maxNumber

/-- The kind of the byte above the number, which is raw bytes where no kind has that tag. -/
def unpackType (w : Width) (word : UInt32) : FieldType :=
  (FieldType.ofTag? (word >>> w.shift).toUInt8.toNat).getD .carray

/-- What is left of a word in the words of an entry. -/
def cut : Width → UInt32 → UInt32
  | narrow, word => word.toUInt16.toUInt32
  | wide, word => word

/-- The words of an entry hold a number: nothing of it is cut off, and it is read back whatever
bytes follow. -/
structure Carries (w : Width) (m : Nat) : Prop where
  cut : (w.cut (UInt32.ofNat m)).toNat = m
  read (rest : Bytes) : w.decodeWord (w.encodeWord m ++ rest) = m

theorem toNat_shift (w : Width) : w.shift.toNat = w.numberBits := by cases w <;> rfl

theorem numberBits_lt (w : Width) : w.numberBits < 32 := by cases w <;> decide

theorem toNat_shiftRight_shift (w : Width) (word : UInt32) :
    (word >>> w.shift).toNat = word.toNat / 2 ^ w.numberBits := by
  rw [UInt32.toNat_shiftRight, toNat_shift, Nat.mod_eq_of_lt w.numberBits_lt,
    Nat.shiftRight_eq_div_pow]

theorem toNat_unpackNumber (w : Width) (word : UInt32) :
    (w.unpackNumber word).toNat = word.toNat % 2 ^ w.numberBits := by
  have hmask : (UInt32.ofNat w.maxNumber).toNat = 2 ^ w.numberBits - 1 := by cases w <;> rfl
  rw [unpackNumber, UInt32.toNat_and, hmask, Nat.and_two_pow_sub_one_eq_mod]

theorem toNat_pack (hn : n.toNat ≤ w.maxNumber) :
    (w.pack t n).toNat = t.tag * 2 ^ w.numberBits + n.toNat := by
  have htag : (UInt32.ofNat t.tag).toNat = t.tag := by cases t <;> rfl
  -- No bit of the tag is shifted out of the word, and none meets the number.
  have hroom : t.tag * 2 ^ w.numberBits < 2 ^ 32 := by
    have ht := t.tag_le
    cases w <;> simp only [numberBits] <;> omega
  have hshift : (UInt32.ofNat t.tag <<< w.shift).toNat = t.tag <<< w.numberBits := by
    rw [UInt32.toNat_shiftLeft, toNat_shift, Nat.mod_eq_of_lt w.numberBits_lt, htag,
      Nat.mod_eq_of_lt (Nat.shiftLeft_eq .. ▸ hroom)]
  rw [pack, UInt32.toNat_or, hshift, ← Nat.shiftLeft_add_eq_or_of_lt (lt_two_pow_iff.2 hn),
    Nat.shiftLeft_eq]

theorem unpackNumber_pack (hn : n.toNat ≤ w.maxNumber) : w.unpackNumber (w.pack t n) = n := by
  refine UInt32.toNat_inj.1 ?_
  rw [toNat_unpackNumber, toNat_pack hn, Nat.mul_add_mod_self_right,
    Nat.mod_eq_of_lt (lt_two_pow_iff.2 hn)]

theorem unpackType_pack (hn : n.toNat ≤ w.maxNumber) : w.unpackType (w.pack t n) = t := by
  have htag : (w.pack t n >>> w.shift).toNat = t.tag := by
    rw [toNat_shiftRight_shift, toNat_pack hn, Nat.mul_comm, Nat.mul_add_div (Nat.two_pow_pos _),
      Nat.div_eq_of_lt (lt_two_pow_iff.2 hn), Nat.add_zero]
  have hbyte : t.tag < 2 ^ 8 := Nat.lt_of_le_of_lt t.tag_le (by decide)
  rw [unpackType, UInt32.toNat_toUInt8, htag, Nat.mod_eq_of_lt hbyte, FieldType.ofTag?_tag,
    Option.getD_some]

theorem toNat_cut (w : Width) (word : UInt32) :
    (w.cut word).toNat = word.toNat % 256 ^ w.wordBytes := by
  cases w with
  | narrow => rw [cut, UInt16.toNat_toUInt32, UInt32.toNat_toUInt16]; rfl
  | wide => exact (Nat.mod_eq_of_lt word.toNat_lt).symm

theorem decodeWord_eq_cut (w : Width) (word : UInt32) (rest : Bytes) :
    w.decodeWord (w.encodeWord word.toNat ++ rest) = (w.cut word).toNat := by
  rw [toNat_cut, decodeWord_append]

theorem carries_iff : w.Carries m ↔ m ≤ w.maxValueLength := by
  rw [← lt_word_iff]
  constructor
  · intro h
    rw [← h.cut, toNat_cut]
    exact Nat.mod_lt _ (Nat.pow_pos (by decide))
  · intro hm
    have hroom : 256 ^ w.wordBytes ≤ 2 ^ 32 := by cases w <;> decide
    have hword : (UInt32.ofNat m).toNat = m :=
      UInt32.toNat_ofNat_of_lt' (Nat.lt_of_lt_of_le hm hroom)
    exact ⟨by rw [toNat_cut, hword, Nat.mod_eq_of_lt hm], decodeWord_encodeWord hm⟩

end Width

namespace FieldId

variable {w : Width} {f g : FieldId w} {t : FieldType} {n raw : Nat}

theorem new_eq_ok_iff : new w t n = .ok f ↔ f.type = t ∧ f.number = n := by
  rw [new, ok_mapError_iff, ← toOption_eq_some_iff]
  constructor
  · exact make?_eq_some
  · rintro ⟨rfl, rfl⟩
    exact make?_self f

theorem exists_new_iff :
    (∃ f, new w t n = .ok f) ↔ w.supports t = true ∧ 0 < n ∧ n ≤ w.maxNumber := by
  constructor
  · rintro ⟨f, hf⟩
    obtain ⟨rfl, rfl⟩ := new_eq_ok_iff.1 hf
    exact ⟨f.supported, f.number_pos, f.number_le⟩
  · rintro ⟨hs, hpos, hle⟩
    exact ⟨⟨t, n, hpos, hle, hs⟩, new_eq_ok_iff.2 ⟨rfl, rfl⟩⟩

theorem ofRaw_eq_ok_iff : ofRaw w raw = .ok f ↔ f.raw = raw := by
  constructor
  · intro h
    rw [ofRaw] at h
    split at h
    · rename_i g hg
      cases h
      exact raw_of_ofRaw? hg
    · cases h
  · rintro rfl
    rw [ofRaw, ofRaw?_raw]

theorem toNat_number (f : FieldId w) : (UInt32.ofNat f.number).toNat = f.number :=
  UInt32.toNat_ofNat_of_lt' (Nat.lt_trans f.number_lt
    (Nat.pow_lt_pow_right (by decide) w.numberBits_lt))

theorem raw_eq_pack {n : UInt32} (h : new w t n.toNat = .ok f) : f.raw = (w.pack t n).toNat := by
  obtain ⟨rfl, hn⟩ := new_eq_ok_iff.1 h
  rw [Width.toNat_pack (hn ▸ f.number_le), raw, hn]

theorem raw_lt_of_tag_lt (h : f.type.tag < g.type.tag) : f.raw < g.raw := by
  calc f.raw
    _ < f.type.tag * 2 ^ w.numberBits + 2 ^ w.numberBits := Nat.add_lt_add_left f.number_lt _
    _ = (f.type.tag + 1) * 2 ^ w.numberBits := (Nat.succ_mul ..).symm
    _ ≤ g.type.tag * 2 ^ w.numberBits := Nat.mul_le_mul_right _ h
    _ ≤ g.raw := Nat.le_add_right ..

theorem compare_raw (f g : FieldId w) :
    compare f.raw g.raw = (compare f.type.tag g.type.tag).then (compare f.number g.number) := by
  obtain h | h | h := Nat.lt_trichotomy f.type.tag g.type.tag
  · rw [Nat.compare_eq_lt.2 h, Nat.compare_eq_lt.2 (raw_lt_of_tag_lt h), Ordering.lt_then]
  · rw [Nat.compare_eq_eq.2 h, Ordering.eq_then]
    simp only [raw, h, Nat.compare_eq_ite_lt, Nat.add_lt_add_iff_left]
  · rw [Nat.compare_eq_gt.2 h, Nat.compare_eq_gt.2 (raw_lt_of_tag_lt h), Ordering.gt_then]

/-- Kinds and numbers that make an identifier have a word each, which gives both back, and no other
word is read as an identifier. Identifiers stand in the order of their tags, and under one tag in
that of their numbers. A word that is stored and read back has lost what the words of an entry cut
off, which is nothing of any identifier and of any length that a value may have. -/
theorem packs_in_words (w : Width) :
    (∀ (t : FieldType) (n : UInt32),
      (∃ f, new w t n.toNat = .ok f) ↔ w.supports t = true ∧ 0 < n.toNat ∧ n.toNat ≤ w.maxNumber) ∧
    (∀ word : UInt32, (∃ f, ofRaw w word.toNat = .ok f) ↔
      ∃ (t : FieldType) (n : UInt32) (f : FieldId w),
        new w t n.toNat = .ok f ∧ f.raw = word.toNat) ∧
    (∀ (t : FieldType) (n : UInt32) (f : FieldId w), new w t n.toNat = .ok f →
      f.raw = (w.pack t n).toNat ∧ ofRaw w f.raw = .ok f ∧
        f.type = t ∧ w.unpackType (w.pack t n) = t ∧
        f.number = n.toNat ∧ w.unpackNumber (w.pack t n) = n) ∧
    (∀ (t u : FieldType) (n m : UInt32) (f g : FieldId w),
      new w t n.toNat = .ok f → new w u m.toNat = .ok g → f.raw = g.raw → t = u ∧ n = m) ∧
    (∀ f g : FieldId w,
      compare f.raw g.raw = (compare f.type.tag g.type.tag).then (compare f.number g.number)) ∧
    (∀ (word : UInt32) (rest : Bytes),
      w.decodeWord (w.encodeWord word.toNat ++ rest) = (w.cut word).toNat) ∧
    (∀ f : FieldId w, w.Carries f.raw) ∧
    (∀ length, w.Carries length ↔ length ≤ w.maxValueLength) := by
  refine ⟨fun t n => exists_new_iff, fun word => ⟨?_, ?_⟩, fun t n f hf => ?_, ?_, compare_raw,
    w.decodeWord_eq_cut, fun f => Width.carries_iff.2 (Width.lt_word_iff.1 f.raw_lt),
    fun length => Width.carries_iff⟩
  · rintro ⟨f, hf⟩
    exact ⟨f.type, _, f, new_eq_ok_iff.2 ⟨rfl, f.toNat_number.symm⟩, ofRaw_eq_ok_iff.1 hf⟩
  · rintro ⟨t, n, f, -, hraw⟩
    exact ⟨f, ofRaw_eq_ok_iff.2 hraw⟩
  · obtain ⟨htype, hnumber⟩ := new_eq_ok_iff.1 hf
    have hle : n.toNat ≤ w.maxNumber := hnumber ▸ f.number_le
    exact ⟨raw_eq_pack hf, ofRaw_eq_ok_iff.2 rfl, htype, Width.unpackType_pack hle, hnumber,
      Width.unpackNumber_pack hle⟩
  · intro t u n m f g hf hg hraw
    obtain ⟨rfl, hn⟩ := new_eq_ok_iff.1 hf
    obtain ⟨rfl, hm⟩ := new_eq_ok_iff.1 hg
    obtain rfl := raw_injective hraw
    exact ⟨rfl, UInt32.toNat_inj.1 (hn.symm.trans hm)⟩

/-- The highest narrow identifier fills its word. A word above has the tag of a kind that the other
family has alone. -/
theorem packs_in_words_highest :
    let f : FieldId .narrow := ⟨.int, 8191, by decide, by decide, by decide⟩
    new .narrow .int (8191 : UInt32).toNat = .ok f ∧ f.raw = 65535 ∧
      Width.narrow.unpackType 65535 = .int ∧ Width.narrow.unpackNumber 65535 = 8191 ∧
      (∀ g : FieldId .narrow, ofRaw .narrow (73729 : UInt32).toNat ≠ .ok g) ∧
      (∀ (t : FieldType) (n : UInt32) (g : FieldId .narrow),
        new .narrow t n.toNat = .ok g → g.raw ≠ 73729) ∧
      Width.narrow.Carries 65535 ∧ ¬ Width.narrow.Carries 65536 := by
  intro f
  have hf : new .narrow .int (8191 : UInt32).toNat = .ok f := rfl
  have hraw : f.raw = 65535 := by decide
  have hpack : Width.narrow.pack .int 8191 = 65535 := by decide
  have hrefused (g : FieldId .narrow) : ofRaw .narrow (73729 : UInt32).toNat ≠ .ok g := nofun
  obtain ⟨-, hread, hback, -, -, -, hcarries, hlength⟩ := packs_in_words .narrow
  obtain ⟨-, -, -, htype, -, hnumber⟩ := hback .int 8191 f hf
  rw [hpack] at htype hnumber
  refine ⟨hf, hraw, htype, hnumber, hrefused, fun t n g hg hraw => ?_, hraw ▸ hcarries f, ?_⟩
  · obtain ⟨g, hg⟩ := (hread 73729).2 ⟨t, n, g, hg, hraw⟩
    exact hrefused g hg
  · exact mt (hlength 65536).1 (by decide)

end FieldId

end FieldBuffers
