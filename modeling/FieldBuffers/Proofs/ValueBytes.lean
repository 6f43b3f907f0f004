import FieldBuffers.Proofs.Region

/-! Values as the bytes of entries. Every value that can be written and is no nested buffer is read
back as it was (`decodeFlat_encode`). -/

namespace FieldBuffers

open Item

variable {w : Width}

namespace Bytes

theorem toText?_ofText (s : String) : toText? (ofText s) = some s := by
  simp only [toText?, ofText, Array.toArray_toList, String.fromUTF8?]
  exact dif_pos s.isValidUTF8

theorem toText?_eq_some_iff {bs : Bytes} {s : String} : toText? bs = some s ↔ bs = ofText s := by
  constructor
  · intro h
    rw [toText?, String.fromUTF8?] at h
    split at h
    · obtain rfl := Option.some.inj h
      rfl
    · simp at h
  · rintro rfl
    exact toText?_ofText s

theorem length_ofText (s : String) : (ofText s).length = s.utf8ByteSize := by
  simp [ofText]

end Bytes

namespace Value

/-- The name that the value carries, if any, fits its length byte. -/
def Named : Value → Prop
  | mbstring name _ | view name _ => name.utf8ByteSize ≤ maxName
  | _ => True

/-- The buffer that the value is, if any, may stand inside another. -/
def Shallow : Value → Prop
  | fml (.allocated s) => nestingDepth .wide s.region < maxNesting
  | _ => True

theorem checkEncodable_eq_ok_iff (f : FieldId w) (v : Value) :
    checkEncodable f v = .ok () ↔ v.Named ∧ v.Shallow := by
  cases v with
  | fml b =>
    cases b with
    | null => simp [checkEncodable, Named, Shallow]
    | allocated s =>
      simp only [checkEncodable, Named, Shallow, true_and]
      split <;> simp <;> omega
  | mbstring name data | view name data =>
    simp only [checkEncodable, checkEncodable.name, Named, Shallow, and_true]
    split <;> simp <;> omega
  | _ => simp [checkEncodable, Named, Shallow]

theorem encodeEntry_eq_ok_iff (f : FieldId w) (v : Value) (bs : Bytes) :
    v.encodeEntry f = .ok bs ↔ v.Named ∧ v.Shallow ∧ (Item.mk f v.encode).Stated ∧
      bs = (Item.mk f v.encode).encode := by
  rw [encodeEntry, ok_bind_iff]
  constructor
  · rintro ⟨⟨⟩, hc, h⟩
    obtain ⟨hn, hs⟩ := (checkEncodable_eq_ok_iff f v).1 hc
    dsimp only at h
    split at h
    · exact ⟨hn, hs, ‹_›, (Except.ok.inj h).symm⟩
    · simp [throw, throwThe, MonadExceptOf.throw] at h
  · rintro ⟨hn, hs, hl, rfl⟩
    refine ⟨(), (checkEncodable_eq_ok_iff f v).2 ⟨hn, hs⟩, ?_⟩
    exact if_pos hl

theorem splitName_encodeName {name : String} (h : name.utf8ByteSize ≤ maxName) (offset : Nat)
    (data : Bytes) : splitName offset (encodeName name ++ data) = .ok (name, data) := by
  rw [splitName_eq_ok_iff]
  refine ⟨UInt8.ofNat name.utf8ByteSize, Bytes.ofText name, rfl, ?_, Bytes.toText?_ofText name⟩
  simp only [maxName] at h
  rw [Bytes.length_ofText, UInt8.toNat_ofNat', Nat.mod_eq_of_lt (by omega)]

theorem dropTerminator_append (bs : Bytes) : dropTerminator (bs ++ [0]) = bs := by
  simp [dropTerminator]

theorem ownership_toByte (o : Ownership) : Ownership.ofByte? o.toByte = some o := by
  cases o <;> rfl

theorem decodeFlat_encode {v : Value} (hn : v.Named) (hf : v.type ≠ .fml) (offset : Nat) :
    decodeFlat v.type offset v.encode = .ok v := by
  cases v with
  | short v =>
    have h : v.toUInt16.toNat < 256 ^ 2 := v.toUInt16.toNat_lt
    simp [type, decodeFlat, decodeFlat.sized, encode, Bytes.ofLittle_little, Nat.mod_eq_of_lt h]
  | long v =>
    have h : v.toUInt64.toNat < 256 ^ 8 := v.toUInt64.toNat_lt
    simp [type, decodeFlat, decodeFlat.sized, encode, Bytes.ofLittle_little, Nat.mod_eq_of_lt h]
  | char v => simp [type, decodeFlat, decodeFlat.sized, encode, Bytes.ofLittle]
  | float v =>
    have h : v.toNat < 256 ^ 4 := v.toNat_lt
    simp [type, decodeFlat, decodeFlat.sized, encode, Bytes.ofLittle_little, Nat.mod_eq_of_lt h]
  | double v =>
    have h : v.toNat < 256 ^ 8 := v.toNat_lt
    simp [type, decodeFlat, decodeFlat.sized, encode, Bytes.ofLittle_little, Nat.mod_eq_of_lt h]
  | int v =>
    have h : v.toUInt32.toNat < 256 ^ 4 := v.toUInt32.toNat_lt
    simp [type, decodeFlat, decodeFlat.sized, encode, Bytes.ofLittle_little, Nat.mod_eq_of_lt h]
  | string s => simp [type, decodeFlat, encode, dropTerminator_append, Bytes.toText?_ofText]
  | carray data => rfl
  | mbstring name data | view name data =>
    simp [type, decodeFlat, encode, splitName_encodeName hn, Except.map]
  | fml b => exact absurd rfl hf
  | ptr address o =>
    have h : address.toNat < 256 ^ 8 := address.toNat_lt
    simp [type, decodeFlat, decodeFlat.sized, encode, Bytes.ofLittle_little, Nat.mod_eq_of_lt h,
      ownership_toByte, bind, Except.bind, pure, Except.pure]

end Value

end FieldBuffers
