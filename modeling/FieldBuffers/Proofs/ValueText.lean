import FieldBuffers.Dump.Printer
import FieldBuffers.Dump.Reader
import FieldBuffers.Proofs.Base64
import FieldBuffers.Proofs.Numeral

/-! Values as they stand in a dump. The text of a value is printable, and the value is read back
from it (`value_valueText`). -/

namespace FieldBuffers

/-- Written out by numbers below 127, and no blank. -/
def Graphic (c : Char) : Prop := 0x21 ≤ c.toNat ∧ c.toNat ≤ 0x7E

def Printable (c : Char) : Prop := 0x20 ≤ c.toNat ∧ c.toNat ≤ 0x7E

instance : DecidablePred Graphic := fun _ => instDecidableAnd

instance : DecidablePred Printable := fun _ => instDecidableAnd

-- The characters of a text are tested one by one, and not all the characters there are.
attribute [instance (2000)] List.decidableBAll

theorem Graphic.printable {c : Char} (h : Graphic c) : Printable c :=
  ⟨Nat.le_of_succ_le h.1, h.2⟩

theorem Graphic.not_blank {c : Char} (h : Graphic c) : Text.isBlank c = false := by
  obtain ⟨hlow, hhigh⟩ := h
  simp only [Text.isBlank, Bool.or_eq_false_iff, Bool.and_eq_false_iff, decide_eq_false_iff_not,
    beq_eq_false_iff_ne]
  omega

theorem graphic_of_isDigit {c : Char} (h : c.isDigit = true) : Graphic c := by
  have hbounds := bounds_of_isDigit h
  exact ⟨Nat.le_trans (by decide) hbounds.1, Nat.le_trans hbounds.2 (by decide)⟩

theorem Text.trim_graphic {cs : List Char} (h : ∀ c ∈ cs, Graphic c) : trim cs = cs :=
  trim_eq_self fun c hc => (h c hc).not_blank

/-! Whole numbers. -/

namespace Decimal

variable {low high i : Int} {n : Nat}

theorem natural?_digits (n : Nat) : natural? (digits n) = some n := by
  have hne : digits n ≠ [] := Nat.toDigits_ne_nil
  have hall : (digits n).all Char.isDigit = true :=
    List.all_eq_true.2 fun c hc => isDigit_of_mem_digits hc
  simp [natural?, hne, hall, value_digits]

theorem splitSign_digits (n : Nat) : splitSign (digits n) = (false, digits n) := by
  have hne : digits n ≠ [] := Nat.toDigits_ne_nil
  obtain ⟨c, cs, hcs⟩ := List.exists_cons_of_ne_nil hne
  have hc : c ∈ digits n := hcs ▸ List.mem_cons_self ..
  rw [hcs]
  exact splitSign_sign (.inl (isDigit_of_mem_digits hc)) false

theorem integer?_digits (hlow : low ≤ n) (hhigh : n ≤ high) :
    integer? low high (digits n) = some (n : Int) := by
  simp [integer?, splitSign_digits, natural?_digits, hlow, hhigh]

theorem integer?_minus_digits (hlow : low ≤ -n) (hzero : low ≠ 0) (hhigh : -n ≤ high) :
    integer? low high ('-' :: digits n) = some (-n : Int) := by
  simp [integer?, splitSign, natural?_digits, hlow, hzero, hhigh]

theorem toList_natCast (n : Nat) : (toString (n : Int)).toList = digits n :=
  String.toList_ofList

theorem toList_negSucc (n : Nat) : (toString (Int.negSucc n)).toList = '-' :: digits (n + 1) := by
  change ("-" ++ (n + 1).repr).toList = _
  rw [String.toList_append]
  exact congrArg ('-' :: ·) String.toList_ofList

/-- A number is read back from its text. -/
theorem integer?_toString (hlow : low ≤ i) (hneg : low ≠ 0) (hhigh : i ≤ high) :
    integer? low high (toString i).toList = some i := by
  cases i with
  | ofNat n =>
    rw [Int.ofNat_eq_natCast, toList_natCast]
    exact integer?_digits hlow hhigh
  | negSucc n =>
    rw [toList_negSucc]
    exact integer?_minus_digits hlow hneg hhigh

theorem graphic_toString {c : Char} (i : Int) (h : c ∈ (toString i).toList) : Graphic c := by
  cases i with
  | ofNat n =>
    rw [Int.ofNat_eq_natCast, toList_natCast] at h
    exact graphic_of_isDigit (isDigit_of_mem_digits h)
  | negSucc n =>
    rw [toList_negSucc] at h
    rcases List.mem_cons.1 h with rfl | h
    · decide
    · exact graphic_of_isDigit (isDigit_of_mem_digits h)

theorem graphic_text {F : Binary.Format} {word : Nat} {c : Char} (h : c ∈ text F word) :
    Graphic c := by
  have hdigit : ∀ d : Char, d.isDigit = true ∨ d = '.' → Graphic d := by
    rintro d (hd | rfl)
    · exact graphic_of_isDigit hd
    · decide
  have hsign : ∀ s : Bool, ∀ d ∈ (if s then ['-'] else []), Graphic d := by decide
  cases hdata : F.decode word with
  | nan =>
    have hnan : ∀ d ∈ ['N', 'a', 'N'], Graphic d := by decide
    rw [text, hdata] at h
    exact hnan c h
  | infinite s =>
    have hinf : ∀ d ∈ ['i', 'n', 'f'], Graphic d := by decide
    rw [text, hdata] at h
    exact (List.mem_append.1 h).elim (hsign s c) (hinf c)
  | finite s m e =>
    rw [text_of_finite hdata] at h
    rcases List.mem_append.1 h with h | h
    · exact hsign s c h
    split at h
    · exact hdigit c (.inl (List.mem_singleton.1 h ▸ rfl))
    obtain ⟨whole, fraction, hwhole, -, hfraction, hpos, -⟩ := positional_eq (shortest F m e)
    refine hdigit c ?_
    rcases hpos with ⟨hpos, -⟩ | ⟨hpos, -⟩
    · exact .inl (hwhole c (hpos ▸ h))
    · rw [hpos] at h
      rcases List.mem_append.1 h with h | h
      · exact .inl (hwhole c h)
      · exact (List.mem_cons.1 h).elim .inr fun h => .inl (hfraction c h)

end Decimal

/-! Addresses. -/

namespace Text

theorem hexNumber?_toDigits (n : Nat) : hexNumber? (Nat.toDigits 16 n) = some n := by
  have hdigit : ∀ k < 16, hexValue? k.digitChar = some k := by decide
  induction n using Nat.strongRecOn with
  | ind n ih =>
    by_cases hn : n < 16
    · rw [Nat.toDigits_of_lt_base hn, hexNumber?, List.foldlM_cons, hdigit n hn]
      simp
    · have hn := Nat.le_of_not_lt hn
      have hhead := ih (n / 16) (Nat.div_lt_self (by omega) (by decide))
      rw [hexNumber?] at hhead
      rw [Nat.toDigits_of_base_le (by decide) hn, hexNumber?, List.foldlM_append, hhead,
        Option.bind_eq_bind, Option.bind_some, List.foldlM_cons,
        hdigit _ (Nat.mod_lt _ (by decide))]
      simp [Nat.div_add_mod]

theorem exists_of_mem_toDigits {n : Nat} {c : Char} (h : c ∈ Nat.toDigits 16 n) :
    ∃ k < 16, c = Nat.digitChar k := by
  induction n using Nat.strongRecOn with
  | ind n ih =>
    by_cases hn : n < 16
    · rw [Nat.toDigits_of_lt_base hn] at h
      exact ⟨n, hn, List.mem_singleton.1 h⟩
    · have hn := Nat.le_of_not_lt hn
      rw [Nat.toDigits_of_base_le (by decide) hn] at h
      rcases List.mem_append.1 h with h | h
      · exact ih _ (Nat.div_lt_self (by omega) (by decide)) h
      · exact ⟨n % 16, Nat.mod_lt _ (by decide), List.mem_singleton.1 h⟩

theorem plain_of_mem_toDigits {n : Nat} {c : Char} (h : c ∈ Nat.toDigits 16 n) :
    Graphic c ∧ c ≠ 'x' ∧ c ≠ '+' := by
  obtain ⟨k, hk, rfl⟩ := exists_of_mem_toDigits h
  have hdigit : ∀ k < 16, Graphic k.digitChar ∧ k.digitChar ≠ 'x' ∧ k.digitChar ≠ '+' := by decide
  exact hdigit k hk

/-- A text is cut at the first mark in it. -/
theorem splitOnce_append {mark : Char} {before : List Char} (h : mark ∉ before)
    (after : List Char) : splitOnce mark (before ++ mark :: after) = some (before, after) := by
  have hp : ∀ c ∈ before, (c != mark) = true := fun c hc => by
    rw [bne_iff_ne]
    rintro rfl
    exact h hc
  obtain ⟨htake, hdrop⟩ := Decimal.takeWhile_dropWhile hp (mark :: after) (by simp)
  rw [splitOnce, hdrop, htake]

end Text

namespace Dump

theorem dropHexMark_eq_self {cs : List Char} (h : 'x' ∉ cs) : dropHexMark cs = cs := by
  unfold dropHexMark
  split
  · simp at h
  · rfl

theorem address?_toDigits {n : Nat} (hn : n < 2 ^ 64) : address? (Nat.toDigits 16 n) = some n := by
  have hne : Nat.toDigits 16 n ≠ [] := Nat.toDigits_ne_nil
  obtain ⟨c, cs, hcs⟩ := List.exists_cons_of_ne_nil hne
  have hplus : c ≠ '+' := (Text.plain_of_mem_toDigits (hcs ▸ List.mem_cons_self ..)).2.2
  have hnumber := Text.hexNumber?_toDigits n
  rw [hcs] at hnumber ⊢
  unfold address?
  split
  · rename_i heq
    exact absurd (List.cons.inj heq).1 hplus
  · simp [hnumber, hn]

/-! Escaped bytes. -/

theorem printable_escapeByte :
    ∀ b : UInt8, ∀ x ∈ escapeByte b, 0x20 ≤ x.toNat ∧ x.toNat ≤ 0x7E := by
  intro b
  have h : ∀ n : Fin 256, ∀ x ∈ escapeByte (UInt8.ofNat n), 0x20 ≤ x.toNat ∧ x.toNat ≤ 0x7E := by
    decide +kernel
  simpa using h ⟨b.toNat, b.toNat_lt⟩

theorem colon_of_mem_escapeByte : ∀ b : UInt8, 0x3A ∈ escapeByte b → b = 0x3A := by
  intro b
  have h : ∀ n : Fin 256, 0x3A ∈ escapeByte (UInt8.ofNat n) → UInt8.ofNat n = 0x3A := by
    decide +kernel
  simpa using h ⟨b.toNat, b.toNat_lt⟩

theorem printable_escape {bs : Bytes} {x : UInt8} (h : x ∈ escape bs) :
    0x20 ≤ x.toNat ∧ x.toNat ≤ 0x7E := by
  obtain ⟨b, -, hx⟩ := List.mem_flatMap.1 h
  exact printable_escapeByte b x hx

theorem toNat_ofNat {x : UInt8} (h : x.toNat ≤ 0x7E) : (Char.ofNat x.toNat).toNat = x.toNat := by
  have hall : ∀ n ≤ 0x7E, (Char.ofNat n).toNat = n := by decide
  exact hall _ h

theorem printable_escaped {bs : Bytes} {c : Char} (h : c ∈ (escaped bs).toList) : Printable c := by
  rw [escaped, String.toList_ofList] at h
  obtain ⟨x, hx, rfl⟩ := List.mem_map.1 h
  have hbounds := printable_escape hx
  rw [Printable, toNat_ofNat hbounds.2]
  exact hbounds

theorem ofText_escaped (bs : Bytes) : Bytes.ofText (escaped bs) = escape bs := by
  have hmap : ∀ c ∈ (escape bs).map fun x => Char.ofNat x.toNat, c.toNat < 128 := by
    intro c hc
    obtain ⟨x, hx, rfl⟩ := List.mem_map.1 hc
    have hbounds := printable_escape hx
    rw [toNat_ofNat hbounds.2]
    omega
  rw [escaped, Bytes.ofText_ofList hmap, List.map_map]
  refine (List.map_congr_left fun x hx => ?_).trans (List.map_id _)
  simp [toNat_ofNat (printable_escape hx).2]

theorem unescaped_escaped (line : Nat) (bs : Bytes) :
    unescaped line (escaped bs).toList = .ok bs := by
  rw [unescaped, String.ofList_toList, ofText_escaped, unescape_escape]
  rfl

/-- Every byte of a character that takes several is above the plain ones. -/
theorem toNat_of_mem_utf8EncodeChar {c : Char} {x : UInt8} (hx : x ∈ String.utf8EncodeChar c)
    (hlow : x.toNat < 128) : c.toNat = x.toNat := by
  have hval : c.val.toNat = c.toNat := rfl
  simp only [String.utf8EncodeChar, hval] at hx
  split at hx
  · obtain rfl := List.mem_singleton.1 hx
    rw [UInt8.toNat_ofNat', Nat.mod_eq_of_lt (by omega)]
  have habove : ∀ k : Nat, 128 ≤ k → k < 256 → x ≠ UInt8.ofNat k := by
    rintro k hk hlt rfl
    rw [UInt8.toNat_ofNat', Nat.mod_eq_of_lt hlt] at hlow
    omega
  split at hx
  · simp only [List.mem_cons, List.not_mem_nil, or_false] at hx
    rcases hx with hx | hx <;> exact absurd hx (habove _ (by omega) (by omega))
  split at hx
  · simp only [List.mem_cons, List.not_mem_nil, or_false] at hx
    rcases hx with hx | hx | hx <;> exact absurd hx (habove _ (by omega) (by omega))
  · simp only [List.mem_cons, List.not_mem_nil, or_false] at hx
    rcases hx with hx | hx | hx | hx <;> exact absurd hx (habove _ (by omega) (by omega))

theorem colon_not_mem_escaped {name : String} (h : ':' ∉ name.toList) :
    ':' ∉ (escaped (Bytes.ofText name)).toList := by
  intro hmem
  rw [escaped, String.toList_ofList] at hmem
  obtain ⟨x, hx, hcolon⟩ := List.mem_map.1 hmem
  have hxcolon : x = 0x3A := by
    have hnat := congrArg Char.toNat hcolon
    rw [toNat_ofNat (printable_escape hx).2] at hnat
    exact UInt8.toNat_inj.1 hnat
  obtain ⟨b, hb, hx⟩ := List.mem_flatMap.1 hx
  rw [colon_of_mem_escapeByte b (hxcolon ▸ hx)] at hb
  rw [← String.ofList_toList (s := name), Bytes.ofText_eq_flatMap] at hb
  obtain ⟨c, hc, hbyte⟩ := List.mem_flatMap.1 hb
  have hc' : c = ':' := Char.toNat_inj.1 (toNat_of_mem_utf8EncodeChar hbyte (by decide))
  exact h (hc' ▸ hc)

theorem named_escaped (line : Nat) (t : FieldType) {name : String} (h : ':' ∉ name.toList)
    (data : Bytes) :
    named line t (escaped (Bytes.ofText name) ++ ":" ++ escaped data).toList = .ok (name, data) := by
  have htext : (escaped (Bytes.ofText name) ++ ":" ++ escaped data).toList
      = (escaped (Bytes.ofText name)).toList ++ ':' :: (escaped data).toList := by
    simp [String.toList_append]
  rw [htext]
  simp only [named, Text.splitOnce_append (colon_not_mem_escaped h), unescaped_escaped, bind,
    Except.bind, Bytes.toText?_ofText, pure, Except.pure]

end Dump

/-! Values. -/

namespace Value

open Binary (binary32 binary64)

/-- A dump can tell the value: numbers that are none, pointers that own and names with a colon in
them do not come back. -/
def Tellable : Value → Prop
  | float word => binary32.decode word.toNat ≠ .nan
  | double word => binary64.decode word.toNat ≠ .nan
  | mbstring name _ | view name _ => ':' ∉ name.toList
  | ptr _ ownership => ownership = .borrowed
  | _ => True

instance : DecidablePred Tellable
  | float _ | double _ => inferInstanceAs (Decidable (_ ≠ _))
  | mbstring .. | view .. => inferInstanceAs (Decidable (_ ∉ _))
  | ptr .. => inferInstanceAs (Decidable (_ = _))
  | short _ | long _ | char _ | int _ | string _ | carray _ | fml _ => .isTrue trivial

end Value

namespace Dump

open Binary (binary32 binary64)

theorem toList_display_float (word : UInt32) :
    (Value.float word).display.toList = Decimal.text binary32 word.toNat := String.toList_ofList

theorem toList_display_double (word : UInt64) :
    (Value.double word).display.toList = Decimal.text binary64 word.toNat := String.toList_ofList

theorem toList_display_ptr (address : UInt64) (o : Ownership) :
    (Value.ptr address o).display.toList = '0' :: 'x' :: Nat.toDigits 16 address.toNat := by
  change ("0x" ++ String.ofList (Nat.toDigits 16 address.toNat)).toList = _
  rw [String.toList_append]
  exact congrArg ('0' :: 'x' :: ·) String.toList_ofList

theorem graphic_address (address : UInt64) :
    ∀ c ∈ '0' :: 'x' :: Nat.toDigits 16 address.toNat, Graphic c := by
  intro c hc
  rcases List.mem_cons.1 hc with rfl | hc
  · decide
  rcases List.mem_cons.1 hc with rfl | hc
  · decide
  · exact (Text.plain_of_mem_toDigits hc).1

theorem value_of_numeral {line : Nat} {t : FieldType} {cs : List Char} {v : Value}
    (ht : t = .short ∨ t = .long ∨ t = .int ∨ t = .float ∨ t = .double)
    (h : Value.ofNumeral? t (Text.trim cs) = some v) : value line t cs = .ok v := by
  rcases ht with rfl | rfl | rfl | rfl | rfl <;> simp only [value, h]

/-- A value is read back from its text. -/
theorem value_valueText (line : Nat) {v : Value} (hv : v.Tellable) (ht : v.type ≠ .fml) :
    value line v.type (valueText v).toList = .ok v := by
  cases v with
  | short v =>
    refine value_of_numeral (by simp [Value.type]) ?_
    change Value.ofNumeral? .short (Text.trim (toString v.toInt).toList) = _
    rw [Text.trim_graphic fun _ => Decimal.graphic_toString _, Value.ofNumeral?,
      Decimal.integer?_toString v.le_toInt (by decide) (Int.le_sub_one_of_lt v.toInt_lt)]
    simp [Value.ofInt]
  | long v =>
    refine value_of_numeral (by simp [Value.type]) ?_
    change Value.ofNumeral? .long (Text.trim (toString v.toInt).toList) = _
    rw [Text.trim_graphic fun _ => Decimal.graphic_toString _, Value.ofNumeral?,
      Decimal.integer?_toString v.le_toInt (by decide) (Int.le_sub_one_of_lt v.toInt_lt)]
    simp [Value.ofInt]
  | int v =>
    refine value_of_numeral (by simp [Value.type]) ?_
    change Value.ofNumeral? .int (Text.trim (toString v.toInt).toList) = _
    rw [Text.trim_graphic fun _ => Decimal.graphic_toString _, Value.ofNumeral?,
      Decimal.integer?_toString v.le_toInt (by decide) (Int.le_sub_one_of_lt v.toInt_lt)]
    simp [Value.ofInt]
  | float word =>
    refine value_of_numeral (by simp [Value.type]) ?_
    change Value.ofNumeral? .float (Text.trim (Value.float word).display.toList) = _
    have hlt : word.toNat < 2 * binary32.signWeight := word.toNat_lt
    rw [toList_display_float, Text.trim_graphic fun _ => Decimal.graphic_text, Value.ofNumeral?,
      Decimal.word?_text Binary.Format.moderate_binary32 hlt hv]
    simp
  | double word =>
    refine value_of_numeral (by simp [Value.type]) ?_
    change Value.ofNumeral? .double (Text.trim (Value.double word).display.toList) = _
    have hlt : word.toNat < 2 * binary64.signWeight := word.toNat_lt
    rw [toList_display_double, Text.trim_graphic fun _ => Decimal.graphic_text,
      Value.ofNumeral?, Decimal.word?_text Binary.Format.moderate_binary64 hlt hv]
    simp
  | char b =>
    simp [value, valueText, Value.type, unescaped_escaped, bind, Except.bind, pure, Except.pure]
  | string s =>
    simp [value, valueText, Value.type, unescaped_escaped, bind, Except.bind, pure, Except.pure,
      Bytes.toText?_ofText]
  | carray data => simp [value, valueText, Value.type, unescaped_escaped, Except.map]
  | mbstring name data | view name data =>
    exact congrArg (Except.map _) (named_escaped line _ hv data)
  | fml b => exact absurd rfl ht
  | ptr address o =>
    obtain rfl := hv
    have hx : 'x' ∉ Nat.toDigits 16 address.toNat :=
      fun h => (Text.plain_of_mem_toDigits h).2.1 rfl
    have htrim : Text.trim (valueText (.ptr address .borrowed)).toList
        = '0' :: 'x' :: Nat.toDigits 16 address.toNat := by
      change Text.trim (Value.ptr address .borrowed).display.toList = _
      rw [toList_display_ptr]
      exact Text.trim_graphic (graphic_address address)
    simp only [value, Value.type, htrim, dropHexMark, dropHexMark_eq_self hx,
      address?_toDigits address.toNat_lt, UInt64.ofNat_toNat]

theorem printable_valueText {v : Value} (ht : v.type ≠ .fml) {c : Char}
    (h : c ∈ (valueText v).toList) : Printable c := by
  have hnamed : ∀ name data : Bytes, c ∈ (escaped name ++ ":" ++ escaped data).toList →
      Printable c := by
    intro name data hc
    rw [String.toList_append, String.toList_append] at hc
    rcases List.mem_append.1 hc with hc | hc
    · rcases List.mem_append.1 hc with hc | hc
      · exact printable_escaped hc
      · rw [List.mem_singleton.1 hc]
        decide
    · exact printable_escaped hc
  cases v with
  | short v | long v | int v => exact (Decimal.graphic_toString v.toInt h).printable
  | float word =>
    change c ∈ (Value.float word).display.toList at h
    rw [toList_display_float] at h
    exact (Decimal.graphic_text h).printable
  | double word =>
    change c ∈ (Value.double word).display.toList at h
    rw [toList_display_double] at h
    exact (Decimal.graphic_text h).printable
  | char | string | carray => exact printable_escaped h
  | mbstring | view => exact hnamed _ _ h
  | fml => exact absurd rfl ht
  | ptr address o =>
    change c ∈ (Value.ptr address o).display.toList at h
    rw [toList_display_ptr] at h
    exact (graphic_address address c h).printable

end Dump

end FieldBuffers
