import FieldBuffers.Decimal.Reading
import FieldBuffers.Decimal.Shortest
import FieldBuffers.Proofs.Rounding

/-! Numerals as rational numbers. Rounding depends on the number alone (`round_congr`), and the
text of a word reads back as that word (`word?_text`). -/

namespace FieldBuffers

theorem bounds_of_isDigit {c : Char} (h : c.isDigit = true) : 48 ≤ c.toNat ∧ c.toNat ≤ 57 := by
  simp only [Char.isDigit, Bool.and_eq_true, decide_eq_true_eq] at h
  exact ⟨UInt32.le_iff_toNat_le.1 h.1, UInt32.le_iff_toNat_le.1 h.2⟩

theorem bounds_of_isAlpha {c : Char} (h : c.isAlpha = true) :
    65 ≤ c.toNat ∧ c.toNat ≤ 90 ∨ 97 ≤ c.toNat ∧ c.toNat ≤ 122 := by
  rcases Bool.or_eq_true_iff.1 h with h | h
  · have hupper := of_decide_eq_true h
    exact .inl ⟨UInt32.le_iff_toNat_le.1 hupper.1, UInt32.le_iff_toNat_le.1 hupper.2⟩
  · obtain ⟨hlow, hhigh⟩ := Bool.and_eq_true_iff.1 h
    exact .inr ⟨UInt32.le_iff_toNat_le.1 (of_decide_eq_true hlow),
      UInt32.le_iff_toNat_le.1 (of_decide_eq_true hhigh)⟩

namespace Binary.Format

/-- The finite words stand for numbers well within the reach of numerals. -/
structure Moderate (F : Format) : Prop where
  least : -Decimal.reach < F.leastExponent
  greatest : F.leastExponent + 2 ^ F.exponentBits + F.fractionBits < Decimal.reach

theorem moderate_binary32 : binary32.Moderate := ⟨by decide, by decide⟩

theorem moderate_binary64 : binary64.Moderate := ⟨by decide, by decide⟩

variable {F : Format} {word m : Nat} {s : Bool} {e : Int}

/-- What a finite word stands for, between two powers of two. -/
theorem Moderate.bounds (hF : F.Moderate) (h : F.decode word = .finite s m e) (hm : m ≠ 0) :
    (2 : ℚ) ^ (-Decimal.reach) ≤ m * 2 ^ e ∧ (m : ℚ) * 2 ^ e < 2 ^ Decimal.reach := by
  obtain ⟨-, hlt, he, hbits, -, hmag⟩ := decode_eq_finite h
  have htwo : (2 : ℚ) ≠ 0 := by norm_num
  have hleast := hF.least
  have hgreatest := hF.greatest
  constructor
  · have hone : (1 : ℚ) ≤ m := by exact_mod_cast Nat.pos_of_ne_zero hm
    calc (2 : ℚ) ^ (-Decimal.reach) ≤ 1 * 2 ^ e := by
          rw [one_mul]
          exact zpow_le_zpow_right₀ (by norm_num) (by omega)
      _ ≤ m * 2 ^ e := by gcongr
  · have hrange : (e - F.leastExponent).toNat < 2 ^ F.exponentBits - 1 := by
      refine Nat.lt_of_mul_lt_mul_right (a := 2 ^ F.fractionBits) ?_
      have : F.infinity = (2 ^ F.exponentBits - 1) * 2 ^ F.fractionBits := rfl
      omega
    have hpow : ((2 ^ F.exponentBits : Nat) : Int) = 2 ^ F.exponentBits := by push_cast; rfl
    calc (m : ℚ) * 2 ^ e < 2 ^ (F.fractionBits + 1) * 2 ^ e := by
          gcongr
          exact_mod_cast hbits
      _ = 2 ^ ((F.fractionBits : Int) + 1 + e) := by
          rw [zpow_add₀ htwo]
          norm_cast
      _ ≤ 2 ^ Decimal.reach := zpow_le_zpow_right₀ (by norm_num) (by omega)

end Binary.Format

namespace Decimal

open Binary (Format)

variable {F : Format} {d d' : Decimal} {q : ℚ} {n : Nat} {e : Int} {cs ds : List Char}

/-- The number a numeral stands for. -/
def toRat (d : Decimal) : ℚ := d.coefficient * 10 ^ d.exponent

theorem toRat_eq_zero_iff : d.toRat = 0 ↔ d.coefficient = 0 := by
  have h : (10 : ℚ) ^ d.exponent ≠ 0 := by positivity
  rw [toRat, mul_eq_zero, or_iff_left h, Nat.cast_eq_zero]

theorem length_digits (hn : n ≠ 0) : (digits n).length = Nat.log 10 n + 1 := by
  apply Nat.le_antisymm
  · exact (Nat.length_toDigits_le_iff (by decide) (Nat.succ_pos _)).2
      (Nat.lt_pow_succ_log_self (by decide) n)
  · by_contra h
    have hlog : Nat.log 10 n ≠ 0 := by
      have : 0 < (digits n).length := Nat.length_toDigits_pos
      omega
    have hlt := (Nat.length_toDigits_le_iff (by decide) (Nat.pos_of_ne_zero hlog)).1
      (show (digits n).length ≤ Nat.log 10 n by omega)
    exact Nat.not_lt.2 (Nat.pow_log_le_self 10 hn) hlt

theorem log_mul_zpow (hq : 0 < q) : Int.log 10 (q * 10 ^ e) = Int.log 10 q + e := by
  have hten : (10 : ℚ) ≠ 0 := by norm_num
  have hqe : 0 < q * 10 ^ e := by positivity
  apply le_antisymm
  · rw [← Int.lt_add_one_iff, ← Int.lt_zpow_iff_log_lt (by decide) hqe, Nat.cast_ofNat,
      add_right_comm, zpow_add₀ hten]
    gcongr
    exact Int.lt_zpow_succ_log_self (by decide) q
  · rw [← Int.zpow_le_iff_le_log (by decide) hqe, Nat.cast_ofNat, zpow_add₀ hten]
    gcongr
    exact Int.zpow_log_le_self (by decide) hq

theorem top_eq (hd : d.coefficient ≠ 0) :
    ((digits d.coefficient).length : Int) + d.exponent = Int.log 10 d.toRat + 1 := by
  have hc : (0 : ℚ) < d.coefficient := by exact_mod_cast Nat.pos_of_ne_zero hd
  rw [toRat, log_mul_zpow hc, Int.log_natCast, length_digits hd]
  push_cast
  ring

/-- Rounding looks at the number only. -/
theorem round_eq (F : Format) (d : Decimal) : d.round F =
    if d.toRat = 0 ∨ Int.log 10 d.toRat + 1 < -reach then 0
    else if reach < Int.log 10 d.toRat + 1 then F.infinity
    else F.round d.toRat := by
  rw [round]
  by_cases hd : d.coefficient = 0
  · rw [if_pos (.inl hd), if_pos (.inl (toRat_eq_zero_iff.2 hd))]
  · simp only [top_eq hd, toRat_eq_zero_iff]
    congr 2
    split
    · rename_i he
      obtain ⟨k, hk⟩ := Int.eq_ofNat_of_zero_le he
      rw [Format.roundQuotient_eq F Nat.one_pos, toRat, hk, Int.toNat_natCast, zpow_natCast]
      push_cast
      rw [div_one]
    · rename_i he
      obtain ⟨k, hk⟩ := Int.eq_ofNat_of_zero_le (show 0 ≤ -d.exponent by omega)
      rw [Format.roundQuotient_eq F (Nat.pow_pos (by decide)), toRat, hk, ← neg_neg d.exponent, hk,
        Int.toNat_natCast, zpow_neg, zpow_natCast, div_eq_mul_inv]
      push_cast
      rfl

theorem round_eq_zero (h : d.coefficient = 0) : d.round F = 0 := by
  rw [round_eq, if_pos (.inl (toRat_eq_zero_iff.2 h))]

theorem round_le (F : Format) (d : Decimal) : d.round F ≤ F.infinity := by
  rw [round_eq]
  split
  · exact Nat.zero_le _
  · split
    · exact Nat.le_refl _
    · rw [Format.round]
      split
      · exact Nat.zero_le _
      · exact Nat.min_le_left _ _

theorem round_congr (h : d.toRat = d'.toRat) : d.round F = d'.round F := by
  rw [round_eq, round_eq, h]

theorem round_of_bounded (h : (2 : ℚ) ^ (-reach) ≤ d.toRat ∧ d.toRat < 2 ^ reach) :
    d.round F = F.round d.toRat := by
  have hpos : 0 < d.toRat := lt_of_lt_of_le (by positivity) h.1
  have hpow : (2 : ℚ) ^ reach ≤ ((10 : Nat) : ℚ) ^ reach :=
    zpow_le_zpow_left₀ (by decide) (by norm_num) (by norm_num)
  have hlow : -reach ≤ Int.log 10 d.toRat := by
    rw [← Int.zpow_le_iff_le_log (by decide) hpos]
    refine le_trans ?_ h.1
    rw [zpow_neg, zpow_neg]
    exact inv_anti₀ (by positivity) hpow
  have hhigh : Int.log 10 d.toRat < reach := by
    rw [← Int.lt_zpow_iff_log_lt (by decide) hpos]
    exact lt_of_lt_of_le h.2 hpow
  have hzero : ¬ (d.toRat = 0 ∨ Int.log 10 d.toRat + 1 < -reach) := by
    rintro (h0 | hlt)
    · exact hpos.ne' h0
    · omega
  rw [round_eq, if_neg hzero, if_neg (by omega)]

/-! The shortest numeral. -/

theorem toRat_stripZeros (fuel : Nat) (d : Decimal) : (stripZeros fuel d).toRat = d.toRat := by
  induction fuel generalizing d with
  | zero => rfl
  | succ fuel ih =>
    rw [stripZeros]
    split
    · rename_i h
      have hdiv : ((d.coefficient / 10 : Nat) : ℚ) * 10 = d.coefficient := by
        exact_mod_cast Nat.div_mul_cancel (Nat.dvd_of_mod_eq_zero h.2)
      rw [ih, toRat, toRat, ← hdiv, zpow_add₀ (by norm_num), zpow_one]
      ring
    · rfl

theorem toRat_normalize : d.normalize.toRat = d.toRat := toRat_stripZeros _ d

theorem toRat_exact (m : Nat) (e : Int) : (exact m e).toRat = m * 2 ^ e := by
  rw [exact]
  split
  · rename_i he
    obtain ⟨k, rfl⟩ := Int.eq_ofNat_of_zero_le he
    simp [toRat]
  · rename_i he
    obtain ⟨k, hk⟩ := Int.eq_ofNat_of_zero_le (show 0 ≤ -e by omega)
    have h5 : ((5 : ℚ) ^ k) * ((10 : ℚ) ^ k)⁻¹ = (2 ^ k)⁻¹ := by
      rw [show (10 : ℚ) = 5 * 2 by norm_num, mul_pow, mul_inv, mul_inv_cancel_left₀ (by positivity)]
    rw [toRat, hk, ← neg_neg e, hk, Int.toNat_natCast, zpow_neg, zpow_neg, zpow_natCast,
      zpow_natCast, ← h5]
    push_cast
    ring

variable {word m : Nat} {s : Bool}

/-- Whether found among the candidates or not, the numeral of a finite word rounds to it. -/
theorem round_shortest (hF : F.Moderate) (h : F.decode word = .finite s m e) (hm : m ≠ 0) :
    (shortest F m e).round F = F.magnitude word := by
  obtain ⟨hden, hscale⟩ := Format.scale_eq m Nat.one_pos e
  rw [Nat.cast_one, div_one] at hscale
  have hword : F.roundQuotient (Format.scale m 1 e).1 (Format.scale m 1 e).2
      = F.magnitude word := by
    rw [Format.roundQuotient_eq F hden, hscale, Format.round_decode h]
  rw [shortest, round_congr toRat_normalize]
  simp only [hword]
  cases hfind : (candidates (Format.scale m 1 e).1 (Format.scale m 1 e).2 17).find?
      (·.round F == F.magnitude word) with
  | some d => simpa using List.find?_some hfind
  | none =>
    have hbounds := hF.bounds h hm
    rw [← toRat_exact] at hbounds
    rw [Option.getD_none, round_of_bounded hbounds, toRat_exact, Format.round_decode h]

/-! Positional numerals. -/

theorem isDigit_of_mem_digits {c : Char} (h : c ∈ digits n) : c.isDigit = true :=
  Nat.isDigit_of_mem_toDigits (by decide) (by decide) h

theorem value_digits : value (digits n) = n :=
  Nat.ofDigitChars_toDigits (by decide) (by decide)

theorem value_digits_zeros (k : Nat) :
    value (digits n ++ List.replicate k '0') = n * 10 ^ k := by
  change Nat.ofDigitChars 10 _ 0 = _
  rw [Nat.ofDigitChars_append, Nat.ofDigitChars_replicate_zero, Nat.mul_comm]
  exact congrArg (· * 10 ^ k) value_digits

theorem value_zeros_digits (k : Nat) :
    value (List.replicate k '0' ++ digits n) = n := by
  change Nat.ofDigitChars 10 _ 0 = _
  rw [Nat.ofDigitChars_append, Nat.ofDigitChars_replicate_zero, Nat.mul_zero]
  exact value_digits

theorem takeWhile_dropWhile {p : Char → Bool} (h : ∀ c ∈ ds, p c = true) (cs : List Char)
    (hcs : ∀ c ∈ cs.head?, p c = false) :
    (ds ++ cs).takeWhile p = ds ∧ (ds ++ cs).dropWhile p = cs := by
  rw [List.takeWhile_append_of_pos h, List.dropWhile_append_of_pos h]
  cases cs with
  | nil => simp
  | cons c cs => simp [hcs c rfl]

/-- Digits, read as a numeral. -/
theorem unsigned?_whole (h : ∀ c ∈ ds, c.isDigit = true) (hne : ds ≠ []) :
    unsigned? ds = some ⟨value ds, 0⟩ := by
  obtain ⟨htake, hdrop⟩ := takeWhile_dropWhile h [] (by simp)
  rw [List.append_nil] at htake hdrop
  simp [unsigned?, htake, hdrop, hne, exponent?]

/-- Digits around a point, read as a numeral. -/
theorem unsigned?_point (h : ∀ c ∈ ds, c.isDigit = true) (hne : ds ≠ [])
    (hcs : ∀ c ∈ cs, c.isDigit = true) :
    unsigned? (ds ++ '.' :: cs) = some ⟨value (ds ++ cs), -cs.length⟩ := by
  obtain ⟨htake, hdrop⟩ := takeWhile_dropWhile h ('.' :: cs) (by simp)
  obtain ⟨htake', hdrop'⟩ := takeWhile_dropWhile hcs [] (by simp)
  rw [List.append_nil] at htake' hdrop'
  simp [unsigned?, htake, hdrop, htake', hdrop', hne, exponent?]

/-- The digits of a positional numeral, before a point and after it. -/
theorem positional_eq (d : Decimal) : ∃ whole fraction : List Char,
    (∀ c ∈ whole, c.isDigit = true) ∧ whole ≠ [] ∧ (∀ c ∈ fraction, c.isDigit = true) ∧
      (d.positional = whole ∧ fraction = [] ∨
        d.positional = whole ++ '.' :: fraction ∧ fraction ≠ []) ∧
      (⟨value (whole ++ fraction), -fraction.length⟩ : Decimal).toRat = d.toRat := by
  have hdigits : digits d.coefficient ≠ [] := Nat.toDigits_ne_nil
  simp only [positional]
  split
  · rename_i h0
    refine ⟨['0'], [], by simp, by simp, by simp, .inl ⟨rfl, rfl⟩, ?_⟩
    rw [toRat_eq_zero_iff.2 h0, toRat_eq_zero_iff]
    rfl
  split
  · rename_i he
    obtain ⟨k, hk⟩ := Int.eq_ofNat_of_zero_le he
    refine ⟨digits d.coefficient ++ List.replicate d.exponent.toNat '0', [], ?_, by simp [hdigits],
      by simp, .inl ⟨rfl, rfl⟩, ?_⟩
    · intro c hc
      rcases List.mem_append.1 hc with hc | hc
      · exact isDigit_of_mem_digits hc
      · rw [List.eq_of_mem_replicate hc]
        rfl
    · rw [List.append_nil, value_digits_zeros, toRat, toRat, hk]
      simp
  rename_i he
  obtain ⟨k, hk⟩ := Int.eq_ofNat_of_zero_le (show 0 ≤ -d.exponent by omega)
  have hexp : d.exponent = -(k : Int) := by omega
  rw [hk, Int.toNat_natCast]
  split
  · rename_i hlt
    refine ⟨_, _, fun c hc => isDigit_of_mem_digits (List.mem_of_mem_take hc), ?_,
      fun c hc => isDigit_of_mem_digits (List.mem_of_mem_drop hc), .inr ⟨rfl, ?_⟩, ?_⟩
    · rw [Ne, List.take_eq_nil_iff]
      simp only [hdigits, or_false]
      omega
    · rw [Ne, List.drop_eq_nil_iff]
      omega
    · rw [List.take_append_drop, value_digits, List.length_drop, Nat.sub_sub_self hlt.le, ← hexp]
  · rename_i hle
    have hlen : (List.replicate (k - (digits d.coefficient).length) '0'
        ++ digits d.coefficient).length = k := by
      rw [List.length_append, List.length_replicate]
      omega
    refine ⟨['0'], _, by simp, by simp, ?_, .inr ⟨rfl, by simp [hdigits]⟩, ?_⟩
    · intro c hc
      rcases List.mem_append.1 hc with hc | hc
      · rw [List.eq_of_mem_replicate hc]
        rfl
      · exact isDigit_of_mem_digits hc
    · rw [hlen, ← List.append_assoc, show ['0'] = List.replicate 1 '0' from rfl,
        List.replicate_append_replicate, value_zeros_digits, ← hexp]

theorem unsigned?_positional (d : Decimal) :
    ∃ d' : Decimal, unsigned? d.positional = some d' ∧ d'.toRat = d.toRat := by
  obtain ⟨whole, fraction, hwhole, hne, hfraction, h | h, hrat⟩ := positional_eq d
  · obtain ⟨hd, rfl⟩ := h
    rw [List.append_nil] at hrat
    exact ⟨_, by rw [hd, unsigned?_whole hwhole hne], by simpa using hrat⟩
  · exact ⟨_, by rw [h.1, unsigned?_point hwhole hne hfraction], hrat⟩

theorem head_positional (d : Decimal) :
    ∃ c cs, d.positional = c :: cs ∧ c.isDigit = true := by
  obtain ⟨whole, fraction, hwhole, hne, -, h, -⟩ := positional_eq d
  obtain ⟨c, cs, rfl⟩ := List.exists_cons_of_ne_nil hne
  refine ⟨c, ?_⟩
  rcases h with h | h <;> rw [h.1]
  · exact ⟨cs, rfl, hwhole c (by simp)⟩
  · exact ⟨_, rfl, hwhole c (by simp)⟩

/-! Texts of words. -/

/-- What an unsigned numeral starts with. -/
def Starts (c : Char) : Prop := c.isDigit = true ∨ c = '.'

theorem splitSign_sign {c : Char} (h : Starts c) (s : Bool) :
    splitSign ((if s then ['-'] else []) ++ c :: cs) = (s, c :: cs) := by
  cases s with
  | true => rfl
  | false =>
    have hminus : c ≠ '-' := by rintro rfl; simp [Starts] at h
    have hplus : c ≠ '+' := by rintro rfl; simp [Starts] at h
    simp [splitSign, hminus, hplus]

/-- Such a body spells out no infinity and no not-a-number. -/
theorem word?_of_starts (F : Format) {c : Char} (h : Starts c) (cs : List Char) (s : Bool) :
    word? F ((if s then ['-'] else []) ++ c :: cs)
      = (unsigned? (c :: cs)).map fun d => F.withSign s (d.round F) := by
  have hlower : c.toLower = c := by
    rcases h with h | rfl
    · simp only [Char.isDigit, Bool.and_eq_true, decide_eq_true_eq] at h
      refine dif_neg fun hupper => ?_
      exact absurd (UInt32.le_trans hupper.1 h.2) (by decide)
    · rfl
  have hi : c ≠ 'i' := by rintro rfl; simp [Starts] at h
  have hn : c ≠ 'n' := by rintro rfl; simp [Starts] at h
  simp [word?, splitSign_sign h, hlower, hi, hn]

theorem word?_unsigned (F : Format) {c : Char} (h : Starts c) (cs : List Char) :
    word? F (c :: cs) = (unsigned? (c :: cs)).map (·.round F) := by
  have hread := word?_of_starts F h cs false
  rw [if_neg Bool.false_ne_true, List.nil_append] at hread
  exact hread

theorem word?_le {c : Char} (h : Starts c) (hword : word? F (c :: cs) = some word) :
    word ≤ F.infinity := by
  rw [word?_unsigned F h] at hword
  obtain ⟨d, -, rfl⟩ := Option.map_eq_some_iff.1 hword
  exact round_le F d

theorem decode_eq_infinite (h : F.decode word = .infinite s) :
    s = F.isNegative word ∧ F.magnitude word = F.infinity := by
  simp only [Format.decode] at h
  split at h
  · rename_i hmag
    exact ⟨(Binary.Datum.infinite.inj h).symm, hmag⟩
  · split at h
    · simp at h
    · split at h <;> simp at h

theorem text_of_finite (h : F.decode word = .finite s m e) :
    text F word = (if s then ['-'] else []) ++
      if m = 0 then ['0'] else (shortest F m e).positional := by
  rw [text, h]

/-- The text of a number without a sign: a digit, then digits and at most a point. -/
theorem text_digits (h : F.decode word = .finite false m e) :
    ∃ c cs, text F word = c :: cs ∧ c.isDigit = true ∧
      ∀ d ∈ cs, (d.isDigit || d == '.') = true := by
  rw [text_of_finite h, if_neg Bool.false_ne_true, List.nil_append]
  split
  · exact ⟨'0', [], rfl, by decide, by simp⟩
  obtain ⟨whole, fraction, hwhole, hne, hfraction, hpos, -⟩ := positional_eq (shortest F m e)
  obtain ⟨c, ds, rfl⟩ := List.exists_cons_of_ne_nil hne
  obtain ⟨hc, hds⟩ := List.forall_mem_cons.1 hwhole
  rcases hpos with ⟨hpos, -⟩ | ⟨hpos, -⟩
  · exact ⟨c, ds, hpos, hc, fun d hd => by simp [hds d hd]⟩
  · refine ⟨c, ds ++ '.' :: fraction, hpos, hc, ?_⟩
    intro d hd
    rcases List.mem_append.1 hd with hd | hd
    · simp [hds d hd]
    · rcases List.mem_cons.1 hd with rfl | hd
      · decide
      · simp [hfraction d hd]

/-- A word is read back from its text. -/
theorem word?_text (hF : F.Moderate) (hw : word < 2 * F.signWeight) (h : F.decode word ≠ .nan) :
    word? F (text F word) = some word := by
  have hback := Format.withSign_magnitude hw
  cases hdata : F.decode word with
  | nan => exact absurd hdata h
  | infinite s =>
    obtain ⟨rfl, hmag⟩ := decode_eq_infinite hdata
    rw [hmag] at hback
    simp only [text, hdata]
    cases hs : F.isNegative word <;> rw [hs] at hback <;> exact congrArg some hback
  | finite s m e =>
    obtain ⟨rfl, -⟩ := Format.decode_eq_finite hdata
    rw [text_of_finite hdata]
    by_cases hm : m = 0
    · subst hm
      have hzero : F.magnitude word = 0 := by
        rw [← Format.round_decode hdata, Nat.cast_zero, zero_mul, Format.round, if_pos rfl]
      rw [if_pos rfl, word?_of_starts F (.inl (by decide)),
        show unsigned? ['0'] = some ⟨0, 0⟩ from rfl, Option.map_some,
        round_eq_zero rfl, ← hzero, hback]
    · obtain ⟨d, hd, hrat⟩ := unsigned?_positional (shortest F m e)
      obtain ⟨c, cs, hcs, hc⟩ := head_positional (shortest F m e)
      rw [hcs] at hd
      rw [if_neg hm, hcs, word?_of_starts F (.inl hc), hd, Option.map_some, round_congr hrat,
        round_shortest hF hdata hm, hback]

end Decimal

end FieldBuffers
