import FieldBuffers.Binary.Basic
import Mathlib.Data.Int.Log
import Mathlib.Data.Rat.Floor
import Mathlib.Algebra.Order.Floor.Semifield
import Mathlib.Algebra.Order.Field.Power
import Mathlib.Tactic.Linarith
import Mathlib.Tactic.FieldSimp
import Mathlib.Tactic.Positivity
import Mathlib.Tactic.Ring

/-! Rounding as a function of rational numbers. A quotient is rounded by its value alone
(`roundQuotient_eq`), and the value of a finite word is rounded to that word (`round_decode`). -/

namespace FieldBuffers.Binary.Format

variable {num den : Nat} {q : ℚ}

/-- The whole number nearest to a rational one; a half goes to the even neighbour. -/
def nearestTo (q : ℚ) : Nat :=
  if q - ⌊q⌋₊ < 1 / 2 then ⌊q⌋₊ else if 1 / 2 < q - ⌊q⌋₊ then ⌊q⌋₊ + 1 else ⌊q⌋₊ + ⌊q⌋₊ % 2

theorem nearest_eq (hd : 0 < den) : nearest num den = nearestTo ((num : ℚ) / den) := by
  have hd' : (0 : ℚ) < den := by exact_mod_cast hd
  have hfloor : ⌊(num : ℚ) / den⌋₊ = num / den := Nat.floor_div_eq_div num den
  have hfract : (num : ℚ) / den - (num / den : Nat) = (num % den : Nat) / den := by
    have h : ((den * (num / den) + num % den : Nat) : ℚ) = num := by rw [Nat.div_add_mod]
    push_cast at h
    field_simp
    linarith
  have hbelow : (num : ℚ) / den - (num / den : Nat) < 1 / 2 ↔ 2 * (num % den) < den := by
    rw [hfract, div_lt_div_iff₀ hd' (by norm_num)]
    constructor
    · intro h
      have h' : ((num % den * 2 : Nat) : ℚ) < (den : Nat) := by
        push_cast
        linarith
      have := Nat.cast_lt.1 h'
      omega
    · intro h
      have h' : ((2 * (num % den) : Nat) : ℚ) < (den : Nat) := Nat.cast_lt.2 h
      push_cast at h'
      linarith
  have habove : 1 / 2 < (num : ℚ) / den - (num / den : Nat) ↔ den < 2 * (num % den) := by
    rw [hfract, div_lt_div_iff₀ (by norm_num) hd']
    constructor
    · intro h
      have h' : ((den : Nat) : ℚ) < (num % den * 2 : Nat) := by
        push_cast
        linarith
      have := Nat.cast_lt.1 h'
      omega
    · intro h
      have h' : ((den : Nat) : ℚ) < (2 * (num % den) : Nat) := Nat.cast_lt.2 h
      push_cast at h'
      linarith
  simp only [nearest, nearestTo, hfloor, hbelow, habove]

theorem nearestTo_natCast (n : Nat) : nearestTo (n : ℚ) = n := by
  rw [nearestTo, Nat.floor_natCast, sub_self, if_pos (by norm_num)]

/-- A quotient of numbers with so many bits lies between two powers of two. -/
theorem floorLog_eq (hn : 0 < num) (hd : 0 < den) :
    floorLog num den = Int.log 2 ((num : ℚ) / den) := by
  have hn' : (0 : ℚ) < num := by exact_mod_cast hn
  have hd' : (0 : ℚ) < den := by exact_mod_cast hd
  have hq : (0 : ℚ) < num / den := div_pos hn' hd'
  have hnl : ((2 : ℕ) : ℚ) ^ (Nat.log2 num : Int) ≤ num := by
    exact_mod_cast Nat.log2_self_le hn.ne'
  have hnu : (num : ℚ) < ((2 : ℕ) : ℚ) ^ ((Nat.log2 num : Int) + 1) := by
    exact_mod_cast Nat.lt_log2_self
  have hdl : ((2 : ℕ) : ℚ) ^ (Nat.log2 den : Int) ≤ den := by
    exact_mod_cast Nat.log2_self_le hd.ne'
  have hdu : (den : ℚ) < ((2 : ℕ) : ℚ) ^ ((Nat.log2 den : Int) + 1) := by
    exact_mod_cast Nat.lt_log2_self
  have htwo : ((2 : ℕ) : ℚ) ≠ 0 := by norm_num
  generalize hk : (Nat.log2 num : Int) - Nat.log2 den = k
  have hupper : (num : ℚ) / den < ((2 : ℕ) : ℚ) ^ (k + 1) := by
    rw [div_lt_iff₀ hd']
    calc (num : ℚ) < ((2 : ℕ) : ℚ) ^ ((Nat.log2 num : Int) + 1) := hnu
      _ = ((2 : ℕ) : ℚ) ^ (k + 1) * ((2 : ℕ) : ℚ) ^ (Nat.log2 den : Int) := by
        rw [← zpow_add₀ htwo, ← hk]
        ring_nf
      _ ≤ ((2 : ℕ) : ℚ) ^ (k + 1) * den := by gcongr
  have hlower : ((2 : ℕ) : ℚ) ^ (k - 1) ≤ (num : ℚ) / den := by
    rw [le_div_iff₀ hd']
    calc ((2 : ℕ) : ℚ) ^ (k - 1) * den
        ≤ ((2 : ℕ) : ℚ) ^ (k - 1) * ((2 : ℕ) : ℚ) ^ ((Nat.log2 den : Int) + 1) := by gcongr
      _ = ((2 : ℕ) : ℚ) ^ (Nat.log2 num : Int) := by
        rw [← zpow_add₀ htwo, ← hk]
        ring_nf
      _ ≤ num := hnl
  have hfits : (if 0 ≤ k then den * 2 ^ k.toNat ≤ num else den ≤ num * 2 ^ (-k).toNat) ↔
      ((2 : ℕ) : ℚ) ^ k ≤ (num : ℚ) / den := by
    rw [le_div_iff₀ hd']
    split
    · rename_i h0
      obtain ⟨n, rfl⟩ := Int.eq_ofNat_of_zero_le h0
      rw [Int.toNat_natCast, zpow_natCast, mul_comm]
      exact_mod_cast Iff.rfl
    · rename_i h0
      obtain ⟨n, hn⟩ := Int.eq_ofNat_of_zero_le (show 0 ≤ -k by omega)
      have hpow : (0 : ℚ) < ((2 : ℕ) : ℚ) ^ n := by positivity
      rw [hn, Int.toNat_natCast, ← neg_neg k, hn, zpow_neg, zpow_natCast, inv_mul_eq_div,
        div_le_iff₀ hpow]
      exact_mod_cast Iff.rfl
  rw [Int.zpow_le_iff_le_log (by norm_num) hq] at hlower hfits
  rw [Int.lt_zpow_iff_log_lt (by norm_num) hq] at hupper
  simp only [floorLog, hk, hfits]
  split <;> omega

theorem scale_eq (num : Nat) (hd : 0 < den) (k : Int) : 0 < (scale num den k).2 ∧
    ((scale num den k).1 : ℚ) / (scale num den k).2 = (num : ℚ) / den * 2 ^ k := by
  have hd' : (den : ℚ) ≠ 0 := by exact_mod_cast hd.ne'
  rw [scale]
  split
  · rename_i hk
    obtain ⟨n, rfl⟩ := Int.eq_ofNat_of_zero_le hk
    refine ⟨hd, ?_⟩
    rw [Int.toNat_natCast, zpow_natCast]
    push_cast
    field_simp
  · rename_i hk
    obtain ⟨n, hn⟩ := Int.eq_ofNat_of_zero_le (show 0 ≤ -k by omega)
    refine ⟨Nat.mul_pos hd (Nat.pow_pos (by decide)), ?_⟩
    rw [hn, Int.toNat_natCast, ← neg_neg k, hn, zpow_neg, zpow_natCast]
    push_cast
    field_simp

variable (F : Format)

/-- The magnitude nearest to a rational number that is not negative. -/
def round (q : ℚ) : Nat :=
  if q = 0 then 0
  else
    let unit := max F.leastExponent (Int.log 2 q - F.fractionBits)
    min F.infinity ((unit - F.leastExponent).toNat * 2 ^ F.fractionBits
      + nearestTo (q * 2 ^ (-unit)))

theorem roundQuotient_eq (hd : 0 < den) :
    F.roundQuotient num den = F.round ((num : ℚ) / den) := by
  have hd' : (den : ℚ) ≠ 0 := by exact_mod_cast hd.ne'
  rw [roundQuotient, round]
  by_cases hn : num = 0
  · simp [hn]
  · have hq : ¬ (num : ℚ) / den = 0 := by
      rw [div_eq_zero_iff]
      push Not
      exact ⟨by exact_mod_cast hn, hd'⟩
    rw [if_neg hn, if_neg hq, floorLog_eq (Nat.pos_of_ne_zero hn) hd]
    obtain ⟨hs, heq⟩ := scale_eq num hd
      (-(max F.leastExponent (Int.log 2 ((num : ℚ) / den) - F.fractionBits)))
    simp only [nearest_eq hs, heq]

/-- A significand that fills its bits, or one with the least exponent, is rounded to itself. -/
theorem round_dyadic {m : Nat} {e : Int} (hm : m < 2 ^ (F.fractionBits + 1))
    (he : F.leastExponent ≤ e) (hfull : 2 ^ F.fractionBits ≤ m ∨ e = F.leastExponent) :
    F.round (m * 2 ^ e)
      = min F.infinity ((e - F.leastExponent).toNat * 2 ^ F.fractionBits + m) := by
  have htwo : (2 : ℚ) ≠ 0 := by norm_num
  rw [round]
  by_cases h0 : m = 0
  · subst h0
    have hpow : 0 < 2 ^ F.fractionBits := Nat.pow_pos (by decide)
    obtain rfl := hfull.resolve_left (by omega)
    simp
  · have hm' : (0 : ℚ) < m := by exact_mod_cast Nat.pos_of_ne_zero h0
    have hq : (0 : ℚ) < m * 2 ^ e := by positivity
    have hupper : Int.log 2 ((m : ℚ) * 2 ^ e) < F.fractionBits + 1 + e := by
      rw [← Int.lt_zpow_iff_log_lt (by norm_num) hq, Nat.cast_ofNat, zpow_add₀ htwo]
      gcongr
      exact_mod_cast hm
    have hunit : max F.leastExponent (Int.log 2 ((m : ℚ) * 2 ^ e) - F.fractionBits) = e := by
      rcases hfull with hfull | rfl
      · have hlower : (F.fractionBits : Int) + e ≤ Int.log 2 ((m : ℚ) * 2 ^ e) := by
          rw [← Int.zpow_le_iff_le_log (by norm_num) hq, Nat.cast_ofNat, zpow_add₀ htwo]
          gcongr
          exact_mod_cast hfull
        omega
      · omega
    have hscaled : (m : ℚ) * 2 ^ e * 2 ^ (-e) = m := by
      rw [mul_assoc, ← zpow_add₀ htwo, add_neg_cancel, zpow_zero, mul_one]
    rw [if_neg hq.ne']
    simp only [hunit, hscaled, nearestTo_natCast]

variable {F} {word m : Nat} {s : Bool} {e : Int}

/-- The parts of a finite word. -/
theorem decode_eq_finite (h : F.decode word = .finite s m e) :
    s = F.isNegative word ∧ F.magnitude word < F.infinity ∧ F.leastExponent ≤ e ∧
      m < 2 ^ (F.fractionBits + 1) ∧ (2 ^ F.fractionBits ≤ m ∨ e = F.leastExponent) ∧
      F.magnitude word = (e - F.leastExponent).toNat * 2 ^ F.fractionBits + m := by
  have hpow : 0 < 2 ^ F.fractionBits := Nat.pow_pos (by decide)
  have hsucc : 2 ^ (F.fractionBits + 1) = 2 * 2 ^ F.fractionBits := Nat.pow_succ'
  have hmod := Nat.mod_lt (F.magnitude word) hpow
  have hdiv := Nat.div_add_mod (F.magnitude word) (2 ^ F.fractionBits)
  simp only [decode] at h
  split at h
  · simp at h
  split at h
  · simp at h
  have hlt : F.magnitude word < F.infinity := by omega
  split at h
  · rename_i hfield
    obtain ⟨rfl, rfl, rfl⟩ := Datum.finite.inj h
    refine ⟨rfl, hlt, Int.le_refl _, by omega, .inr rfl, ?_⟩
    rw [hfield, Nat.mul_zero, Nat.zero_add] at hdiv
    rw [Int.sub_self, Int.toNat_zero, Nat.zero_mul, Nat.zero_add, hdiv]
  · rename_i hfield
    obtain ⟨rfl, rfl, rfl⟩ := Datum.finite.inj h
    refine ⟨rfl, hlt, by omega, by omega, .inl (by omega), ?_⟩
    obtain ⟨k, hk⟩ := Nat.exists_eq_succ_of_ne_zero hfield
    have he : (F.leastExponent + ((k.succ - 1 : Nat) : Int) - F.leastExponent).toNat = k := by omega
    rw [hk, he]
    rw [hk, Nat.mul_comm, Nat.succ_mul] at hdiv
    omega

theorem round_decode (h : F.decode word = .finite s m e) :
    F.round (m * 2 ^ e) = F.magnitude word := by
  obtain ⟨-, hlt, he, hm, hfull, hmag⟩ := decode_eq_finite h
  rw [F.round_dyadic hm he hfull, ← hmag, Nat.min_eq_right (Nat.le_of_lt hlt)]

theorem withSign_magnitude (h : word < 2 * F.signWeight) :
    F.withSign (F.isNegative word) (F.magnitude word) = word := by
  rw [withSign, isNegative, magnitude]
  by_cases hw : F.signWeight ≤ word
  · rw [if_pos (by simpa using hw), Nat.mod_eq_sub_mod hw, Nat.mod_eq_of_lt (by omega)]
    omega
  · rw [if_neg (by simpa using hw), Nat.mod_eq_of_lt (by omega)]

theorem isNegative_eq_false (h : word < F.signWeight) : F.isNegative word = false :=
  decide_eq_false (Nat.not_le.2 h)

end FieldBuffers.Binary.Format
