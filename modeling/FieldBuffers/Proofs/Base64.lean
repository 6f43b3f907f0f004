import FieldBuffers.Base64
import FieldBuffers.Text.Blank
import FieldBuffers.Proofs.ValueBytes

/-! Base 64 is undone by reading it, and what it writes is plain text with no blanks. -/

namespace FieldBuffers

namespace Bytes

theorem ofText_eq_flatMap (cs : List Char) :
    ofText (String.ofList cs) = cs.flatMap String.utf8EncodeChar := by
  rw [ofText, String.toUTF8, String.toByteArray_ofList, List.utf8Encode]
  simp

theorem ofText_ofList {cs : List Char} (h : ∀ c ∈ cs, c.toNat < 128) :
    ofText (String.ofList cs) = cs.map fun c => UInt8.ofNat c.toNat := by
  rw [ofText_eq_flatMap]
  induction cs with
  | nil => rfl
  | cons c cs ih =>
    obtain ⟨hc, hcs⟩ := List.forall_mem_cons.1 h
    have hsize : c.utf8Size = 1 :=
      Char.utf8Size_eq_one_iff.2 (UInt32.le_iff_toNat_le.2 (Nat.le_of_lt_succ hc))
    rw [List.flatMap_cons, String.utf8EncodeChar_eq_singleton hsize, ih hcs]
    rfl

theorem length_le_ofText (cs : List Char) : cs.length ≤ (ofText (String.ofList cs)).length := by
  rw [ofText_eq_flatMap]
  induction cs with
  | nil => exact Nat.zero_le _
  | cons c cs ih =>
    have hpos := c.utf8Size_pos
    rw [List.flatMap_cons, List.length_append, String.length_utf8EncodeChar, List.length_cons]
    omega

end Bytes

namespace Base64

theorem value?_letter : ∀ n < 64, value? (letter n) = some n := by decide

theorem letter_ne_pad : ∀ n < 64, letter n ≠ '=' := by decide

/-- The characters that are written. -/
def Written (c : Char) : Prop := c = '=' ∨ ∃ n < 64, c = letter n

theorem Written.toNat_lt {c : Char} (h : Written c) : c.toNat < 128 := by
  have hletter : ∀ n < 64, (letter n).toNat < 128 := by decide
  rcases h with rfl | ⟨n, hn, rfl⟩
  · decide
  · exact hletter n hn

theorem Written.not_blank {c : Char} (h : Written c) : Text.isBlank c = false := by
  have hletter : ∀ n < 64, Text.isBlank (letter n) = false := by decide
  rcases h with rfl | ⟨n, hn, rfl⟩
  · decide
  · exact hletter n hn

theorem encodeAfter_eq : ∀ (done : List Char) (bs : Bytes),
    encodeAfter done bs = done.reverse ++ encode bs
  | done, a :: b :: c :: rest => by
    simp only [encode, encodeAfter]
    rw [encodeAfter_eq _ rest, encodeAfter_eq [_, _, _, _] rest]
    simp
  | done, [a, b] => by simp [encode, encodeAfter]
  | done, [a] => by simp [encode, encodeAfter]
  | done, [] => by simp [encode, encodeAfter]

theorem encode_cons (a b c : UInt8) (rest : Bytes) :
    encode (a :: b :: c :: rest) =
      letter (((a.toNat * 256 + b.toNat) * 256 + c.toNat) / 262144)
        :: letter (((a.toNat * 256 + b.toNat) * 256 + c.toNat) / 4096 % 64)
        :: letter (((a.toNat * 256 + b.toNat) * 256 + c.toNat) / 64 % 64)
        :: letter (((a.toNat * 256 + b.toNat) * 256 + c.toNat) % 64) :: encode rest := by
  rw [encode, encodeAfter, encodeAfter_eq]
  rfl

theorem written_of_mem_encode : ∀ (bs : Bytes), ∀ c ∈ encode bs, Written c
  | a :: b :: c :: rest => by
    have ha := a.toNat_lt
    have hb := b.toNat_lt
    have hc := c.toNat_lt
    rw [encode_cons]
    simp only [List.forall_mem_cons]
    refine ⟨.inr ⟨_, ?_, rfl⟩, .inr ⟨_, ?_, rfl⟩, .inr ⟨_, ?_, rfl⟩, .inr ⟨_, ?_, rfl⟩,
      written_of_mem_encode rest⟩
    all_goals omega
  | [a, b] => by
    have ha := a.toNat_lt
    have hb := b.toNat_lt
    simp only [encode, encodeAfter, List.reverse_cons, List.reverse_nil, List.nil_append,
      List.cons_append, List.forall_mem_cons]
    refine ⟨.inr ⟨_, ?_, rfl⟩, .inr ⟨_, ?_, rfl⟩, .inr ⟨_, ?_, rfl⟩, .inl rfl, by simp⟩
    all_goals omega
  | [a] => by
    have ha := a.toNat_lt
    simp only [encode, encodeAfter, List.reverse_cons, List.reverse_nil, List.nil_append,
      List.cons_append, List.forall_mem_cons]
    refine ⟨.inr ⟨_, ?_, rfl⟩, .inr ⟨_, ?_, rfl⟩, .inl rfl, .inl rfl, by simp⟩
    all_goals omega
  | [] => by simp [encode, encodeAfter]

section Decode

variable {x y z t : Nat} (done : Bytes)

theorem decodeAfter_letters (hx : x < 64) (hy : y < 64) (hz : z < 64) (ht : t < 64)
    (cs : List Char) : decodeAfter done (letter x :: letter y :: letter z :: letter t :: cs)
      = decodeAfter (UInt8.ofNat ((((x * 64 + y) * 64 + z) * 64 + t) % 256)
        :: UInt8.ofNat ((((x * 64 + y) * 64 + z) * 64 + t) / 256 % 256)
        :: UInt8.ofNat ((((x * 64 + y) * 64 + z) * 64 + t) / 65536) :: done) cs := by
  have hpad := letter_ne_pad t ht
  rw [decodeAfter]
  · simp only [value?_letter x hx, value?_letter y hy, value?_letter z hz, value?_letter t ht]
  · exact fun _ h => absurd h hpad
  · exact fun h => absurd h hpad

theorem decodeAfter_pad (hx : x < 64) (hy : y < 64) (hz : z < 64) :
    decodeAfter done [letter x, letter y, letter z, '=']
      = if ((x * 64 + y) * 64 + z) % 4 = 0 then
          some (UInt8.ofNat (((x * 64 + y) * 64 + z) / 4 % 256)
            :: UInt8.ofNat (((x * 64 + y) * 64 + z) / 1024) :: done).reverse
        else none := by
  rw [decodeAfter]
  · simp only [value?_letter x hx, value?_letter y hy, value?_letter z hz]
  · exact fun h => absurd h (letter_ne_pad z hz)

theorem decodeAfter_pads (hx : x < 64) (hy : y < 64) :
    decodeAfter done [letter x, letter y, '=', '=']
      = if (x * 64 + y) % 16 = 0 then some (UInt8.ofNat ((x * 64 + y) / 16) :: done).reverse
        else none := by
  rw [decodeAfter]
  simp only [value?_letter x hx, value?_letter y hy]

end Decode

theorem decodeAfter_encode : ∀ (done bs : Bytes),
    decodeAfter done (encode bs) = some (done.reverse ++ bs)
  | done, a :: b :: c :: rest => by
    have ha := a.toNat_lt
    have hb := b.toNat_lt
    have hc := c.toNat_lt
    rw [encode_cons]
    generalize hn : (a.toNat * 256 + b.toNat) * 256 + c.toNat = n
    have hjoin : ((n / 262144 * 64 + n / 4096 % 64) * 64 + n / 64 % 64) * 64 + n % 64 = n := by
      omega
    have h1 : n % 256 = c.toNat := by omega
    have h2 : n / 256 % 256 = b.toNat := by omega
    have h3 : n / 65536 = a.toNat := by omega
    rw [decodeAfter_letters done (by omega) (by omega) (by omega) (by omega), hjoin, h1, h2, h3,
      decodeAfter_encode _ rest]
    simp
  | done, [a, b] => by
    have ha := a.toNat_lt
    have hb := b.toNat_lt
    simp only [encode, encodeAfter, List.reverse_cons, List.reverse_nil, List.nil_append,
      List.cons_append]
    generalize hn : (a.toNat * 256 + b.toNat) * 4 = n
    have hjoin : (n / 4096 * 64 + n / 64 % 64) * 64 + n % 64 = n := by omega
    have h0 : n % 4 = 0 := by omega
    have h1 : n / 4 % 256 = b.toNat := by omega
    have h2 : n / 1024 = a.toNat := by omega
    rw [decodeAfter_pad done (by omega) (by omega) (by omega), hjoin, if_pos h0, h1, h2]
    simp
  | done, [a] => by
    have ha := a.toNat_lt
    simp only [encode, encodeAfter, List.reverse_cons, List.reverse_nil, List.nil_append,
      List.cons_append]
    generalize hn : a.toNat * 16 = n
    have hjoin : n / 64 * 64 + n % 64 = n := by omega
    have h0 : n % 16 = 0 := by omega
    have h1 : n / 16 = a.toNat := by omega
    rw [decodeAfter_pads done (by omega) (by omega), hjoin, if_pos h0, h1]
    simp
  | done, [] => by simp [encode, encodeAfter, decodeAfter]

theorem decode_encode (bs : Bytes) : decode (encode bs) = some bs := decodeAfter_encode [] bs

theorem value?_eq_some {c : Char} {x : Nat} (h : value? c = some x) : x < 64 ∧ c = letter x := by
  simp only [value?] at h
  split at h
  · rename_i hc
    simp only [Bool.and_eq_true, decide_eq_true_eq] at hc
    obtain rfl := Option.some.inj h
    refine ⟨by omega, ?_⟩
    rw [letter, if_pos (by omega), Nat.add_sub_cancel' hc.1, Char.ofNat_toNat]
  split at h
  · rename_i hc
    simp only [Bool.and_eq_true, decide_eq_true_eq] at hc
    obtain rfl := Option.some.inj h
    refine ⟨by omega, ?_⟩
    rw [letter, if_neg (by omega), if_pos (by omega), Nat.add_sub_cancel' (by omega),
      Char.ofNat_toNat]
  split at h
  · rename_i hc
    simp only [Bool.and_eq_true, decide_eq_true_eq] at hc
    obtain rfl := Option.some.inj h
    refine ⟨by omega, ?_⟩
    rw [letter, if_neg (by omega), if_neg (by omega), if_pos (by omega), Nat.add_sub_cancel,
      Char.ofNat_toNat]
  split at h
  · rename_i hc
    obtain rfl := Option.some.inj h
    exact ⟨by decide, beq_iff_eq.1 hc⟩
  split at h
  · rename_i hc
    obtain rfl := Option.some.inj h
    exact ⟨by decide, beq_iff_eq.1 hc⟩
  · simp at h

/-- Only what is written is read. -/
theorem exists_of_decodeAfter {done bs : Bytes} {cs : List Char}
    (h : decodeAfter done cs = some bs) : ∃ more, bs = done.reverse ++ more ∧ cs = encode more := by
  fun_induction decodeAfter done cs with
  | case1 => exact ⟨[], by simpa using h.symm, rfl⟩
  | case2 done a b x y hb ha n hn =>
    obtain ⟨hx, rfl⟩ := value?_eq_some ha
    obtain ⟨hy, rfl⟩ := value?_eq_some hb
    have hbyte : (UInt8.ofNat (n / 16)).toNat = n / 16 := by
      rw [UInt8.toNat_ofNat', Nat.mod_eq_of_lt (by omega)]
    have h1 : n / 16 * 16 % 64 = y := by omega
    have h2 : n / 16 * 16 / 64 = x := by omega
    refine ⟨[UInt8.ofNat (n / 16)], by simpa using h.symm, ?_⟩
    simp only [encode, encodeAfter, hbyte, h1, h2]
    rfl
  | case5 done a b c _ x y z hc hb ha n hn =>
    obtain ⟨hx, rfl⟩ := value?_eq_some ha
    obtain ⟨hy, rfl⟩ := value?_eq_some hb
    obtain ⟨hz, rfl⟩ := value?_eq_some hc
    have hlow : (UInt8.ofNat (n / 4 % 256)).toNat = n / 4 % 256 := by
      rw [UInt8.toNat_ofNat', Nat.mod_eq_of_lt (by omega)]
    have hhigh : (UInt8.ofNat (n / 1024)).toNat = n / 1024 := by
      rw [UInt8.toNat_ofNat', Nat.mod_eq_of_lt (by omega)]
    have hjoin : (n / 1024 * 256 + n / 4 % 256) * 4 = n := by omega
    have h1 : n % 64 = z := by omega
    have h2 : n / 64 % 64 = y := by omega
    have h3 : n / 4096 = x := by omega
    refine ⟨[UInt8.ofNat (n / 1024), UInt8.ofNat (n / 4 % 256)], by simpa using h.symm, ?_⟩
    simp only [encode, encodeAfter, hlow, hhigh, hjoin, h1, h2, h3]
    rfl
  | case8 done a b c d rest _ _ x y z t hd hc hb ha n ih =>
    obtain ⟨hx, rfl⟩ := value?_eq_some ha
    obtain ⟨hy, rfl⟩ := value?_eq_some hb
    obtain ⟨hz, rfl⟩ := value?_eq_some hc
    obtain ⟨ht, rfl⟩ := value?_eq_some hd
    obtain ⟨more, hbs, rfl⟩ := ih h
    have hlow : (UInt8.ofNat (n % 256)).toNat = n % 256 := by
      rw [UInt8.toNat_ofNat', Nat.mod_eq_of_lt (by omega)]
    have hmid : (UInt8.ofNat (n / 256 % 256)).toNat = n / 256 % 256 := by
      rw [UInt8.toNat_ofNat', Nat.mod_eq_of_lt (by omega)]
    have hhigh : (UInt8.ofNat (n / 65536)).toNat = n / 65536 := by
      rw [UInt8.toNat_ofNat', Nat.mod_eq_of_lt (by omega)]
    have hjoin : (n / 65536 * 256 + n / 256 % 256) * 256 + n % 256 = n := by omega
    have h1 : n % 64 = t := by omega
    have h2 : n / 64 % 64 = z := by omega
    have h3 : n / 4096 % 64 = y := by omega
    have h4 : n / 262144 = x := by omega
    refine ⟨UInt8.ofNat (n / 65536) :: UInt8.ofNat (n / 256 % 256) :: UInt8.ofNat (n % 256) :: more,
      by simp [hbs], ?_⟩
    rw [encode_cons, hlow, hmid, hhigh, hjoin, h1, h2, h3, h4]
  | _ => simp at h

theorem decode_eq_some_iff {cs : List Char} {bs : Bytes} :
    decode cs = some bs ↔ cs = encode bs := by
  constructor
  · intro h
    obtain ⟨more, rfl, rfl⟩ := exists_of_decodeAfter h
    rfl
  · rintro rfl
    exact decode_encode bs

theorem length_le_encode : ∀ bs : Bytes, bs.length ≤ (encode bs).length
  | a :: b :: c :: rest => by
    have ih := length_le_encode rest
    rw [encode_cons]
    simp only [List.length_cons]
    omega
  | [a, b] => by simp [encode, encodeAfter]
  | [a] => by simp [encode, encodeAfter]
  | [] => Nat.zero_le _

end Base64

namespace Text

theorem dropWhile_blank {before cs : List Char} (h : ∀ c ∈ before, isBlank c = true)
    (hcs : ∀ c ∈ cs, isBlank c = false) : (before ++ cs).dropWhile isBlank = cs := by
  rw [List.dropWhile_append_of_pos h]
  cases cs with
  | nil => rfl
  | cons c cs => rw [List.dropWhile_cons, hcs c (List.mem_cons_self ..), if_neg Bool.false_ne_true]

/-- Blanks around a text without any do not count. -/
theorem trim_append {before cs after : List Char} (hbefore : ∀ c ∈ before, isBlank c = true)
    (hcs : ∀ c ∈ cs, isBlank c = false) (hafter : ∀ c ∈ after, isBlank c = true) :
    trim (before ++ cs ++ after) = cs := by
  have hreverse : ∀ c ∈ cs.reverse, isBlank c = false := fun c hc => hcs c (List.mem_reverse.1 hc)
  have hafter' : ∀ c ∈ after.reverse, isBlank c = true := fun c hc => hafter c (List.mem_reverse.1 hc)
  have hdrop : (before ++ cs ++ after).dropWhile isBlank
      = (if cs = [] then [] else cs ++ after) := by
    rw [List.append_assoc, List.dropWhile_append_of_pos hbefore]
    cases cs with
    | nil => simpa using dropWhile_blank hafter (show ∀ c ∈ [], isBlank c = false from nofun)
    | cons c cs =>
      rw [List.cons_append, List.dropWhile_cons, hcs c (List.mem_cons_self ..)]
      rfl
  rw [trim, hdrop, dropEndWhile]
  split
  · rename_i hnil
    rw [hnil]
    rfl
  · rw [List.reverse_append, dropWhile_blank hafter' hreverse, List.reverse_reverse]

theorem trim_eq_self {cs : List Char} (h : ∀ c ∈ cs, isBlank c = false) : trim cs = cs := by
  have htrim : trim ([] ++ cs ++ []) = cs := trim_append (by simp) h (by simp)
  rwa [List.nil_append, List.append_nil] at htrim

/-- A text is what is left of it between two runs of blanks. -/
theorem exists_trim (cs : List Char) : ∃ before after : List Char,
    (∀ c ∈ before ++ after, isBlank c = true) ∧ cs = before ++ trim cs ++ after := by
  have hall : ∀ ds : List Char, ∀ c ∈ ds.takeWhile isBlank, isBlank c = true :=
    fun ds => List.all_eq_true.1 List.all_takeWhile
  refine ⟨cs.takeWhile isBlank, ((cs.dropWhile isBlank).reverse.takeWhile isBlank).reverse, ?_, ?_⟩
  · intro c hc
    rcases List.mem_append.1 hc with hc | hc
    · exact hall _ c hc
    · exact hall _ c (List.mem_reverse.1 hc)
  · rw [trim, dropEndWhile, List.append_assoc, ← List.reverse_append,
      List.takeWhile_append_dropWhile, List.reverse_reverse, List.takeWhile_append_dropWhile]

end Text

end FieldBuffers
