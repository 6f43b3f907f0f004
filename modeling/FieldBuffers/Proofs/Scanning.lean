import FieldBuffers.Proofs.Spelling

/-! The scanner and the relation between texts and their tokens. Every token takes up characters of
the text, so the scanner comes to its end and finds exactly the tokens there are (`scan_iff`). -/

namespace FieldBuffers.Expr

variable {cs rest body : List Char} {c quote : Char} {t : Token} {ts : List Token}

namespace Token

theorem suffix_of_quoted? (h : quoted? quote cs = some (body, rest)) : rest <:+ cs := by
  fun_induction quoted? quote cs generalizing body with
  | case1 => cases h
  | case2 =>
    obtain ⟨-, rfl⟩ := Prod.mk.inj (Option.some.inj h)
    exact List.nil_suffix
  | case3 => cases h
  | case4 =>
    obtain ⟨-, rfl⟩ := Prod.mk.inj (Option.some.inj h)
    exact List.suffix_cons _ _
  | case5 d rest' _ ih =>
    obtain ⟨⟨body', rest''⟩, hq, h⟩ := Option.map_eq_some_iff.1 h
    obtain ⟨-, rfl⟩ := Prod.mk.inj h
    exact (ih hq).trans ((List.suffix_cons _ _).trans (List.suffix_cons _ _))
  | case6 c d rest' _ _ ih =>
    obtain ⟨⟨body', rest''⟩, hq, h⟩ := Option.map_eq_some_iff.1 h
    obtain ⟨-, rfl⟩ := Prod.mk.inj h
    exact (ih hq).trans (List.suffix_cons _ _)

theorem suffix_of_pair {second : Char} {both : Token} {alone : Except Cause Token}
    (h : pair second both alone cs = .ok (t, rest)) : rest <:+ cs := by
  have hmap : alone.map (·, cs) = .ok (t, rest) → rest <:+ cs := by
    intro h
    obtain ⟨t', -, ht⟩ := ok_map_iff.1 h
    obtain ⟨-, rfl⟩ := Prod.mk.inj ht
    exact List.suffix_rfl
  cases cs with
  | nil => exact hmap h
  | cons d more =>
    rw [pair] at h
    split at h
    · obtain ⟨-, rfl⟩ := Prod.mk.inj (Except.ok.inj h)
      exact List.suffix_cons _ _
    · exact hmap h

/-- What follows a token is what the text ends in. -/
theorem suffix_of_read (h : read c cs = .ok (t, rest)) : rest <:+ cs := by
  unfold read at h
  split at h
  · split at h
    · rename_i hq
      obtain ⟨-, rfl⟩ := Prod.mk.inj (Except.ok.inj h)
      exact suffix_of_quoted? hq
    · simp at h
  split at h
  · rename_i hc
    obtain ⟨more, hmore⟩ := numeral_cons hc cs
    simp only [hmore] at h
    split at h
    · obtain ⟨-, rfl⟩ := Prod.mk.inj (Except.ok.inj h)
      exact List.drop_suffix more.length cs
    · simp at h
  split at h
  · obtain ⟨-, rfl⟩ := Prod.mk.inj (Except.ok.inj h)
    exact List.dropWhile_suffix _
  -- what is left are symbols of one character or two
  · split at h
    all_goals first
      | (obtain ⟨-, rfl⟩ := Prod.mk.inj (Except.ok.inj h); exact List.suffix_rfl)
      | exact suffix_of_pair h
      | simp at h
      | (split at h <;> obtain ⟨-, rfl⟩ := Prod.mk.inj (Except.ok.inj h) <;> simp)

end Token

theorem length_of_dropWhile_isSpace (h : cs.dropWhile Token.isSpace = c :: rest) :
    rest.length < cs.length := by
  have hle : (cs.dropWhile Token.isSpace).length ≤ cs.length := (List.dropWhile_suffix _).length_le
  rw [h, List.length_cons] at hle
  exact hle

theorem Scans.length_le (h : Scans cs ts) : ts.length ≤ cs.length := by
  induction h with
  | done => exact Nat.zero_le _
  | token hcs hread _ ih =>
    have hlt := length_of_dropWhile_isSpace hcs
    have hle := (Token.suffix_of_read hread).length_le
    rw [List.length_cons]
    omega

theorem Lexeme.scans_of_scanFrom {finish fuel : Nat} {ls : List Lexeme} (hfuel : cs.length ≤ fuel)
    (h : scanFrom finish fuel cs = .ok ls) : Scans cs (ls.map (·.token)) := by
  induction fuel generalizing cs ls with
  | zero =>
    obtain rfl := List.eq_nil_of_length_eq_zero (Nat.le_zero.1 hfuel)
    obtain rfl := Except.ok.inj h
    exact .done rfl
  | succ fuel ih =>
    rw [scanFrom] at h
    split at h
    · obtain rfl := Except.ok.inj h
      exact .done ‹_›
    · rename_i c cs' hcs
      split at h
      · simp at h
      · rename_i hread
        obtain ⟨more, hmore, rfl⟩ := ok_map_iff.1 h
        have hlt := length_of_dropWhile_isSpace hcs
        have hle := (Token.suffix_of_read hread).length_le
        exact .token hcs hread (ih (by omega) hmore)

/-- A text has the tokens that the scanner finds, and no others. -/
theorem Lexeme.scan_iff : (∃ ls, scan cs = .ok ls ∧ ls.map (·.token) = ts) ↔ Scans cs ts := by
  constructor
  · rintro ⟨ls, hls, rfl⟩
    exact scans_of_scanFrom (Nat.le_refl _) hls
  · intro h
    exact h.scanFrom _ _ h.length_le

theorem Scans.unique (h : Scans cs ts) {us : List Token} (h' : Scans cs us) : ts = us := by
  obtain ⟨ls, hls, rfl⟩ := Lexeme.scan_iff.2 h
  obtain ⟨ms, hms, rfl⟩ := Lexeme.scan_iff.2 h'
  rw [Except.ok.inj (hls.symm.trans hms)]

/-! Places in a text. -/

/-- The text starts with the tokens and goes on with the rest. -/
inductive Consumes : List Char → List Token → List Char → Prop
  | done {cs : List Char} : Consumes cs [] cs
  | token {cs cs' mid rest : List Char} {c : Char} {t : Token} {ts : List Token} :
      cs.dropWhile Token.isSpace = c :: cs' → Token.read c cs' = .ok (t, mid) → Consumes mid ts rest →
      Consumes cs (t :: ts) rest

theorem Consumes.suffix (h : Consumes cs ts rest) : rest <:+ cs := by
  induction h with
  | done => exact List.suffix_rfl
  | @token cs cs' mid rest c t ts hcs hread _ ih =>
    have hdrop : c :: cs' <:+ cs := hcs ▸ List.dropWhile_suffix _
    exact ih.trans ((Token.suffix_of_read hread).trans ((List.suffix_cons c cs').trans hdrop))

/-- The place after some tokens and the blanks that follow them, in bytes. -/
def Offset (cs : List Char) (ts : List Token) (position : Nat) : Prop :=
  ∃ before rest, Consumes cs ts rest ∧ cs = before ++ rest.dropWhile Token.isSpace ∧
    position = byteLength before

theorem byteLength_append (cs rest : List Char) :
    byteLength (cs ++ rest) = byteLength cs + byteLength rest := by
  simp [byteLength]

namespace Context

variable {w : Width} {cx : Context w} {ls us : List Lexeme}

theorem consumes_of_scanFrom {fuel : Nat} (hfuel : cs.length ≤ fuel)
    (h : Lexeme.scanFrom cx.finish fuel cs = .ok (ls ++ us)) :
    ∃ rest, Consumes cs (ls.map (·.token)) rest ∧
      cx.position us = cx.finish - byteLength (rest.dropWhile Token.isSpace) := by
  induction fuel generalizing cs ls with
  | zero =>
    obtain rfl := List.eq_nil_of_length_eq_zero (Nat.le_zero.1 hfuel)
    obtain ⟨rfl, rfl⟩ := List.nil_eq_append_iff.1 (Except.ok.inj h)
    exact ⟨[], .done, rfl⟩
  | succ fuel ih =>
    rw [Lexeme.scanFrom] at h
    split at h
    · rename_i hcs
      obtain ⟨rfl, rfl⟩ := List.nil_eq_append_iff.1 (Except.ok.inj h)
      exact ⟨cs, .done, by rw [hcs]; rfl⟩
    · rename_i c cs' hcs
      split at h
      · simp at h
      · rename_i t mid hread
        obtain ⟨more, hmore, hcons⟩ := ok_map_iff.1 h
        cases ls with
        | nil =>
          rw [List.nil_append] at hcons
          subst hcons
          exact ⟨cs, .done, by rw [hcs]; rfl⟩
        | cons l ls =>
          obtain ⟨rfl, rfl⟩ := List.cons.inj hcons
          have hlt := length_of_dropWhile_isSpace hcs
          have hle := (Token.suffix_of_read hread).length_le
          obtain ⟨rest, hrest, hposition⟩ := ih (by omega) hmore
          exact ⟨rest, .token hcs hread hrest, hposition⟩

/-- The position of a token that the scanner has found is its place in the text. -/
theorem offset_of_scan (hfinish : cx.finish = byteLength cs) (h : Lexeme.scan cs = .ok (ls ++ us)) :
    Offset cs (ls.map (·.token)) (cx.position us) := by
  rw [Lexeme.scan, ← hfinish] at h
  obtain ⟨rest, hrest, hposition⟩ := consumes_of_scanFrom (Nat.le_refl _) h
  obtain ⟨before, hbefore⟩ := (List.dropWhile_suffix Token.isSpace).trans hrest.suffix
  refine ⟨before, rest, hrest, hbefore.symm, ?_⟩
  rw [hposition, hfinish, ← hbefore, byteLength_append, Nat.add_sub_cancel_right]

end Context

end FieldBuffers.Expr
