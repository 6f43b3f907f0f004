import FieldBuffers.Proofs.Lines

/-! Which escaped texts are read. A text is read exactly when each backslash that starts an escape
stands before another one or before two characters for a byte (`reads_wellEscaped`), where a plus
sign is taken for the first of two digits (`unescaped_plus`). A name with a colon in it is read up
to the colon (`named_values_read_back_iff`). -/

namespace FieldBuffers.Dump

/-- Read from the left, each mark that starts an escape is followed by another one, or by two that
stand for something. -/
inductive WellEscaped {α : Type} (mark : α) (Pair : α → α → Prop) : List α → Prop
  | nil : WellEscaped mark Pair []
  | plain {a : α} {l : List α} : a ≠ mark → WellEscaped mark Pair l →
      WellEscaped mark Pair (a :: l)
  | mark {l : List α} : WellEscaped mark Pair l → WellEscaped mark Pair (mark :: mark :: l)
  | pair {a b : α} {l : List α} : a ≠ mark → Pair a b → WellEscaped mark Pair l →
      WellEscaped mark Pair (mark :: a :: b :: l)

namespace WellEscaped

variable {α : Type} {mark a b : α} {Pair Other : α → α → Prop} {l rest : List α}

theorem cons_iff (h : a ≠ mark) : WellEscaped mark Pair (a :: l) ↔ WellEscaped mark Pair l := by
  refine ⟨fun hl => ?_, .plain h⟩
  cases hl with
  | plain _ hl => exact hl
  | mark => exact absurd rfl h
  | pair => exact absurd rfl h

theorem append_iff (h : ∀ a ∈ l, a ≠ mark) :
    WellEscaped mark Pair (l ++ rest) ↔ WellEscaped mark Pair rest := by
  induction l with
  | nil => exact Iff.rfl
  | cons a l ih =>
    obtain ⟨ha, hl⟩ := List.forall_mem_cons.1 h
    rw [List.cons_append, cons_iff ha, ih hl]

theorem not_mark : ¬ WellEscaped mark Pair [mark] := by
  intro h
  cases h with
  | plain h => exact h rfl

theorem mark_mark_iff :
    WellEscaped mark Pair (mark :: mark :: l) ↔ WellEscaped mark Pair l := by
  refine ⟨fun hl => ?_, .mark⟩
  cases hl with
  | plain h => exact absurd rfl h
  | mark hl => exact hl
  | pair h => exact absurd rfl h

theorem not_mark_cons (h : a ≠ mark) : ¬ WellEscaped mark Pair [mark, a] := by
  intro hl
  cases hl with
  | plain h => exact h rfl
  | mark => exact h rfl

theorem pair_iff (h : a ≠ mark) : WellEscaped mark Pair (mark :: a :: b :: l) ↔
    Pair a b ∧ WellEscaped mark Pair l := by
  refine ⟨fun hl => ?_, fun hl => .pair h hl.1 hl.2⟩
  cases hl with
  | plain h => exact absurd rfl h
  | mark => exact absurd rfl h
  | pair _ hab hl => exact ⟨hab, hl⟩

theorem not_first (h : a ≠ mark) (hpair : ∀ b, ¬ Pair a b) :
    ¬ WellEscaped mark Pair (mark :: a :: l) := by
  cases l with
  | nil => exact not_mark_cons h
  | cons b l => exact fun hl => hpair b ((pair_iff h).1 hl).1

theorem mono (hmono : ∀ a b, Pair a b → Other a b) (h : WellEscaped mark Pair l) :
    WellEscaped mark Other l := by
  induction h with
  | nil => exact .nil
  | plain ha _ ih => exact .plain ha ih
  | mark _ ih => exact .mark ih
  | pair ha hab _ ih => exact .pair ha (hmono _ _ hab) ih

end WellEscaped

/-! Bytes. -/

def BytePair (a b : UInt8) : Prop := (byte? a b).isSome

theorem unescapeFrom_eq_ok_iff (column : Nat) (done bs : Bytes) :
    (∃ out, unescapeFrom column done bs = .ok out) ↔ WellEscaped backslash BytePair bs := by
  induction column, done, bs using unescapeFrom.induct with
  | case1 => simp [unescapeFrom, WellEscaped.nil]
  | case2 column done a rest ha ih => rw [unescapeFrom_plain _ _ _ ha, ih, WellEscaped.cons_iff ha]
  | case3 column done a ha =>
    obtain rfl := not_not.1 ha
    simp [unescapeFrom, WellEscaped.not_mark]
  | case4 column done a ha rest ih =>
    obtain rfl := not_not.1 ha
    rw [unescapeFrom_backslash, ih, WellEscaped.mark_mark_iff]
  | case5 column done a ha b hb =>
    obtain rfl := not_not.1 ha
    simp [unescapeFrom, hb, WellEscaped.not_mark_cons hb]
  | case6 column done a ha b hb c rest x hx ih =>
    obtain rfl := not_not.1 ha
    have hpair : BytePair b c := by simp [BytePair, hx]
    rw [unescapeFrom_digits _ _ _ hb hx, ih, WellEscaped.pair_iff hb]
    exact (and_iff_right hpair).symm
  | case7 column done a ha b hb c rest hx =>
    obtain rfl := not_not.1 ha
    have hpair : ¬ BytePair b c := by simp [BytePair, hx]
    simp [unescapeFrom, hb, hx, WellEscaped.pair_iff hb, hpair]

/-! Characters. -/

/-- A digit of base 16, of either case. -/
def Hexadecimal (c : Char) : Prop := (Text.hexValue? c).isSome

/-- Two digits. -/
def DigitPair (a b : Char) : Prop := Hexadecimal a ∧ Hexadecimal b

/-- Two digits, or a plus sign and one digit. -/
def SignedPair (a b : Char) : Prop := (a = '+' ∨ Hexadecimal a) ∧ Hexadecimal b

instance : DecidablePred Hexadecimal := fun _ => inferInstanceAs (Decidable (_ = true))

/-- A backslash that starts an escape stands before a plus sign. -/
def Signed (cs : List Char) : Prop :=
  ∃ before after, WellEscaped '\\' SignedPair before ∧ cs = before ++ '\\' :: '+' :: after

theorem isSome_hexValue? : ∀ n < 128,
    (hexValue? (UInt8.ofNat n)).isSome = (Text.hexValue? (Char.ofNat n)).isSome := by decide

theorem toNat_of_isSome {a : UInt8} (h : (hexValue? a).isSome) : a.toNat < 128 := by
  have hall : ∀ n : Fin 256, (hexValue? (UInt8.ofNat n)).isSome → n.val < 128 := by decide +kernel
  simpa using hall ⟨a.toNat, a.toNat_lt⟩ (by simpa using h)

theorem bytePair_iff {a b : UInt8} :
    BytePair a b ↔ (a = 0x2B ∨ (hexValue? a).isSome) ∧ (hexValue? b).isSome := by
  rw [BytePair, byte?]
  cases hexValue? b with
  | none => simp
  | some low => by_cases ha : a = 0x2B <;> cases hexValue? a <;> simp [ha]

theorem BytePair.low {a b : UInt8} (h : BytePair a b) : a.toNat < 128 ∧ b.toNat < 128 := by
  obtain ⟨ha, hb⟩ := bytePair_iff.1 h
  refine ⟨?_, toNat_of_isSome hb⟩
  rcases ha with rfl | ha
  · decide
  · exact toNat_of_isSome ha

theorem Hexadecimal.toNat_lt {c : Char} (h : Hexadecimal c) : c.toNat < 128 := by
  have hle : ∀ d : Char, c ≤ d → d.toNat < 128 → c.toNat < 128 := fun d hd =>
    Nat.lt_of_le_of_lt (UInt32.le_iff_toNat_le.1 hd)
  unfold Hexadecimal Text.hexValue? at h
  split at h
  · next hc => exact Nat.lt_of_le_of_lt (bounds_of_isDigit hc).2 (by decide)
  split at h
  · next hc => exact hle 'f' (of_decide_eq_true (Bool.and_eq_true_iff.1 hc).2) (by decide)
  split at h
  · next hc => exact hle 'F' (of_decide_eq_true (Bool.and_eq_true_iff.1 hc).2) (by decide)
  · cases h

theorem SignedPair.low {a b : Char} (h : SignedPair a b) : a.toNat < 128 ∧ b.toNat < 128 := by
  refine ⟨?_, h.2.toNat_lt⟩
  rcases h.1 with rfl | ha
  · decide
  · exact ha.toNat_lt

theorem ofNat_toNat_eq_iff {a b : Char} (ha : a.toNat < 128) (hb : b.toNat < 128) :
    UInt8.ofNat a.toNat = UInt8.ofNat b.toNat ↔ a = b := by
  refine ⟨fun h => Char.toNat_inj.1 ?_, fun h => h ▸ rfl⟩
  have hnat := congrArg UInt8.toNat h
  rwa [UInt8.toNat_ofNat', UInt8.toNat_ofNat', Nat.mod_eq_of_lt (by omega),
    Nat.mod_eq_of_lt (by omega)] at hnat

theorem bytePair_ofNat {a b : Char} (ha : a.toNat < 128) (hb : b.toNat < 128) :
    BytePair (UInt8.ofNat a.toNat) (UInt8.ofNat b.toNat) ↔ SignedPair a b := by
  have hplus : UInt8.ofNat a.toNat = 0x2B ↔ a = '+' :=
    ofNat_toNat_eq_iff (b := '+') ha (by decide)
  rw [bytePair_iff, hplus, isSome_hexValue? _ ha, isSome_hexValue? _ hb, Char.ofNat_toNat,
    Char.ofNat_toNat]
  exact Iff.rfl

/-- A character is one byte, or several that are above the plain ones. -/
theorem utf8EncodeChar_cases (c : Char) :
    (c.toNat < 128 ∧ String.utf8EncodeChar c = [UInt8.ofNat c.toNat]) ∨
      128 ≤ c.toNat ∧ ∃ x xs, String.utf8EncodeChar c = x :: xs ∧ ∀ y ∈ x :: xs, 128 ≤ y.toNat := by
  by_cases hc : c.toNat < 128
  · have hsize : c.utf8Size = 1 :=
      Char.utf8Size_eq_one_iff.2 (UInt32.le_iff_toNat_le.2 (Nat.le_of_lt_succ hc))
    exact .inl ⟨hc, String.utf8EncodeChar_eq_singleton hsize⟩
  · have hne : String.utf8EncodeChar c ≠ [] := by
      rw [← List.length_pos_iff, String.length_utf8EncodeChar]
      exact c.utf8Size_pos
    obtain ⟨x, xs, hxs⟩ := List.exists_cons_of_ne_nil hne
    refine .inr ⟨Nat.le_of_not_lt hc, x, xs, hxs, fun y hy => Nat.le_of_not_lt fun hlow => hc ?_⟩
    rw [toNat_of_mem_utf8EncodeChar (hxs ▸ hy) hlow]
    exact hlow

theorem ne_backslash_of_le {y : UInt8} (h : 128 ≤ y.toNat) : y ≠ backslash := by
  rintro rfl
  exact absurd h (by decide)

theorem ne_backslash_of_mem {c : Char} (h : c ≠ '\\') {y : UInt8}
    (hy : y ∈ String.utf8EncodeChar c) : y ≠ backslash := by
  rintro rfl
  exact h (Char.toNat_inj.1 (toNat_of_mem_utf8EncodeChar hy (by decide)))

theorem wellEscaped_escape {a : Char} (ha : a ≠ '\\') {cs : List Char}
    (ih : ∀ b rest, cs = b :: rest →
      (WellEscaped backslash BytePair (rest.flatMap String.utf8EncodeChar) ↔
        WellEscaped '\\' SignedPair rest)) :
    WellEscaped backslash BytePair
        (backslash :: (String.utf8EncodeChar a ++ cs.flatMap String.utf8EncodeChar)) ↔
      WellEscaped '\\' SignedPair ('\\' :: a :: cs) := by
  rcases utf8EncodeChar_cases a with ⟨halow, hbytes⟩ | ⟨hahigh, x, xs, hbytes, hhigh⟩
  · have hx : UInt8.ofNat a.toNat ≠ backslash := ne_backslash_of_mem ha (by simp [hbytes])
    rw [hbytes, List.singleton_append]
    cases cs with
    | nil => exact iff_of_false (WellEscaped.not_mark_cons hx) (WellEscaped.not_mark_cons ha)
    | cons b cs =>
      rw [List.flatMap_cons, WellEscaped.pair_iff ha]
      rcases utf8EncodeChar_cases b with ⟨hblow, hbytes⟩ | ⟨hbhigh, y, ys, hbytes, hhigh⟩
      · rw [hbytes, List.singleton_append, WellEscaped.pair_iff hx, bytePair_ofNat halow hblow,
          ih b cs rfl]
      · rw [hbytes, List.cons_append, WellEscaped.pair_iff hx]
        refine iff_of_false (fun h => ?_) fun h => ?_
        · exact absurd h.1.low.2 (Nat.not_lt.2 (hhigh y (List.mem_cons_self ..)))
        · exact absurd h.1.low.2 (Nat.not_lt.2 hbhigh)
  · have hx := hhigh x (List.mem_cons_self ..)
    rw [hbytes, List.cons_append]
    refine iff_of_false (WellEscaped.not_first (ne_backslash_of_le hx) fun b h => ?_)
      (WellEscaped.not_first ha fun b h => ?_)
    · exact absurd h.low.1 (Nat.not_lt.2 hx)
    · exact absurd h.low.1 (Nat.not_lt.2 hahigh)

/-- The bytes of a text are well escaped when its characters are. -/
theorem wellEscaped_flatMap (cs : List Char) :
    WellEscaped backslash BytePair (cs.flatMap String.utf8EncodeChar) ↔
      WellEscaped '\\' SignedPair cs := by
  have hmark : String.utf8EncodeChar '\\' = [backslash] := by decide
  match cs with
  | [] => exact iff_of_true .nil .nil
  | c :: cs =>
    by_cases hc : c ≠ '\\'
    · rw [List.flatMap_cons, WellEscaped.append_iff fun y hy => ne_backslash_of_mem hc hy,
        WellEscaped.cons_iff hc]
      exact wellEscaped_flatMap cs
    obtain rfl := not_not.1 hc
    match cs with
    | [] => exact iff_of_false WellEscaped.not_mark WellEscaped.not_mark
    | a :: cs =>
      rw [List.flatMap_cons, List.flatMap_cons, hmark, List.singleton_append]
      by_cases ha : a = '\\'
      · subst ha
        rw [hmark, List.singleton_append, WellEscaped.mark_mark_iff, WellEscaped.mark_mark_iff]
        exact wellEscaped_flatMap cs
      · refine wellEscaped_escape ha ?_
        rintro b rest rfl
        exact wellEscaped_flatMap rest

/-- A text is read exactly when it is well escaped, and is no dump otherwise. -/
theorem unescaped_eq_ok_iff (line : Nat) (cs : List Char) :
    (∃ bs, unescaped line cs = .ok bs) ↔ WellEscaped '\\' SignedPair cs := by
  rw [← wellEscaped_flatMap, ← Bytes.ofText_eq_flatMap, ← unescapeFrom_eq_ok_iff 1 [], unescaped,
    unescape]
  cases unescapeFrom 1 [] (Bytes.ofText (String.ofList cs)) <;> simp [Except.mapError]

theorem unescaped_eq_error {line : Nat} {cs : List Char} {e : Error}
    (h : unescaped line cs = .error e) : ∃ cause, e = .textParse line cause := by
  rw [unescaped] at h
  cases hread : unescape (Bytes.ofText (String.ofList cs)) with
  | ok bs => simp [hread, Except.mapError] at h
  | error column =>
    rw [hread] at h
    exact ⟨_, (Except.error.inj h).symm⟩

/-! Signs. -/

theorem DigitPair.signed {a b : Char} (h : DigitPair a b) : SignedPair a b := ⟨.inr h.1, h.2⟩

/-- Where no escape has a sign, each backslash stands before a backslash or two digits. -/
theorem wellEscaped_digitPair_iff {cs : List Char} (h : ¬ Signed cs) :
    WellEscaped '\\' SignedPair cs ↔ WellEscaped '\\' DigitPair cs := by
  refine ⟨fun hcs => ?_, .mono fun _ _ => DigitPair.signed⟩
  induction hcs with
  | nil => exact .nil
  | plain hc _ ih =>
    refine .plain hc (ih ?_)
    rintro ⟨before, after, hbefore, rfl⟩
    exact h ⟨_, after, .plain hc hbefore, rfl⟩
  | mark _ ih =>
    refine .mark (ih ?_)
    rintro ⟨before, after, hbefore, rfl⟩
    exact h ⟨_, after, .mark hbefore, rfl⟩
  | @pair a b l ha hpair _ ih =>
    have hdigit : Hexadecimal a := hpair.1.resolve_left fun hplus =>
      h ⟨[], b :: l, .nil, by rw [hplus]; rfl⟩
    refine .pair ha ⟨hdigit, hpair.2⟩ (ih ?_)
    rintro ⟨before, after, hbefore, rfl⟩
    exact h ⟨_, after, .pair ha hpair hbefore, rfl⟩

/-- A plus sign is taken for a digit. -/
theorem unescaped_plus : unescaped 1 ['\\', '+', '5'] = .ok [5] ∧
    ¬ WellEscaped '\\' DigitPair ['\\', '+', '5'] := by
  refine ⟨rfl, fun h => ?_⟩
  have hdigit : ¬ Hexadecimal '+' := by decide
  exact hdigit ((WellEscaped.pair_iff (by decide)).1 h).1.1

/-- Bytes are told in printable characters and read back. A text is read exactly when, from the
left, each backslash that starts an escape stands before another one or before two characters for
a byte, which are digits unless a plus sign stands there. -/
theorem reads_wellEscaped (line : Nat) :
    (∀ bs, (∀ c ∈ (escaped bs).toList, Printable c) ∧
      unescaped line (escaped bs).toList = .ok bs) ∧
    ∀ cs, ((∃ bs, unescaped line cs = .ok bs) ↔ WellEscaped '\\' SignedPair cs) ∧
      (¬ Signed cs → ((∃ bs, unescaped line cs = .ok bs) ↔ WellEscaped '\\' DigitPair cs)) ∧
      (¬ WellEscaped '\\' SignedPair cs →
        ∃ cause, unescaped line cs = .error (.textParse line cause)) := by
  refine ⟨fun bs => ⟨fun c => printable_escaped, unescaped_escaped line bs⟩, fun cs => ?_⟩
  have hiff := unescaped_eq_ok_iff line cs
  refine ⟨hiff, fun hsigned => hiff.trans (wellEscaped_digitPair_iff hsigned), fun hnot => ?_⟩
  cases hread : unescaped line cs with
  | ok bs => exact absurd (hiff.1 ⟨bs, hread⟩) hnot
  | error e =>
    obtain ⟨cause, rfl⟩ := unescaped_eq_error hread
    exact ⟨cause, rfl⟩

theorem reads_wellEscaped_of_digits :
    ¬ Signed ['\\', '4', '1'] ∧ ∃ bs, unescaped 1 ['\\', '4', '1'] = .ok bs := by
  have hsigned : ¬ Signed ['\\', '4', '1'] := by
    rintro ⟨before, after, -, h⟩
    have hmem : '+' ∈ ['\\', '4', '1'] := h ▸ by simp
    revert hmem
    decide
  refine ⟨hsigned, (((reads_wellEscaped 1).2 _).2.1 hsigned).2 ?_⟩
  exact .pair (by decide) ⟨by decide, by decide⟩ .nil

/-! Names and data. -/

theorem escaped_append (as bs : Bytes) : escaped (as ++ bs) = escaped as ++ escaped bs := by
  rw [escaped, escape, List.flatMap_append, List.map_append, String.ofList_append]
  rfl

theorem toList_escaped_colon (as bs : Bytes) :
    (escaped (as ++ 0x3A :: bs)).toList = (escaped as).toList ++ ':' :: (escaped bs).toList := by
  have hcolon : (escaped [0x3A]).toList = [':'] := by rw [escaped, String.toList_ofList]; decide
  rw [← List.singleton_append, escaped_append, escaped_append, String.toList_append,
    String.toList_append, hcolon, List.singleton_append]

/-- What is read for a name and data: the name up to its first colon, and the rest of it as a part
of the data. -/
def parted (name : String) (data : Bytes) : String × Bytes :=
  match Text.splitOnce ':' name.toList with
  | none => (name, data)
  | some (before, after) =>
    (String.ofList before, Bytes.ofText (String.ofList after) ++ 0x3A :: data)

theorem parted_of_not_mem {name : String} (h : ':' ∉ name.toList) (data : Bytes) :
    parted name data = (name, data) := by
  have hp : ∀ c ∈ name.toList, (c != ':') = true := fun c hc =>
    bne_iff_ne.2 (ne_of_mem_of_not_mem hc h)
  have hdrop := (Decimal.takeWhile_dropWhile hp [] (by simp)).2
  rw [List.append_nil] at hdrop
  rw [parted, Text.splitOnce, hdrop]

theorem parted_of_mem {name : String} (h : ':' ∈ name.toList) (data : Bytes) :
    ∃ before after, ':' ∉ before ∧ name = String.ofList (before ++ ':' :: after) ∧
      parted name data
        = (String.ofList before, Bytes.ofText (String.ofList after) ++ 0x3A :: data) := by
  obtain ⟨before, after, hname, hbefore⟩ := List.eq_append_cons_of_mem h
  refine ⟨before, after, hbefore, by rw [← hname, String.ofList_toList], ?_⟩
  rw [parted, hname, Text.splitOnce_append hbefore]

theorem parted_eq_self_iff {name : String} (data : Bytes) :
    parted name data = (name, data) ↔ ':' ∉ name.toList := by
  refine ⟨fun h hmem => ?_, fun h => parted_of_not_mem h data⟩
  obtain ⟨before, after, -, -, hparted⟩ := parted_of_mem hmem data
  have hlength := congrArg List.length (congrArg Prod.snd (hparted.symm.trans h))
  simp only [List.length_append, List.length_cons] at hlength
  omega

theorem named_escaped_parted (line : Nat) (t : FieldType) (name : String) (data : Bytes) :
    named line t (escaped (Bytes.ofText name) ++ ":" ++ escaped data).toList
      = .ok (parted name data) := by
  by_cases h : ':' ∈ name.toList
  · obtain ⟨before, after, hbefore, rfl, hparted⟩ := parted_of_mem h data
    have hcolon : Bytes.ofText (String.ofList (':' :: after))
        = 0x3A :: Bytes.ofText (String.ofList after) := Bytes.ofText_append [':'] after
    have htext : (escaped (Bytes.ofText (String.ofList (before ++ ':' :: after))) ++ ":"
          ++ escaped data).toList
        = (escaped (Bytes.ofText (String.ofList before)) ++ ":"
          ++ escaped (Bytes.ofText (String.ofList after) ++ 0x3A :: data)).toList := by
      simp only [String.toList_append, Bytes.ofText_append, hcolon, toList_escaped_colon,
        List.append_assoc]
      rfl
    rw [htext, hparted, named_escaped line t (by rwa [String.toList_ofList])]
  · rw [named_escaped line t h, parted_of_not_mem h]

theorem value_mbstring_parted (line : Nat) (name : String) (data : Bytes) :
    value line .mbstring (valueText (.mbstring name data)).toList
      = .ok (.mbstring (parted name data).1 (parted name data).2) :=
  congrArg (Except.map fun p : String × Bytes => Value.mbstring p.1 p.2)
    (named_escaped_parted line .mbstring name data)

theorem value_view_parted (line : Nat) (name : String) (data : Bytes) :
    value line .view (valueText (.view name data)).toList
      = .ok (.view (parted name data).1 (parted name data).2) :=
  congrArg (Except.map fun p : String × Bytes => Value.view p.1 p.2)
    (named_escaped_parted line .view name data)

/-- A name with a colon in it can be stored, and comes back short of what follows the colon. -/
theorem parted_short : (∃ bs, (Value.mbstring "a:b" [0x63]).encodeEntry
      (⟨.mbstring, 1, by decide, by decide, rfl⟩ : FieldId .wide) = .ok bs) ∧
    value 1 .mbstring (valueText (.mbstring "a:b" [0x63])).toList
      = .ok (.mbstring "a" [0x62, 0x3A, 0x63]) :=
  ⟨⟨_, rfl⟩, value_mbstring_parted 1 "a:b" [0x63]⟩

/-- Named values are read up to the first colon of the name, and come back exactly when the name
has none. -/
theorem named_values_read_back_iff (line : Nat) (name : String) (data : Bytes) :
    value line .mbstring (valueText (.mbstring name data)).toList
        = .ok (.mbstring (parted name data).1 (parted name data).2) ∧
      value line .view (valueText (.view name data)).toList
        = .ok (.view (parted name data).1 (parted name data).2) ∧
      (value line .mbstring (valueText (.mbstring name data)).toList = .ok (.mbstring name data) ↔
        ':' ∉ name.toList) ∧
      (value line .view (valueText (.view name data)).toList = .ok (.view name data) ↔
        ':' ∉ name.toList) := by
  have hmbstring := value_mbstring_parted line name data
  have hview := value_view_parted line name data
  refine ⟨hmbstring, hview, ?_, ?_⟩
  · rw [hmbstring, ← parted_eq_self_iff data, Prod.ext_iff, Except.ok.injEq,
      Value.mbstring.injEq]
  · rw [hview, ← parted_eq_self_iff data, Prod.ext_iff, Except.ok.injEq,
      Value.view.injEq]

end FieldBuffers.Dump
