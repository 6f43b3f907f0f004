import FieldBuffers.Proofs.Spelling

/-! What the readers of expressions give, and what they read back. A tree comes with its height and
is written as the tokens say (`written_of_parse`); the tokens of such a tree are read back as that
tree, as the parentheses around its operations nest no deeper than the tree does (`parse_tokens`). -/

namespace FieldBuffers.Expr

open Binary (binary64)

variable {w : Width}

def Scanned (ts : List Lexeme) : Prop := ∀ t ∈ ts, t.token.Written

theorem one_le_maxDepth : 1 ≤ maxDepth := by decide

theorem one_le_height (e : Expr w) : 1 ≤ e.height := by
  cases e <;> simp [height]

structure Sized.Sound (known : String → Option (FieldId w)) (s : Sized w) : Prop where
  written : s.expr.Written known
  depth_eq : s.depth = s.expr.height
  depth_le : s.depth ≤ maxDepth

namespace Context

variable {cx : Context w} {operand deeper inner : Reader w} {level n : Nat} {e : Expr w}
  {l r s : Sized w} {ts rest : List Lexeme}

/-! Trees that are given. -/

/-- From scanned tokens a sound tree is read, and the rest was scanned. -/
def Sound (cx : Context w) (R : Reader w) : Prop :=
  ∀ {ts s rest}, Scanned ts → R ts = .ok (s, rest) → s.Sound cx.known ∧ Scanned rest

theorem sound_of_sized {depth : Nat} (he : e.Written cx.known) (hd : depth = e.height)
    (hts : Scanned ts) (h : cx.sized e depth ts = .ok (s, rest)) :
    s.Sound cx.known ∧ Scanned rest := by
  rw [sized] at h
  split at h
  · simp [fail] at h
  · rename_i hle
    obtain ⟨rfl, rfl⟩ := Prod.mk.inj (Except.ok.inj h)
    exact ⟨⟨he, hd, Nat.not_lt.1 hle⟩, hts⟩

theorem sound_of_binary {o : Operator} (hl : l.Sound cx.known) (hr : r.Sound cx.known)
    (hts : Scanned ts) (h : cx.binary o l r ts = .ok (s, rest)) :
    s.Sound cx.known ∧ Scanned rest := by
  have hwritten : (Expr.binary o l.expr r.expr).Written cx.known := ⟨hl.written, hr.written⟩
  exact sound_of_sized hwritten (by rw [hl.depth_eq, hr.depth_eq]; rfl) hts h

theorem sound_of_chainFrom (hop : cx.Sound operand) {fuel : Nat} (hl : l.Sound cx.known)
    (hts : Scanned ts) (h : cx.chainFrom level operand fuel l ts = .ok (s, rest)) :
    s.Sound cx.known ∧ Scanned rest := by
  induction fuel generalizing l ts with
  | zero =>
    obtain ⟨rfl, rfl⟩ := Prod.mk.inj (Except.ok.inj h)
    exact ⟨hl, hts⟩
  | succ fuel ih =>
    unfold chainFrom at h
    split at h
    · split at h
      · obtain ⟨⟨r, ts'⟩, hread, h⟩ := ok_bind_iff.1 h
        obtain ⟨⟨e, ts''⟩, hjoin, h⟩ := ok_bind_iff.1 h
        obtain ⟨hr, hts'⟩ := hop (List.forall_mem_cons.1 hts).2 hread
        obtain ⟨he, hts''⟩ := sound_of_binary hl hr hts' hjoin
        exact ih he hts'' h
      · obtain ⟨rfl, rfl⟩ := Prod.mk.inj (Except.ok.inj h)
        exact ⟨hl, hts⟩
    · obtain ⟨rfl, rfl⟩ := Prod.mk.inj (Except.ok.inj h)
      exact ⟨hl, hts⟩

theorem sound_chain (hop : cx.Sound operand) : cx.Sound (cx.chain level operand) := by
  intro ts s rest hts h
  obtain ⟨⟨l, ts'⟩, hread, h⟩ := ok_bind_iff.1 h
  obtain ⟨hl, hts'⟩ := hop hts hread
  exact sound_of_chainFrom hop hl hts' h

theorem sound_of_like {negated : Bool} (hl : l.Sound cx.known) (hts : Scanned ts)
    (h : cx.like negated l ts = .ok (s, rest)) : s.Sound cx.known ∧ Scanned rest := by
  unfold like at h
  split at h
  · rename_i source _ _
    split at h
    · rename_i p hp
      have hwritten : (Expr.like negated l.expr source p).Written cx.known := ⟨hl.written, hp⟩
      exact sound_of_sized hwritten (by rw [hl.depth_eq]; rfl) (List.forall_mem_cons.1 hts).2 h
    · simp [fail] at h
  · simp [fail] at h

theorem sound_comparison (hop : cx.Sound operand) : cx.Sound (cx.comparison operand) := by
  intro ts s rest hts h
  obtain ⟨⟨l, ts'⟩, hread, h⟩ := ok_bind_iff.1 h
  obtain ⟨hl, hts'⟩ := hop hts hread
  simp only at h
  split at h
  · obtain ⟨⟨r, ts''⟩, hread', h⟩ := ok_bind_iff.1 h
    obtain ⟨hr, hts''⟩ := hop (List.forall_mem_cons.1 hts').2 hread'
    exact sound_of_binary hl hr hts'' h
  · exact sound_of_like hl (List.forall_mem_cons.1 hts').2 h
  · obtain ⟨rfl, rfl⟩ := Prod.mk.inj (Except.ok.inj h)
    exact ⟨hl, hts'⟩

theorem scanned_of_close {token : Token} {text : String} (hts : Scanned ts)
    (h : cx.close token text ts = .ok rest) : Scanned rest := by
  cases ts with
  | nil => simp [close, fail] at h
  | cons t ts =>
    rw [close] at h
    split at h
    · obtain rfl := Except.ok.inj h
      exact (List.forall_mem_cons.1 hts).2
    · simp [fail] at h

theorem counted_of_subscript {start : List Lexeme} {o : Occurrence} (hts : Scanned ts)
    (h : cx.subscript start ts = .ok (o, rest)) : o.Counted ∧ Scanned rest := by
  unfold subscript at h
  split at h
  · obtain ⟨rfl, rfl⟩ := Prod.mk.inj (Except.ok.inj h)
    exact ⟨trivial, (List.forall_mem_cons.1 hts).2⟩
  · split at h
    · rename_i hcount
      obtain ⟨rfl, rfl⟩ := Prod.mk.inj (Except.ok.inj h)
      exact ⟨.inr ⟨_, hcount⟩, (List.forall_mem_cons.1 hts).2⟩
    · simp [fail] at h
  · simp [fail] at h
  · simp [fail] at h

theorem sound_field {name : String} (hname : IsName name) : cx.Sound (cx.field name) := by
  intro ts s rest hts h
  rw [field] at h
  split at h
  · simp at h
  · rename_i id hid
    split at h
    · obtain ⟨⟨o, ts'⟩, ho, h⟩ := ok_bind_iff.1 h
      obtain ⟨ts'', hclose, h⟩ := ok_bind_iff.1 h
      obtain ⟨ho, hts'⟩ := counted_of_subscript (List.forall_mem_cons.1 hts).2 ho
      obtain ⟨rfl, rfl⟩ := Prod.mk.inj (Except.ok.inj h)
      exact ⟨⟨⟨hname, hid, ho⟩, rfl, one_le_maxDepth⟩, scanned_of_close hts' hclose⟩
    · obtain ⟨rfl, rfl⟩ := Prod.mk.inj (Except.ok.inj h)
      exact ⟨⟨⟨hname, hid, .inl rfl⟩, rfl, one_le_maxDepth⟩, hts⟩

theorem sound_signed (hdeeper : cx.Sound deeper) (sign : Sign) :
    cx.Sound (unaryOver.signed cx deeper sign) := by
  intro ts s rest hts h
  obtain ⟨⟨e, ts'⟩, hread, h⟩ := ok_bind_iff.1 h
  obtain ⟨he, hts'⟩ := hdeeper hts hread
  have hwritten : (Expr.signed sign e.expr).Written cx.known := he.written
  exact sound_of_sized hwritten (by rw [he.depth_eq]; rfl) hts' h

theorem sound_unaryOver (hdeeper : cx.Sound deeper) (hinner : cx.Sound inner) :
    cx.Sound (cx.unaryOver deeper inner) := by
  intro ts s rest hts h
  unfold unaryOver at h
  split at h
  · exact sound_signed hdeeper .not (List.forall_mem_cons.1 hts).2 h
  · exact sound_signed hdeeper .minus (List.forall_mem_cons.1 hts).2 h
  · exact sound_signed hdeeper .plus (List.forall_mem_cons.1 hts).2 h
  · obtain ⟨rfl, rfl⟩ := Prod.mk.inj (Except.ok.inj h)
    obtain ⟨hword, hts⟩ := List.forall_mem_cons.1 hts
    exact ⟨⟨hword, rfl, one_le_maxDepth⟩, hts⟩
  · obtain ⟨rfl, rfl⟩ := Prod.mk.inj (Except.ok.inj h)
    exact ⟨⟨trivial, rfl, one_le_maxDepth⟩, (List.forall_mem_cons.1 hts).2⟩
  · obtain ⟨⟨e, ts'⟩, he, h⟩ := ok_bind_iff.1 h
    obtain ⟨he, hts'⟩ := hinner (List.forall_mem_cons.1 hts).2 he
    obtain ⟨ts'', hclose, h⟩ := ok_bind_iff.1 h
    obtain ⟨rfl, rfl⟩ := Prod.mk.inj (Except.ok.inj h)
    exact ⟨he, scanned_of_close hts' hclose⟩
  · obtain ⟨hname, hts⟩ := List.forall_mem_cons.1 hts
    exact sound_field hname hts h
  · simp [fail] at h

theorem sound_levels (hop : cx.Sound operand) : cx.Sound (cx.levels operand) :=
  sound_chain (sound_chain (sound_chain (sound_comparison (sound_chain (sound_chain hop)))))

theorem sound_tooDeep : cx.Sound cx.tooDeep := by
  intro ts s rest _ h
  simp [tooDeep, fail] at h

theorem sound_unary (n : Nat) : cx.Sound (cx.unary n) := by
  induction n with
  | zero => exact sound_unaryOver sound_tooDeep sound_tooDeep
  | succ n ih => exact sound_unaryOver ih (sound_levels ih)

theorem written_of_parse (hts : Scanned ts) (h : cx.parse ts = .ok e) :
    e.Written cx.known ∧ e.height ≤ maxDepth := by
  obtain ⟨⟨s, rest⟩, hread, h⟩ := ok_bind_iff.1 h
  obtain ⟨hs, -⟩ := sound_levels (sound_unary maxDepth) hts hread
  simp only at h
  split at h
  · obtain rfl := Except.ok.inj h
    exact ⟨hs.written, hs.depth_eq ▸ hs.depth_le⟩
  · simp [fail] at h

/-! Tokens that are read back. -/

/-- What ends an operand of some level: no bracket, and no operator that binds as tightly. -/
def Stops (level : Nat) (rest : List Lexeme) : Prop :=
  ∀ t ∈ rest.head?, t.token ≠ .openBracket ∧ (∀ o, t.token = .operator o → o.level < level) ∧
    ∀ negated, t.token = .like negated → 3 < level

theorem Stops.mono {level' : Nat} (h : Stops level rest) (hle : level ≤ level') :
    Stops level' rest := by
  intro t ht
  obtain ⟨hb, ho, hlike⟩ := h t ht
  exact ⟨hb, fun o h => Nat.lt_of_lt_of_le (ho o h) hle,
    fun negated h => Nat.lt_of_lt_of_le (hlike negated h) hle⟩

/-- Wherever an operand of the level ends, the tokens are read as the tree. -/
def Reads (level : Nat) (R : Reader w) (ws : List Token) (s : Sized w) : Prop :=
  ∀ ts rest, ts.map (·.token) = ws → Stops level rest → R (ts ++ rest) = .ok (s, rest)

theorem stops_operator {o : Operator} {position : Nat} (h : o.level < level) :
    Stops level (⟨.operator o, position⟩ :: rest) := by
  rintro t ⟨⟩
  refine ⟨by simp, ?_, by simp⟩
  rintro o' ⟨⟩
  exact h

theorem stops_like {negated : Bool} {position : Nat} : Stops 4 (⟨.like negated, position⟩ :: rest) := by
  rintro t ⟨⟩
  exact ⟨by simp, by simp, fun _ _ => by decide⟩

theorem stops_close {position : Nat} : Stops level (⟨.closeParen, position⟩ :: rest) := by
  rintro t ⟨⟩
  exact ⟨by simp, by simp, by simp⟩

theorem exists_lexeme {t : Token} {ws : List Token} (h : ts.map (·.token) = t :: ws) :
    ∃ position ls, ts = ⟨t, position⟩ :: ls ∧ ls.map (·.token) = ws := by
  obtain ⟨⟨_, position⟩, ls, rfl, rfl, hls⟩ := List.map_eq_cons_iff.1 h
  exact ⟨position, ls, rfl, hls⟩

/-- A chain ends where no operator of its level follows. -/
theorem chainFrom_end (h : ∀ t ∈ ts.head?, ∀ o, t.token = .operator o → o.level ≠ level)
    (fuel : Nat) : cx.chainFrom level operand fuel l ts = .ok (l, ts) := by
  cases fuel with
  | zero => rfl
  | succ fuel =>
    unfold chainFrom
    split
    · rw [if_neg (h _ rfl _ rfl)]
    · rfl

theorem chainFrom_stop (h : Stops level rest) (fuel : Nat) :
    cx.chainFrom level operand fuel l rest = .ok (l, rest) :=
  chainFrom_end (fun t ht o ho => Nat.ne_of_lt ((h t ht).2.1 o ho)) fuel

theorem chain_of_ok (h : operand ts = .ok (l, rest)) :
    cx.chain level operand ts = cx.chainFrom level operand rest.length l rest := by
  rw [chain, h]
  rfl

theorem binary_of_le (o : Operator) (ts : List Lexeme) (h : max l.depth r.depth < maxDepth) :
    cx.binary o l r ts = .ok (⟨.binary o l.expr r.expr, max l.depth r.depth + 1⟩, ts) :=
  if_neg (by omega)

theorem chain_pass (cx : Context w) {ws : List Token} (h : Reads (level + 1) operand ws s) :
    Reads level (cx.chain level operand) ws s := by
  intro ts rest hts hrest
  rw [chain_of_ok (h ts rest hts (hrest.mono (Nat.le_succ _))), chainFrom_stop hrest]

theorem chain_join {o : Operator} {ws vs : List Token} (ho : o.level = level)
    (hl : Reads (level + 1) operand ws l) (hr : Reads (level + 1) operand vs r)
    (hdepth : max l.depth r.depth < maxDepth) :
    Reads level (cx.chain level operand) (ws ++ .operator o :: vs)
      ⟨.binary o l.expr r.expr, max l.depth r.depth + 1⟩ := by
  intro ts rest hts hrest
  obtain ⟨ls, os, rfl, hls, hos⟩ := List.map_eq_append_iff.1 hts
  obtain ⟨position, rs, rfl, hrs⟩ := exists_lexeme hos
  have hstop : Stops (level + 1) (⟨.operator o, position⟩ :: (rs ++ rest)) :=
    stops_operator (by omega)
  rw [List.append_assoc, List.cons_append, chain_of_ok (hl ls _ hls hstop), List.length_cons,
    chainFrom, if_pos ho, hr rs rest hrs (hrest.mono (Nat.le_succ _))]
  change (cx.binary o l r rest >>= fun x => cx.chainFrom level operand _ x.1 x.2) = _
  rw [binary_of_le o rest hdepth]
  exact chainFrom_stop hrest _

/-- A comparison is its first operand where no relation and no match follows. -/
theorem comparison_end (hread : operand ts = .ok (l, rest))
    (hrelation : ∀ t ∈ rest.head?, ∀ o, t.token ≠ .operator (.relation o))
    (hlike : ∀ t ∈ rest.head?, ∀ negated, t.token ≠ .like negated) :
    cx.comparison operand ts = .ok (l, rest) := by
  rw [comparison, hread]
  simp only [bind, Except.bind]
  split
  · exact absurd rfl (hrelation _ rfl _)
  · exact absurd rfl (hlike _ rfl _)
  · rfl

theorem comparison_relation {o : Relation} {position : Nat} {us : List Lexeme}
    (h : operand ts = .ok (l, ⟨.operator (.relation o), position⟩ :: us)) :
    cx.comparison operand ts = operand us >>= fun r => cx.binary (.relation o) l r.1 r.2 := by
  rw [comparison, h]
  rfl

theorem comparison_match {negated : Bool} {position : Nat} {us : List Lexeme}
    (h : operand ts = .ok (l, ⟨.like negated, position⟩ :: us)) :
    cx.comparison operand ts = cx.like negated l us := by
  rw [comparison, h]
  rfl

theorem comparison_stop (hread : operand ts = .ok (l, rest)) (h : Stops 3 rest) :
    cx.comparison operand ts = .ok (l, rest) := by
  apply comparison_end hread
  · intro t ht o ho
    exact absurd ((h t ht).2.1 _ ho) (Nat.lt_irrefl 3)
  · intro t ht negated hlike
    exact absurd ((h t ht).2.2 negated hlike) (by decide)

theorem comparison_pass (cx : Context w) {ws : List Token} (h : Reads 4 operand ws s) :
    Reads 3 (cx.comparison operand) ws s := fun ts rest hts hrest =>
  comparison_stop (h ts rest hts (hrest.mono (by decide))) hrest

theorem comparison_join {c : Relation} {ws vs : List Token} (hl : Reads 4 operand ws l)
    (hr : Reads 4 operand vs r) (hdepth : max l.depth r.depth < maxDepth) :
    Reads 3 (cx.comparison operand) (ws ++ .operator (.relation c) :: vs)
      ⟨.binary (.relation c) l.expr r.expr, max l.depth r.depth + 1⟩ := by
  intro ts rest hts hrest
  obtain ⟨ls, os, rfl, hls, hos⟩ := List.map_eq_append_iff.1 hts
  obtain ⟨position, rs, rfl, hrs⟩ := exists_lexeme hos
  have hstop : Stops 4 (⟨.operator (.relation c), position⟩ :: (rs ++ rest)) :=
    stops_operator (Nat.lt_succ_self 3)
  rw [List.append_assoc, List.cons_append, comparison_relation (hl ls _ hls hstop),
    hr rs rest hrs (hrest.mono (by decide))]
  exact binary_of_le _ rest hdepth

theorem comparison_like {negated : Bool} {source : String} {p : Pattern} {ws : List Token}
    (hl : Reads 4 operand ws l) (hp : Pattern.anchored? source = some p)
    (hdepth : l.depth < maxDepth) :
    Reads 3 (cx.comparison operand) (ws ++ [.like negated, .text source])
      ⟨.like negated l.expr source p, l.depth + 1⟩ := by
  intro ts rest hts hrest
  obtain ⟨ls, os, rfl, hls, hos⟩ := List.map_eq_append_iff.1 hts
  obtain ⟨position, ps, rfl, hps⟩ := exists_lexeme hos
  obtain ⟨position', qs, rfl, hqs⟩ := exists_lexeme hps
  obtain rfl := List.map_eq_nil_iff.1 hqs
  rw [List.append_assoc, List.cons_append, List.cons_append, List.nil_append,
    comparison_match (hl ls _ hls stops_like), like, hp]
  exact if_neg (by omega)

theorem levels_binary (cx : Context w) (o : Operator) {ws vs : List Token} (hl : Reads 6 operand ws l)
    (hr : Reads 6 operand vs r) (hdepth : max l.depth r.depth < maxDepth) :
    Reads 0 (cx.levels operand) (ws ++ .operator o :: vs)
      ⟨.binary o l.expr r.expr, max l.depth r.depth + 1⟩ := by
  have hl5 := chain_pass cx hl
  have hr5 := chain_pass cx hr
  have hl4 := chain_pass cx hl5
  have hr4 := chain_pass cx hr5
  have hl3 := comparison_pass cx hl4
  have hr3 := comparison_pass cx hr4
  have hl2 := chain_pass cx hl3
  have hr2 := chain_pass cx hr3
  have hl1 := chain_pass cx hl2
  have hr1 := chain_pass cx hr2
  rcases o with (_ | _ | _) | c | a
  · exact chain_join rfl hl1 hr1 hdepth
  · exact chain_pass cx (chain_join rfl hl2 hr2 hdepth)
  · exact chain_pass cx (chain_pass cx (chain_join rfl hl3 hr3 hdepth))
  · exact chain_pass cx (chain_pass cx (chain_pass cx (comparison_join hl4 hr4 hdepth)))
  · have hjoin : Reads 4 (cx.chain 4 (cx.chain 5 operand)) (ws ++ .operator (.arithmetic a) :: vs)
        ⟨.binary (.arithmetic a) l.expr r.expr, max l.depth r.depth + 1⟩ := by
      cases a
      case add | sub => exact chain_join rfl hl5 hr5 hdepth
      all_goals exact chain_pass cx (chain_join rfl hl hr hdepth)
    exact chain_pass cx (chain_pass cx (chain_pass cx (comparison_pass cx hjoin)))

theorem levels_like (cx : Context w) (negated : Bool) {source : String} {p : Pattern} {ws : List Token}
    (hl : Reads 6 operand ws l) (hp : Pattern.anchored? source = some p)
    (hdepth : l.depth < maxDepth) :
    Reads 0 (cx.levels operand) (ws ++ [.like negated, .text source])
      ⟨.like negated l.expr source p, l.depth + 1⟩ :=
  chain_pass cx (chain_pass cx (chain_pass cx (comparison_like (chain_pass cx (chain_pass cx hl)) hp hdepth)))

theorem levels_pass (cx : Context w) {ws : List Token} (h : Reads 6 operand ws s) :
    Reads 0 (cx.levels operand) ws s :=
  chain_pass cx (chain_pass cx (chain_pass cx (comparison_pass cx (chain_pass cx (chain_pass cx h)))))

/-! Whole numbers between brackets. -/

theorem truncate_of_whole {m : Nat} {k : Int}
    (h : (if 0 ≤ k then true else m % 2 ^ (-k).toNat == 0) = true) :
    ((Binary.Format.truncate m k : Nat) : ℚ) = m * 2 ^ k := by
  rw [Binary.Format.truncate]
  split at h
  · rename_i hk
    obtain ⟨i, rfl⟩ := Int.eq_ofNat_of_zero_le hk
    rw [if_pos hk, Int.toNat_natCast, zpow_natCast]
    push_cast
    rfl
  · rename_i hk
    obtain ⟨i, hi⟩ := Int.eq_ofNat_of_zero_le (show 0 ≤ -k by omega)
    rw [hi, Int.toNat_natCast, beq_iff_eq] at h
    have hdiv : ((m / 2 ^ i : Nat) : ℚ) * 2 ^ i = m := by
      exact_mod_cast Nat.div_mul_cancel (Nat.dvd_of_mod_eq_zero h)
    rw [if_neg hk, hi, Int.toNat_natCast, ← neg_neg k, hi, zpow_neg, zpow_natCast, ← hdiv,
      mul_inv_cancel_right₀ (by positivity)]

theorem countWord_of_decode {word m : Nat} {k : Int}
    (h : binary64.decode word = .finite false m k) (hm : m ≠ 0) (hn : (n : ℚ) = m * 2 ^ k) :
    countWord n = word := by
  have hrat : (⟨n, 0⟩ : Decimal).toRat = m * 2 ^ k := by simp [Decimal.toRat, hn]
  have hbounds := Binary.Format.moderate_binary64.bounds h hm
  rw [← hrat] at hbounds
  rw [countWord, Decimal.round_of_bounded hbounds, hrat, Binary.Format.round_decode h]
  obtain ⟨hs, -⟩ := Binary.Format.decode_eq_finite h
  have hlt : word < binary64.signWeight := Nat.not_le.1 (of_decide_eq_false hs.symm)
  exact Nat.mod_eq_of_lt hlt

/-- A count that a number writes is written again by its digits. Past the greatest word, where it
is held, the digits of that word are read as a number that is held there as well. -/
theorem count?_countWord {word : Nat} (h : count? word = some n) (hn : n ≠ 0) :
    count? (countWord n) = some n := by
  have hgiven := h
  unfold count? at h
  split at h
  · rename_i negative m k hdata
    simp only [Bool.and_eq_true, Option.ite_none_right_eq_some, Option.some.injEq,
      Binary.Format.toIntClamped, hdata] at h
    obtain ⟨⟨hwhole, hsign⟩, hclamp⟩ := h
    have hzero : m = 0 → Binary.Format.truncate m k = 0 := by
      rintro rfl
      simp [Binary.Format.truncate]
    have hm : m ≠ 0 := by
      intro hm
      rw [hzero hm] at hclamp
      cases negative <;> exact hn hclamp.symm
    have hpositive : negative = false := by
      simpa [hm] using hsign
    subst hpositive
    rw [if_neg Bool.false_ne_true] at hclamp
    by_cases hle : Binary.Format.truncate m k ≤ 2 ^ 64 - 1
    · have htrunc : n = Binary.Format.truncate m k := by omega
      rw [countWord_of_decode hdata hm (by rw [htrunc]; exact truncate_of_whole hwhole)]
      exact hgiven
    · have hmax : n = 2 ^ 64 - 1 := by omega
      rw [hmax]
      decide +kernel
  · simp at h

/-! Trees that are read back. -/

theorem subscript_count {start : List Lexeme} {position : Nat} (h : Occurrence.Counted (.at n))
    (hn : n ≠ 0) : cx.subscript start (⟨.number (countWord n), position⟩ :: rest)
      = .ok (.at n, rest) := by
  obtain ⟨word, hword⟩ := h.resolve_left hn
  unfold subscript
  simp only [count?_countWord hword hn]
  rfl

/-- A field is its name where no bracket follows. -/
theorem field_end {name : String} {id : FieldId w} (hid : cx.known name = some id)
    (h : ∀ t ∈ rest.head?, t.token ≠ .openBracket) :
    cx.field name rest = .ok (⟨.field ⟨id, name, .at 0⟩, 1⟩, rest) := by
  rw [field, hid]
  simp only
  split
  · exact absurd rfl (h _ rfl)
  · rfl

theorem field_subscript {name : String} {id : FieldId w} {o : Occurrence} {t : Lexeme}
    {position position' : Nat} (hid : cx.known name = some id)
    (h : ∀ start rest, cx.subscript start (t :: rest) = .ok (o, rest)) (rest : List Lexeme) :
    cx.field name (⟨.openBracket, position⟩ :: t :: ⟨.closeBracket, position'⟩ :: rest) =
      .ok (⟨.field ⟨id, name, o⟩, 1⟩, rest) := by
  rw [field, hid]
  simp only [h]
  rfl

theorem field_tokens {r : Reference w} (hknown : cx.known r.name = some r.id)
    (hcounted : r.occurrence.Counted) (hts : .name r.name :: ts.map (·.token) = r.tokens)
    (hrest : Stops 6 rest) :
    cx.field r.name (ts ++ rest) = .ok (⟨.field r, 1⟩, rest) := by
  obtain ⟨id, name, occurrence⟩ := r
  have hts := (List.cons.inj hts).2
  match occurrence with
  | .at 0 =>
    obtain rfl := List.map_eq_nil_iff.1 hts
    exact field_end hknown fun t ht => (hrest t ht).1
  | .at (n + 1) =>
    obtain ⟨p, us, rfl, hus⟩ := exists_lexeme hts
    obtain ⟨q, vs, rfl, hvs⟩ := exists_lexeme hus
    obtain ⟨r, ws, rfl, hws⟩ := exists_lexeme hvs
    obtain rfl := List.map_eq_nil_iff.1 hws
    exact field_subscript hknown (fun _ _ => subscript_count hcounted (Nat.succ_ne_zero n)) rest
  | .any =>
    obtain ⟨p, us, rfl, hus⟩ := exists_lexeme hts
    obtain ⟨q, vs, rfl, hvs⟩ := exists_lexeme hus
    obtain ⟨r, ws, rfl, hws⟩ := exists_lexeme hvs
    obtain rfl := List.map_eq_nil_iff.1 hws
    exact field_subscript hknown (fun _ _ => rfl) rest

theorem unary_eq (cx : Context w) (n : Nat) : ∃ deeper inner, cx.unary n = cx.unaryOver deeper inner := by
  cases n with
  | zero => exact ⟨_, _, rfl⟩
  | succ n => exact ⟨_, _, rfl⟩

theorem paren_tokens (cx : Context w) (deeper : Reader w) {ws : List Token} (h : Reads 0 inner ws s) :
    Reads 6 (cx.unaryOver deeper inner) (.openParen :: (ws ++ [.closeParen])) s := by
  intro ts rest hts hrest
  obtain ⟨p, us, rfl, hus⟩ := exists_lexeme hts
  obtain ⟨ls, cs, rfl, hls, hcs⟩ := List.map_eq_append_iff.1 hus
  obtain ⟨q, ds, rfl, hds⟩ := exists_lexeme hcs
  obtain rfl := List.map_eq_nil_iff.1 hds
  have hstop : Stops 0 (⟨.closeParen, q⟩ :: rest) := by
    rintro t ⟨⟩
    exact ⟨by simp, by simp, by simp⟩
  have hread := h ls _ hls hstop
  rw [List.cons_append, List.append_assoc]
  change (inner (ls ++ ⟨.closeParen, q⟩ :: rest) >>= _) = _
  rw [hread]
  rfl

theorem signed_tokens {ws : List Token} (sign : Sign) (h : Reads 6 deeper ws s)
    (hdepth : s.depth < maxDepth) :
    Reads 6 (cx.unaryOver deeper inner) (sign.token :: ws) ⟨.signed sign s.expr, s.depth + 1⟩ := by
  intro ts rest hts hrest
  obtain ⟨p, us, rfl, hus⟩ := exists_lexeme hts
  have hsigned : unaryOver.signed cx deeper sign (us ++ rest)
      = .ok (⟨.signed sign s.expr, s.depth + 1⟩, rest) := by
    rw [unaryOver.signed, h us rest hus hrest]
    exact if_neg (by omega)
  cases sign <;> exact hsigned

/-- A parenthesis or a sign is read one level down, and a tree without it is lower by one. -/
theorem unary_tokens (he : e.Written cx.known) (hn : e.height ≤ n + 1)
    (hmax : e.height ≤ maxDepth) : Reads 6 (cx.unary n) e.tokens ⟨e, e.height⟩ := by
  induction e generalizing n with
  | number word =>
    intro ts rest hts hrest
    obtain ⟨p, us, rfl, hus⟩ := exists_lexeme hts
    obtain rfl := List.map_eq_nil_iff.1 hus
    obtain ⟨deeper, inner, hunary⟩ := unary_eq cx n
    rw [hunary]
    rfl
  | text s =>
    intro ts rest hts hrest
    obtain ⟨p, us, rfl, hus⟩ := exists_lexeme hts
    obtain rfl := List.map_eq_nil_iff.1 hus
    obtain ⟨deeper, inner, hunary⟩ := unary_eq cx n
    rw [hunary]
    rfl
  | field r =>
    intro ts rest hts hrest
    obtain ⟨p, us, rfl, hus⟩ := exists_lexeme hts
    obtain ⟨deeper, inner, hunary⟩ := unary_eq cx n
    rw [hunary]
    exact field_tokens he.2.1 he.2.2 (by rw [hus]; rfl) hrest
  | signed sign e ih =>
    have hpos : 1 ≤ e.height := one_le_height e
    rw [height] at hn hmax
    cases n with
    | zero => omega
    | succ n => exact signed_tokens sign (ih he (by omega) (by omega)) (Nat.lt_of_succ_le hmax)
  | binary o l r ihl ihr =>
    have hpos : 1 ≤ l.height := one_le_height l
    rw [height] at hn hmax
    cases n with
    | zero => omega
    | succ n =>
      have hl := ihl he.1 (show l.height ≤ n + 1 by omega) (by omega)
      have hr := ihr he.2 (show r.height ≤ n + 1 by omega) (by omega)
      have hjoin := levels_binary cx o hl hr (Nat.lt_of_succ_le hmax)
      have hparen := paren_tokens cx (cx.unary n) hjoin
      rw [List.append_assoc] at hparen
      exact hparen
  | like negated e source p ih =>
    have hpos : 1 ≤ e.height := one_le_height e
    rw [height] at hn hmax
    cases n with
    | zero => omega
    | succ n =>
      have hl := ih he.1 (show e.height ≤ n + 1 by omega) (by omega)
      have hlike := levels_like cx negated hl he.2 (Nat.lt_of_succ_le hmax)
      have hparen := paren_tokens cx (cx.unary n) hlike
      rw [List.append_assoc] at hparen
      exact hparen

theorem parse_tokens (he : e.Written cx.known) (hmax : e.height ≤ maxDepth)
    (hts : ts.map (·.token) = e.tokens) : cx.parse ts = .ok e := by
  have hread := levels_pass cx (unary_tokens (n := maxDepth) he (by omega) hmax) ts [] hts
    (by simp [Stops])
  rw [List.append_nil] at hread
  rw [parse, hread]
  rfl

end Context

variable {known : String → Option (FieldId w)} {source : String} {e : Expr w}

/-- The canonical text of a tree is read as that tree. -/
theorem ofText_toText (h : ofText known source = .ok e) (hfin : e.Finite) :
    ofText known e.toText = .ok e := by
  obtain ⟨ts, hscan, hparse⟩ := ok_bind_iff.1 h
  obtain ⟨hwritten, hheight⟩ := Context.written_of_parse (Lexeme.written_of_scanFrom hscan) hparse
  obtain ⟨ls, hls, htokens⟩ := scan_toText hwritten hfin
  apply ok_bind_iff.2
  exact ⟨ls, hls, Context.parse_tokens hwritten hheight htokens⟩

end FieldBuffers.Expr
