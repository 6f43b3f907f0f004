import FieldBuffers.Proofs.Canonical
import FieldBuffers.Proofs.Recognising
import FieldBuffers.Proofs.Scanning

/-! Whatever the readers of expressions read was derived by the grammar (`finds_unary`); so a text
compiles if and only if the grammar derives its tokens and the derivation keeps to the limits
(`compiles_iff`). -/

namespace FieldBuffers.Expr

variable {w : Width}

/-- Tokens of a phrase of the level, with names that are known, patterns that are accepted, and so
much nesting at most. -/
def Forms (known : String → Option (FieldId w)) (n level : Nat) (ts : List Token) : Prop :=
  ∃ p, Derives level ts p ∧ (p.tree? known).isSome ∧ p.nesting ≤ n

namespace Forms

variable {known : String → Option (FieldId w)} {n level : Nat} {ts us : List Token}

theorem number (word : Nat) : Forms known n 6 [.number word] := ⟨_, .number word, rfl, Nat.zero_le n⟩

theorem text (s : String) : Forms known n 6 [.text s] := ⟨_, .text s, rfl, Nat.zero_le n⟩

theorem field {name : String} {o : Occurrence} (hname : (known name).isSome)
    (h : Subscript ts o) : Forms known n 6 (.name name :: ts) :=
  ⟨_, .field name h, by rwa [Phrase.tree?, Option.isSome_map], Nat.zero_le n⟩

theorem paren (h : Forms known n 0 ts) :
    Forms known (n + 1) 6 (.openParen :: (ts ++ [.closeParen])) := by
  obtain ⟨p, hp, htree, hn⟩ := h
  exact ⟨_, .paren hp, htree, Nat.succ_le_succ hn⟩

theorem signed (s : Sign) (h : Forms known n 6 ts) : Forms known (n + 1) 6 (s.token :: ts) := by
  obtain ⟨p, hp, htree, hn⟩ := h
  exact ⟨_, .signed s hp, by rwa [Phrase.tree?, Option.isSome_map], Nat.succ_le_succ hn⟩

theorem operand (hlevel : level < 6) (h : Forms known n (level + 1) ts) :
    Forms known n level ts := by
  obtain ⟨p, hp, htree⟩ := h
  exact ⟨p, .operand hlevel hp, htree⟩

theorem tree_binary {o : Operator} {l r : Phrase} (hl : (l.tree? known).isSome)
    (hr : (r.tree? known).isSome) : ((Phrase.binary o l r).tree? known).isSome := by
  rw [Phrase.isSome_tree?_iff] at hl hr ⊢
  exact ⟨List.forall_mem_append.2 ⟨hl.1, hr.1⟩, List.forall_mem_append.2 ⟨hl.2, hr.2⟩⟩

theorem chain {o : Operator} (ho : o.level = level) (hne : level ≠ 3) (hl : Forms known n level ts)
    (hr : Forms known n (level + 1) us) : Forms known n level (ts ++ .operator o :: us) := by
  obtain ⟨l, hl, hltree, hln⟩ := hl
  obtain ⟨r, hr, hrtree, hrn⟩ := hr
  exact ⟨_, .chain ho hne hl hr, tree_binary hltree hrtree, Nat.max_le.2 ⟨hln, hrn⟩⟩

theorem relation (o : Relation) (hl : Forms known n 4 ts) (hr : Forms known n 4 us) :
    Forms known n 3 (ts ++ .operator (.relation o) :: us) := by
  obtain ⟨l, hl, hltree, hln⟩ := hl
  obtain ⟨r, hr, hrtree, hrn⟩ := hr
  exact ⟨_, .relation o hl hr, tree_binary hltree hrtree, Nat.max_le.2 ⟨hln, hrn⟩⟩

theorem like (negated : Bool) {source : String} (hp : (Pattern.anchored? source).isSome)
    (h : Forms known n 4 ts) : Forms known n 3 (ts ++ [.like negated, .text source]) := by
  obtain ⟨p, hderives, htree, hn⟩ := h
  refine ⟨_, .like negated source hderives, ?_, hn⟩
  rw [Phrase.isSome_tree?_iff] at htree ⊢
  exact ⟨htree.1, List.forall_mem_append.2 ⟨htree.2, List.forall_mem_singleton.2 hp⟩⟩

end Forms

namespace Context

variable {cx : Context w} {operand deeper inner : Reader w} {level n : Nat} {ls ts rest : List Lexeme}
  {P Q : List Token → Prop} {p : Phrase} {l s : Sized w}

/-- What is read are tokens of some kind, and they are read the same before all else that starts
with the same token, or before the end. -/
def Finds (P : List Token → Prop) (R : Reader w) : Prop :=
  ∀ ts s rest, R ts = .ok (s, rest) → ∃ ls, ts = ls ++ rest ∧ P (ls.map (·.token)) ∧
    ∀ rest', rest'.head? = rest.head? → R (ls ++ rest') = .ok (s, rest')

theorem head_append {rest' : List Lexeme} (h : rest'.head? = rest.head?) (ls : List Lexeme) :
    (ls ++ rest').head? = (ls ++ rest).head? := by
  rw [List.head?_append, List.head?_append, h]

theorem sized_eq_ok {e : Expr w} {depth : Nat} (h : cx.sized e depth ts = .ok (s, rest)) :
    ts = rest ∧ ∀ rest', cx.sized e depth rest' = .ok (s, rest') := by
  rw [sized] at h
  split at h
  · simp [fail] at h
  · rename_i hle
    obtain ⟨rfl, rfl⟩ := Prod.mk.inj (Except.ok.inj h)
    exact ⟨rfl, fun rest' => if_neg hle⟩

theorem finds_tooDeep : Finds P cx.tooDeep := by
  intro ts s rest h
  simp [tooDeep, fail] at h

theorem chainFrom_step {o : Operator} {position fuel : Nat} {e r : Sized w} {us vs : List Lexeme}
    (ho : o.level = level) (hr : operand us = .ok (r, vs)) (he : cx.binary o l r vs = .ok (e, vs)) :
    cx.chainFrom level operand (fuel + 1) l (⟨.operator o, position⟩ :: us) =
      cx.chainFrom level operand fuel e vs := by
  rw [chainFrom, if_pos ho, hr]
  change (cx.binary o l r vs >>= _) = _
  rw [he]
  rfl

theorem finds_chainFrom (hop : Finds (Forms cx.known n (level + 1)) operand) (hne : level ≠ 3)
    {fuel : Nat} (hl : Forms cx.known n level (ls.map (·.token))) (hfuel : ts.length ≤ fuel)
    (h : cx.chainFrom level operand fuel l ts = .ok (s, rest)) :
    ∃ ms, ts = ms ++ rest ∧ Forms cx.known n level ((ls ++ ms).map (·.token)) ∧
      ∀ rest' fuel', rest'.head? = rest.head? → (ms ++ rest').length ≤ fuel' →
        cx.chainFrom level operand fuel' l (ms ++ rest') = .ok (s, rest') := by
  -- `ls` are the tokens of the left operand so far
  induction fuel generalizing l ls ts with
  | zero =>
    obtain rfl := List.eq_nil_of_length_eq_zero (Nat.le_zero.1 hfuel)
    obtain ⟨rfl, rfl⟩ := Prod.mk.inj (Except.ok.inj h)
    refine ⟨[], rfl, by rwa [List.append_nil], fun rest' fuel' hhead _ => ?_⟩
    obtain rfl := List.head?_eq_none_iff.1 hhead
    exact chainFrom_end (by simp) fuel'
  | succ fuel ih =>
    by_cases hover : ∀ t ∈ ts.head?, ∀ o, t.token = .operator o → o.level ≠ level
    · rw [chainFrom_end hover] at h
      obtain ⟨rfl, rfl⟩ := Prod.mk.inj (Except.ok.inj h)
      refine ⟨[], rfl, by rwa [List.append_nil], fun rest' fuel' hhead _ => ?_⟩
      exact chainFrom_end (hhead ▸ hover) fuel'
    · push Not at hover
      obtain ⟨⟨t, position⟩, ht, o, rfl, ho⟩ := hover
      obtain ⟨us, rfl⟩ := List.head?_eq_some_iff.1 ht
      rw [chainFrom, if_pos ho] at h
      obtain ⟨⟨r, vs⟩, hread, hmore⟩ := ok_bind_iff.1 h
      obtain ⟨⟨e, vs'⟩, hjoin, hmore⟩ := ok_bind_iff.1 hmore
      obtain ⟨rs, rfl, hr, hsame⟩ := hop _ _ _ hread
      obtain ⟨rfl, hjoined⟩ := sized_eq_ok hjoin
      have hderived : Forms cx.known n level
          ((ls ++ ⟨.operator o, position⟩ :: rs).map (·.token)) := by
        rw [List.map_append]
        exact hl.chain ho hne hr
      have hlen : vs.length ≤ fuel := by
        simp only [List.length_cons, List.length_append] at hfuel
        omega
      obtain ⟨ms, rfl, hms, hlocal⟩ := ih hderived hlen hmore
      refine ⟨⟨.operator o, position⟩ :: (rs ++ ms), by simp, ?_, fun rest' fuel' hhead hfuel' => ?_⟩
      · rwa [List.append_assoc, List.cons_append] at hms
      · simp only [List.cons_append, List.append_assoc, List.length_cons] at hfuel' ⊢
        obtain ⟨fuel', rfl⟩ := Nat.exists_eq_succ_of_ne_zero (Nat.ne_of_gt (Nat.zero_lt_of_lt hfuel'))
        rw [chainFrom_step ho (hsame _ (head_append hhead ms)) (hjoined _)]
        apply hlocal rest' fuel' hhead
        simp only [List.length_append] at hfuel' ⊢
        omega

theorem finds_chain (hop : Finds (Forms cx.known n (level + 1)) operand) (hlevel : level < 6)
    (hne : level ≠ 3) : Finds (Forms cx.known n level) (cx.chain level operand) := by
  intro ts s rest hts
  obtain ⟨⟨l, us⟩, hread, h⟩ := ok_bind_iff.1 hts
  obtain ⟨ls, rfl, hp, hsame⟩ := hop _ _ _ hread
  obtain ⟨ms, rfl, hms, hlocal⟩ := finds_chainFrom hop hne (hp.operand hlevel) (Nat.le_refl _) h
  refine ⟨ls ++ ms, (List.append_assoc ..).symm, hms, fun rest' hhead => ?_⟩
  rw [List.append_assoc, chain_of_ok (hsame _ (head_append hhead ms))]
  exact hlocal rest' _ hhead (Nat.le_refl _)

theorem like_eq_ok {negated : Bool} (h : cx.like negated l ts = .ok (s, rest)) :
    ∃ source position, ts = ⟨.text source, position⟩ :: rest ∧ (Pattern.anchored? source).isSome ∧
      ∀ rest', cx.like negated l (⟨.text source, position⟩ :: rest') = .ok (s, rest') := by
  unfold like at h
  split at h
  · split at h
    · rename_i p hp
      obtain ⟨rfl, hsized⟩ := sized_eq_ok h
      refine ⟨_, _, rfl, by rw [hp]; rfl, fun rest' => ?_⟩
      rw [like, hp]
      exact hsized rest'
    · simp [fail] at h
  · simp [fail] at h

theorem finds_comparison (hop : Finds (Forms cx.known n 4) operand) :
    Finds (Forms cx.known n 3) (cx.comparison operand) := by
  intro ts s rest hts
  obtain ⟨⟨l, us⟩, hread, h⟩ := ok_bind_iff.1 hts
  obtain ⟨ls, rfl, hp, hsame⟩ := hop _ _ _ hread
  simp only at h
  split at h
  · rename_i o position us
    obtain ⟨⟨r, vs⟩, hread', hjoin⟩ := ok_bind_iff.1 h
    obtain ⟨rs, rfl, hq, hsame'⟩ := hop _ _ _ hread'
    obtain ⟨rfl, hjoined⟩ := sized_eq_ok hjoin
    refine ⟨ls ++ ⟨.operator (.relation o), position⟩ :: rs, by simp, ?_, fun rest' hhead => ?_⟩
    · rw [List.map_append]
      exact hp.relation o hq
    · have hfirst := hsame (⟨.operator (.relation o), position⟩ :: (rs ++ rest')) rfl
      rw [List.append_assoc, List.cons_append, comparison_relation hfirst, hsame' rest' hhead]
      exact hjoined rest'
  · rename_i negated position us
    obtain ⟨source, position', rfl, hsource, hmatched⟩ := like_eq_ok h
    refine ⟨ls ++ [⟨.like negated, position⟩, ⟨.text source, position'⟩], by simp, ?_,
      fun rest' _ => ?_⟩
    · rw [List.map_append]
      exact hp.like negated hsource
    · have hfirst := hsame (⟨.like negated, position⟩ :: ⟨.text source, position'⟩ :: rest') rfl
      rw [List.append_assoc]
      exact (comparison_match hfirst).trans (hmatched rest')
  · rename_i hrelation hlike
    obtain ⟨rfl, rfl⟩ := Prod.mk.inj (Except.ok.inj h)
    refine ⟨ls, rfl, hp.operand (by decide), fun rest' hhead => ?_⟩
    apply comparison_end (hsame rest' hhead)
    · rintro ⟨t, position⟩ ht o rfl
      obtain ⟨us, rfl⟩ := List.head?_eq_some_iff.1 (hhead ▸ ht)
      exact hrelation o position us rfl
    · rintro ⟨t, position⟩ ht negated rfl
      obtain ⟨us, rfl⟩ := List.head?_eq_some_iff.1 (hhead ▸ ht)
      exact hlike negated position us rfl

theorem close_eq_ok {token : Token} {text : String} (h : cx.close token text ts = .ok rest) :
    ∃ position, ts = ⟨token, position⟩ :: rest := by
  cases ts with
  | nil => simp [close, fail] at h
  | cons t ts =>
    obtain ⟨token', position⟩ := t
    rw [close] at h
    split at h
    · obtain rfl := Except.ok.inj h
      exact ⟨position, by rw [← ‹_ = token›]⟩
    · simp [fail] at h

theorem subscript_eq_ok {start : List Lexeme} {o : Occurrence}
    (h : cx.subscript start ts = .ok (o, rest)) :
    ∃ t, ts = t :: rest ∧ Subscript [.openBracket, t.token, .closeBracket] o ∧
      ∀ start' rest', cx.subscript start' (t :: rest') = .ok (o, rest') := by
  unfold subscript at h
  split at h
  · obtain ⟨rfl, rfl⟩ := Prod.mk.inj (Except.ok.inj h)
    exact ⟨_, rfl, .any, fun _ _ => rfl⟩
  · split at h
    · rename_i hcount
      obtain ⟨rfl, rfl⟩ := Prod.mk.inj (Except.ok.inj h)
      obtain ⟨k, hwhole, rfl⟩ := count?_eq_some_iff.1 hcount
      refine ⟨_, rfl, .count hwhole, fun start' rest' => ?_⟩
      simp only [subscript, hcount]
      rfl
    · simp [fail] at h
  · simp [fail] at h
  · simp [fail] at h

theorem finds_field {name : String} :
    Finds (fun ts => Forms cx.known n 6 (.name name :: ts)) (cx.field name) := by
  intro ts s rest h
  cases hid : cx.known name with
  | none => simp [field, hid] at h
  | some id =>
    have hsome : (cx.known name).isSome := by rw [hid]; rfl
    rw [field, hid] at h
    simp only at h
    split at h
    · rename_i position us
      obtain ⟨⟨o, vs⟩, ho, h⟩ := ok_bind_iff.1 h
      obtain ⟨vs', hclose, h⟩ := ok_bind_iff.1 h
      obtain ⟨rfl, rfl⟩ := Prod.mk.inj (Except.ok.inj h)
      obtain ⟨t, rfl, ht, hsubscript⟩ := subscript_eq_ok ho
      obtain ⟨position', rfl⟩ := close_eq_ok hclose
      exact ⟨[⟨.openBracket, position⟩, t, ⟨.closeBracket, position'⟩], rfl, .field hsome ht,
        fun rest' _ => field_subscript hid hsubscript rest'⟩
    · rename_i hbracket
      obtain ⟨rfl, rfl⟩ := Prod.mk.inj (Except.ok.inj h)
      refine ⟨[], rfl, .field hsome .none, fun rest' hhead => field_end hid ?_⟩
      rintro ⟨t, position⟩ ht rfl
      obtain ⟨us, rfl⟩ := List.head?_eq_some_iff.1 (hhead ▸ ht)
      exact hbracket position us rfl

theorem finds_signed (hdeeper : Finds P deeper) (sign : Sign) :
    Finds P (unaryOver.signed cx deeper sign) := by
  intro ts s rest h
  obtain ⟨⟨e, us⟩, hread, hsized⟩ := ok_bind_iff.1 h
  obtain ⟨ls, rfl, hp, hsame⟩ := hdeeper _ _ _ hread
  obtain ⟨rfl, hsigned⟩ := sized_eq_ok hsized
  refine ⟨ls, rfl, hp, fun rest' hhead => ?_⟩
  rw [unaryOver.signed, hsame rest' hhead]
  exact hsigned rest'

theorem finds_unaryOver (hdeeper : Finds P deeper) (hinner : Finds Q inner)
    (hsigned : ∀ (s : Sign) ts, P ts → Forms cx.known n 6 (s.token :: ts))
    (hparen : ∀ ts, Q ts → Forms cx.known n 6 (.openParen :: (ts ++ [.closeParen]))) :
    Finds (Forms cx.known n 6) (cx.unaryOver deeper inner) := by
  intro ts s rest h
  unfold unaryOver at h
  split at h
  · rename_i position us
    obtain ⟨ls, rfl, hls, hsame⟩ := finds_signed hdeeper .not _ _ _ h
    exact ⟨⟨.bang, position⟩ :: ls, rfl, hsigned .not _ hls, hsame⟩
  · rename_i position us
    obtain ⟨ls, rfl, hls, hsame⟩ := finds_signed hdeeper .minus _ _ _ h
    exact ⟨⟨.operator (.arithmetic .sub), position⟩ :: ls, rfl, hsigned .minus _ hls, hsame⟩
  · rename_i position us
    obtain ⟨ls, rfl, hls, hsame⟩ := finds_signed hdeeper .plus _ _ _ h
    exact ⟨⟨.operator (.arithmetic .add), position⟩ :: ls, rfl, hsigned .plus _ hls, hsame⟩
  · rename_i word position us
    obtain ⟨rfl, rfl⟩ := Prod.mk.inj (Except.ok.inj h)
    exact ⟨[⟨.number word, position⟩], rfl, .number word, fun _ _ => rfl⟩
  · rename_i t position us
    obtain ⟨rfl, rfl⟩ := Prod.mk.inj (Except.ok.inj h)
    exact ⟨[⟨.text t, position⟩], rfl, .text t, fun _ _ => rfl⟩
  · rename_i position us
    obtain ⟨⟨e, vs⟩, hread, hrest⟩ := ok_bind_iff.1 h
    obtain ⟨vs', hclose, hpair⟩ := ok_bind_iff.1 hrest
    obtain ⟨ls, rfl, hls, hsame⟩ := hinner _ _ _ hread
    obtain ⟨rfl, rfl⟩ := Prod.mk.inj (Except.ok.inj hpair)
    obtain ⟨position', rfl⟩ := close_eq_ok hclose
    refine ⟨⟨.openParen, position⟩ :: (ls ++ [⟨.closeParen, position'⟩]), by simp, ?_,
      fun rest' _ => ?_⟩
    · rw [List.map_cons, List.map_append]
      exact hparen _ hls
    · have hfirst := hsame (⟨.closeParen, position'⟩ :: rest') rfl
      rw [List.cons_append, List.append_assoc]
      change (inner (ls ++ ⟨.closeParen, position'⟩ :: rest') >>= _) = _
      rw [hfirst]
      rfl
  · rename_i name position us
    obtain ⟨ls, rfl, hls, hsame⟩ := finds_field _ _ _ h
    exact ⟨⟨.name name, position⟩ :: ls, rfl, hls, hsame⟩
  · simp [fail] at h

theorem finds_levels (hop : Finds (Forms cx.known n 6) operand) :
    Finds (Forms cx.known n 0) (cx.levels operand) := by
  have h4 := finds_chain (finds_chain hop (by decide) (by decide)) (show 4 < 6 by decide) (by decide)
  have h2 := finds_chain (finds_comparison h4) (show 2 < 6 by decide) (by decide)
  exact finds_chain (finds_chain h2 (by decide) (by decide)) (by decide) (by decide)

theorem finds_unary (cx : Context w) (n : Nat) : Finds (Forms cx.known n 6) (cx.unary n) := by
  induction n with
  | zero =>
    have hnone : Finds (fun _ => False) cx.tooDeep := finds_tooDeep
    exact finds_unaryOver hnone hnone (fun _ _ => False.elim) (fun _ => False.elim)
  | succ n ih => exact finds_unaryOver ih (finds_levels ih) (fun s _ h => h.signed s) fun _ h => h.paren

/-! Whole texts. -/

theorem derives_of_parse {e : Expr w} (h : cx.parse ts = .ok e) :
    ∃ p, Derives 0 (ts.map (·.token)) p := by
  obtain ⟨⟨s, rest⟩, hread, hend⟩ := ok_bind_iff.1 h
  obtain ⟨ls, rfl, ⟨p, hp, -⟩, -⟩ := finds_levels (finds_unary cx maxDepth) _ _ _ hread
  simp only at hend
  split at hend
  · exact ⟨p, by rwa [List.append_nil]⟩
  · simp [fail] at hend

theorem parse_of_derives (h : Derives 0 (ts.map (·.token)) p) :
    (cx.parse ts).mapError Fault.isDeep = (p.outcome cx.known maxDepth).map (·.expr) := by
  have hread := (recognises_of_derives cx h maxDepth).gives ts [] rfl (by simp [Stops])
  rw [List.append_nil] at hread
  rw [parse, mapError_bind, show cx.levels (cx.unary maxDepth) ts
    = cx.reader (cx.unary maxDepth) 0 ts from rfl, hread]
  cases p.outcome cx.known maxDepth <;> rfl

theorem parse_eq_ok_iff {e : Expr w} (h : Derives 0 (ts.map (·.token)) p) : cx.parse ts = .ok e ↔
    p.tree? cx.known = some e ∧ p.nesting ≤ maxDepth ∧ p.height ≤ maxDepth := by
  rw [← ok_mapError_iff, parse_of_derives h, ok_map_iff]
  constructor
  · rintro ⟨s, hs, rfl⟩
    obtain ⟨htree, -, hlimits⟩ := Phrase.outcome_eq_ok_iff.1 hs
    exact ⟨htree, hlimits⟩
  · rintro ⟨htree, hlimits⟩
    exact ⟨⟨e, p.height⟩, Phrase.outcome_eq_ok_iff.2 ⟨htree, rfl, hlimits⟩, rfl⟩

/-- What the grammar derives with known names and accepted patterns is refused for its depth
only. -/
theorem deep_of_derives {fault : Fault} (h : Derives 0 (ts.map (·.token)) p)
    (htree : (p.tree? cx.known).isSome) (hfault : cx.parse ts = .error fault) :
    fault.isDeep = true := by
  have houtcome : (cx.parse ts).mapError Fault.isDeep
      = (p.outcome cx.known maxDepth).map (·.expr) := parse_of_derives h
  rw [hfault] at houtcome
  exact Phrase.deep_of_outcome htree (error_map_iff.1 houtcome.symm)

end Context

variable {known : String → Option (FieldId w)} {files : Files} {source : String} {c c' : Catalog w}
  {names : NameTable w} {ts : List Token} {p : Phrase} {root : Expr w}

theorem derives_of_ofText (h : ofText known source = .ok root) :
    ∃ ts p, Scans source.toList ts ∧ Derives 0 ts p := by
  obtain ⟨ls, hls, hparse⟩ := ok_bind_iff.1 h
  obtain ⟨p, hp⟩ := Context.derives_of_parse hparse
  exact ⟨_, p, Lexeme.scan_iff.1 ⟨ls, hls, rfl⟩, hp⟩

theorem ofText_eq_ok_iff (hts : Scans source.toList ts) (hp : Derives 0 ts p) :
    ofText known source = .ok root ↔
      p.tree? known = some root ∧ p.nesting ≤ maxDepth ∧ p.height ≤ maxDepth := by
  obtain ⟨ls, hls, rfl⟩ := Lexeme.scan_iff.2 hts
  rw [ofText, hls]
  exact Context.parse_eq_ok_iff hp

/-! Compiling. -/

def identified (files : Files) (c : Catalog w) (name : String) : Option (FieldId w) :=
  match Catalog.identFor files name c with
  | .ok id _ => some id
  | .error .. => none

theorem isSome_identified_iff {name : String} :
    (identified files c name).isSome ↔ ∃ id c', Catalog.identFor files name c = .ok id c' := by
  rw [identified]
  split
  · exact ⟨fun _ => ⟨_, _, ‹_›⟩, fun _ => rfl⟩
  · simp_all

theorem identified_of_table (h : Catalog.table files c = .ok names c') :
    identified files c = names.ident? := by
  funext name
  rw [identified, Catalog.identFor]
  simp only [bind, EStateM.bind, h]
  cases names.ident? name <;> rfl

theorem identified_of_error {error : Error} (h : Catalog.table files c = .error error c') :
    identified files c = fun _ => none := by
  funext name
  rw [identified, Catalog.identFor]
  simp only [bind, EStateM.bind, h]

/-- The catalog is asked late, but the outcome is that of reading with all its names at hand. -/
theorem exists_compile_iff {e : Compiled w} : (∃ c', compile files source c = .ok e c') ↔
    e.source = source ∧ ofText (identified files c) source = .ok e.root := by
  constructor
  · rintro ⟨c', h⟩
    obtain ⟨hsource, ⟨hroot, -⟩ | ⟨names, ht, hroot⟩⟩ := compile_eq_ok h
    · refine ⟨hsource, ?_⟩
      rcases defers_ofText (identified files c) source with ⟨name, hname⟩ | hsame
      · simp [hroot] at hname
      · rw [hsame, hroot]
    · rw [identified_of_table ht]
      exact ⟨hsource, hroot⟩
  · obtain ⟨text, root⟩ := e
    rintro ⟨hsource, hroot⟩
    obtain rfl : source = text := hsource.symm
    rcases defers_ofText (identified files c) source with ⟨name, hname⟩ | hsame
    · cases ht : Catalog.table files c with
      | ok names c' =>
        rw [identified_of_table ht] at hroot
        exact ⟨c', compile_of_table hname ht hroot⟩
      | error error c' =>
        rw [identified_of_error ht, hname] at hroot
        simp at hroot
    · exact ⟨c, compile_of_ofText (hsame ▸ hroot)⟩

end FieldBuffers.Expr
