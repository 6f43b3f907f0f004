import FieldBuffers.Proofs.Covering
import FieldBuffers.Proofs.Deriving

/-! Where a text goes wrong. The tokens before the place that is reported begin an expression, and
with the token at it they begin none (`locates_parse`). -/

namespace FieldBuffers.Expr

variable {w : Width} {known : String → Option (FieldId w)} {n level : Nat} {ts us : List Token}

/-- Names are known, and texts that follow the token of a match are accepted as patterns. -/
structure Fits (known : String → Option (FieldId w)) (ts : List Token) : Prop where
  names : ∀ name, .name name ∈ ts → (known name).isSome
  patterns : ∀ as negated source bs, ts = as ++ .like negated :: .text source :: bs →
    (Pattern.anchored? source).isSome

theorem Fits.of_append (h : Fits known (ts ++ us)) : Fits known us := by
  refine ⟨fun name hname => h.names name (List.mem_append_right _ hname), ?_⟩
  rintro as negated source bs rfl
  exact h.patterns (ts ++ as) negated source bs (List.append_assoc ..).symm

theorem Fits.of_cons {t : Token} (h : Fits known (t :: us)) : Fits known us := by
  change Fits known ([t] ++ us) at h
  exact h.of_append

/-- Tokens that begin a phrase of the level. -/
def Opens (known : String → Option (FieldId w)) (n level : Nat) (ts : List Token) : Prop :=
  ∃ us, (∀ t ∈ us, t.Written) ∧ Forms known n level (ts ++ us)

theorem Forms.opens (h : Forms known n level ts) : Opens known n level ts :=
  ⟨[], nofun, by rwa [List.append_nil]⟩

namespace Opens

theorem operand (hlevel : level < 6) (h : Opens known n (level + 1) ts) :
    Opens known n level ts := by
  obtain ⟨us, hus, h⟩ := h
  exact ⟨us, hus, h.operand hlevel⟩

theorem chain {o : Operator} (ho : o.level = level) (hne : level ≠ 3) (hl : Forms known n level ts)
    (hr : Opens known n (level + 1) us) : Opens known n level (ts ++ .operator o :: us) := by
  obtain ⟨vs, hvs, hr⟩ := hr
  refine ⟨vs, hvs, ?_⟩
  rw [List.append_assoc]
  exact hl.chain ho hne hr

theorem relation (o : Relation) (hl : Forms known n 4 ts) (hr : Opens known n 4 us) :
    Opens known n 3 (ts ++ .operator (.relation o) :: us) := by
  obtain ⟨vs, hvs, hr⟩ := hr
  refine ⟨vs, hvs, ?_⟩
  rw [List.append_assoc]
  exact hl.relation o hr

theorem like (negated : Bool) (h : Forms known n 4 ts) :
    Opens known n 3 (ts ++ [.like negated]) := by
  refine ⟨[.text "a"], by simp [Token.Written], ?_⟩
  rw [List.append_assoc]
  exact h.like negated (by rw [anchored?_letter]; rfl)

theorem signed (s : Sign) (h : Opens known n 6 ts) : Opens known (n + 1) 6 (s.token :: ts) := by
  obtain ⟨us, hus, h⟩ := h
  exact ⟨us, hus, h.signed s⟩

theorem paren (h : Opens known n 0 ts) : Opens known (n + 1) 6 (.openParen :: ts) := by
  obtain ⟨us, hus, h⟩ := h
  refine ⟨us ++ [.closeParen], List.forall_mem_append.2 ⟨hus, by simp [Token.Written]⟩, ?_⟩
  rw [List.cons_append, ← List.append_assoc]
  exact h.paren

theorem nil : Opens known n 6 [] :=
  ⟨[.number 0], by simp [Token.Written], .number 0⟩

theorem bracket {name : String} (h : (known name).isSome) :
    Opens known n 6 [.name name, .openBracket] :=
  ⟨[.question, .closeBracket], by simp [Token.Written], .field h .any⟩

theorem subscript {name : String} {t : Token} {o : Occurrence} (h : (known name).isSome)
    (ht : Subscript [.openBracket, t, .closeBracket] o) :
    Opens known n 6 [.name name, .openBracket, t] :=
  ⟨[.closeBracket], by simp [Token.Written], .field h ht⟩

end Opens

namespace Context

variable {cx : Context w} {α β : Type} {operand deeper inner : Reader w} {ls rest : List Lexeme}
  {ts us : List Lexeme} {l s : Sized w} {fault : Fault} {O D I Q : List Token → Prop}
  {R : List Lexeme → Except Fault α} {S : List Lexeme → Except Fault β}

/-- With the token, nothing is read whatever follows, and not for its depth. -/
def Wrong (R : List Lexeme → Except Fault α) (ls : List Lexeme) (t : Lexeme) : Prop :=
  ∀ us, ∃ fault, R (ls ++ t :: us) = .error fault ∧ fault.isDeep = false

/-- The fault is at a place such that the tokens before it begin something, and the token at it is
wrong. Where the tokens end in an open bracket, the fault is at that bracket instead. -/
def Located (cx : Context w) (O : List Token → Prop) (R : List Lexeme → Except Fault α)
    (ts : List Lexeme) (fault : Fault) : Prop :=
  ∃ ls rest cause, ts = ls ++ rest ∧ O (ls.map (·.token)) ∧
    ((rest = [] ∧ ∃ as p, ls = as ++ [⟨.openBracket, p⟩] ∧ fault = .malformed p cause) ∨
      fault = .malformed (cx.position rest) cause ∧ ∀ t us, rest = t :: us → Wrong R ls t)

def Locates (cx : Context w) (O : List Token → Prop) (R : List Lexeme → Except Fault α) : Prop :=
  ∀ ts fault, Fits cx.known (ts.map (·.token)) → R ts = .error fault → fault.isDeep = false →
    cx.Located O R ts fault

theorem Located.here (ls rest : List Lexeme) (cause : Cause) (h : O (ls.map (·.token)))
    (hwrong : ∀ t us, rest = t :: us → Wrong R ls t) :
    cx.Located O R (ls ++ rest) (.malformed (cx.position rest) cause) :=
  ⟨ls, rest, cause, rfl, h, .inr ⟨rfl, hwrong⟩⟩

/-- A place in what follows some tokens, if these do not change how it is read. -/
theorem Located.after (h : cx.Located D S ts fault) (ls : List Lexeme)
    (hopens : ∀ us, D us → O (ls.map (·.token) ++ us))
    (herror : ∀ us fault, us.head? = ts.head? → S us = .error fault → R (ls ++ us) = .error fault) :
    cx.Located O R (ls ++ ts) fault := by
  obtain ⟨ms, rest, cause, rfl, hms, hend⟩ := h
  refine ⟨ls ++ ms, rest, cause, (List.append_assoc ..).symm, ?_, ?_⟩
  · rw [List.map_append]
    exact hopens _ hms
  · obtain ⟨hrest, as, p, rfl, hfault⟩ | ⟨hposition, hwrong⟩ := hend
    · exact .inl ⟨hrest, ls ++ as, p, (List.append_assoc ..).symm, hfault⟩
    · refine .inr ⟨hposition, ?_⟩
      rintro t us rfl vs
      obtain ⟨fault, hfault, hdeep⟩ := hwrong t us rfl vs
      refine ⟨fault, ?_, hdeep⟩
      rw [List.append_assoc]
      have hhead : (t :: vs).head? = (t :: us).head? := rfl
      exact herror _ fault (head_append hhead ms) hfault

theorem Located.mono (h : cx.Located D S ts fault) (hopens : ∀ us, D us → O us)
    (herror : ∀ us fault, S us = .error fault → R us = .error fault) :
    cx.Located O R ts fault :=
  h.after [] hopens fun us fault _ => herror us fault

theorem isDeep_of_sized {e : Expr w} {depth : Nat} (h : cx.sized e depth ts = .error fault) :
    fault.isDeep = true := by
  rw [sized] at h
  split at h
  · obtain rfl := Except.error.inj h
    rfl
  · cases h

theorem locates_tooDeep : cx.Locates O cx.tooDeep := by
  intro ts fault _ h hdeep
  obtain rfl := Except.error.inj h
  cases hdeep

/-! Operators. -/

/-- A place after the left operand so far, which the chain has read as `l`. -/
theorem located_chainFrom (hop : cx.Locates (Opens cx.known n (level + 1)) operand)
    (hfinds : Finds (Forms cx.known n (level + 1)) operand) (hne : level ≠ 3) {fuel : Nat}
    (hl : Forms cx.known n level (ls.map (·.token)))
    (hread : ∀ us, us.head? = ts.head? → ∃ fuel, us.length ≤ fuel ∧
      cx.chain level operand (ls ++ us) = cx.chainFrom level operand fuel l us)
    (hfits : Fits cx.known (ts.map (·.token)))
    (h : cx.chainFrom level operand fuel l ts = .error fault)
    (hdeep : fault.isDeep = false) :
    cx.Located (Opens cx.known n level) (cx.chain level operand) (ls ++ ts) fault := by
  induction fuel generalizing l ls ts with
  | zero => cases h
  | succ fuel ih =>
    by_cases hover : ∀ t ∈ ts.head?, ∀ o, t.token = .operator o → o.level ≠ level
    · rw [chainFrom_end hover] at h
      cases h
    · push Not at hover
      obtain ⟨⟨t, p⟩, ht, o, rfl, ho⟩ := hover
      obtain ⟨us, rfl⟩ := List.head?_eq_some_iff.1 ht
      have hfits := hfits.of_cons
      rw [chainFrom, if_pos ho] at h
      obtain h | ⟨⟨r, vs⟩, hr, h⟩ := error_bind_iff.1 h
      · have hafter : cx.Located (Opens cx.known n level) (cx.chain level operand)
            ((ls ++ [⟨.operator o, p⟩]) ++ us) fault := by
          apply (hop us fault hfits h hdeep).after _
          · intro vs hvs
            rw [List.map_append, List.append_assoc]
            exact .chain ho hne hl hvs
          · intro vs fault _ hfault
            obtain ⟨fuel, hfuel, hchain⟩ := hread (⟨.operator o, p⟩ :: vs) rfl
            obtain ⟨fuel, rfl⟩ :=
              Nat.exists_eq_succ_of_ne_zero (Nat.ne_of_gt (Nat.zero_lt_of_lt hfuel))
            rw [List.append_assoc, List.singleton_append, hchain, chainFrom, if_pos ho, hfault]
            rfl
        rwa [List.append_assoc] at hafter
      · obtain h | ⟨⟨e, vs'⟩, he, h⟩ := error_bind_iff.1 h
        · exact absurd (isDeep_of_sized h) (by rw [hdeep]; decide)
        · obtain ⟨rs, rfl, hrs, hsame⟩ := hfinds _ _ _ hr
          obtain ⟨rfl, hjoined⟩ := sized_eq_ok he
          have hforms : Forms cx.known n level
              ((ls ++ ⟨.operator o, p⟩ :: rs).map (·.token)) := by
            rw [List.map_append]
            exact hl.chain ho hne hrs
          rw [List.map_append] at hfits
          have hafter := ih hforms ?_ hfits.of_append h
          · rwa [List.append_assoc] at hafter
          · intro us hhead
            obtain ⟨fuel, hfuel, hchain⟩ := hread (⟨.operator o, p⟩ :: (rs ++ us)) rfl
            obtain ⟨fuel, rfl⟩ :=
              Nat.exists_eq_succ_of_ne_zero (Nat.ne_of_gt (Nat.zero_lt_of_lt hfuel))
            refine ⟨fuel, ?_, ?_⟩
            · simp only [List.length_cons, List.length_append] at hfuel
              omega
            · rw [List.append_assoc, List.cons_append, hchain,
                chainFrom_step ho (hsame us hhead) (hjoined us)]

theorem locates_chain (hop : cx.Locates (Opens cx.known n (level + 1)) operand)
    (hfinds : Finds (Forms cx.known n (level + 1)) operand) (hlevel : level < 6) (hne : level ≠ 3) :
    cx.Locates (Opens cx.known n level) (cx.chain level operand) := by
  intro ts fault hfits hts hdeep
  obtain h | ⟨⟨l, us⟩, hl, h⟩ := error_bind_iff.1 hts
  · apply (hop ts fault hfits h hdeep).mono fun us hus => hus.operand hlevel
    intro us fault hfault
    rw [chain, hfault]
    rfl
  · obtain ⟨ls, rfl, hls, hsame⟩ := hfinds _ _ _ hl
    rw [List.map_append] at hfits
    apply located_chainFrom hop hfinds hne (hls.operand hlevel) _ hfits.of_append h hdeep
    exact fun us hhead => ⟨us.length, Nat.le_refl _, chain_of_ok (hsame us hhead)⟩

theorem like_eq_error {negated : Bool} (hfits : Fits cx.known (.like negated :: ts.map (·.token)))
    (h : cx.like negated l ts = .error fault) (hdeep : fault.isDeep = false) :
    fault = .malformed (cx.position ts) .noPattern ∧ ∀ t us, ts = t :: us →
      ∀ us', cx.like negated l (t :: us') = .error fault := by
  match ts with
  | [] =>
    obtain rfl := Except.error.inj h
    exact ⟨rfl, nofun⟩
  | ⟨t, p⟩ :: us =>
    cases t with
    | text source =>
      obtain ⟨pattern, hpattern⟩ := Option.isSome_iff_exists.1 (hfits.patterns [] negated source _ rfl)
      rw [like, hpattern] at h
      exact absurd (isDeep_of_sized h) (by rw [hdeep]; decide)
    | _ =>
      obtain rfl := Except.error.inj h
      refine ⟨rfl, ?_⟩
      rintro _ _ ⟨⟩ us'
      rfl

theorem locates_comparison (hop : cx.Locates (Opens cx.known n 4) operand)
    (hfinds : Finds (Forms cx.known n 4) operand) :
    cx.Locates (Opens cx.known n 3) (cx.comparison operand) := by
  intro ts fault hfits hts hdeep
  obtain h | ⟨⟨l, us⟩, hl, h⟩ := error_bind_iff.1 hts
  · apply (hop ts fault hfits h hdeep).mono fun us hus => hus.operand (by decide)
    intro us fault hfault
    rw [comparison, hfault]
    rfl
  · obtain ⟨ls, rfl, hls, hsame⟩ := hfinds _ _ _ hl
    rw [List.map_append] at hfits
    have hrest := hfits.of_append
    simp only at h
    split at h
    · rename_i o p us
      obtain h | ⟨⟨r, vs⟩, hr, h⟩ := error_bind_iff.1 h
      · have hafter : cx.Located (Opens cx.known n 3) (cx.comparison operand)
            ((ls ++ [⟨.operator (.relation o), p⟩]) ++ us) fault := by
          apply (hop us fault hrest.of_cons h hdeep).after _
          · intro vs hvs
            rw [List.map_append, List.append_assoc]
            exact .relation o hls hvs
          · intro vs fault _ hfault
            have hfirst := hsame (⟨.operator (.relation o), p⟩ :: vs) rfl
            rw [List.append_assoc, List.singleton_append, comparison_relation hfirst, hfault]
            rfl
        rwa [List.append_assoc] at hafter
      · exact absurd (isDeep_of_sized h) (by rw [hdeep]; decide)
    · rename_i negated p us
      obtain ⟨rfl, hwrong⟩ := like_eq_error hrest h hdeep
      have hopens : Opens cx.known n 3 ((ls ++ [(⟨.like negated, p⟩ : Lexeme)]).map (·.token)) := by
        rw [List.map_append]
        exact .like negated hls
      have hhere : cx.Located (Opens cx.known n 3) (cx.comparison operand)
          ((ls ++ [⟨.like negated, p⟩]) ++ us) (.malformed (cx.position us) .noPattern) := by
        apply Located.here _ _ .noPattern hopens
        intro t vs hus us'
        refine ⟨_, ?_, hdeep⟩
        have hfirst := hsame (⟨.like negated, p⟩ :: t :: us') rfl
        rw [List.append_assoc, List.singleton_append, comparison_match hfirst]
        exact hwrong t vs hus us'
      rwa [List.append_assoc] at hhere
    · cases h

/-! Operands. -/

theorem close_eq_error {token : Token} {text : String} (h : cx.close token text ts = .error fault) :
    fault = .malformed (cx.position ts) (.notClosed text) ∧ ∀ t us, ts = t :: us →
      ∀ us', cx.close token text (t :: us') = .error fault := by
  cases ts with
  | nil =>
    obtain rfl := Except.error.inj h
    exact ⟨rfl, nofun⟩
  | cons t us =>
    rw [close] at h
    split at h
    · cases h
    · rename_i hne
      obtain rfl := Except.error.inj h
      refine ⟨rfl, ?_⟩
      rintro _ _ ⟨⟩ us'
      exact if_neg hne

theorem subscript_eq_error {start : List Lexeme} {t : Lexeme}
    (h : cx.subscript start (t :: ts) = .error fault) :
    fault = .malformed t.position .badOccurrence ∧
      ∀ start' us, cx.subscript start' (t :: us) = .error fault := by
  obtain ⟨t, p⟩ := t
  cases t with
  | question => cases h
  | number word =>
    cases hcount : count? word with
    | some k => simp [subscript, hcount, pure, Except.pure] at h
    | none =>
      simp only [subscript, hcount] at h ⊢
      obtain rfl := Except.error.inj h
      exact ⟨rfl, fun _ _ => rfl⟩
  | _ =>
    obtain rfl := Except.error.inj h
    exact ⟨rfl, fun _ _ => rfl⟩

theorem field_bracket {name : String} {id : FieldId w} {p : Nat} (hid : cx.known name = some id)
    (us : List Lexeme) : cx.field name (⟨.openBracket, p⟩ :: us) = (do
      let (occurrence, rest) ← cx.subscript (⟨.openBracket, p⟩ :: us) us
      let rest ← cx.close .closeBracket "]" rest
      return (⟨.field ⟨id, name, occurrence⟩, 1⟩, rest)) := by
  rw [field, hid]

theorem located_field {name : String} (hname : (cx.known name).isSome)
    (h : cx.field name ts = .error fault) (hdeep : fault.isDeep = false) :
    cx.Located (fun us => Opens cx.known n 6 (.name name :: us)) (cx.field name) ts fault := by
  obtain ⟨id, hid⟩ := Option.isSome_iff_exists.1 hname
  by_cases hbracket : ∀ t ∈ ts.head?, t.token ≠ .openBracket
  · rw [field_end hid hbracket] at h
    cases h
  · push Not at hbracket
    obtain ⟨⟨t, p⟩, ht, rfl⟩ := hbracket
    obtain ⟨us, rfl⟩ := List.head?_eq_some_iff.1 ht
    rw [field_bracket hid] at h
    cases us with
    | nil =>
      obtain rfl := Except.error.inj h
      exact ⟨[⟨.openBracket, p⟩], [], .badOccurrence, rfl, .bracket hname, .inl ⟨rfl, [], p, rfl, rfl⟩⟩
    | cons t us =>
      obtain h | ⟨⟨o, vs⟩, ho, h⟩ := error_bind_iff.1 h
      · obtain ⟨rfl, hwrong⟩ := subscript_eq_error h
        have hopens : Opens cx.known n 6 [.name name, .openBracket] := .bracket hname
        apply Located.here [⟨.openBracket, p⟩] (t :: us) .badOccurrence hopens
        rintro _ _ ⟨⟩ us'
        refine ⟨_, ?_, hdeep⟩
        rw [List.singleton_append, field_bracket hid, hwrong]
        rfl
      · obtain h | ⟨rest, -, h⟩ := error_bind_iff.1 h
        · obtain ⟨t', ht', hsubscript, hsame⟩ := subscript_eq_ok ho
          obtain ⟨rfl, rfl⟩ := List.cons.inj ht'
          obtain ⟨rfl, hwrong⟩ := close_eq_error h
          have hopens : Opens cx.known n 6 [.name name, .openBracket, t.token] :=
            .subscript hname hsubscript
          apply Located.here [⟨.openBracket, p⟩, t] us (.notClosed "]") hopens
          rintro t' vs rfl us'
          refine ⟨_, ?_, hdeep⟩
          rw [List.cons_append, List.singleton_append, field_bracket hid, hsame]
          change (cx.close .closeBracket "]" (t' :: us') >>= _) = _
          rw [hwrong t' vs rfl us']
          rfl
        · cases h

theorem locates_signed (hdeeper : cx.Locates O deeper) (s : Sign) :
    cx.Locates O (unaryOver.signed cx deeper s) := by
  intro ts fault hfits hts hdeep
  obtain h | ⟨e, -, h⟩ := error_bind_iff.1 hts
  · apply (hdeeper ts fault hfits h hdeep).mono fun _ hus => hus
    intro us fault hfault
    rw [unaryOver.signed, hfault]
    rfl
  · exact absurd (isDeep_of_sized h) (by rw [hdeep]; decide)

theorem locates_unaryOver (hdeeper : cx.Locates D deeper) (hinner : cx.Locates I inner)
    (hfinds : Finds Q inner)
    (hD : ∀ (s : Sign) ts, D ts → Opens cx.known n 6 (s.token :: ts))
    (hI : ∀ ts, I ts → Opens cx.known n 6 (.openParen :: ts))
    (hQ : ∀ ts, Q ts → Opens cx.known n 6 (.openParen :: ts)) :
    cx.Locates (Opens cx.known n 6) (cx.unaryOver deeper inner) := by
  intro ts fault hfits hts hdeep
  match ts with
  | [] =>
    obtain rfl := Except.error.inj hts
    exact Located.here [] [] .noOperand .nil nofun
  | ⟨t, p⟩ :: us =>
    have hnone (hwrong : ∀ us, cx.unaryOver deeper inner (⟨t, p⟩ :: us)
        = .error (.malformed p .noOperand)) :
        cx.Located (Opens cx.known n 6) (cx.unaryOver deeper inner) (⟨t, p⟩ :: us) fault := by
      rw [hwrong] at hts
      obtain rfl := Except.error.inj hts
      apply Located.here [] (⟨t, p⟩ :: us) .noOperand .nil
      rintro _ _ ⟨⟩ us'
      exact ⟨_, hwrong us', rfl⟩
    have hsigned (s : Sign) (ht : t = s.token) (hread : ∀ us, cx.unaryOver deeper inner
        (⟨t, p⟩ :: us) = unaryOver.signed cx deeper s us) :
        cx.Located (Opens cx.known n 6) (cx.unaryOver deeper inner) (⟨t, p⟩ :: us) fault := by
      rw [hread] at hts
      apply (locates_signed hdeeper s us fault hfits.of_cons hts hdeep).after [⟨t, p⟩]
      · intro vs hvs
        exact ht ▸ hD s vs hvs
      · intro vs fault _ hfault
        exact (hread vs).trans hfault
    cases t with
    | bang => exact hsigned .not rfl fun _ => rfl
    | operator o =>
      rcases o with o | o | (_ | _ | _ | _ | _)
      · exact hnone fun _ => rfl
      · exact hnone fun _ => rfl
      · exact hsigned .plus rfl fun _ => rfl
      · exact hsigned .minus rfl fun _ => rfl
      · exact hnone fun _ => rfl
      · exact hnone fun _ => rfl
      · exact hnone fun _ => rfl
    | number word => cases hts
    | text s => cases hts
    | name s =>
      have hname : (cx.known s).isSome := hfits.names s (List.mem_cons_self ..)
      exact (located_field hname hts hdeep).after [⟨.name s, p⟩] (fun _ hvs => hvs)
        fun vs fault _ hfault => hfault
    | openParen =>
      obtain h | ⟨⟨e, vs⟩, he, h⟩ := error_bind_iff.1 hts
      · apply (hinner us fault hfits.of_cons h hdeep).after [⟨.openParen, p⟩]
        · exact hI
        · intro vs fault _ hfault
          change (inner vs >>= _) = _
          rw [hfault]
          rfl
      · obtain ⟨ls, rfl, hls, hsame⟩ := hfinds _ _ _ he
        obtain h | ⟨rest, -, h⟩ := error_bind_iff.1 h
        · obtain ⟨rfl, hwrong⟩ := close_eq_error h
          apply Located.here (⟨.openParen, p⟩ :: ls) vs (.notClosed ")") (hQ _ hls)
          rintro t us rfl us'
          refine ⟨_, ?_, hdeep⟩
          have hread := hsame (t :: us') rfl
          change (inner (ls ++ t :: us') >>= _) = _
          rw [hread]
          change (cx.close .closeParen ")" (t :: us') >>= _) = _
          rw [hwrong t us rfl us']
          rfl
        · cases h
    | _ => exact hnone fun _ => rfl

theorem locates_levels (hop : cx.Locates (Opens cx.known n 6) operand)
    (hfinds : Finds (Forms cx.known n 6) operand) :
    cx.Locates (Opens cx.known n 0) (cx.levels operand) := by
  have hf5 : Finds (Forms cx.known n 5) _ := finds_chain hfinds (by decide) (by decide)
  have hf4 : Finds (Forms cx.known n 4) _ := finds_chain hf5 (by decide) (by decide)
  have hf3 := finds_comparison hf4
  have hf2 : Finds (Forms cx.known n 2) _ := finds_chain hf3 (by decide) (by decide)
  have hf1 : Finds (Forms cx.known n 1) _ := finds_chain hf2 (by decide) (by decide)
  have h5 := locates_chain hop hfinds (by decide) (by decide)
  have h3 := locates_comparison (locates_chain h5 hf5 (by decide) (by decide)) hf4
  have h2 := locates_chain h3 hf3 (by decide) (by decide)
  exact locates_chain (locates_chain h2 hf2 (by decide) (by decide)) hf1 (by decide) (by decide)

theorem locates_unary (cx : Context w) (n : Nat) :
    cx.Locates (Opens cx.known n 6) (cx.unary n) := by
  induction n with
  | zero =>
    have hnone : cx.Locates (fun _ => False) cx.tooDeep := locates_tooDeep
    have hfinds : Finds (fun _ => False) cx.tooDeep := finds_tooDeep
    exact locates_unaryOver hnone hnone hfinds (fun _ _ => False.elim) (fun _ => False.elim)
      fun _ => False.elim
  | succ n ih =>
    have hfinds := finds_unary cx n
    exact locates_unaryOver ih (locates_levels ih hfinds) (finds_levels hfinds)
      (fun s _ h => h.signed s) (fun _ h => h.paren) fun _ h => h.opens.paren

theorem locates_parse (cx : Context w) : cx.Locates (Opens cx.known maxDepth 0) cx.parse := by
  intro ts fault hfits hts hdeep
  have hfinds := finds_unary cx maxDepth
  obtain h | ⟨⟨e, rest⟩, he, h⟩ := error_bind_iff.1 hts
  · apply (locates_levels (locates_unary cx maxDepth) hfinds ts fault hfits h hdeep).mono
      fun _ hus => hus
    intro us fault hfault
    rw [parse, hfault]
    rfl
  · obtain ⟨ls, rfl, hls, hsame⟩ := finds_levels hfinds _ _ _ he
    cases rest with
    | nil => cases h
    | cons t us =>
      obtain rfl := Except.error.inj h
      apply Located.here ls (t :: us) .trailing hls.opens
      rintro _ _ ⟨⟩ us'
      refine ⟨_, ?_, hdeep⟩
      rw [parse, hsame (t :: us') rfl]
      rfl

end Context

end FieldBuffers.Expr
