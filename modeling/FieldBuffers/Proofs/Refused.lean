import FieldBuffers.Proofs.Literals
import FieldBuffers.Proofs.Offending

/-! Texts that are refused as malformed, and where. Up to the reported place a text begins an
expression, and with the token there it begins none (`refused_at_first_wrong_token`). -/

namespace FieldBuffers.Expr

open Binary (binary64)

variable {w : Width} {cs rest : List Char} {t : Token} {ts us : List Token}

/-! Every list of tokens that the scanner can find is that of a text. -/

/-- A numeral past all that is finite. -/
theorem word?_overflow :
    Decimal.word? binary64 ('1' :: List.replicate 400 '0') = some binary64.infinity := by
  decide +kernel

theorem Token.Written.scans (ht : t.Written) (h : Scans cs ts) : ∃ cs, Scans cs (t :: ts) := by
  have hspace : Breaks (' ' :: cs) := by simp [Breaks]
  have hblank : Scans (' ' :: cs) ts := h.blank
  cases t with
  | number word =>
    by_cases hword : word = binary64.infinity
    · subst hword
      have hzeros : ∀ d ∈ List.replicate 400 '0', (d.isDigit || d == '.') = true := by
        intro d hd
        rw [List.eq_of_mem_replicate hd]
        decide
      exact ⟨_, scans_numeral (by decide) hzeros word?_overflow hspace hblank⟩
    · exact ⟨_, scans_number ht (finite_of_ne_infinity ht hword) hspace hblank⟩
  | text s => exact ⟨_, scans_quote h⟩
  | name s => exact ⟨_, scans_name ht hspace hblank⟩
  | bang => exact ⟨_, scans_sign .not (by simp) hblank⟩
  | like negated => exact ⟨_, scans_like negated h⟩
  | operator o => exact ⟨_, scans_operator o h⟩
  | openParen => exact ⟨'(' :: cs, .cons (by decide) rfl h⟩
  | closeParen => exact ⟨')' :: cs, .cons (by decide) rfl h⟩
  | openBracket => exact ⟨'[' :: cs, .cons (by decide) rfl h⟩
  | closeBracket => exact ⟨']' :: cs, .cons (by decide) rfl h⟩
  | question => exact ⟨'?' :: cs, .cons (by decide) rfl h⟩

theorem exists_scans (h : ∀ t ∈ ts, t.Written) : ∃ cs, Scans cs ts := by
  induction ts with
  | nil => exact ⟨[], .done rfl⟩
  | cons t ts ih =>
    obtain ⟨ht, hts⟩ := List.forall_mem_cons.1 h
    obtain ⟨cs, hcs⟩ := ih hts
    exact ht.scans hcs

/-! Compiling. -/

variable {files : Files} {source text : String} {c c' : Catalog w} {names : NameTable w}
  {position : Nat} {cause : Cause} {message : String} {p : Phrase}

/-- Tokens of an expression with names that the catalog has and patterns that are accepted. -/
structure Sentence (files : Files) (c : Catalog w) (ts : List Token) (p : Phrase) : Prop where
  derives : Derives 0 ts p
  names : ∀ name ∈ p.names, ∃ id c', Catalog.identFor files name c = .ok id c'
  patterns : ∀ pattern ∈ p.patterns, (Pattern.anchored? pattern).isSome

/-- The tokens begin an expression that compiles unless its tree is too high. -/
def Begins (files : Files) (c : Catalog w) (ts : List Token) : Prop :=
  ∃ us text p, Scans text.toList (ts ++ us) ∧ Sentence files c (ts ++ us) p ∧ p.nesting ≤ 128 ∧
    ((∃ e c', compile files text c = .ok e c') ↔ p.height ≤ 128)

theorem Sentence.tree (h : Sentence files c ts p) : (p.tree? (identified files c)).isSome :=
  Phrase.isSome_tree?_iff.2
    ⟨fun name hname => isSome_identified_iff.2 (h.names name hname), h.patterns⟩

theorem sentence_of_tree (h : Derives 0 ts p) (htree : (p.tree? (identified files c)).isSome) :
    Sentence files c ts p := by
  obtain ⟨hnames, hpatterns⟩ := Phrase.isSome_tree?_iff.1 htree
  exact ⟨h, fun name hname => isSome_identified_iff.1 (hnames name hname), hpatterns⟩

theorem Sentence.compiles_iff_height (h : Sentence files c ts p) (hts : Scans text.toList ts)
    (hn : p.nesting ≤ 128) : (∃ e c', compile files text c = .ok e c') ↔ p.height ≤ 128 := by
  constructor
  · rintro ⟨e, hcompile⟩
    obtain ⟨-, hroot⟩ := exists_compile_iff.1 hcompile
    exact ((ofText_eq_ok_iff hts h.derives).1 hroot).2.2
  · intro hheight
    obtain ⟨root, hroot⟩ := Option.isSome_iff_exists.1 h.tree
    exact ⟨⟨text, root⟩, exists_compile_iff.2
      ⟨rfl, (ofText_eq_ok_iff hts h.derives).2 ⟨hroot, hn, hheight⟩⟩⟩

theorem Opens.begins (h : Opens (identified files c) 128 0 ts) (hts : ∀ t ∈ ts, t.Written) :
    Begins files c ts := by
  obtain ⟨us, hus, p, hp, htree, hn⟩ := h
  have hsentence := sentence_of_tree hp htree
  obtain ⟨cs, hcs⟩ := exists_scans (List.forall_mem_append.2 ⟨hts, hus⟩)
  rw [← String.toList_ofList (l := cs)] at hcs
  exact ⟨us, _, p, hcs, hsentence, hn, hsentence.compiles_iff_height hcs hn⟩

/-- A text is refused for a name only if it has one. -/
theorem exists_name {known : String → Option (FieldId w)} {name : String} {ls : List Lexeme}
    (hls : Lexeme.scan source.toList = .ok ls)
    (hpatterns : ∀ as negated pattern bs,
      ls.map (·.token) = as ++ .like negated :: .text pattern :: bs →
        (Pattern.anchored? pattern).isSome)
    (h : ofText known source = .error (.unknownName name)) :
    ∃ name, .name name ∈ ls.map (·.token) := by
  by_contra hnone
  push Not at hnone
  have hfits : Fits known (ls.map (·.token)) :=
    ⟨fun name hname => absurd hname (hnone name), hpatterns⟩
  rw [ofText, hls] at h
  obtain ⟨_, _, cause, -, -, hfault⟩ := Context.locates_parse _ ls _ hfits h rfl
  obtain ⟨-, -, p, -, hfault⟩ | ⟨hfault, -⟩ := hfault
  · cases hfault
  · cases hfault

theorem compile_of_malformed
    (h : ofText (w := w) (fun _ => none) source = .error (.malformed position cause)) :
    compile files source c = .error (.malformedExpression source position cause.message) c := by
  rw [compile, h]
  rfl

theorem compile_of_table_error {name : String} {fault : Fault}
    (h : ofText (w := w) (fun _ => none) source = .error (.unknownName name))
    (ht : Catalog.table files c = .ok names c') (hread : ofText names.ident? source = .error fault) :
    compile files source c = .error (fault.error source) c' := by
  rw [compile, h]
  simp only [bind, EStateM.bind, ht, resolved, hread]
  rfl

theorem malformed_of_compile {ls : List Lexeme} (hls : Lexeme.scan source.toList = .ok ls)
    (hfits : Fits (identified files c) (ls.map (·.token)))
    (h : compile files source c = .error (.malformedExpression text position message) c') :
    ∃ cause, ofText (identified files c) source = .error (.malformed position cause) ∧
      message = cause.message := by
  cases hblind : ofText (w := w) (fun _ => none) source with
  | ok root =>
    rw [compile_of_ofText hblind] at h
    cases h
  | error fault =>
    cases fault with
    | malformed position' cause =>
      rw [compile_of_malformed hblind] at h
      cases h
      rcases defers_ofText (identified files c) source with ⟨name, hname⟩ | hsame
      · rw [hblind] at hname
        cases hname
      · exact ⟨cause, hsame.trans hblind, rfl⟩
    | unknownName name =>
      -- the catalog is asked, and has names, since it has one that is in the text
      obtain ⟨name', hname'⟩ := exists_name hls hfits.patterns hblind
      obtain ⟨id, c₁, hid⟩ := isSome_identified_iff.1 (hfits.names name' hname')
      cases ht : Catalog.table files c with
      | error e c' =>
        rw [Catalog.identFor] at hid
        simp only [bind, EStateM.bind, ht] at hid
        cases hid
      | ok names c' =>
        rw [identified_of_table ht]
        cases hread : ofText names.ident? source with
        | ok root =>
          rw [compile_of_table hblind ht hread] at h
          cases h
        | error fault =>
          rw [compile_of_table_error hblind ht hread] at h
          cases fault with
          | malformed position' cause =>
            cases h
            exact ⟨cause, rfl, rfl⟩
          | unknownName name => cases h

theorem isDeep_eq_false (h : cause.message ≠ Cause.tooDeep.message) :
    (Fault.malformed position cause).isDeep = false := by
  cases cause with
  | tooDeep => exact absurd rfl h
  | _ => rfl

theorem not_sentence {cx : Context w} {fault : Fault} {ls : List Lexeme}
    (hknown : cx.known = identified files c) (h : cx.parse ls = .error fault)
    (hdeep : fault.isDeep = false) : ¬ Sentence files c (ls.map (·.token)) p := by
  intro hsentence
  have htree := hsentence.tree
  rw [← hknown] at htree
  rw [Context.deep_of_derives hsentence.derives htree h] at hdeep
  cases hdeep

theorem not_sentence_of_wrong {cx : Context w} {ls : List Lexeme} {l : Lexeme}
    (hknown : cx.known = identified files c) (h : Context.Wrong cx.parse ls l) (us : List Token) :
    ¬ Sentence files c (ls.map (·.token) ++ l.token :: us) p := by
  obtain ⟨ms, rfl⟩ : ∃ ms : List Lexeme, ms.map (·.token) = us :=
    List.map_surjective_iff.2 (fun t => ⟨⟨t, 0⟩, rfl⟩) us
  obtain ⟨fault, hfault, hdeep⟩ := h ms
  rw [← List.map_cons, ← List.map_append]
  exact not_sentence hknown hfault hdeep

/-- Past the names and the patterns, what is refused as malformed but not for its depth is refused at
the first token, or at the end, with which the text begins no expression. -/
theorem refused_at_first_wrong_token (files : Files) (source : String) (c : Catalog w)
    (hscans : Scans source.toList ts)
    (hnames : ∀ name, .name name ∈ ts → ∃ id c', Catalog.identFor files name c = .ok id c')
    (hpatterns : ∀ as negated pattern bs, ts = as ++ .like negated :: .text pattern :: bs →
      (Pattern.anchored? pattern).isSome)
    (hcompile : compile files source c = .error (.malformedExpression text position message) c')
    (hdeep : message ≠ Cause.tooDeep.message)
    (hbracket : ∀ as, ts = as ++ [.openBracket] → ¬ Begins files c ts) :
    ∃ us vs, ts = us ++ vs ∧ Offset source.toList us position ∧ Begins files c us ∧
      (vs = [] → ∀ p, ¬ Sentence files c us p) ∧
      ∀ t vs', vs = t :: vs' → ∀ more p, ¬ Sentence files c (us ++ t :: more) p := by
  obtain ⟨ls, hls, rfl⟩ := Lexeme.scan_iff.2 hscans
  have hfits : Fits (identified files c) (ls.map (·.token)) :=
    ⟨fun name hname => isSome_identified_iff.2 (hnames name hname), hpatterns⟩
  obtain ⟨cause, hread, rfl⟩ := malformed_of_compile hls hfits hcompile
  have hshallow : (Fault.malformed position cause).isDeep = false := isDeep_eq_false hdeep
  let cx : Context w := ⟨byteLength source.toList, identified files c⟩
  have hparse : cx.parse ls = .error (.malformed position cause) := by
    rw [ofText, hls] at hread
    exact hread
  obtain ⟨us, vs, cause', rfl, hopens, hend⟩ := Context.locates_parse cx ls _ hfits hparse hshallow
  have hbegins : Begins files c (us.map (·.token)) := by
    apply hopens.begins
    intro t ht
    obtain ⟨l, hl, rfl⟩ := List.mem_map.1 ht
    exact Lexeme.written_of_scanFrom hls l (List.mem_append_left _ hl)
  refine ⟨us.map (·.token), vs.map (·.token), List.map_append, ?_, hbegins, ?_, ?_⟩
  · obtain ⟨rfl, as, p, rfl, -⟩ | ⟨hfault, -⟩ := hend
    · rw [List.append_nil, List.map_append] at hbracket
      rw [List.map_append] at hbegins
      exact absurd hbegins (hbracket _ rfl)
    · obtain ⟨rfl, rfl⟩ := Fault.malformed.inj hfault
      exact Context.offset_of_scan rfl hls
  · intro hvs p
    obtain rfl := List.map_eq_nil_iff.1 hvs
    rw [List.append_nil] at hparse
    exact not_sentence rfl hparse hshallow
  · intro t vs' hvs more p
    obtain ⟨l, ls', rfl, rfl, rfl⟩ := List.map_eq_cons_iff.1 hvs
    obtain ⟨hnil, -⟩ | ⟨-, hwrong⟩ := hend
    · cases hnil
    · exact not_sentence_of_wrong rfl (hwrong l ls' rfl) more

theorem refused_at_sign_in_brackets :
    let count : FieldId .wide := ⟨.short, 1, by decide, by decide, by decide⟩
    let c : Catalog .wide := { cache := some ⟨[("COUNT", count)]⟩ }
    let files : Files := fun _ => .error ""
    let ts : List Token := [.name "COUNT", .openBracket, .operator (.arithmetic .sub),
      .number 0x3ff0000000000000, .closeBracket]
    compile files "COUNT[-1]" c =
        .error (.malformedExpression "COUNT[-1]" 6 Cause.badOccurrence.message) c ∧
      ∃ us vs, ts = us ++ vs ∧ Offset "COUNT[-1]".toList us 6 ∧ Begins files c us ∧
        (vs = [] → ∀ p, ¬ Sentence files c us p) ∧
        ∀ t vs', vs = t :: vs' → ∀ more p, ¬ Sentence files c (us ++ t :: more) p := by
  intro count c files ts
  have hblind : ofText (w := .wide) (fun _ => none) "COUNT[-1]" = .error (.unknownName "COUNT") := by
    decide +kernel
  have hread : ofText (NameTable.ident? ⟨[("COUNT", count)]⟩) "COUNT[-1]" =
      .error (.malformed 6 .badOccurrence) := by decide +kernel
  have hcompile : compile files "COUNT[-1]" c =
      .error (.malformedExpression "COUNT[-1]" 6 Cause.badOccurrence.message) c :=
    compile_of_table_error hblind rfl hread
  have hscans : Scans "COUNT[-1]".toList ts := Lexeme.scan_iff.1
    ⟨[⟨.name "COUNT", 0⟩, ⟨.openBracket, 5⟩, ⟨.operator (.arithmetic .sub), 6⟩,
      ⟨.number 0x3ff0000000000000, 7⟩, ⟨.closeBracket, 8⟩], by decide +kernel, rfl⟩
  refine ⟨hcompile, refused_at_first_wrong_token files _ c hscans ?_ ?_ hcompile
    (by decide +kernel) ?_⟩
  · intro name hname
    obtain rfl : name = "COUNT" := by simpa [ts] using hname
    exact ⟨count, c, rfl⟩
  · intro as negated pattern bs hts
    have hlike : .like negated ∈ ts := by simp [hts]
    simp [ts] at hlike
  · intro as hts
    have hlast := congrArg List.getLast? hts
    simp [ts] at hlast

/-! The limit on height. -/

theorem height_pos (p : Phrase) : 0 < p.height := by
  induction p with
  | paren p ih => exact ih
  | _ => simp [Phrase.height]

/-- One of the first tokens, which are all the same, is none that is another. -/
theorem replicate_before {k : Nat} {t u : Token} (hne : u ≠ t)
    (h : List.replicate k t <+: ts ++ u :: us) : List.replicate k t <+: ts := by
  induction k generalizing ts with
  | zero => exact List.nil_prefix
  | succ k ih =>
    rw [List.replicate_succ] at h ⊢
    cases ts with
    | nil => exact absurd (List.cons_prefix_cons.1 h).1.symm hne
    | cons t' ts =>
      obtain ⟨rfl, hmore⟩ := List.cons_prefix_cons.1 h
      exact List.cons_prefix_cons.2 ⟨rfl, ih hmore⟩

theorem lt_height_of_ne {k : Nat} (hne : t ≠ .bang) (hk : List.replicate k .bang <+: t :: ts)
    (p : Phrase) : k < p.height := by
  have hnil : List.replicate k Token.bang <+: [] := replicate_before hne hk
  obtain rfl : k = 0 := by simpa using hnil
  exact height_pos p

/-- An expression is higher than the number of signs before it. -/
theorem Derives.lt_height {level k : Nat} (h : Derives level ts p)
    (hk : List.replicate k .bang <+: ts) : k < p.height := by
  induction h generalizing k with
  | number word => exact lt_height_of_ne (by simp) hk _
  | text s => exact lt_height_of_ne (by simp) hk _
  | field name hts => exact lt_height_of_ne (by simp) hk _
  | paren h ih => exact lt_height_of_ne (by simp) hk (.paren _)
  | @signed ts p s h ih =>
    cases k with
    | zero => exact height_pos _
    | succ k =>
      have hmore := (List.cons_prefix_cons.1 hk).2
      exact Nat.succ_lt_succ (ih hmore)
  | operand _ h ih => exact ih hk
  | @chain level ts us l r o ho hne hl hr ihl ihr =>
    have := ihl (replicate_before (by simp) hk)
    exact Nat.lt_succ_of_le (Nat.le_trans (Nat.le_of_lt this) (Nat.le_max_left ..))
  | @relation ts us l r o hl hr ihl ihr =>
    have := ihl (replicate_before (by simp) hk)
    exact Nat.lt_succ_of_le (Nat.le_trans (Nat.le_of_lt this) (Nat.le_max_left ..))
  | like negated source h ih =>
    exact Nat.lt_succ_of_lt (ih (replicate_before (by simp) hk))

/-- A text of signs alone is refused at its end, though the last of them begins no expression that
compiles. -/
theorem signs_refused_past_limit :
    let c : Catalog .wide := {}
    let files : Files := fun _ => .error ""
    let source := String.ofList (List.replicate 128 '!')
    let ts : List Token := List.replicate 128 .bang
    Scans source.toList ts ∧
      compile files source c = .error (.malformedExpression source 128 Cause.noOperand.message) c ∧
      Cause.noOperand.message ≠ Cause.tooDeep.message ∧
      ¬ ∃ us text e c', Scans text.toList (ts ++ us) ∧ compile files text c = .ok e c' := by
  intro c files source ts
  let signs : List Lexeme := (List.range 128).map fun k => ⟨.bang, k⟩
  have htext : source.toList = List.replicate 128 '!' := String.toList_ofList
  have hscan : Lexeme.scan source.toList = .ok signs := by
    rw [htext]
    decide +kernel
  have hparse : Context.parse (w := .wide) ⟨byteLength source.toList, fun _ => none⟩ signs =
      .error (.malformed 128 .noOperand) := by
    rw [htext]
    decide +kernel
  have hread : ofText (w := .wide) (fun _ => none) source = .error (.malformed 128 .noOperand) := by
    rw [ofText, hscan]
    exact error_bind_iff.2 (.inr ⟨signs, rfl, hparse⟩)
  have hscans : Scans source.toList ts := Lexeme.scan_iff.1 ⟨signs, hscan, by decide +kernel⟩
  refine ⟨hscans, compile_of_malformed hread, by decide +kernel, ?_⟩
  rintro ⟨us, text, e, c', hts, hcompile⟩
  obtain ⟨-, hroot⟩ := exists_compile_iff.1 ⟨c', hcompile⟩
  obtain ⟨ts', p, hts', hp⟩ := derives_of_ofText hroot
  obtain rfl := hts.unique hts'
  have hlimit : p.height ≤ 128 := ((ofText_eq_ok_iff hts hp).1 hroot).2.2
  have hheight := hp.lt_height (List.prefix_append _ _)
  omega

end FieldBuffers.Expr
