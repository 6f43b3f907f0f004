import FieldBuffers.Expr.Compiled
import FieldBuffers.Expr.Evaluation
import FieldBuffers.Proofs.Parsing

/-! Compiling the canonical text of a compiled expression. Reading a text without any names either
meets a name or gives what it gives with names (`defers_ofText`), so a text compiles alike whether
or not the catalog was asked for the names before. -/

namespace FieldBuffers.Expr

variable {w : Width}

/-- The first computation meets a name, or else the second one gives the same. -/
def Defers {α : Type} (x x' : Except Fault α) : Prop :=
  (∃ name, x = .error (.unknownName name)) ∨ x' = x

theorem Defers.bind {α β : Type} {x x' : Except Fault α} {f f' : α → Except Fault β}
    (h : Defers x x') (hf : ∀ a, Defers (f a) (f' a)) : Defers (x >>= f) (x' >>= f') := by
  rcases h with ⟨name, rfl⟩ | rfl
  · exact .inl ⟨name, rfl⟩
  · cases x' with
    | error e => exact .inr rfl
    | ok a => exact hf a

namespace Context

variable (cx : Context w) {R R' S S' : Reader w}

/-- The same without any names. -/
def blind : Context w := { cx with known := fun _ => none }

theorem defers_chainFrom (level : Nat) (h : ∀ ts, Defers (R ts) (R' ts)) (fuel : Nat)
    (l : Sized w) (ts : List Lexeme) :
    Defers (cx.blind.chainFrom level R fuel l ts) (cx.chainFrom level R' fuel l ts) := by
  induction fuel generalizing l ts with
  | zero => exact .inr rfl
  | succ fuel ih =>
    unfold chainFrom
    split
    · split
      · apply (h _).bind
        intro r
        apply Defers.bind (.inr rfl)
        intro e
        exact ih _ _
      · exact .inr rfl
    · exact .inr rfl

theorem defers_chain (level : Nat) (h : ∀ ts, Defers (R ts) (R' ts)) (ts : List Lexeme) :
    Defers (cx.blind.chain level R ts) (cx.chain level R' ts) := by
  apply (h ts).bind
  intro l
  exact cx.defers_chainFrom level h _ _ _

theorem defers_comparison (h : ∀ ts, Defers (R ts) (R' ts)) (ts : List Lexeme) :
    Defers (cx.blind.comparison R ts) (cx.comparison R' ts) := by
  apply (h ts).bind
  intro l
  simp only
  split
  · apply (h _).bind
    intro r
    exact .inr rfl
  · exact .inr rfl
  · exact .inr rfl

theorem defers_unaryOver (h : ∀ ts, Defers (R ts) (R' ts)) (h' : ∀ ts, Defers (S ts) (S' ts))
    (ts : List Lexeme) : Defers (cx.blind.unaryOver R S ts) (cx.unaryOver R' S' ts) := by
  have hsigned : ∀ s ts, Defers (unaryOver.signed cx.blind R s ts)
      (unaryOver.signed cx R' s ts) := by
    intro s ts
    apply (h ts).bind
    intro e
    exact .inr rfl
  unfold unaryOver
  split
  · exact hsigned .not _
  · exact hsigned .minus _
  · exact hsigned .plus _
  · exact .inr rfl
  · exact .inr rfl
  · apply (h' _).bind
    intro e
    exact .inr rfl
  · exact .inl ⟨_, rfl⟩
  · exact .inr rfl

theorem defers_levels (h : ∀ ts, Defers (R ts) (R' ts)) (ts : List Lexeme) :
    Defers (cx.blind.levels R ts) (cx.levels R' ts) := by
  apply cx.defers_chain
  apply cx.defers_chain
  apply cx.defers_chain
  apply cx.defers_comparison
  apply cx.defers_chain
  apply cx.defers_chain
  exact h

theorem defers_unary (n : Nat) : ∀ ts, Defers (cx.blind.unary n ts) (cx.unary n ts) := by
  induction n with
  | zero =>
    apply cx.defers_unaryOver
    · exact fun _ => .inr rfl
    · exact fun _ => .inr rfl
  | succ n ih =>
    apply cx.defers_unaryOver
    · exact ih
    · exact cx.defers_levels ih

theorem defers_parse (ts : List Lexeme) : Defers (cx.blind.parse ts) (cx.parse ts) := by
  apply (cx.defers_levels (cx.defers_unary maxDepth) ts).bind
  intro e
  exact .inr rfl

end Context

theorem defers_ofText (known : String → Option (FieldId w)) (source : String) :
    Defers (ofText (fun _ => none) source) (ofText known source) := by
  apply Defers.bind (.inr rfl)
  intro ts
  exact Context.defers_parse ⟨byteLength source.toList, known⟩ ts

/-! Compiling. -/

variable {files : Files} {source : String} {c c' : Catalog w} {names : NameTable w} {root : Expr w}

theorem table_again (h : Catalog.table files c = .ok names c') :
    Catalog.table files c' = .ok names c' := by
  unfold Catalog.table at h
  split at h
  · rename_i hcache
    obtain ⟨rfl, rfl⟩ := EStateM.Result.ok.inj h
    simp only [Catalog.table, hcache]
  · split at h
    · simp at h
    · obtain ⟨rfl, rfl⟩ := EStateM.Result.ok.inj h
      rfl

theorem compile_of_ofText (h : ofText (w := w) (fun _ => none) source = .ok root) :
    compile files source c = .ok ⟨source, root⟩ c := by
  rw [compile, h]
  rfl

theorem compile_of_table {name : String}
    (h : ofText (w := w) (fun _ => none) source = .error (.unknownName name))
    (ht : Catalog.table files c = .ok names c') (hroot : ofText names.ident? source = .ok root) :
    compile files source c = .ok ⟨source, root⟩ c' := by
  rw [compile, h]
  simp only [bind, EStateM.bind, ht, resolved, hroot]
  rfl

/-- A text compiled either without any names or with those that the catalog has by then. -/
theorem compile_eq_ok {e : Compiled w} (h : compile files source c = .ok e c') :
    e.source = source ∧
      (ofText (fun _ => none) source = .ok e.root ∧ c' = c ∨
        ∃ names, Catalog.table files c = .ok names c' ∧ ofText names.ident? source = .ok e.root) := by
  rw [compile] at h
  cases hblind : ofText (w := w) (fun _ => none) source with
  | ok root =>
    rw [hblind] at h
    cases h
    exact ⟨rfl, .inl ⟨rfl, rfl⟩⟩
  | error fault =>
    rw [hblind] at h
    cases fault with
    | malformed position cause => cases h
    | unknownName name =>
      cases ht : Catalog.table files c with
      | error e c' => simp [bind, EStateM.bind, ht] at h
      | ok names c₁ =>
        simp only [bind, EStateM.bind, ht] at h
        cases hroot : ofText names.ident? source with
        | error fault =>
          rw [show resolved names.ident? source = .error (fault.error source) by
            rw [resolved, hroot]; rfl] at h
          cases h
        | ok root =>
          rw [show resolved names.ident? source = .ok ⟨source, root⟩ by
            rw [resolved, hroot]; rfl] at h
          cases h
          exact ⟨rfl, .inr ⟨names, rfl, hroot⟩⟩

/-- With the names at hand, it does not matter whether they are asked for. -/
theorem compile_of_names (ht : Catalog.table files c = .ok names c)
    (hroot : ofText names.ident? source = .ok root) :
    compile files source c = .ok ⟨source, root⟩ c := by
  rcases defers_ofText names.ident? source with ⟨name, hname⟩ | hsame
  · exact compile_of_table hname ht hroot
  · exact compile_of_ofText (hsame ▸ hroot)

/-- A compiled expression whose numbers are finite compiles again from its canonical text, to the
same tree. -/
theorem compile_canonical {e : Compiled w} (h : compile files source c = .ok e c')
    (hfin : e.root.Finite) :
    ∃ again : Compiled w, compile files e.root.toText c' = .ok again c' ∧ again.root = e.root ∧
      again.root.toText = e.root.toText ∧
      ∀ (config : ArenaConfig) (b : Buffer w), again.root.test config b = e.root.test config b ∧
        again.root.compute config b = e.root.compute config b := by
  refine ⟨⟨e.root.toText, e.root⟩, ?_, rfl, rfl, fun _ _ => ⟨rfl, rfl⟩⟩
  obtain ⟨-, ⟨hroot, rfl⟩ | ⟨names, ht, hroot⟩⟩ := compile_eq_ok h
  · exact compile_of_ofText (ofText_toText hroot hfin)
  · exact compile_of_names (table_again ht) (ofText_toText hroot hfin)

theorem comparison_compiles_again :
    let count : FieldId .wide := ⟨.short, 1, by decide, by decide, by decide⟩
    let c : Catalog .wide := { cache := some ⟨[("COUNT", count)]⟩ }
    let files : Files := fun _ => .error ""
    ∃ e again : Compiled .wide, compile files "!-COUNT[2]+0.5 < 'it\\'s'" c = .ok e c ∧
      e.root.toText = "((!-COUNT[2] + 0.5) < 'it\\'s')" ∧
      compile files e.root.toText c = .ok again c ∧ again.root = e.root := by
  intro count c files
  let negated : Expr .wide := .signed .not (.signed .minus (.field ⟨count, "COUNT", .at 2⟩))
  let half : Nat := 0x3fe0000000000000
  let root : Expr .wide :=
    .binary (.relation .lt) (.binary (.arithmetic .add) negated (.number half)) (.text "it's")
  have hblind : ofText (w := .wide) (fun _ => none) "!-COUNT[2]+0.5 < 'it\\'s'"
      = .error (.unknownName "COUNT") := by decide +kernel
  have hroot : ofText (NameTable.ident? ⟨[("COUNT", count)]⟩) "!-COUNT[2]+0.5 < 'it\\'s'"
      = .ok root := by decide +kernel
  have htext : root.toText = "((!-COUNT[2] + 0.5) < 'it\\'s')" := by decide +kernel
  have hfin : root.Finite := by
    intro word hword
    obtain rfl := List.mem_singleton.1 hword
    exact ⟨false, 2 ^ 52, -53, by decide +kernel⟩
  have h : compile files "!-COUNT[2]+0.5 < 'it\\'s'" c = .ok ⟨_, root⟩ c :=
    compile_of_table hblind rfl hroot
  obtain ⟨again, hagain, hsame, -⟩ := compile_canonical h hfin
  exact ⟨_, again, h, htext, hagain, hsame⟩

end FieldBuffers.Expr
