import FieldBuffers.Proofs.Parsing

/-! The grammar of expressions: which tokens it derives, how it groups them, and the tree that a
derivation stands for. Nothing here reads tokens from the left; that the readers do what the grammar
says is the matter of another module.

```
expr    := or
or      := and ('||' and)*
and     := xor ('&&' xor)*
xor     := cmp ('^' cmp)*
cmp     := add (relation add | match STRING)?
add     := mul (('+' | '-') mul)*
mul     := unary (('*' | '/' | '%') unary)*
unary   := ('!' | '-' | '+') unary | primary
primary := NUMBER | STRING | field | '(' expr ')'
field   := NAME ('[' (INTEGER | '?') ']')?
```
-/

namespace FieldBuffers.Expr

open Binary (binary64)

variable {w : Width} {known : String → Option (FieldId w)} {n : Nat}

/-- What the grammar makes of tokens, with names and patterns as they are written. -/
inductive Phrase where
  | number (word : Nat)
  | text (s : String)
  | field (name : String) (occurrence : Occurrence)
  | paren (p : Phrase)
  | signed (s : Sign) (p : Phrase)
  | binary (o : Operator) (l r : Phrase)
  | like (negated : Bool) (p : Phrase) (source : String)

/-- A word of double precision stands for a whole number that is not negative. -/
def Whole (word k : Nat) : Prop :=
  ∃ negative m e, binary64.decode word = .finite negative m e ∧
    (if negative then -1 else 1 : ℚ) * m * 2 ^ e = k

/-- What may follow a name. Numbers past the greatest word of 64 bits count as that word. -/
inductive Subscript : List Token → Occurrence → Prop
  | none : Subscript [] (.at 0)
  | any : Subscript [.openBracket, .question, .closeBracket] .any
  | count {word k : Nat} : Whole word k →
      Subscript [.openBracket, .number word, .closeBracket] (.at (min k (2 ^ 64 - 1)))

/-- What the grammar derives at each level, from `or` at 0 to `unary` at 6. The levels between are
those of the operators, and a repetition at one of them groups to the left. -/
inductive Derives : Nat → List Token → Phrase → Prop
  | number (word : Nat) : Derives 6 [.number word] (.number word)
  | text (s : String) : Derives 6 [.text s] (.text s)
  | field {ts : List Token} {o : Occurrence} (name : String) : Subscript ts o →
      Derives 6 (.name name :: ts) (.field name o)
  | paren {ts : List Token} {p : Phrase} : Derives 0 ts p →
      Derives 6 (.openParen :: (ts ++ [.closeParen])) (.paren p)
  | signed {ts : List Token} {p : Phrase} (s : Sign) : Derives 6 ts p →
      Derives 6 (s.token :: ts) (.signed s p)
  | operand {level : Nat} {ts : List Token} {p : Phrase} : level < 6 →
      Derives (level + 1) ts p → Derives level ts p
  | chain {level : Nat} {ts us : List Token} {l r : Phrase} {o : Operator} : o.level = level →
      level ≠ 3 → Derives level ts l → Derives (level + 1) us r →
      Derives level (ts ++ .operator o :: us) (.binary o l r)
  | relation {ts us : List Token} {l r : Phrase} (o : Relation) : Derives 4 ts l →
      Derives 4 us r → Derives 3 (ts ++ .operator (.relation o) :: us) (.binary (.relation o) l r)
  | like {ts : List Token} {p : Phrase} (negated : Bool) (source : String) : Derives 4 ts p →
      Derives 3 (ts ++ [.like negated, .text source]) (.like negated p source)

namespace Phrase

def nesting : Phrase → Nat
  | number _ | text _ | field .. => 0
  | paren p => p.nesting + 1
  | signed _ p => p.nesting + 1
  | binary _ l r => max l.nesting r.nesting
  | like _ p _ => p.nesting

/-- The height of the tree, for which parentheses do not count. -/
def height : Phrase → Nat
  | number _ | text _ | field .. => 1
  | paren p => p.height
  | signed _ p => p.height + 1
  | binary _ l r => max l.height r.height + 1
  | like _ p _ => p.height + 1

def names : Phrase → List String
  | number _ | text _ => []
  | field name _ => [name]
  | paren p => p.names
  | signed _ p => p.names
  | binary _ l r => l.names ++ r.names
  | like _ p _ => p.names

def patterns : Phrase → List String
  | number _ | text _ | field .. => []
  | paren p => p.patterns
  | signed _ p => p.patterns
  | binary _ l r => l.patterns ++ r.patterns
  | like _ p source => p.patterns ++ [source]

/-- The tree, if all names are known and all patterns are accepted. -/
def tree? (known : String → Option (FieldId w)) : Phrase → Option (Expr w)
  | number word => some (.number word)
  | text s => some (.text s)
  | field name o => (known name).map fun id => .field ⟨id, name, o⟩
  | paren p => p.tree? known
  | signed s p => (p.tree? known).map (.signed s)
  | binary o l r => do return .binary o (← l.tree? known) (← r.tree? known)
  | like negated p source => do
    return .like negated (← p.tree? known) source (← Pattern.anchored? source)

theorem isSome_tree?_iff {p : Phrase} : (p.tree? known).isSome ↔
    (∀ name ∈ p.names, (known name).isSome) ∧
      ∀ source ∈ p.patterns, (Pattern.anchored? source).isSome := by
  induction p with
  | number word => simp [tree?, names, patterns]
  | text s => simp [tree?, names, patterns]
  | field name o => simp [tree?, names, patterns]
  | paren p ih => exact ih
  | signed s p ih => simpa [tree?, names, patterns] using ih
  | binary o l r ihl ihr =>
    have hsome : ((binary o l r).tree? known).isSome
        ↔ (l.tree? known).isSome ∧ (r.tree? known).isSome := by
      rw [tree?]
      cases l.tree? known <;> cases r.tree? known <;> simp
    simp only [hsome, ihl, ihr, names, patterns, List.forall_mem_append]
    tauto
  | like negated p source ih =>
    have hsome : ((like negated p source).tree? known).isSome
        ↔ (p.tree? known).isSome ∧ (Pattern.anchored? source).isSome := by
      rw [tree?]
      cases p.tree? known <;> cases Pattern.anchored? source <;> simp
    simp only [hsome, ih, names, patterns, List.forall_mem_append, List.forall_mem_singleton]
    tauto

theorem height_tree {p : Phrase} {e : Expr w} (h : p.tree? known = some e) :
    e.height = p.height := by
  induction p generalizing e with
  | number word => cases h; rfl
  | text s => cases h; rfl
  | field name o =>
    obtain ⟨id, -, rfl⟩ := Option.map_eq_some_iff.1 h
    rfl
  | paren p ih => exact ih h
  | signed s p ih =>
    obtain ⟨e, he, rfl⟩ := Option.map_eq_some_iff.1 h
    rw [Expr.height, height, ih he]
  | binary o l r ihl ihr =>
    obtain ⟨e, he, h⟩ := Option.bind_eq_some_iff.1 h
    obtain ⟨f, hf, h⟩ := Option.bind_eq_some_iff.1 h
    cases h
    rw [Expr.height, height, ihl he, ihr hf]
  | like negated p source ih =>
    obtain ⟨e, he, h⟩ := Option.bind_eq_some_iff.1 h
    obtain ⟨f, hf, h⟩ := Option.bind_eq_some_iff.1 h
    cases h
    rw [Expr.height, height, ih he]

/-- A tree that may be given only up to the greatest height. -/
def limited (s : Sized w) : Except Bool (Sized w) :=
  if maxDepth < s.depth then .error true else .ok s

/-- The tree with its height, where parentheses and signs nest `n` levels at most. If there is none,
whether this is for its depth. -/
def outcome (known : String → Option (FieldId w)) : Nat → Phrase → Except Bool (Sized w)
  | _, number word => .ok ⟨.number word, 1⟩
  | _, text s => .ok ⟨.text s, 1⟩
  | _, field name o =>
    match known name with
    | some id => .ok ⟨.field ⟨id, name, o⟩, 1⟩
    | none => .error false
  | 0, paren _ | 0, signed _ _ => .error true
  | n + 1, paren p => p.outcome known n
  | n + 1, signed s p => do
    let e ← p.outcome known n
    limited ⟨.signed s e.expr, e.depth + 1⟩
  | n, binary o l r => do
    let a ← l.outcome known n
    let b ← r.outcome known n
    limited ⟨.binary o a.expr b.expr, max a.depth b.depth + 1⟩
  | n, like negated p source => do
    let a ← p.outcome known n
    match Pattern.anchored? source with
    | some pattern => limited ⟨.like negated a.expr source pattern, a.depth + 1⟩
    | none => .error false

theorem limited_eq_ok_iff {s s' : Sized w} :
    limited s = .ok s' ↔ s = s' ∧ s.depth ≤ maxDepth := by
  rw [limited]
  split
  · simp [Nat.not_le.2 ‹_›]
  · simp [Nat.not_lt.1 ‹_›]

theorem outcome_eq_ok_iff {p : Phrase} {s : Sized w} : p.outcome known n = .ok s ↔
    p.tree? known = some s.expr ∧ s.depth = p.height ∧ p.nesting ≤ n ∧ p.height ≤ maxDepth := by
  have hone := one_le_maxDepth
  obtain ⟨e, d⟩ := s
  induction p generalizing n e d with
  | number word => simp [outcome, tree?, height, nesting, hone, eq_comm]
  | text s => simp [outcome, tree?, height, nesting, hone, eq_comm]
  | field name o =>
    cases h : known name with
    | none => simp [outcome, tree?, h]
    | some id => simp [outcome, tree?, h, height, nesting, hone, eq_comm]
  | paren p ih =>
    cases n with
    | zero => simp [outcome, nesting]
    | succ n => simp [outcome, tree?, height, nesting, ih]
  | signed s p ih =>
    cases n with
    | zero => simp [outcome, nesting]
    | succ n =>
      simp only [outcome, tree?, height, nesting, ok_bind_iff, Option.map_eq_some_iff,
        limited_eq_ok_iff, Sized.mk.injEq]
      constructor
      · rintro ⟨⟨f, k⟩, hf, ⟨rfl, rfl⟩, hk⟩
        obtain ⟨ht, rfl, hn, -⟩ := (ih f k).1 hf
        exact ⟨⟨f, ht, rfl⟩, rfl, by omega, hk⟩
      · rintro ⟨⟨f, ht, rfl⟩, rfl, hn, hk⟩
        exact ⟨⟨f, p.height⟩, (ih f p.height).2 ⟨ht, rfl, by omega, by omega⟩, ⟨rfl, rfl⟩, hk⟩
  | binary o l r ihl ihr =>
    simp only [outcome, tree?, height, nesting, Option.bind_eq_bind, Option.bind_eq_some_iff,
      ok_bind_iff, limited_eq_ok_iff, Sized.mk.injEq, Option.pure_def, Option.some.injEq]
    constructor
    · rintro ⟨⟨f, k⟩, hf, ⟨g, m⟩, hg, ⟨rfl, rfl⟩, hk⟩
      obtain ⟨hl, rfl, hln, -⟩ := (ihl f k).1 hf
      obtain ⟨hr, rfl, hrn, -⟩ := (ihr g m).1 hg
      exact ⟨⟨f, hl, g, hr, rfl⟩, rfl, by omega, hk⟩
    · rintro ⟨⟨f, hl, g, hr, rfl⟩, rfl, hn, hk⟩
      exact ⟨⟨f, l.height⟩, (ihl f l.height).2 ⟨hl, rfl, by omega, by omega⟩,
        ⟨g, r.height⟩, (ihr g r.height).2 ⟨hr, rfl, by omega, by omega⟩, ⟨rfl, rfl⟩, hk⟩
  | like negated p source ih =>
    cases hp : Pattern.anchored? source with
    | none => simp [outcome, tree?, hp, ok_bind_iff]
    | some pattern =>
      simp only [outcome, tree?, height, nesting, hp, Option.bind_eq_bind, Option.bind_eq_some_iff,
        ok_bind_iff, limited_eq_ok_iff, Sized.mk.injEq, Option.pure_def, Option.some.injEq]
      constructor
      · rintro ⟨⟨f, k⟩, hf, ⟨rfl, rfl⟩, hk⟩
        obtain ⟨ht, rfl, hn, -⟩ := (ih f k).1 hf
        exact ⟨⟨f, ht, pattern, rfl, rfl⟩, rfl, hn, hk⟩
      · rintro ⟨⟨f, ht, _, rfl, rfl⟩, rfl, hn, hk⟩
        exact ⟨⟨f, p.height⟩, (ih f p.height).2 ⟨ht, rfl, hn, by omega⟩, ⟨rfl, rfl⟩, hk⟩

/-- With its names known and its patterns accepted, a phrase is refused for its depth only. -/
theorem deep_of_outcome {p : Phrase} {deep : Bool} (htree : (p.tree? known).isSome)
    (h : p.outcome known n = .error deep) : deep = true := by
  have hlimited {s : Sized w} (h : limited s = .error deep) : deep = true := by
    rw [limited] at h
    split at h
    · exact (Except.error.inj h).symm
    · cases h
  rw [isSome_tree?_iff] at htree
  obtain ⟨hnames, hpatterns⟩ := htree
  induction p generalizing n with
  | number word => cases h
  | text s => cases h
  | field name o =>
    obtain ⟨id, hid⟩ := Option.isSome_iff_exists.1 (hnames name (List.mem_singleton_self _))
    simp [outcome, hid] at h
  | paren p ih =>
    cases n with
    | zero => exact (Except.error.inj h).symm
    | succ n => exact ih h hnames hpatterns
  | signed s p ih =>
    cases n with
    | zero => exact (Except.error.inj h).symm
    | succ n =>
      obtain h | ⟨e, -, h⟩ := error_bind_iff.1 h
      · exact ih h hnames hpatterns
      · exact hlimited h
  | binary o l r ihl ihr =>
    obtain ⟨hnamesl, hnamesr⟩ := List.forall_mem_append.1 hnames
    obtain ⟨hpatternsl, hpatternsr⟩ := List.forall_mem_append.1 hpatterns
    rw [outcome] at h
    obtain h | ⟨a, -, h⟩ := error_bind_iff.1 h
    · exact ihl h hnamesl hpatternsl
    · obtain h | ⟨b, -, h⟩ := error_bind_iff.1 h
      · exact ihr h hnamesr hpatternsr
      · exact hlimited h
  | like negated p source ih =>
    obtain ⟨hpatterns, hsource⟩ := List.forall_mem_append.1 hpatterns
    obtain ⟨pattern, hpattern⟩ :=
      Option.isSome_iff_exists.1 (hsource source (List.mem_singleton_self _))
    rw [outcome] at h
    obtain h | ⟨a, -, h⟩ := error_bind_iff.1 h
    · exact ih h hnames hpatterns
    · simp only [hpattern] at h
      exact hlimited h

end Phrase

/-! Whole numbers as counts. -/

theorem whole_iff {m : Nat} {e : Int} : (if 0 ≤ e then true else m % 2 ^ (-e).toNat == 0) = true ↔
    ∃ k : Nat, (m : ℚ) * 2 ^ e = k := by
  constructor
  · intro h
    exact ⟨_, (Context.truncate_of_whole h).symm⟩
  · rintro ⟨k, hk⟩
    split
    · rfl
    · rename_i he
      obtain ⟨i, hi⟩ := Int.eq_ofNat_of_zero_le (show 0 ≤ -e by omega)
      rw [← neg_neg e, hi, zpow_neg, zpow_natCast, ← div_eq_mul_inv,
        div_eq_iff (by positivity)] at hk
      have hm : m = k * 2 ^ i := by exact_mod_cast hk
      rw [hi, Int.toNat_natCast, hm, Nat.mul_mod_left]
      rfl

theorem whole_of_decode {word m k : Nat} {e : Int} {negative : Bool}
    (h : binary64.decode word = .finite negative m e) :
    Whole word k ↔ (!negative || m == 0) = true ∧ (m : ℚ) * 2 ^ e = k := by
  have hpow : (0 : ℚ) < 2 ^ e := by positivity
  simp only [Whole, h, Binary.Datum.finite.injEq, Bool.or_eq_true, Bool.not_eq_true', beq_iff_eq]
  constructor
  · rintro ⟨_, _, _, ⟨rfl, rfl, rfl⟩, hk⟩
    cases negative with
    | false => simpa using hk
    | true =>
      -- what is not positive and equals a number `k` is zero
      have hle : (0 : ℚ) ≤ m * 2 ^ e := by positivity
      have hk0 : (0 : ℚ) ≤ k := Nat.cast_nonneg k
      have hzero : (m : ℚ) * 2 ^ e = 0 := by
        rw [if_pos rfl] at hk
        linarith
      have hm : (m : ℚ) = 0 := (mul_eq_zero.1 hzero).resolve_right hpow.ne'
      simp only [hm, mul_zero, zero_mul] at hk ⊢
      exact ⟨.inr (by exact_mod_cast hm), hk⟩
  · rintro ⟨rfl | rfl, hk⟩
    · exact ⟨_, _, _, ⟨rfl, rfl, rfl⟩, by simpa using hk⟩
    · exact ⟨_, _, _, ⟨rfl, rfl, rfl⟩, by simpa using hk⟩

theorem toIntClamped_of_whole {word k : Nat} (h : Whole word k) :
    (binary64.toIntClamped 0 (2 ^ 64 - 1) word).toNat = min k (2 ^ 64 - 1) := by
  obtain ⟨negative, m, e, hdata, hvalue⟩ := h
  obtain ⟨hsign, hk⟩ := (whole_of_decode hdata).1 ⟨negative, m, e, hdata, hvalue⟩
  have htrunc : Binary.Format.truncate m e = k := by
    have hcast := Context.truncate_of_whole (whole_iff.2 ⟨k, hk⟩)
    rw [hk] at hcast
    exact_mod_cast hcast
  simp only [Binary.Format.toIntClamped, hdata, htrunc]
  cases negative with
  | false =>
    rw [if_neg Bool.false_ne_true]
    omega
  | true =>
    have hm : m = 0 := by simpa using hsign
    have hzero : k = 0 := by
      rw [hm, Nat.cast_zero, zero_mul] at hk
      exact_mod_cast hk.symm
    rw [hzero]
    rfl

/-- A number is read as a count if it stands for a whole number that is not negative. -/
theorem count?_eq_some_iff {word c : Nat} :
    Context.count? word = some c ↔ ∃ k, Whole word k ∧ c = min k (2 ^ 64 - 1) := by
  unfold Context.count?
  cases hdata : binary64.decode word with
  | finite negative m e =>
    simp only [Bool.and_eq_true, Option.ite_none_right_eq_some, Option.some.injEq, whole_iff]
    constructor
    · rintro ⟨⟨⟨k, hk⟩, hsign⟩, rfl⟩
      have hwhole : Whole word k := (whole_of_decode hdata).2 ⟨hsign, hk⟩
      exact ⟨k, hwhole, toIntClamped_of_whole hwhole⟩
    · rintro ⟨k, hwhole, rfl⟩
      obtain ⟨hsign, hk⟩ := (whole_of_decode hdata).1 hwhole
      exact ⟨⟨⟨k, hk⟩, hsign⟩, toIntClamped_of_whole hwhole⟩
  | _ => simp [Whole, hdata]

end FieldBuffers.Expr
