import FieldBuffers.Proofs.Grammar
import FieldBuffers.Proofs.Outcome

/-! Tokens that the grammar derives are read as it groups them. What a derivation stands for within
the limits is the outcome of the reader of its level, failures included, which are told apart by
whether they are for depth (`recognises_of_derives`). -/

namespace FieldBuffers.Expr

open Phrase (limited)

variable {w : Width}

def Fault.isDeep : Fault → Bool
  | .malformed _ .tooDeep => true
  | _ => false

theorem Operator.level_lt (o : Operator) : o.level < 6 := by
  unfold level
  split <;> decide

namespace Context

/-! What a derivation stands for is read. -/

variable (cx : Context w) {operand deeper inner : Reader w} {level n : Nat} {ts us : List Token}
  {x y : Except Bool (Sized w)} {rest : List Lexeme} {position : Nat}

/-- The reader of each level over operands of some kind. -/
def reader (operand : Reader w) : Nat → Reader w
  | 0 => cx.levels operand
  | 1 => cx.chain 1 (cx.chain 2 (cx.comparison (cx.chain 4 (cx.chain 5 operand))))
  | 2 => cx.chain 2 (cx.comparison (cx.chain 4 (cx.chain 5 operand)))
  | 3 => cx.comparison (cx.chain 4 (cx.chain 5 operand))
  | 4 => cx.chain 4 (cx.chain 5 operand)
  | 5 => cx.chain 5 operand
  | _ => operand

theorem reader_eq_chain (operand : Reader w) (hlevel : level < 6) (hne : level ≠ 3) :
    cx.reader operand level = cx.chain level (cx.reader operand (level + 1)) := by
  match level, hlevel, hne with
  | 0, _, _ | 1, _, _ | 2, _, _ | 4, _, _ | 5, _, _ => rfl
  | 3, _, hne => exact absurd rfl hne

/-- Wherever an operand of the level ends, the tokens are read with this outcome. -/
def Gives (level : Nat) (R : Reader w) (ts : List Token) (x : Except Bool (Sized w)) : Prop :=
  ∀ ls rest, ls.map (·.token) = ts → Stops level rest →
    (R (ls ++ rest)).mapError Fault.isDeep = x.map (·, rest)

/-- Wherever an operand of the next level ends, a chain has this outcome so far and goes on. -/
def Starts (level : Nat) (operand : Reader w) (ts : List Token) (x : Except Bool (Sized w)) : Prop :=
  ∀ ls rest, ls.map (·.token) = ts → Stops (level + 1) rest →
    ∃ fuel, rest.length ≤ fuel ∧ (cx.chain level operand (ls ++ rest)).mapError Fault.isDeep =
      x >>= fun s => (cx.chainFrom level operand fuel s rest).mapError Fault.isDeep

variable {cx}

theorem mapError_sized (e : Expr w) (depth : Nat) (rest : List Lexeme) :
    (cx.sized e depth rest).mapError Fault.isDeep = (limited ⟨e, depth⟩).map (·, rest) := by
  rw [sized, limited]
  split <;> rfl

theorem gives_of_starts (h : cx.Starts level operand ts x) :
    Gives level (cx.chain level operand) ts x := by
  intro ls rest hls hrest
  obtain ⟨fuel, -, hchain⟩ := h ls rest hls (hrest.mono (Nat.le_succ _))
  rw [hchain]
  simp only [chainFrom_stop hrest]
  cases x <;> rfl

theorem starts_of_gives (h : Gives (level + 1) operand ts x) : cx.Starts level operand ts x := by
  intro ls rest hls hrest
  refine ⟨rest.length, Nat.le_refl _, ?_⟩
  rw [chain, mapError_bind, h ls rest hls hrest]
  cases x <;> rfl

theorem starts_join {o : Operator} (ho : o.level = level) (hl : cx.Starts level operand ts x)
    (hr : Gives (level + 1) operand us y) :
    cx.Starts level operand (ts ++ .operator o :: us) (x >>= fun a => y >>= fun b =>
      limited ⟨.binary o a.expr b.expr, max a.depth b.depth + 1⟩) := by
  intro ls rest hls hrest
  obtain ⟨as, os, rfl, has, hos⟩ := List.map_eq_append_iff.1 hls
  obtain ⟨position, bs, rfl, hbs⟩ := exists_lexeme hos
  obtain ⟨fuel, hfuel, h⟩ := hl as (⟨.operator o, position⟩ :: (bs ++ rest)) has
    (stops_operator (by omega))
  -- the operator has taken up one unit of the fuel
  obtain ⟨fuel, rfl⟩ : ∃ k, fuel = k + 1 := Nat.exists_eq_succ_of_ne_zero (by
    rw [List.length_cons] at hfuel
    omega)
  refine ⟨fuel, ?_, ?_⟩
  · simp only [List.length_cons, List.length_append] at hfuel
    omega
  rw [List.append_assoc, List.cons_append, h]
  cases x with
  | error deep => rfl
  | ok l =>
    change (cx.chainFrom level operand (fuel + 1) l _).mapError Fault.isDeep = _
    rw [chainFrom, if_pos ho, mapError_bind, hr bs rest hbs hrest]
    cases y with
    | error deep => rfl
    | ok r =>
      change (cx.binary o l r rest >>= fun e => cx.chainFrom level operand fuel e.1 e.2).mapError Fault.isDeep = _
      rw [mapError_bind, binary, mapError_sized]
      change _ = limited ⟨.binary o l.expr r.expr, max l.depth r.depth + 1⟩ >>= _
      cases limited (⟨.binary o l.expr r.expr, max l.depth r.depth + 1⟩ : Sized w) <;> rfl

theorem gives_comparison (h : Gives 4 operand ts x) : Gives 3 (cx.comparison operand) ts x := by
  intro ls rest hls hrest
  have hread := h ls rest hls (hrest.mono (by decide))
  cases x with
  | error deep =>
    rw [comparison, mapError_bind, hread]
    rfl
  | ok s =>
    rw [comparison_stop (ok_mapError_iff.1 hread) hrest]
    rfl

theorem gives_relation {o : Relation} (hl : Gives 4 operand ts x) (hr : Gives 4 operand us y) :
    Gives 3 (cx.comparison operand) (ts ++ .operator (.relation o) :: us)
      (x >>= fun a => y >>= fun b =>
        limited ⟨.binary (.relation o) a.expr b.expr, max a.depth b.depth + 1⟩) := by
  intro ls rest hls hrest
  obtain ⟨as, os, rfl, has, hos⟩ := List.map_eq_append_iff.1 hls
  obtain ⟨position, bs, rfl, hbs⟩ := exists_lexeme hos
  rw [List.append_assoc, List.cons_append, comparison, mapError_bind,
    hl as _ has (stops_operator (o := .relation o) (Nat.lt_succ_self 3))]
  cases x with
  | error deep => rfl
  | ok l =>
    change (operand (bs ++ rest) >>= fun e => cx.binary (.relation o) l e.1 e.2).mapError Fault.isDeep = _
    rw [mapError_bind, hr bs rest hbs (hrest.mono (by decide))]
    cases y with
    | error deep => rfl
    | ok r => exact mapError_sized _ _ _

theorem gives_like {negated : Bool} {source : String} (hl : Gives 4 operand ts x) :
    Gives 3 (cx.comparison operand) (ts ++ [.like negated, .text source])
      (x >>= fun a =>
        match Pattern.anchored? source with
        | some p => limited ⟨.like negated a.expr source p, a.depth + 1⟩
        | none => .error false) := by
  intro ls rest hls hrest
  obtain ⟨as, os, rfl, has, hos⟩ := List.map_eq_append_iff.1 hls
  obtain ⟨position, ps, rfl, hps⟩ := exists_lexeme hos
  obtain ⟨position', qs, rfl, hqs⟩ := exists_lexeme hps
  obtain rfl := List.map_eq_nil_iff.1 hqs
  rw [List.append_assoc, comparison, List.cons_append, List.cons_append, List.nil_append,
    mapError_bind, hl as _ has stops_like]
  cases x with
  | error deep => rfl
  | ok l =>
    change (cx.like negated l (⟨.text source, position'⟩ :: rest)).mapError Fault.isDeep =
      (match Pattern.anchored? source with
        | some p => limited ⟨.like negated l.expr source p, l.depth + 1⟩
        | none => .error false).map _
    rw [like]
    cases Pattern.anchored? source with
    | none => rfl
    | some p => exact mapError_sized _ _ _

/-- The field that a name stands for. -/
def named (known : String → Option (FieldId w)) (name : String) (o : Occurrence) :
    Except Bool (Sized w) :=
  match known name with
  | some id => .ok ⟨.field ⟨id, name, o⟩, 1⟩
  | none => .error false

theorem gives_name (cx : Context w) (deeper inner : Reader w) (name : String) :
    Gives 6 (cx.unaryOver deeper inner) [.name name]
      (named cx.known name (.at 0)) := by
  intro ls rest hls hrest
  obtain ⟨position, bs, rfl, hbs⟩ := exists_lexeme hls
  obtain rfl := List.map_eq_nil_iff.1 hbs
  change (cx.field name rest).mapError Fault.isDeep = _
  cases hid : cx.known name with
  | none =>
    rw [field, named, hid]
    rfl
  | some id =>
    rw [named, hid, field_end hid fun t ht => (hrest t ht).1]
    rfl

theorem gives_subscript {name : String} {o : Occurrence} {t : Token}
    (h : ∀ start rest position, cx.subscript start (⟨t, position⟩ :: rest) = .ok (o, rest)) :
    Gives 6 (cx.unaryOver deeper inner) [.name name, .openBracket, t, .closeBracket]
      (named cx.known name o) := by
  intro ls rest hls hrest
  obtain ⟨position, bs, rfl, hbs⟩ := exists_lexeme hls
  obtain ⟨p, us, rfl, hus⟩ := exists_lexeme hbs
  obtain ⟨q, vs, rfl, hvs⟩ := exists_lexeme hus
  obtain ⟨r, ws, rfl, hws⟩ := exists_lexeme hvs
  obtain rfl := List.map_eq_nil_iff.1 hws
  change (cx.field name (⟨.openBracket, p⟩ :: ⟨t, q⟩ :: ⟨.closeBracket, r⟩ :: rest)).mapError
    Fault.isDeep = _
  cases hid : cx.known name with
  | none =>
    rw [field, named, hid]
    rfl
  | some id =>
    rw [named, hid, field_subscript hid fun start rest => h start rest q]
    rfl

theorem gives_field {name : String} {o : Occurrence} (hts : Subscript ts o) :
    Gives 6 (cx.unaryOver deeper inner) (.name name :: ts)
      (named cx.known name o) := by
  cases hts with
  | none => exact gives_name cx deeper inner name
  | any => exact gives_subscript fun _ _ _ => rfl
  | count hwhole =>
    apply gives_subscript
    intro start rest position
    simp only [subscript, count?_eq_some_iff.2 ⟨_, hwhole, rfl⟩]
    rfl

theorem gives_tooDeep : Gives level cx.tooDeep ts (.error true) := fun _ _ _ _ => rfl

theorem gives_paren (h : Gives 0 inner ts x) :
    Gives 6 (cx.unaryOver deeper inner) (.openParen :: (ts ++ [.closeParen])) x := by
  intro ls rest hls hrest
  obtain ⟨p, us, rfl, hus⟩ := exists_lexeme hls
  obtain ⟨as, cs, rfl, has, hcs⟩ := List.map_eq_append_iff.1 hus
  obtain ⟨q, ds, rfl, hds⟩ := exists_lexeme hcs
  obtain rfl := List.map_eq_nil_iff.1 hds
  rw [List.cons_append, List.append_assoc]
  change (inner (as ++ ⟨.closeParen, q⟩ :: rest) >>= _).mapError Fault.isDeep = _
  rw [mapError_bind, h as _ has stops_close]
  cases x <;> rfl

theorem gives_signed (s : Sign) (h : Gives 6 deeper ts x) :
    Gives 6 (cx.unaryOver deeper inner) (s.token :: ts)
      (x >>= fun e => limited ⟨.signed s e.expr, e.depth + 1⟩) := by
  intro ls rest hls hrest
  obtain ⟨p, us, rfl, hus⟩ := exists_lexeme hls
  have hsigned : (unaryOver.signed cx deeper s (us ++ rest)).mapError Fault.isDeep
      = (x >>= fun e => limited ⟨.signed s e.expr, e.depth + 1⟩).map (·, rest) := by
    rw [unaryOver.signed, mapError_bind, h us rest hus hrest]
    cases x with
    | error deep => rfl
    | ok e => exact mapError_sized _ _ _
  cases s <;> exact hsigned

theorem gives_token {R : Reader w} {t : Token} {s : Sized w}
    (h : ∀ position rest, R (⟨t, position⟩ :: rest) = .ok (s, rest)) :
    Gives level R [t] (.ok s) := by
  intro ls rest hls hrest
  obtain ⟨position, us, rfl, hus⟩ := exists_lexeme hls
  obtain rfl := List.map_eq_nil_iff.1 hus
  rw [List.cons_append, List.nil_append, h]
  rfl

structure Recognises (cx : Context w) (n level : Nat) (ts : List Token) (p : Phrase) : Prop where
  gives : Gives level (cx.reader (cx.unary n) level) ts (p.outcome cx.known n)
  starts : level < 6 → level ≠ 3 →
    cx.Starts level (cx.reader (cx.unary n) (level + 1)) ts (p.outcome cx.known n)

theorem Recognises.of_starts {p : Phrase} (hlevel : level < 6) (hne : level ≠ 3)
    (h : cx.Starts level (cx.reader (cx.unary n) (level + 1)) ts (p.outcome cx.known n)) :
    cx.Recognises n level ts p := by
  refine ⟨?_, fun _ _ => h⟩
  rw [reader_eq_chain cx _ hlevel hne]
  exact gives_of_starts h

theorem Recognises.of_comparison {p : Phrase}
    (h : Gives 3 (cx.reader (cx.unary n) 3) ts (p.outcome cx.known n)) :
    cx.Recognises n 3 ts p :=
  ⟨h, fun _ hne => absurd rfl hne⟩

theorem Recognises.of_unary {p : Phrase} (h : Gives 6 (cx.unary n) ts (p.outcome cx.known n)) :
    cx.Recognises n 6 ts p :=
  ⟨h, fun hlt => absurd hlt (Nat.lt_irrefl 6)⟩

theorem recognises_of_derives (cx : Context w) {p : Phrase} (h : Derives level ts p) (n : Nat) :
    cx.Recognises n level ts p := by
  -- a chain does not end where its left operand does, so what it starts with is carried along
  induction h generalizing n with
  | number word =>
    apply Recognises.of_unary
    obtain ⟨deeper, inner, hunary⟩ := unary_eq cx n
    rw [hunary, Phrase.outcome]
    exact gives_token fun _ _ => rfl
  | text s =>
    apply Recognises.of_unary
    obtain ⟨deeper, inner, hunary⟩ := unary_eq cx n
    rw [hunary, Phrase.outcome]
    exact gives_token fun _ _ => rfl
  | field name hts =>
    apply Recognises.of_unary
    obtain ⟨deeper, inner, hunary⟩ := unary_eq cx n
    rw [hunary, Phrase.outcome]
    exact gives_field hts
  | paren h ih =>
    apply Recognises.of_unary
    cases n with
    | zero => exact gives_paren gives_tooDeep
    | succ n => exact gives_paren (ih n).gives
  | signed s h ih =>
    apply Recognises.of_unary
    cases n with
    | zero => exact gives_signed s gives_tooDeep
    | succ n => exact gives_signed s (ih n).gives
  | @operand level ts p hlevel h ih =>
    by_cases hne : level = 3
    · subst hne
      exact .of_comparison (gives_comparison (ih n).gives)
    · exact .of_starts hlevel hne (starts_of_gives (ih n).gives)
  | @chain level ts us l r o ho hne hl hr ihl ihr =>
    have hlevel : level < 6 := ho ▸ o.level_lt
    apply Recognises.of_starts hlevel hne
    have hjoin := starts_join ho ((ihl n).starts hlevel hne) (ihr n).gives
    rw [Phrase.outcome]
    exact hjoin
  | relation o hl hr ihl ihr =>
    apply Recognises.of_comparison
    rw [Phrase.outcome]
    exact gives_relation (ihl n).gives (ihr n).gives
  | like negated source h ih =>
    apply Recognises.of_comparison
    rw [Phrase.outcome]
    exact gives_like (ih n).gives

end Context

end FieldBuffers.Expr
