import FieldBuffers.Expr.Evaluation

/-! Evaluation layer by layer: what an expression gives is told by what its parts give, so no more
calls nest than the tree is high (`within_eq`). -/

namespace FieldBuffers.Expr

open Binary (binary64)

variable {w : Width} {e : Expr w}

def parts : Expr w → List (Expr w)
  | number _ | text _ | field _ => []
  | signed _ e => [e]
  | binary _ l r => [l, r]
  | like _ e _ _ => [e]

theorem height_lt_of_mem_parts {part : Expr w} (h : part ∈ e.parts) : part.height < e.height := by
  cases e with
  | number word => cases h
  | text s => cases h
  | field r => cases h
  | signed s e =>
    obtain rfl := List.mem_singleton.1 h
    exact Nat.lt_succ_self _
  | binary o l r =>
    obtain rfl | h := List.mem_cons.1 h
    · exact Nat.lt_succ_of_le (Nat.le_max_left ..)
    · obtain rfl := List.mem_singleton.1 h
      exact Nat.lt_succ_of_le (Nat.le_max_right ..)
  | like negated e source p =>
    obtain rfl := List.mem_singleton.1 h
    exact Nat.lt_succ_self _

/-- What evaluation asks of an expression, its text in an error among it. -/
structure Answer (w : Width) where
  wildcards : List (FieldId w)
  canonical : List Char
  meaning : Meaning w

variable (c : ArenaConfig) (b : Buffer w)

def answer (e : Expr w) : Answer w := ⟨e.wildcards, e.canonical, e.meaning c b⟩

/-- One call of the evaluation, which asks its parts. -/
def layer (ask : Expr w → Answer w) : Expr w → Answer w
  | number word =>
    ⟨[], Decimal.text binary64 word, .ofValue b [] fun _ => .ok (.number word)⟩
  | text s => ⟨[], quote s, .ofValue b [] fun _ => .ok (.text s)⟩
  | field r => ⟨if r.occurrence = .any then [r.id] else [], r.canonical, r.meaning c b⟩
  | signed s e =>
    { wildcards := if s = .not then [] else (ask e).wildcards
      canonical := s.symbol.toList ++ (ask e).canonical
      meaning :=
        match s with
        | .not => .ofTruth fun bound => ((ask e).meaning.truth bound).map (!·)
        | .minus => .ofValue b (ask e).wildcards fun bound => do
            return .number (binary64.negate (← (← (ask e).meaning.value bound).toNumber))
        | .plus => .ofValue b (ask e).wildcards fun bound => do
            return .number (← (← (ask e).meaning.value bound).toNumber) }
  | binary o l r =>
    { wildcards :=
        match o with
        | .arithmetic _ => (ask l).wildcards ++ (ask r).wildcards
        | _ => []
      canonical :=
        '(' :: (ask l).canonical ++ ' ' :: o.symbol.toList ++ ' ' :: (ask r).canonical ++ [')']
      meaning :=
        match o with
        | .connective o => .ofTruth fun bound =>
            o.apply ((ask l).meaning.truth bound) fun _ => (ask r).meaning.truth bound
        | .relation o => .ofTruth <|
            quantified b ((ask l).wildcards ++ (ask r).wildcards) fun bound => do
              let x ← (ask l).meaning.value bound
              let y ← (ask r).meaning.value bound
              Scalar.compare o x y
        | .arithmetic o => .ofValue b ((ask l).wildcards ++ (ask r).wildcards) fun bound => do
            let x ← (← (ask l).meaning.value bound).toNumber
            let y ← (← (ask r).meaning.value bound).toNumber
            return .number (o.apply x y) }
  | like negated e source pattern =>
    { wildcards := []
      canonical := '(' :: (ask e).canonical ++ ' ' :: (likeSymbol negated).toList ++ ' ' ::
        quote source ++ [')']
      meaning := .ofTruth <| quantified b (ask e).wildcards fun bound => do
        match ← (ask e).meaning.value bound with
        | .text s => return pattern.found s.toList != negated
        | .number word =>
          let shown := String.ofList (Decimal.text binary64 word)
          throw (.typeMismatch (.named (String.ofList (ask e).canonical)) "text" shown) }

theorem answer_eq_layer (e : Expr w) : answer c b e = layer c b (answer c b) e := by
  cases e with
  | signed s e => cases s <;> rfl
  | binary o l r => cases o <;> rfl
  | _ => rfl

theorem layer_congr {ask ask' : Expr w → Answer w} (h : ∀ part ∈ e.parts, ask part = ask' part) :
    layer c b ask e = layer c b ask' e := by
  cases e with
  | signed s e =>
    unfold layer
    simp only [h e (List.mem_cons_self ..)]
  | binary o l r =>
    unfold layer
    simp only [h l (List.mem_cons_self ..), h r (List.mem_cons_of_mem _ (List.mem_cons_self ..))]
  | like negated e source p =>
    unfold layer
    simp only [h e (List.mem_cons_self ..)]
  | _ => rfl

/-- Evaluation with room for so many nested calls, and with `stop` for what is asked of a call
beyond them. -/
def within (stop : Answer w) : Nat → Expr w → Answer w
  | 0, _ => stop
  | n + 1, e => layer c b (within stop n) e

/-- A tree that is no higher than the room there is never asks beyond it. -/
theorem within_eq (stop : Answer w) {n : Nat} (h : e.height ≤ n) :
    within c b stop n e = answer c b e := by
  induction n generalizing e with
  | zero => cases e <;> cases h
  | succ n ih =>
    rw [within, answer_eq_layer]
    apply layer_congr
    intro part hpart
    exact ih (Nat.le_of_lt_succ (Nat.lt_of_lt_of_le (height_lt_of_mem_parts hpart) h))

end FieldBuffers.Expr
