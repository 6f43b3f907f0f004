import FieldBuffers.Proofs.Combinations
import FieldBuffers.Proofs.Logical

/-! Tests with wildcards. A test binds those fields of its operands that nothing around it binds,
goes through all combinations of their occurrences, and leaves the bindings as they were. -/

namespace FieldBuffers.Expr

variable {w : Width} {α β : Type} {c : ArenaConfig} {b : Buffer w} {e : Expr w} {f : FieldId w}
  {bound : Bindings w}

/-- A field is written with a wildcard in an expression, outside the tests within. -/
inductive Wild (f : FieldId w) : Expr w → Prop
  | field {r : Reference w} : r.occurrence = .any → r.id = f → Wild f (.field r)
  | signed {s : Sign} {e : Expr w} : s ≠ .not → Wild f e → Wild f (.signed s e)
  | left {o : Arithmetic} {l r : Expr w} : Wild f l → Wild f (.binary (.arithmetic o) l r)
  | right {o : Arithmetic} {l r : Expr w} : Wild f r → Wild f (.binary (.arithmetic o) l r)

theorem mem_wildcards_of_wild (h : Wild f e) : f ∈ e.wildcards := by
  induction h with
  | field ho hf => simp [wildcards, ho, hf]
  | @signed s e hs _ ih =>
    cases s with
    | not => exact absurd rfl hs
    | minus | plus => exact ih
  | left _ ih => exact List.mem_append_left _ ih
  | right _ ih => exact List.mem_append_right _ ih

theorem wild_of_mem_wildcards (h : f ∈ e.wildcards) : Wild f e := by
  induction e with
  | number word => cases h
  | text s => cases h
  | field r =>
    rw [wildcards] at h
    split at h
    · exact .field ‹_› (List.mem_singleton.1 h).symm
    · cases h
  | signed s e ih =>
    cases s with
    | not => cases h
    | minus => exact .signed (by decide) (ih h)
    | plus => exact .signed (by decide) (ih h)
  | binary o l r ihl ihr =>
    cases o with
    | connective o => cases h
    | relation o => cases h
    | arithmetic o =>
      rcases List.mem_append.1 h with h | h
      · exact .left (ihl h)
      · exact .right (ihr h)
  | like negated e source pattern => cases h

/-- The operands of a test. What is no comparison and no match is tested as a value. -/
def operands : Expr w → List (Expr w)
  | binary (.relation _) l r => [l, r]
  | like _ e _ _ => [e]
  | e => [e]

/-- The fields that a test binds by itself. -/
def free (e : Expr w) (bound : Bindings w) : List (FieldId w) :=
  unbound bound (e.operands.flatMap wildcards)

theorem nodup_free (e : Expr w) (bound : Bindings w) : (e.free bound).Nodup :=
  Merge.nodup_eraseDups _

theorem mem_free : f ∈ e.free bound ↔ (∃ o ∈ e.operands, Wild f o) ∧ ∀ k, (f, k) ∉ bound := by
  have hwild : (∃ o ∈ e.operands, f ∈ o.wildcards) ↔ ∃ o ∈ e.operands, Wild f o :=
    exists_congr fun o => and_congr_right fun _ => ⟨wild_of_mem_wildcards, mem_wildcards_of_wild⟩
  rw [← hwild, free, unbound, List.mem_eraseDups, List.mem_filter, List.mem_flatMap]
  refine and_congr_right fun _ => ?_
  simp only [Bool.not_eq_true', List.any_eq_false, beq_iff_eq, Prod.forall]
  exact ⟨fun h k hk => h f k hk rfl, fun h g k hk hg => h k (hg ▸ hk)⟩

/-- Comparisons, matches and values other than bare fields. -/
def IsTest : Expr w → Prop
  | field _ => False
  | signed .not _ => False
  | binary (.connective _) _ _ => False
  | _ => True

def holdsUnder (c : ArenaConfig) (b : Buffer w) (e : Expr w) (bound : Bindings w) :
    Except Error Bool :=
  match e with
  | binary (.relation o) l r => do
    let x ← (l.meaning c b).value bound
    let y ← (r.meaning c b).value bound
    Scalar.compare o x y
  | like negated e _ pattern => do
    match ← (e.meaning c b).value bound with
    | .text s => return pattern.found s.toList != negated
    | .number word =>
      let shown := String.ofList (Decimal.text Binary.binary64 word)
      throw (.typeMismatch (.named e.toText) "text" shown)
  | e => ((e.meaning c b).value bound).map Scalar.holds

theorem truth_eq_search (he : e.IsTest) (bound : Bindings w) :
    (e.meaning c b).truth bound
      = search (fun d => e.holdsUnder c b (bound ++ (e.free bound).zip d))
          (combinations ((e.free bound).map b.count)) := by
  rw [← holdsSome_eq_search]
  have hfree : ∀ fs, unbound bound fs = e.free bound →
      quantified b fs (e.holdsUnder c b) bound
        = holdsSome ((e.free bound).map b.count)
            fun d => e.holdsUnder c b (bound ++ (e.free bound).zip d) := by
    rintro fs hfs
    simp only [quantified, hfs]
  cases e with
  | number word => rfl
  | text s => rfl
  | field r => exact he.elim
  | signed s e =>
    cases s with
    | not => exact he.elim
    | minus | plus => exact hfree e.wildcards (by simp [free, operands, wildcards])
  | binary o l r =>
    cases o with
    | connective o => exact he.elim
    | relation o => exact hfree (l.wildcards ++ r.wildcards) (by simp [free, operands])
    | arithmetic o =>
      exact hfree (l.wildcards ++ r.wildcards) (by simp [free, operands, wildcards])
  | like negated e source pattern => exact hfree e.wildcards (by simp [free, operands])

namespace Reference

variable {r : Reference w} {n : Nat}

theorem chosen_append (h : r.chosen bound = some n) (inner : Bindings w) :
    r.chosen (bound ++ inner) = some n := by
  rw [chosen] at h ⊢
  cases ho : r.occurrence with
  | «at» m => simpa [ho] using h
  | any =>
    rw [ho] at h
    obtain ⟨x, hx, rfl⟩ := Option.map_eq_some_iff.1 h
    simp [List.find?_append, hx]

theorem find?_zip {fs : List (FieldId w)} {d : List Nat} (hfs : fs.Nodup) (h : (f, n) ∈ fs.zip d) :
    (fs.zip d).find? (·.1 == f) = some (f, n) := by
  induction fs generalizing d with
  | nil => cases h
  | cons g fs ih =>
    obtain ⟨hg, hfs⟩ := List.nodup_cons.1 hfs
    cases d with
    | nil => cases h
    | cons k d =>
      rw [List.zip_cons_cons] at h ⊢
      rcases List.mem_cons.1 h with h | h
      · obtain ⟨rfl, rfl⟩ := Prod.mk.inj h
        simp
      · have hne : g ≠ f := by
          rintro rfl
          exact hg (List.of_mem_zip h).1
        rw [List.find?_cons_of_neg (by simpa using hne)]
        exact ih hfs h

theorem chosen_of_mem_zip {d : List Nat} (hr : r.occurrence = .any)
    (h : (r.id, n) ∈ (e.free bound).zip d) (inner : Bindings w) :
    r.chosen (bound ++ (e.free bound).zip d ++ inner) = some n := by
  have hbound : bound.find? (·.1 == r.id) = none := by
    rw [List.find?_eq_none]
    rintro ⟨g, k⟩ hk hg
    exact (mem_free.1 (List.of_mem_zip h).1).2 k (eq_of_beq hg ▸ hk)
  refine chosen_append ?_ inner
  simp only [chosen, hr, List.find?_append, hbound, find?_zip (nodup_free e bound) h]
  rfl

/-- Under some bindings a reference stands for one occurrence. -/
def ReadsAt (c : ArenaConfig) (b : Buffer w) (r : Reference w) (bound : Bindings w) (k : Nat) :
    Prop :=
  (r.meaning c b).value bound = r.fetch c b k ∧ (r.meaning c b).truth bound = .ok (b.has r.id k)

theorem readsAt_of_chosen (h : r.chosen bound = some n) : r.ReadsAt c b bound n := by
  simp only [ReadsAt, meaning, h, Option.getD_some]
  exact ⟨rfl, trivial⟩

end Reference

section Stack

/-- Evaluations that keep the bindings of the enclosing tests on a stack. -/
abbrev Stacked (w : Width) := EStateM Error (Bindings w)

/-- What reads the stack and leaves it as it is. -/
def Stacked.reading (g : Bindings w → Except Error α) : Stacked w α := fun stack =>
  match g stack with
  | .ok a => .ok a stack
  | .error x => .error x stack

namespace Stacked

theorem bind_eq_reading {x : Stacked w α} {g : Bindings w → Except Error α} {k : α → Stacked w β}
    {h : α → Bindings w → Except Error β} (hx : x = reading g) (hk : ∀ a, k a = reading (h a)) :
    x >>= k = reading fun stack => g stack >>= fun a => h a stack := by
  subst hx
  funext stack
  change EStateM.bind _ _ stack = _
  simp only [EStateM.bind, reading]
  cases g stack with
  | ok a =>
    dsimp only
    rw [hk]
    rfl
  | error x => rfl

theorem map_eq_reading {x : Stacked w α} {g : Bindings w → Except Error α} (hx : x = reading g)
    (h : α → β) : h <$> x = reading fun stack => (g stack).map h := by
  subst hx
  funext stack
  change EStateM.map _ _ stack = _
  simp only [EStateM.map, reading]
  cases g stack <;> rfl

def outcome (test : Stacked w α) (stack : Bindings w) : Except Error α × Bindings w :=
  match test stack with
  | .ok a stack => (.ok a, stack)
  | .error x stack => (.error x, stack)

def ending (r : Except Error α) (stack : Bindings w) : EStateM.Result Error (Bindings w) α :=
  match r with
  | .ok a => .ok a stack
  | .error x => .error x stack

/-- The loop of a test over its combinations. Each pass cuts the stack back to its base and puts
the next combination on it. -/
def loop (base : Nat) (fs : List (FieldId w)) (limits : List Nat) (test : Stacked w Bool) :
    Nat → List Nat → Stacked w Bool
  | 0, _, stack => .ok false stack
  | fuel + 1, ds, stack =>
    let (r, stack) := outcome test (stack.take base ++ fs.zip ds)
    match settled? r, advance limits ds with
    | some r, _ => ending r stack
    | none, (true, ds) => loop base fs limits test fuel ds stack
    | none, (false, _) => .ok false stack

/-- A test on the stack, which is cut back to what it was. -/
def quantified (b : Buffer w) (fs : List (FieldId w)) (test : Stacked w Bool) : Stacked w Bool :=
  fun stack =>
    let free := unbound stack fs
    let limits := free.map b.count
    if 0 ∈ limits then .ok false stack
    else
      let fuel := limits.foldl (· * ·) 1
      let (r, left) := outcome
        (loop stack.length free limits test fuel (limits.map fun _ => 0)) stack
      ending r (left.take stack.length)

theorem outcome_reading (g : Bindings w → Except Error α) (stack : Bindings w) :
    outcome (reading g) stack = (g stack, stack) := by
  rw [outcome, reading]
  cases g stack <;> rfl

theorem outcome_of_ending {test : Stacked w α} {stack left : Bindings w} {r : Except Error α}
    (h : test stack = ending r left) : outcome test stack = (r, left) := by
  rw [outcome, h]
  cases r <;> rfl

theorem exists_loop_eq (g : Bindings w → Except Error Bool) (fs : List (FieldId w))
    (limits : List Nat) (fuel : Nat) (ds : List Nat) {stack : Bindings w}
    (h : stack.take bound.length = bound) :
    ∃ left : Bindings w, left.take bound.length = bound ∧
      loop bound.length fs limits (reading g) fuel ds stack
        = ending (holdsFrom limits (fun ds => g (bound ++ fs.zip ds)) fuel ds) left := by
  -- the enclosing bindings stay at the bottom, and each pass runs on them and its own combination
  induction fuel generalizing ds stack with
  | zero => exact ⟨stack, h, rfl⟩
  | succ fuel ih =>
    have hpass : (bound ++ fs.zip ds).take bound.length = bound := List.take_left' rfl
    rw [loop, holdsFrom, outcome_reading, h]
    dsimp only
    cases settled? (g (bound ++ fs.zip ds)) with
    | some r => exact ⟨_, hpass, rfl⟩
    | none =>
      obtain ⟨more, next⟩ := advance limits ds
      cases more with
      | false => exact ⟨_, hpass, rfl⟩
      | true => exact ih next hpass

theorem quantified_eq_reading (fs : List (FieldId w)) {x : Stacked w Bool}
    {g : Bindings w → Except Error Bool} (hx : x = reading g) :
    quantified b fs x = reading (Expr.quantified b fs g) := by
  subst hx
  funext stack
  have hstack : stack.take stack.length = stack := List.take_length
  rw [quantified, reading, Expr.quantified, holdsSome]
  dsimp only
  split
  · rfl
  · obtain ⟨left, hleft, hloop⟩ := exists_loop_eq g (unbound stack fs)
      ((unbound stack fs).map b.count) (((unbound stack fs).map b.count).foldl (· * ·) 1)
      (((unbound stack fs).map b.count).map fun _ => 0) hstack
    rw [outcome_of_ending hloop]
    dsimp only
    rw [hleft]
    rfl

end Stacked

/-- An expression on the stack, asked as a test and asked for a value. -/
structure Routine (w : Width) where
  truth : Stacked w Bool
  value : Stacked w Scalar

namespace Routine

def ofTruth (truth : Stacked w Bool) : Routine w := ⟨truth, Scalar.ofBool <$> truth⟩

def ofValue (b : Buffer w) (fs : List (FieldId w)) (value : Stacked w Scalar) : Routine w :=
  ⟨.quantified b fs (Scalar.holds <$> value), value⟩

def ofMeaning (m : Meaning w) : Routine w := ⟨.reading m.truth, .reading m.value⟩

theorem ofTruth_eq {x : Stacked w Bool} {g : Bindings w → Except Error Bool}
    (hx : x = .reading g) : ofTruth x = ofMeaning (.ofTruth g) := by
  rw [ofTruth, Stacked.map_eq_reading hx, hx]
  rfl

theorem ofValue_eq (fs : List (FieldId w)) {x : Stacked w Scalar}
    {g : Bindings w → Except Error Scalar} (hx : x = .reading g) :
    ofValue b fs x = ofMeaning (.ofValue b fs g) := by
  rw [ofValue, Stacked.quantified_eq_reading fs (Stacked.map_eq_reading hx Scalar.holds), hx]
  rfl

end Routine

def Stacked.ofExcept (r : Except Error α) : Stacked w α := .reading fun _ => r

def routine (c : ArenaConfig) (b : Buffer w) : Expr w → Routine w
  | number word => .ofValue b [] (.ofExcept (.ok (.number word)))
  | text s => .ofValue b [] (.ofExcept (.ok (.text s)))
  | field r => .ofMeaning (r.meaning c b)
  | signed .not e => .ofTruth ((!·) <$> (e.routine c b).truth)
  | signed .minus e => .ofValue b e.wildcards do
      let x ← Stacked.ofExcept (← (e.routine c b).value).toNumber
      return .number (Binary.binary64.negate x)
  | signed .plus e => .ofValue b e.wildcards do
      let x ← Stacked.ofExcept (← (e.routine c b).value).toNumber
      return .number x
  | binary (.connective o) l r => .ofTruth do
      match o, ← (l.routine c b).truth with
      | .or, true => return true
      | .and, false => return false
      | .xor, true => return !(← (r.routine c b).truth)
      | _, _ => (r.routine c b).truth
  | binary (.relation o) l r =>
    .ofTruth <| .quantified b (l.wildcards ++ r.wildcards) do
      let x ← (l.routine c b).value
      let y ← (r.routine c b).value
      Stacked.ofExcept (Scalar.compare o x y)
  | binary (.arithmetic o) l r => .ofValue b (l.wildcards ++ r.wildcards) do
      let x ← Stacked.ofExcept (← (l.routine c b).value).toNumber
      let y ← Stacked.ofExcept (← (r.routine c b).value).toNumber
      return .number (o.apply x y)
  | like negated e _ pattern =>
    .ofTruth <| .quantified b e.wildcards do
      match ← (e.routine c b).value with
      | .text s => return pattern.found s.toList != negated
      | .number word =>
        let shown := String.ofList (Decimal.text Binary.binary64 word)
        throw (.typeMismatch (.named e.toText) "text" shown)

theorem routine_eq (c : ArenaConfig) (b : Buffer w) (e : Expr w) :
    e.routine c b = .ofMeaning (e.meaning c b) := by
  induction e with
  | number word => exact Routine.ofValue_eq [] rfl
  | text s => exact Routine.ofValue_eq [] rfl
  | field r => rfl
  | signed s e ih =>
    have htruth := congrArg Routine.truth ih
    have hvalue := congrArg Routine.value ih
    cases s with
    | not => exact Routine.ofTruth_eq (Stacked.map_eq_reading htruth _)
    | minus | plus =>
      exact Routine.ofValue_eq _ <| Stacked.bind_eq_reading hvalue fun _ =>
        Stacked.bind_eq_reading rfl fun _ => rfl
  | binary o l r ihl ihr =>
    have hl := congrArg Routine.value ihl
    have hr := congrArg Routine.value ihr
    cases o with
    | connective o =>
      have hl := congrArg Routine.truth ihl
      have hr := congrArg Routine.truth ihr
      refine Routine.ofTruth_eq (Stacked.bind_eq_reading hl fun v => ?_)
      cases o <;> cases v
      all_goals first | exact hr | rfl | exact Stacked.bind_eq_reading hr fun _ => rfl
    | relation o =>
      exact Routine.ofTruth_eq <| Stacked.quantified_eq_reading _ <|
        Stacked.bind_eq_reading hl fun _ => Stacked.bind_eq_reading hr fun _ => rfl
    | arithmetic o =>
      exact Routine.ofValue_eq _ <| Stacked.bind_eq_reading hl fun _ =>
        Stacked.bind_eq_reading rfl fun _ => Stacked.bind_eq_reading hr fun _ =>
          Stacked.bind_eq_reading rfl fun _ => rfl
  | like negated e source pattern ih =>
    have hvalue := congrArg Routine.value ih
    refine Routine.ofTruth_eq <| Stacked.quantified_eq_reading _ <|
      Stacked.bind_eq_reading hvalue fun x => ?_
    cases x <;> rfl

end Stack

def combos (b : Buffer w) (e : Expr w) (bound : Bindings w) : List (List Nat) :=
  combinations ((e.free bound).map b.count)

/-- A test under the bindings around it and a combination of its own. -/
def holdsAt (c : ArenaConfig) (b : Buffer w) (e : Expr w) (bound : Bindings w) (d : List Nat) :
    Except Error Bool :=
  e.holdsUnder c b (bound ++ (e.free bound).zip d)

structure Quantifies (c : ArenaConfig) (b : Buffer w) (e : Expr w) (bound : Bindings w) : Prop where
  /-- The fields are those with a wildcard in the operands that nothing around the test binds. -/
  fields : (e.free bound).Nodup ∧ ∀ f, f ∈ e.free bound ↔
    (∃ o ∈ e.operands, Wild f o) ∧ ∀ k, (f, k) ∉ bound
  absent : (∃ f ∈ e.free bound, b.count f = 0) → (e.meaning c b).truth bound = .ok false
  /-- Each combination of the full product has its turn, once. -/
  product : (combos b e bound).Nodup ∧ ∀ d, d ∈ combos b e bound ↔
    List.Forall₂ (fun k f => k < b.count f) d (e.free bound)
  /-- All references to a field read the occurrence that the combination gives it. -/
  shared (r : Reference w) (d : List Nat) (k : Nat) : r.occurrence = .any →
    (r.id, k) ∈ (e.free bound).zip d →
      ∀ inner, r.ReadsAt c b (bound ++ (e.free bound).zip d ++ inner) k
  /-- What an enclosing test has bound stays so. -/
  kept (r : Reference w) (k : Nat) : r.chosen bound = some k →
    ∀ inner, r.ReadsAt c b (bound ++ inner) k
  holds : (e.meaning c b).truth bound = .ok true ↔ ∃ ds d rest,
    combos b e bound = ds ++ d :: rest ∧ e.holdsAt c b bound d = .ok true ∧
      ∀ a ∈ ds, Passes (e.holdsAt c b bound a)
  fails (x : Error) : (∀ f k, x ≠ .notPresent f k) →
    ((e.meaning c b).truth bound = .error x ↔ ∃ ds d rest,
      combos b e bound = ds ++ d :: rest ∧ e.holdsAt c b bound d = .error x ∧
        ∀ a ∈ ds, Passes (e.holdsAt c b bound a))
  passes : (e.meaning c b).truth bound = .ok false ↔
    ∀ d ∈ combos b e bound, Passes (e.holdsAt c b bound d)
  /-- Without errors other than for absent occurrences, a test holds just if it does for some
  combination. -/
  exists_iff : (∀ d ∈ combos b e bound, ∀ x, e.holdsAt c b bound d = .error x →
      ∃ f k, x = .notPresent f k) →
    ((e.meaning c b).truth bound = .ok true ↔
      ∃ d ∈ combos b e bound, e.holdsAt c b bound d = .ok true) ∧
    ((e.meaning c b).truth bound = .ok false ↔
      ¬ ∃ d ∈ combos b e bound, e.holdsAt c b bound d = .ok true)
  /-- On a stack, the bindings after the test are those before it. -/
  stack : (e.routine c b).truth bound = Stacked.ending ((e.meaning c b).truth bound) bound ∧
    (e.routine c b).value bound = Stacked.ending ((e.meaning c b).value bound) bound

theorem mem_combos {d : List Nat} : d ∈ combos b e bound ↔
    List.Forall₂ (fun k f => k < b.count f) d (e.free bound) := by
  rw [combos, mem_combinations, List.forall₂_map_right_iff]

theorem quantifies (c : ArenaConfig) (b : Buffer w) {e : Expr w} (he : e.IsTest)
    (bound : Bindings w) : e.Quantifies c b bound := by
  have htruth : (e.meaning c b).truth bound = search (e.holdsAt c b bound) (combos b e bound) :=
    truth_eq_search he bound
  constructor
  case fields => exact ⟨nodup_free e bound, fun f => mem_free⟩
  case absent =>
    rintro ⟨f, hf, hnone⟩
    have hzero : 0 ∈ (e.free bound).map b.count := hnone ▸ List.mem_map_of_mem hf
    rw [htruth, combos, ← holdsSome_eq_search, holdsSome, if_pos hzero]
  case product => exact ⟨nodup_combinations _, fun d => mem_combos⟩
  case shared =>
    intro r d k hr hk inner
    exact Reference.readsAt_of_chosen (Reference.chosen_of_mem_zip hr hk inner)
  case kept =>
    intro r k hk inner
    exact Reference.readsAt_of_chosen (Reference.chosen_append hk inner)
  case holds =>
    rw [htruth]
    exact search_eq_iff not_passes_true
  case fails =>
    intro x hx
    rw [htruth]
    exact search_eq_iff (not_passes_error hx)
  case passes =>
    rw [htruth]
    exact search_eq_false_iff
  case exists_iff =>
    intro h
    rw [htruth]
    exact search_eq_decide h
  case stack =>
    rw [routine_eq]
    exact ⟨rfl, rfl⟩

/-- A field written twice is bound once, to each of its two occurrences in turn. -/
theorem quantifies_square :
    let f : FieldId .wide := ⟨.short, 1, by decide, by decide, by decide⟩
    let b := ((⟨{ config := ⟨64, 256⟩ }, .null⟩ : Place .wide).afterAll
      [.add f (.short 7), .add f (.short 8)]).buffer
    let n : Expr .wide := .field ⟨f, "N", .any⟩
    let e : Expr .wide := .binary (.relation .eq) (.binary (.arithmetic .mul) n n)
      (.number (Binary.binary64.ofInt 64))
    combos b e [] = [[0], [1]] ∧ e.Quantifies ⟨64, 256⟩ b [] := by
  intro f b n e
  have he : e.IsTest := trivial
  exact ⟨by decide +kernel, quantifies ⟨64, 256⟩ b he []⟩

end FieldBuffers.Expr
