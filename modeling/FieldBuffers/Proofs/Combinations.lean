import FieldBuffers.Expr.Wildcard
import Mathlib.Data.List.Forall2
import Mathlib.Data.List.Nodup
import Mathlib.Algebra.BigOperators.Ring.List
import Mathlib.Algebra.Ring.Nat

/-! The combinations of occurrences that a test goes through. The counter of the evaluator visits
each of them once, the first digit fastest, and stops where the outcome is settled. -/

namespace FieldBuffers.Expr

variable {limits d : List Nat} {n k : Nat} {L : List (List Nat)}

/-- All combinations of digits below their limits, the first digit fastest. -/
def combinations : List Nat → List (List Nat)
  | [] => [[]]
  | n :: ns => (combinations ns).flatMap fun d => (List.range n).map (· :: d)

theorem mem_combinations : d ∈ combinations limits ↔ List.Forall₂ (· < ·) d limits := by
  induction limits generalizing d with
  | nil => simp [combinations]
  | cons n ns ih =>
    simp only [combinations, List.mem_flatMap, List.mem_map, List.mem_range, ih,
      List.forall₂_cons_right_iff]
    constructor
    · rintro ⟨e, he, k, hk, rfl⟩
      exact ⟨k, e, hk, he, rfl⟩
    · rintro ⟨k, e, hk, he, rfl⟩
      exact ⟨e, he, k, hk, rfl⟩

theorem nodup_combinations (limits : List Nat) : (combinations limits).Nodup := by
  induction limits with
  | nil => simp [combinations]
  | cons n ns ih =>
    refine List.nodup_flatMap.2 ⟨fun d _ => ?_, ih.imp fun {d e} hne => ?_⟩
    · exact List.nodup_range.map fun _ _ h => (List.cons.inj h).1
    · rintro _ hd he
      obtain ⟨_, -, rfl⟩ := List.mem_map.1 hd
      obtain ⟨_, -, h⟩ := List.mem_map.1 he
      exact hne (List.cons.inj h).2.symm

theorem length_combinations (limits : List Nat) : (combinations limits).length = limits.prod := by
  induction limits with
  | nil => rfl
  | cons n ns ih =>
    rw [combinations, List.length_flatMap]
    simp only [List.length_map, List.length_range, List.map_const', List.sum_replicate_nat, ih,
      List.prod_cons, Nat.mul_comm]

/-- The counter goes through these combinations after `d`, and then comes to its end. -/
inductive Walk (limits : List Nat) : List Nat → List (List Nat) → Prop
  | last {d e : List Nat} : advance limits d = (false, e) → Walk limits d []
  | step {d e : List Nat} {L : List (List Nat)} :
      advance limits d = (true, e) → Walk limits e L → Walk limits d (e :: L)

/-- While there is room for the first digit it alone moves. -/
theorem Walk.digit (m : Nat) (hk : k + m + 1 = n) (h : Walk (n :: limits) ((n - 1) :: d) L) :
    Walk (n :: limits) (k :: d) ((List.range' (k + 1) m).map (· :: d) ++ L) := by
  induction m generalizing k with
  | zero =>
    obtain rfl : k = n - 1 := by omega
    exact h
  | succ m ih =>
    have hlt : k + 1 < n := by omega
    exact .step (by simp [advance, hlt]) (ih (by omega))

theorem range_eq_cons (hn : 0 < n) : List.range n = 0 :: List.range' 1 (n - 1) := by
  obtain ⟨m, rfl⟩ := Nat.exists_eq_add_of_lt hn
  simp [List.range_eq_range', List.range'_succ]

/-- Then the other digits move, and the first is back at zero. -/
theorem Walk.carry (hn : 0 < n) (h : Walk limits d L) :
    Walk (n :: limits) ((n - 1) :: d) (L.flatMap fun d => (List.range n).map (· :: d)) := by
  have hfull : ¬ n - 1 + 1 < n := by omega
  induction h with
  | last h => exact .last (by simp only [advance, hfull, h, if_false]; rfl)
  | step h _ ih =>
    rw [List.flatMap_cons, range_eq_cons hn, List.map_cons, List.cons_append, ← range_eq_cons hn]
    exact .step (by simp [advance, hfull, h]) (ih.digit _ (by omega))

theorem exists_walk (h : 0 ∉ limits) :
    ∃ L, combinations limits = (limits.map fun _ => 0) :: L ∧
      Walk limits (limits.map fun _ => 0) L := by
  induction limits with
  | nil => exact ⟨[], rfl, .last rfl⟩
  | cons n ns ih =>
    obtain ⟨hn, hns⟩ := not_or.1 (mt List.mem_cons.2 h)
    obtain ⟨L, hL, hwalk⟩ := ih hns
    have hn : 0 < n := Nat.pos_of_ne_zero (Ne.symm hn)
    have hfirst : 0 + (n - 1) + 1 = n := by omega
    refine ⟨_, ?_, (hwalk.carry hn).digit (n - 1) hfirst⟩
    rw [combinations, hL, List.flatMap_cons, range_eq_cons hn, List.map_cons, List.cons_append,
      ← range_eq_cons hn]
    rfl

section Search

variable {test : List Nat → Except Error Bool} {e : Error}

/-- The first outcome that settles the matter, or that nothing holds. -/
def search (test : List Nat → Except Error Bool) : List (List Nat) → Except Error Bool
  | [] => .ok false
  | d :: ds => (settled? (test d)).getD (search test ds)

theorem holdsFrom_eq_search (h : Walk limits d L) :
    holdsFrom limits test (L.length + 1) d = search test (d :: L) := by
  induction h with
  | last h =>
    rw [holdsFrom, search, h]
    cases settled? (test _) <;> rfl
  | step h _ ih =>
    rw [List.length_cons, holdsFrom, search, h, ← ih]
    cases settled? (test _) <;> rfl

theorem holdsSome_eq_search (limits : List Nat) (test : List Nat → Except Error Bool) :
    holdsSome limits test = search test (combinations limits) := by
  have hprod : limits.foldl (· * ·) 1 = (combinations limits).length := by
    rw [length_combinations, List.prod_eq_foldl]
  rw [holdsSome]
  split
  · rename_i h
    have hzero : limits.prod = 0 := List.prod_eq_zero h
    have hnil : combinations limits = [] := by
      rw [← List.length_eq_zero_iff, length_combinations, hzero]
    rw [hnil, search]
  · rename_i h
    obtain ⟨L, hL, hwalk⟩ := exists_walk h
    rw [hprod, hL, List.length_cons, holdsFrom_eq_search hwalk]

/-- A combination does not hold, be it for an occurrence that is not there. -/
def Passes (r : Except Error Bool) : Prop :=
  r = .ok false ∨ ∃ f k, r = .error (.notPresent f k)

theorem settled?_eq_none_iff {r : Except Error Bool} : settled? r = none ↔ Passes r := by
  cases r with
  | ok v => cases v <;> simp [settled?, Passes]
  | error e => cases e <;> simp [settled?, Passes]

theorem settled?_eq_some {r o : Except Error Bool} (h : settled? r = some o) : o = r := by
  cases r with
  | ok v => cases v <;> simp_all [settled?]
  | error e => cases e <;> simp_all [settled?]

theorem search_cons_of_passes (h : Passes (test d)) : search test (d :: L) = search test L := by
  rw [search, settled?_eq_none_iff.2 h, Option.getD_none]

theorem search_cons_of_not_passes (h : ¬ Passes (test d)) : search test (d :: L) = test d := by
  rw [search]
  cases hs : settled? (test d) with
  | none => exact absurd (settled?_eq_none_iff.1 hs) h
  | some o => rw [Option.getD_some, settled?_eq_some hs]

theorem search_append_of_passes (h : ∀ d ∈ L, Passes (test d)) (L' : List (List Nat)) :
    search test (L ++ L') = search test L' := by
  induction L with
  | nil => rfl
  | cons d L ih =>
    obtain ⟨hd, hL⟩ := List.forall_mem_cons.1 h
    rw [List.cons_append, search_cons_of_passes hd, ih hL]

theorem search_eq_iff {o : Except Error Bool} (ho : ¬ Passes o) :
    search test L = o ↔ ∃ as d bs, L = as ++ d :: bs ∧ test d = o ∧ ∀ a ∈ as, Passes (test a) := by
  constructor
  · intro h
    induction L with
    | nil => exact absurd (.inl h.symm) ho
    | cons d L ih =>
      by_cases hd : Passes (test d)
      · rw [search_cons_of_passes hd] at h
        obtain ⟨as, d', bs, rfl, hd', has⟩ := ih h
        exact ⟨d :: as, d', bs, rfl, hd', List.forall_mem_cons.2 ⟨hd, has⟩⟩
      · rw [search_cons_of_not_passes hd] at h
        exact ⟨[], d, L, rfl, h, by simp⟩
  · rintro ⟨as, d, bs, rfl, rfl, has⟩
    rw [search_append_of_passes has, search_cons_of_not_passes ho]

theorem search_eq_false_iff : search test L = .ok false ↔ ∀ d ∈ L, Passes (test d) := by
  constructor
  · intro h
    induction L with
    | nil => simp
    | cons d L ih =>
      by_cases hd : Passes (test d)
      · rw [search_cons_of_passes hd] at h
        exact List.forall_mem_cons.2 ⟨hd, ih h⟩
      · rw [search_cons_of_not_passes hd] at h
        exact absurd (.inl h) hd
  · intro h
    have hall := search_append_of_passes h []
    rwa [List.append_nil] at hall

theorem not_passes_true : ¬ Passes (.ok true) := by simp [Passes]

theorem not_passes_error (he : ∀ f k, e ≠ .notPresent f k) : ¬ Passes (.error e) := by
  rintro (h | ⟨f, k, h⟩)
  · cases h
  · exact he f k (Except.error.inj h)

theorem exists_of_search_eq_error (h : search test L = .error e) : ∃ d ∈ L, test d = .error e ∧
    ∀ f k, e ≠ .notPresent f k := by
  induction L with
  | nil => cases h
  | cons d L ih =>
    by_cases hd : Passes (test d)
    · rw [search_cons_of_passes hd] at h
      obtain ⟨a, ha, hrest⟩ := ih h
      exact ⟨a, List.mem_cons_of_mem _ ha, hrest⟩
    · rw [search_cons_of_not_passes hd] at h
      refine ⟨d, List.mem_cons_self .., h, ?_⟩
      rintro f k rfl
      exact hd (.inr ⟨f, k, h⟩)

/-- Where only absent occurrences are errors, a search finds just what is there. -/
theorem search_eq_decide (h : ∀ d ∈ L, ∀ e, test d = .error e → ∃ f k, e = .notPresent f k) :
    (search test L = .ok true ↔ ∃ d ∈ L, test d = .ok true) ∧
      (search test L = .ok false ↔ ¬ ∃ d ∈ L, test d = .ok true) := by
  have hfound : search test L = .ok true → ∃ d ∈ L, test d = .ok true := by
    intro hs
    obtain ⟨as, d, bs, rfl, hd, -⟩ := (search_eq_iff not_passes_true).1 hs
    exact ⟨d, by simp, hd⟩
  have hmissed : search test L = .ok false → ¬ ∃ d ∈ L, test d = .ok true := by
    rintro hs ⟨d, hd, ht⟩
    have hpass := search_eq_false_iff.1 hs d hd
    rw [ht] at hpass
    exact not_passes_true hpass
  cases hs : search test L with
  | error e =>
    obtain ⟨d, hd, he, hne⟩ := exists_of_search_eq_error hs
    obtain ⟨f, k, rfl⟩ := h d hd e he
    exact absurd rfl (hne f k)
  | ok v =>
    cases v with
    | true => exact ⟨iff_of_true rfl (hfound hs), iff_of_false nofun (not_not.2 (hfound hs))⟩
    | false => exact ⟨iff_of_false nofun (hmissed hs), iff_of_true rfl (hmissed hs)⟩

end Search

section Stepping

/-- The digits after some steps of the counter. -/
def stepped (limits : List Nat) : Nat → List Nat → List Nat
  | 0, d => d
  | k + 1, d => stepped limits k (advance limits d).2

theorem Walk.map_stepped (h : Walk limits d L) :
    (List.range (L.length + 1)).map (stepped limits · d) = d :: L := by
  induction h with
  | last => rfl
  | step h _ ih =>
    rw [List.length_cons, List.range_succ_eq_map, List.map_cons, List.map_map, ← ih]
    refine congrArg (_ :: ·) (List.map_congr_left fun k _ => ?_)
    simp only [Function.comp_apply, stepped, h]

theorem Walk.goes_on (h : Walk limits d L) (hk : k < L.length) :
    (advance limits (stepped limits k d)).1 = true := by
  induction h generalizing k with
  | last => cases hk
  | step h _ ih =>
    cases k with
    | zero => rw [stepped, h]
    | succ k =>
      rw [stepped, h]
      exact ih (Nat.lt_of_succ_lt_succ hk)

theorem Walk.stops (h : Walk limits d L) :
    (advance limits (stepped limits L.length d)).1 = false := by
  induction h with
  | last h => rw [List.length_nil, stepped, h]
  | step h _ ih =>
    rw [List.length_cons, stepped, h]
    exact ih

/-- A counter that stops has carried past every digit. -/
theorem advance_of_stops (hd : List.Forall₂ (· < ·) d limits)
    (hstop : (advance limits d).1 = false) :
    advance limits d = (false, limits.map fun _ => 0) := by
  induction hd with
  | nil => rfl
  | @cons a n ds ns ha _ ih =>
    rw [advance] at hstop ⊢
    split at hstop
    · cases hstop
    · rename_i hfull
      rw [if_neg hfull, ih hstop]
      rfl

/-- From zeros the counter comes to each combination below its limits once. It goes on one time less
than the product of the limits says, and is then back at zeros. -/
theorem advance_enumerates (h : ∀ n ∈ limits, 1 ≤ n) :
    let zeros := limits.map fun _ => 0
    let visited := (List.range limits.prod).map (stepped limits · zeros)
    visited.Nodup ∧ (∀ d, d ∈ visited ↔ List.Forall₂ (· < ·) d limits) ∧
      (∃ n, limits.prod = n + 1 ∧
        (∀ k < n, (advance limits (stepped limits k zeros)).1 = true) ∧
        advance limits (stepped limits n zeros) = (false, zeros)) ∧
      advance [] [] = (false, []) := by
  intro zeros visited
  have hpos : 0 ∉ limits := fun h0 => absurd (h 0 h0) (by decide)
  obtain ⟨L, hL, hwalk⟩ := exists_walk hpos
  have hprod : limits.prod = L.length + 1 := by
    rw [← length_combinations, hL, List.length_cons]
  have hvisited : visited = combinations limits := by
    rw [hL, ← hwalk.map_stepped, ← hprod]
  have hmem : ∀ d, d ∈ visited ↔ List.Forall₂ (· < ·) d limits := fun d => by
    rw [hvisited, mem_combinations]
  have hlast : stepped limits L.length zeros ∈ visited :=
    List.mem_map_of_mem (List.mem_range.2 (hprod ▸ Nat.lt_succ_self _))
  refine ⟨hvisited ▸ nodup_combinations limits, hmem, ⟨L.length, hprod, ?_, ?_⟩, rfl⟩
  · exact fun k hk => hwalk.goes_on hk
  · exact advance_of_stops ((hmem _).1 hlast) hwalk.stops

theorem advance_enumerates_pairs :
    let visited := (List.range 6).map (stepped [2, 3] · [0, 0])
    visited = [[0, 0], [1, 0], [0, 1], [1, 1], [0, 2], [1, 2]] ∧
      visited.Nodup ∧ (∀ d, d ∈ visited ↔ List.Forall₂ (· < ·) d [2, 3]) ∧
      advance [2, 3] [1, 2] = (false, [0, 0]) := by
  have h := @advance_enumerates [2, 3] (by decide)
  exact ⟨by decide, h.1, h.2.1, by decide⟩

end Stepping

end FieldBuffers.Expr
