import Mathlib.Logic.Function.Iterate
import Mathlib.Order.Basic
import FieldBuffers.Proofs.Equality

/-! The nesting of a region found with a stack of the regions that are still to be looked into. The
walk takes no more steps than the region has bytes (`NestingWalk.exists_finished`); it sees every
region nested not too deep, and on a sound region it ends with the length of the longest chain
(`Region.Sound.exists_deepest`). -/

namespace FieldBuffers

open Item

variable {w : Width} {region : Bytes}

/-- A region inside another one: where it starts there, its bytes, and how many levels down it is. -/
structure Nested where
  start : Nat
  bytes : Bytes
  level : Nat
  deriving DecidableEq

namespace Nested

/-- The outermost region. -/
def root (region : Bytes) : Nested := ⟨0, region, 0⟩

/-- The region that an entry holds, if it holds one. -/
def held (n : Nested) (e : Entry w) : Option Nested :=
  if e.id.type = .fml ∧ e.value ≠ [] then some ⟨n.start + e.valueOffset, e.value, n.level + 1⟩
  else none

/-- The regions one level further down. -/
def inside (w : Width) (n : Nested) : List Nested := (Entry.ofRegion w n.bytes).filterMap n.held

variable {n m : Nested}

theorem held_eq_some_iff {e : Entry w} : n.held e = some m ↔ (e.id.type = .fml ∧ e.value ≠ []) ∧
    m = ⟨n.start + e.valueOffset, e.value, n.level + 1⟩ := by
  rw [held, Option.ite_none_right_eq_some, Option.some.injEq, eq_comm (a := m)]

theorem forall_mem_inside {P : Nested → Prop} : (∀ m ∈ n.inside w, P m) ↔
    ∀ e ∈ Entry.ofRegion w n.bytes, e.id.type = .fml → e.value ≠ [] →
      P ⟨n.start + e.valueOffset, e.value, n.level + 1⟩ := by
  simp only [inside, List.mem_filterMap, held_eq_some_iff]
  constructor
  · intro h e he ht hne
    exact h _ ⟨e, he, ⟨ht, hne⟩, rfl⟩
  · rintro h _ ⟨e, he, ⟨ht, hne⟩, rfl⟩
    exact h e he ht hne

/-- The bytes of some regions, those of each one counted by itself. -/
def total (ns : List Nested) : Nat := (ns.map (·.bytes.length)).sum

theorem total_reverse (ns : List Nested) : total ns.reverse = total ns := by
  rw [total, List.map_reverse, List.sum_reverse, total]

theorem total_held_le (n : Nested) (offset : Nat) (xs : List (Item w)) :
    total ((layout offset xs).filterMap n.held) ≤ (encodeAll xs).length := by
  induction xs generalizing offset with
  | nil => exact Nat.zero_le _
  | cons x xs ih =>
    have hrest := ih (offset + x.size)
    have hsize : x.size = w.overhead + x.value.length := rfl
    rw [layout_cons, List.filterMap_cons, encodeAll_cons, List.length_append, length_encode]
    cases hx : n.held (x.entry offset) with
    | none => exact Nat.le_add_left_of_le hrest
    | some m =>
      obtain ⟨-, rfl⟩ := held_eq_some_iff.1 hx
      have hbytes : (x.entry offset).value.length = x.value.length := rfl
      simp only [total, List.map_cons, List.sum_cons] at hrest ⊢
      omega

/-- The regions inside one share its bytes behind the header. -/
theorem total_inside_le (w : Width) (n : Nested) :
    total (n.inside w) ≤ n.bytes.length - Header.size := by
  obtain ⟨xs, rest, hbytes, -, hscan⟩ :=
    Entry.exists_scan (w := w) Header.size (n.bytes.drop Header.size)
  have hle := n.total_held_le Header.size xs
  have hlen := congrArg List.length hbytes
  rw [List.length_drop, List.length_append] at hlen
  rw [inside, Entry.ofRegion, hscan]
  omega

/-- How deep the chains through a nested region go, as far as they are followed. -/
def reach (n : Nested) : Nat := n.level + nesting (maxNesting + 1 - n.level) .wide n.bytes

theorem reach_le_iff (hn : n.level ≤ maxNesting) (j : Nat) :
    n.reach ≤ j ↔ n.level ≤ j ∧ ∀ m ∈ n.inside .wide, m.reach ≤ j := by
  have hlimit : maxNesting + 1 - n.level = maxNesting - n.level + 1 := by omega
  have hdeeper : ∀ value : Bytes, nesting (maxNesting - n.level) .wide value < j - n.level ↔
      n.level + 1 + nesting (maxNesting + 1 - (n.level + 1)) .wide value ≤ j := by
    intro value
    rw [Nat.add_sub_add_right]
    omega
  rw [forall_mem_inside, reach, hlimit]
  simp only [reach, ← hdeeper, ← nesting_succ_le_iff]
  omega

theorem reach_eq_level (hn : n.level = maxNesting + 1) : n.reach = n.level := by
  rw [reach, hn, Nat.sub_self]
  rfl

/-- Regions nested in one another, down to one level past those that are allowed. -/
inductive Inside (w : Width) (region : Bytes) : Nested → Prop
  | outer {m : Nested} : m ∈ (root region).inside w → Inside w region m
  | inner {n m : Nested} : Inside w region n → n.level ≤ maxNesting → m ∈ n.inside .wide →
      Inside w region m

theorem Inside.bounds (h : Inside w region n) : n.bytes ≠ [] ∧ n.level ≤ maxNesting + 1 := by
  cases h with
  | outer h =>
    revert n
    rw [forall_mem_inside]
    exact fun e _ _ hne => ⟨hne, Nat.succ_le_succ (Nat.zero_le _)⟩
  | inner _ hlevel h =>
    revert n
    rw [forall_mem_inside]
    exact fun e _ _ hne => ⟨hne, Nat.succ_le_succ hlevel⟩

end Nested

/-- A walk over nested regions: those still to be looked into, the last one pushed first, those that
were, and the deepest level among them. -/
structure NestingWalk where
  pending : List Nested
  seen : List Nested
  deepest : Nat

namespace NestingWalk

def start (w : Width) (region : Bytes) : NestingWalk :=
  ⟨((Nested.root region).inside w).reverse, [], 0⟩

/-- Looks into the region on top of the stack, unless that is too deep already. -/
def step (k : NestingWalk) : NestingWalk :=
  match k.pending with
  | [] => k
  | n :: rest =>
    { pending := (if n.level ≤ maxNesting then (n.inside .wide).reverse else []) ++ rest
      seen := n :: k.seen
      deepest := max k.deepest n.level }

/-- What a walk has seen and has yet to look into make up all that is nested in the region, and
the depth is that of the chains through the latter, if it was not come to before. -/
structure Follows (w : Width) (region : Bytes) (k : NestingWalk) : Prop where
  inside : ∀ n ∈ k.pending, n.Inside w region
  outer : ∀ m ∈ (Nested.root region).inside w, m ∈ k.seen ∨ m ∈ k.pending
  inner : ∀ n ∈ k.seen, n.level ≤ maxNesting → ∀ m ∈ n.inside .wide, m ∈ k.seen ∨ m ∈ k.pending
  depth (j : Nat) : nestingDepth w region ≤ j ↔ k.deepest ≤ j ∧ ∀ n ∈ k.pending, n.reach ≤ j

variable {k : NestingWalk}

theorem follows_start (w : Width) (region : Bytes) : (start w region).Follows w region where
  inside n hn := .outer (List.mem_reverse.1 hn)
  outer m hm := .inr (List.mem_reverse.2 hm)
  inner := nofun
  depth j := by
    simp only [start, List.mem_reverse, Nat.zero_le, true_and, Nested.forall_mem_inside]
    rw [nestingDepth, nesting_succ_le_iff]
    refine forall₂_congr fun e _ => imp_congr_right fun _ => imp_congr_right fun _ => ?_
    simp only [Nested.reach, Nested.root, Nat.zero_add, Nat.add_sub_cancel]
    omega

/-- The regions that a step puts on the stack in place of the one on top. -/
theorem mem_pending_step {n m : Nested} {rest : List Nested} (hk : k.pending = n :: rest) :
    m ∈ k.step.pending ↔ (n.level ≤ maxNesting ∧ m ∈ n.inside .wide) ∨ m ∈ rest := by
  simp only [step, hk, List.mem_append]
  split <;> simp [*]

theorem Follows.step (h : k.Follows w region) : k.step.Follows w region := by
  cases hk : k.pending with
  | nil => rwa [NestingWalk.step, hk]
  | cons n rest =>
    have hn := h.inside n (hk ▸ List.mem_cons_self ..)
    have hseen : k.step.seen = n :: k.seen := by rw [NestingWalk.step, hk]
    have hmoves : ∀ m, m ∈ k.seen ∨ m ∈ k.pending → m ∈ k.step.seen ∨ m ∈ k.step.pending := by
      intro m hm
      rw [hseen, mem_pending_step hk, List.mem_cons]
      rw [hk, List.mem_cons] at hm
      tauto
    constructor
    case inside =>
      intro m hm
      rcases (mem_pending_step hk).1 hm with ⟨hlevel, hm⟩ | hm
      · exact .inner hn hlevel hm
      · exact h.inside m (hk ▸ List.mem_cons_of_mem _ hm)
    case outer => exact fun m hm => hmoves m (h.outer m hm)
    case inner =>
      intro a ha hlevel m hm
      rw [hseen] at ha
      rcases List.mem_cons.1 ha with rfl | ha
      · exact .inr ((mem_pending_step hk).2 (.inl ⟨hlevel, hm⟩))
      · exact hmoves m (h.inner a ha hlevel m hm)
    case depth =>
      intro j
      have hdeepest : k.step.deepest = max k.deepest n.level := by rw [NestingWalk.step, hk]
      have hreach : n.reach ≤ j ↔
          n.level ≤ j ∧ (n.level ≤ maxNesting → ∀ m ∈ n.inside .wide, m.reach ≤ j) := by
        by_cases hlevel : n.level ≤ maxNesting
        · rw [n.reach_le_iff hlevel, forall_prop_of_true hlevel]
        · have hbound := hn.bounds.2
          rw [n.reach_eq_level (by omega)]
          simp [hlevel]
      rw [h.depth j, hk, List.forall_mem_cons, hreach, hdeepest, Nat.max_le]
      simp only [mem_pending_step hk, or_imp, forall_and, and_imp]
      tauto

/-- Every step that finds a region takes at least one byte off those on the stack. -/
theorem Follows.total_step_lt (h : k.Follows w region) (hk : k.pending ≠ []) :
    Nested.total k.step.pending < Nested.total k.pending := by
  obtain ⟨n, rest, hn⟩ := List.exists_cons_of_ne_nil hk
  have hpos := List.length_pos_iff.2 (h.inside n (hn ▸ List.mem_cons_self ..)).bounds.1
  have hle := n.total_inside_le .wide
  have hinside : Nested.total (if n.level ≤ maxNesting then (n.inside .wide).reverse else [])
      ≤ Nested.total (n.inside .wide) := by
    split
    · exact (Nested.total_reverse _).le
    · exact Nat.zero_le _
  have hheader : 0 < Header.size := by decide
  rw [NestingWalk.step, hn]
  simp only [Nested.total, List.map_append, List.sum_append, List.map_cons, List.sum_cons] at *
  omega

theorem Follows.exists_finished (h : k.Follows w region) :
    ∃ steps ≤ Nested.total k.pending, (NestingWalk.step^[steps] k).Follows w region ∧
      (NestingWalk.step^[steps] k).pending = [] := by
  induction hn : Nested.total k.pending using Nat.strongRecOn generalizing k with
  | ind n ih =>
    by_cases hk : k.pending = []
    · exact ⟨0, Nat.zero_le _, h, hk⟩
    · have hlt := h.total_step_lt hk
      obtain ⟨steps, hle, hfinal⟩ := ih _ (hn ▸ hlt) h.step rfl
      exact ⟨steps + 1, by omega, hfinal⟩

theorem Follows.mem_seen (h : k.Follows w region) (hk : k.pending = []) {m : Nested}
    (hm : m.Inside w region) : m ∈ k.seen := by
  induction hm with
  | outer hm => simpa [hk] using h.outer _ hm
  | inner _ hlevel hm ih => simpa [hk] using h.inner _ ih hlevel _ hm

theorem Follows.deepest_eq (h : k.Follows w region) (hk : k.pending = []) :
    k.deepest = nestingDepth w region := by
  refine eq_of_forall_ge_iff fun j => ?_
  simp [h.depth j, hk]

end NestingWalk

namespace Region

/-- So many buffers are nested in one another below a region, none of them null. -/
inductive Chain : (w : Width) → Bytes → Nat → Prop
  | none {w : Width} {region : Bytes} : Chain w region 0
  | nested {w : Width} {h : Header} {xs : List (Item w)} {x : Item w} {levels : Nat} :
      (∀ x ∈ xs, x.Stated) → x ∈ xs → x.id.type = .fml → x.value ≠ [] →
      Chain .wide x.value levels → Chain w (h.encode ++ encodeAll xs) (levels + 1)

theorem Chain.le_length {levels : Nat} (h : Chain w region levels) : levels ≤ region.length := by
  induction h with
  | none => exact Nat.zero_le _
  | nested _ hx _ _ _ ih =>
    have hlt := length_value_lt_encodeAll hx
    rw [List.length_append]
    omega

/-- A walk finds just the chains that its limit leaves room for. -/
theorem Sound.chain_iff (hs : Sound w region) {levels limit : Nat} (hle : levels ≤ limit) :
    Chain w region levels ↔ levels ≤ nesting limit w region := by
  induction limit generalizing w region levels with
  | zero =>
    obtain rfl := Nat.le_zero.1 hle
    exact iff_of_true .none (Nat.zero_le _)
  | succ limit ih =>
    cases levels with
    | zero => exact iff_of_true .none (Nat.zero_le _)
    | succ levels =>
      have hle : levels ≤ limit := Nat.le_of_succ_le_succ hle
      rw [Nat.succ_le_iff, ← Nat.not_le, nesting_succ_le_iff]
      constructor
      · intro h hall
        cases h with
        | @nested _ g xs x _ hst hx ht hne hchain =>
          have hmem : x ∈ items w (g.encode ++ encodeAll xs) := by rwa [items_encode g hst]
          obtain ⟨e, he, rfl⟩ := List.mem_map.1 hmem
          have hlt := hall e he ht hne
          exact Nat.not_le_of_lt hlt ((ih (hs.nested hmem ht hne) hle).1 hchain)
      · intro h
        push Not at h
        obtain ⟨e, he, ht, hne, hlevels⟩ := h
        have hmem : e.item ∈ items w region := List.mem_map_of_mem he
        have hchain := (ih (hs.nested hmem ht hne) hle).2 hlevels
        cases hs with
        | intro h xs _ _ hst =>
          rw [items_encode h hst] at hmem
          exact .nested hst hmem ht hne hchain

theorem nesting_le (limit : Nat) (w : Width) (region : Bytes) : nesting limit w region ≤ limit := by
  induction limit generalizing w region with
  | zero => exact Nat.le_refl _
  | succ limit ih =>
    rw [nesting_succ_le_iff]
    exact fun e _ _ _ => Nat.lt_succ_of_le (ih ..)

/-- The depth is the length of the longest chain, as far as chains are followed. -/
theorem Sound.exists_deepest (hs : Sound w region) : ∃ levels, Chain w region levels ∧
    (∀ n, Chain w region n → n ≤ levels) ∧
    nestingDepth w region = if levels ≤ maxNesting then levels else maxNesting + 1 := by
  -- No chain is longer than the region: this limit leaves room for all of them.
  have hall := nesting_le region.length w region
  have hlongest : ∀ n, Chain w region n ↔ n ≤ nesting region.length w region := fun n =>
    ⟨fun hn => (hs.chain_iff hn.le_length).1 hn, fun hn => (hs.chain_iff (hn.trans hall)).2 hn⟩
  have hdepth : nestingDepth w region ≤ maxNesting + 1 := nesting_le ..
  have hfollowed : ∀ n ≤ maxNesting + 1, Chain w region n ↔ n ≤ nestingDepth w region :=
    fun n hn => hs.chain_iff hn
  refine ⟨_, (hlongest _).2 (Nat.le_refl _), fun n => (hlongest n).1, ?_⟩
  generalize nesting region.length w region = levels at hlongest
  have hle := (hlongest _).1 ((hfollowed _ hdepth).2 (Nat.le_refl _))
  have hge := (hfollowed (min levels (maxNesting + 1)) (Nat.min_le_right ..)).1
    ((hlongest _).2 (Nat.min_le_left ..))
  split <;> omega

end Region

end FieldBuffers
