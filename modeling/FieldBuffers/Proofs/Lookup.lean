import FieldBuffers.Proofs.Storage
import Mathlib.Data.List.TakeWhile

/-! Looking for a field through the index finds what a scan of all entries finds
(`occurrences_eq`), and the place for a new occurrence is after all that are not greater. -/

namespace FieldBuffers

open Item

variable {w : Width} {s : Storage w} {xs : List (Item w)}

namespace Item

/-- The items before a new last occurrence of a field. -/
def before (sorted : Bool) (f : FieldId w) (xs : List (Item w)) : List (Item w) :=
  if sorted then xs.takeWhile (·.id.raw ≤ f.raw) else xs

def after (sorted : Bool) (f : FieldId w) (xs : List (Item w)) : List (Item w) :=
  if sorted then xs.dropWhile (·.id.raw ≤ f.raw) else []

theorem before_append_after (sorted : Bool) (f : FieldId w) (xs : List (Item w)) :
    before sorted f xs ++ after sorted f xs = xs := by
  cases sorted
  · exact List.append_nil xs
  · exact List.takeWhile_append_dropWhile ..

theorem layout_split {offset : Nat} {e : Entry w} (h : e ∈ layout offset xs) :
    ∃ as x bs, xs = as ++ x :: bs ∧ e = x.entry (offset + (encodeAll as).length) := by
  induction xs generalizing offset with
  | nil => simp at h
  | cons x xs ih =>
    rw [layout_cons] at h
    rcases List.mem_cons.1 h with rfl | h
    · exact ⟨[], x, xs, rfl, rfl⟩
    · obtain ⟨as, y, bs, rfl, rfl⟩ := ih h
      refine ⟨x :: as, y, bs, rfl, ?_⟩
      rw [encodeAll_cons, List.length_append, length_encode, Nat.add_assoc]

theorem filter_layout_eq_nil {offset : Nat} {f : FieldId w} (h : ∀ x ∈ xs, x.id.raw < f.raw) :
    (layout offset xs).filter (·.id = f) = [] := by
  rw [List.filter_eq_nil_iff]
  intro e he hid
  have hlt := h e.item (mem_of_mem_layout he)
  rw [decide_eq_true_eq] at hid
  rw [← hid] at hlt
  exact Nat.lt_irrefl _ hlt

/-- Among sorted entries those of a field stand together, after all that are less. -/
theorem takeWhile_dropWhile_layout (hs : Sorted xs) (offset : Nat) (f : FieldId w) :
    ((layout offset xs).dropWhile (·.id.raw < f.raw)).takeWhile (·.id = f)
      = (layout offset xs).filter (·.id = f) := by
  induction xs generalizing offset with
  | nil => rfl
  | cons x xs ih =>
    obtain ⟨hx, hxs⟩ := List.pairwise_cons.1 hs
    rw [layout_cons]
    rcases Nat.lt_trichotomy x.id.raw f.raw with hlt | heq | hgt
    · have hne : x.id ≠ f := fun hid => by simp [hid] at hlt
      rw [List.dropWhile_cons_of_pos (by rw [decide_eq_true_eq]; exact hlt), ih hxs,
        List.filter_cons_of_neg (by rw [decide_eq_true_eq]; exact hne)]
    · obtain hid := FieldId.raw_injective heq
      have hdrop : (layout (offset + x.size) xs).dropWhile (·.id.raw < f.raw)
          = layout (offset + x.size) xs := by
        cases xs with
        | nil => rfl
        | cons y xs =>
          have hy : ¬ y.id.raw < f.raw := by
            have := hx y (List.mem_cons_self ..)
            omega
          rw [layout_cons, List.dropWhile_cons_of_neg (by rw [decide_eq_true_eq]; exact hy)]
      rw [List.dropWhile_cons_of_neg (by simp [entry, heq]),
        List.takeWhile_cons_of_pos (by rw [decide_eq_true_eq]; exact hid),
        List.filter_cons_of_pos (by rw [decide_eq_true_eq]; exact hid), ← ih hxs, hdrop]
    · have hne : x.id ≠ f := fun hid => by simp [hid] at hgt
      rw [List.dropWhile_cons_of_neg (by rw [decide_eq_true_eq]; exact Nat.lt_asymm hgt),
        List.takeWhile_cons_of_neg (by rw [decide_eq_true_eq]; exact hne),
        List.filter_cons_of_neg (by rw [decide_eq_true_eq]; exact hne), List.filter_eq_nil_iff.2]
      intro e he hid
      have hle := hx e.item (mem_of_mem_layout he)
      rw [decide_eq_true_eq] at hid
      simp only [Entry.item, hid] at hle
      omega

theorem find?_layout_eq_none {offset : Nat} {f : FieldId w}
    (h : (layout offset xs).find? (f.raw < ·.id.raw) = none) :
    xs.takeWhile (·.id.raw ≤ f.raw) = xs := by
  rw [List.takeWhile_eq_self_iff]
  intro x hx
  rw [← map_item_layout offset xs] at hx
  obtain ⟨e, he, rfl⟩ := List.mem_map.1 hx
  have hle := List.find?_eq_none.1 h e he
  rw [decide_eq_true_eq] at hle ⊢
  exact Nat.le_of_not_lt hle

theorem find?_layout_eq_some {offset : Nat} {f : FieldId w} {e : Entry w}
    (h : (layout offset xs).find? (f.raw < ·.id.raw) = some e) :
    e.offset = offset + (encodeAll (xs.takeWhile (·.id.raw ≤ f.raw))).length := by
  induction xs generalizing offset with
  | nil => simp at h
  | cons x xs ih =>
    rw [layout_cons] at h
    by_cases hx : f.raw < x.id.raw
    · rw [List.find?_cons_of_pos (by rw [decide_eq_true_eq]; exact hx)] at h
      obtain rfl := Option.some.inj h
      rw [List.takeWhile_cons_of_neg (by simpa using hx)]
      rfl
    · rw [List.find?_cons_of_neg (by rw [decide_eq_true_eq]; exact hx)] at h
      rw [List.takeWhile_cons_of_pos (by simpa using hx), encodeAll_cons, List.length_append,
        length_encode, ih h, Nat.add_assoc]

end Item

theorem Index.exists_of_mem_sampleAfter {interval skip : Nat} {es : List (Entry w)}
    {p : FieldId w × Nat} (h : p ∈ Index.sampleAfter interval skip es) :
    ∃ e ∈ es, p = (e.id, e.offset) := by
  induction es generalizing skip with
  | nil => simp [Index.sampleAfter] at h
  | cons e es ih =>
    cases skip with
    | zero =>
      rcases List.mem_cons.1 h with rfl | h
      · exact ⟨e, List.mem_cons_self .., rfl⟩
      · obtain ⟨d, hd, hp⟩ := ih h
        exact ⟨d, List.mem_cons_of_mem _ hd, hp⟩
    | succ skip =>
      obtain ⟨d, hd, hp⟩ := ih h
      exact ⟨d, List.mem_cons_of_mem _ hd, hp⟩

/-- A scan from the place that the index gives misses only entries of lesser fields. -/
theorem Index.exists_seek_build (interval : Nat) (hs : Sorted xs) (f : FieldId w) :
    ∃ as bs, xs = as ++ bs ∧ (∀ a ∈ as, a.id.raw < f.raw) ∧
      (Index.build interval (layout Header.size xs)).seek f = regionSize as := by
  rw [Index.seek]
  split
  · exact ⟨[], xs, rfl, by simp, rfl⟩
  · rename_i p hp
    have hmem := List.mem_of_getLast? hp
    have hlt := List.mem_takeWhile_imp hmem
    obtain ⟨e, he, rfl⟩ := exists_of_mem_sampleAfter ((List.takeWhile_sublist _).subset hmem)
    obtain ⟨as, x, bs, rfl, rfl⟩ := layout_split he
    refine ⟨as, x :: bs, rfl, fun a ha => ?_, rfl⟩
    have hle := (List.pairwise_append.1 hs).2.2 a ha x (List.mem_cons_self ..)
    rw [decide_eq_true_eq] at hlt
    exact Nat.lt_of_le_of_lt hle hlt

namespace Storage

theorem Stores.entriesFrom_eq {as bs : List (Item w)} (h : s.Stores (as ++ bs)) :
    s.entriesFrom (regionSize as) = layout (regionSize as) bs := by
  rw [entriesFrom, h.live_eq, regionSize, Nat.add_sub_cancel_left, encodeAll_append,
    List.drop_left' rfl]
  exact Entry.scan_encodeAll _ _ fun x hx => h.stated x (List.mem_append_right _ hx)

theorem Holds.occurrences_eq (h : s.Holds xs) (f : FieldId w) :
    s.occurrences f = (layout Header.size xs).filter (·.id = f) := by
  rw [occurrences]
  split
  · rename_i ix hix
    have hs := h.sorted (by simp [hix])
    rw [h.index ix hix]
    obtain ⟨as, bs, rfl, has, hseek⟩ := Index.exists_seek_build s.interval hs f
    rw [hseek, h.entriesFrom_eq, takeWhile_dropWhile_layout (List.pairwise_append.1 hs).2.1,
      layout_append, List.filter_append, filter_layout_eq_nil has]
    rfl
  · rw [h.entries_eq]

theorem Holds.insertPoint_eq (h : s.Holds xs) (f : FieldId w) :
    s.insertPoint f = regionSize (before s.index.isSome f xs) := by
  rw [insertPoint]
  cases hix : s.index with
  | none => exact h.used
  | some ix =>
    have hs := h.sorted (by simp [hix])
    simp only [before, Option.isSome_some, if_true]
    rw [h.index ix hix]
    obtain ⟨as, bs, rfl, has, hseek⟩ := Index.exists_seek_build s.interval hs f
    have htake : (as ++ bs).takeWhile (·.id.raw ≤ f.raw)
        = as ++ bs.takeWhile (·.id.raw ≤ f.raw) :=
      List.takeWhile_append_of_pos fun a ha => by simpa using Nat.le_of_lt (has a ha)
    rw [hseek, h.entriesFrom_eq, htake]
    split
    · rename_i e he
      rw [find?_layout_eq_some he, regionSize, regionSize, encodeAll_append, List.length_append,
        Nat.add_assoc]
    · rename_i he
      rw [find?_layout_eq_none he, h.used]

end Storage

end FieldBuffers
