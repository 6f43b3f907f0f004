import FieldBuffers.Proofs.Lookup

/-! Edits of single occurrences as changes of a list of items: what becomes of the edited field and
of the others, and of the order. -/

namespace FieldBuffers.Item

variable {w : Width} {f g : FieldId w} {xs ys as cs : List (Item w)} {x y : Item w} {k : Nat}

/-- The occurrences of a field. -/
def ofField (f : FieldId w) (xs : List (Item w)) : List (Item w) := xs.filter (·.id = f)

theorem ofField_append (f : FieldId w) (xs ys : List (Item w)) :
    ofField f (xs ++ ys) = ofField f xs ++ ofField f ys := List.filter_append ..

theorem mem_ofField : x ∈ ofField f xs ↔ x ∈ xs ∧ x.id = f := by simp [ofField]

theorem ofField_eq_self (h : ∀ x ∈ xs, x.id = f) : ofField f xs = xs := by
  rw [ofField, List.filter_eq_self]
  intro x hx
  simpa using h x hx

theorem ofField_eq_nil (h : ∀ x ∈ xs, x.id ≠ f) : ofField f xs = [] := by
  rw [ofField, List.filter_eq_nil_iff]
  intro x hx
  simpa using h x hx

theorem ofField_cons_self (h : x.id = f) : ofField f (x :: xs) = x :: ofField f xs :=
  List.filter_cons_of_pos (by simpa using h)

theorem ofField_cons_ne (h : x.id ≠ f) : ofField f (x :: xs) = ofField f xs :=
  List.filter_cons_of_neg (by simpa using h)

theorem ofField_filter (keep : FieldId w → Bool) (xs : List (Item w)) (f : FieldId w) :
    ofField f (xs.filter fun x => keep x.id) = if keep f then ofField f xs else [] := by
  rw [ofField, List.filter_filter]
  by_cases hf : keep f = true
  · rw [if_pos hf, ofField]
    congr 1
    funext x
    by_cases hx : x.id = f <;> simp [hx, hf]
  · rw [if_neg hf, List.filter_eq_nil_iff]
    intro x _ h
    obtain ⟨hid, hkeep⟩ := Bool.and_eq_true_iff.1 h
    exact hf (of_decide_eq_true hid ▸ hkeep)

theorem map_item_filter_layout (offset : Nat) (f : FieldId w) (xs : List (Item w)) :
    ((layout offset xs).filter (·.id = f)).map Entry.item = ofField f xs := by
  rw [ofField, ← map_item_layout offset xs, List.filter_map, map_item_layout]
  rfl

theorem length_filter_layout (offset : Nat) (f : FieldId w) (xs : List (Item w)) :
    ((layout offset xs).filter (·.id = f)).length = (ofField f xs).length := by
  rw [← map_item_filter_layout offset, List.length_map]

theorem layout_occurrence {offset : Nat} {e : Entry w}
    (h : ((layout offset xs).filter (·.id = f))[k]? = some e) :
    ∃ as y cs, xs = as ++ y :: cs ∧ y.id = f ∧ (ofField f as).length = k ∧
      e = y.entry (offset + (encodeAll as).length) := by
  induction xs generalizing offset k with
  | nil => simp at h
  | cons x xs ih =>
    rw [layout_cons] at h
    by_cases hx : x.id = f
    · rw [List.filter_cons_of_pos (by rw [decide_eq_true_eq]; exact hx)] at h
      cases k with
      | zero => exact ⟨[], x, xs, rfl, hx, rfl, (Option.some.inj h).symm⟩
      | succ k =>
        obtain ⟨as, y, cs, rfl, hy, hk, rfl⟩ := ih h
        refine ⟨x :: as, y, cs, rfl, hy, ?_, ?_⟩
        · rw [ofField_cons_self hx, List.length_cons, hk]
        · rw [encodeAll_cons, List.length_append, length_encode, Nat.add_assoc]
    · rw [List.filter_cons_of_neg (by rw [decide_eq_true_eq]; exact hx)] at h
      obtain ⟨as, y, cs, rfl, hy, hk, rfl⟩ := ih h
      refine ⟨x :: as, y, cs, rfl, hy, ?_, ?_⟩
      · rw [ofField_cons_ne hx, hk]
      · rw [encodeAll_cons, List.length_append, length_encode, Nat.add_assoc]

theorem exists_occurrence (h : k < (ofField f xs).length) :
    ∃ as y cs, xs = as ++ y :: cs ∧ y.id = f ∧ (ofField f as).length = k := by
  rw [← length_filter_layout 0] at h
  obtain ⟨as, y, cs, hxs, hy, hk, -⟩ := layout_occurrence (List.getElem?_eq_getElem h)
  exact ⟨as, y, cs, hxs, hy, hk⟩

/-- Occurrence `k` of a field replaced by others, where there is one. -/
def substitute (f : FieldId w) (ys : List (Item w)) : Nat → List (Item w) → List (Item w)
  | _, [] => []
  | k, x :: xs =>
    if x.id = f then
      match k with
      | 0 => ys ++ xs
      | k + 1 => x :: substitute f ys k xs
    else x :: substitute f ys k xs

theorem substitute_split (hy : y.id = f) (hk : (ofField f as).length = k) :
    substitute f ys k (as ++ y :: cs) = as ++ ys ++ cs := by
  induction as generalizing k with
  | nil =>
    obtain rfl : k = 0 := hk.symm
    simp [substitute, hy]
  | cons a as ih =>
    by_cases ha : a.id = f
    · rw [ofField_cons_self ha, List.length_cons] at hk
      subst hk
      simp [substitute, ha, ih rfl]
    · rw [ofField_cons_ne ha] at hk
      simp [substitute, ha, ih hk]

theorem ofField_substitute (hk : k < (ofField f xs).length) (hys : ∀ y ∈ ys, y.id = f) :
    ofField f (substitute f ys k xs)
      = (ofField f xs).take k ++ ys ++ (ofField f xs).drop (k + 1) := by
  obtain ⟨as, y, cs, rfl, hy, rfl⟩ := exists_occurrence hk
  simp [substitute_split hy rfl, ofField_append, ofField_cons_self hy, ofField_eq_self hys,
    List.drop_append]

theorem ofField_substitute_ne (hk : k < (ofField f xs).length) (hys : ∀ y ∈ ys, y.id = f)
    (hg : g ≠ f) : ofField g (substitute f ys k xs) = ofField g xs := by
  obtain ⟨as, y, cs, rfl, hy, rfl⟩ := exists_occurrence hk
  have hyg : y.id ≠ g := fun h => hg (h ▸ hy)
  have hnil : ofField g ys = [] := ofField_eq_nil fun z hz h => hg (h ▸ hys z hz)
  rw [substitute_split hy rfl, ofField_append, ofField_append, hnil, ofField_append,
    ofField_cons_ne hyg, List.append_nil]

theorem mem_substitute (hk : k < (ofField f xs).length) (h : x ∈ substitute f ys k xs) :
    x ∈ xs ∨ x ∈ ys := by
  obtain ⟨as, y, cs, rfl, hy, rfl⟩ := exists_occurrence hk
  rw [substitute_split hy rfl] at h
  simp only [List.mem_append, List.mem_cons] at h ⊢
  tauto

theorem sorted_append : Sorted (xs ++ ys) ↔
    Sorted xs ∧ Sorted ys ∧ ∀ x ∈ xs, ∀ y ∈ ys, x.id.raw ≤ y.id.raw := List.pairwise_append

theorem sorted_of_forall (h : ∀ x ∈ xs, x.id = f) : Sorted xs := by
  refine List.pairwise_of_forall_mem_list fun x hx y hy => ?_
  rw [h x hx, h y hy]

theorem sorted_substitute (hk : k < (ofField f xs).length) (hys : ∀ y ∈ ys, y.id = f)
    (hs : Sorted xs) : Sorted (substitute f ys k xs) := by
  obtain ⟨as, y, cs, rfl, hy, rfl⟩ := exists_occurrence hk
  obtain ⟨has, hyc, hacs⟩ := sorted_append.1 hs
  obtain ⟨hyc, hcs⟩ := List.pairwise_cons.1 hyc
  rw [substitute_split hy rfl]
  refine sorted_append.2 ⟨sorted_append.2 ⟨has, sorted_of_forall hys, ?_⟩, hcs, ?_⟩
  · intro a ha z hz
    rw [hys z hz, ← hy]
    exact hacs a ha y (List.mem_cons_self ..)
  · intro a ha c hc
    rcases List.mem_append.1 ha with ha | ha
    · exact hacs a ha c (List.mem_cons_of_mem _ hc)
    · rw [hys a ha, ← hy]
      exact hyc c hc

/-- Items put after the last occurrence of their field. -/
def put (sorted : Bool) (f : FieldId w) (ys xs : List (Item w)) : List (Item w) :=
  before sorted f xs ++ ys ++ after sorted f xs

theorem lt_of_mem_after (hs : Sorted xs) (h : x ∈ after true f xs) : f.raw < x.id.raw := by
  induction xs with
  | nil => simp [after] at h
  | cons a as ih =>
    obtain ⟨ha, has⟩ := List.pairwise_cons.1 hs
    simp only [after, if_true] at h ih
    by_cases hle : a.id.raw ≤ f.raw
    · rw [List.dropWhile_cons_of_pos (by simpa using hle)] at h
      exact ih has h
    · rw [List.dropWhile_cons_of_neg (by simpa using hle)] at h
      rcases List.mem_cons.1 h with rfl | h
      · exact Nat.lt_of_not_le hle
      · exact Nat.lt_of_lt_of_le (Nat.lt_of_not_le hle) (ha x h)

theorem ofField_put {sorted : Bool} (hs : sorted → Sorted xs) (hys : ∀ y ∈ ys, y.id = f) :
    ofField f (put sorted f ys xs) = ofField f xs ++ ys := by
  have hafter : ofField f (after sorted f xs) = [] := by
    cases sorted with
    | false => rfl
    | true =>
      refine ofField_eq_nil fun x hx hid => ?_
      have := lt_of_mem_after (hs rfl) hx
      rw [hid] at this
      exact Nat.lt_irrefl _ this
  conv => rhs; rw [← before_append_after sorted f xs]
  rw [put, ofField_append, ofField_append, ofField_append, ofField_eq_self hys, hafter,
    List.append_nil, List.append_nil]

theorem ofField_put_ne {sorted : Bool} (hys : ∀ y ∈ ys, y.id = f) (hg : g ≠ f) :
    ofField g (put sorted f ys xs) = ofField g xs := by
  have hnil : ofField g ys = [] := ofField_eq_nil fun z hz h => hg (h ▸ hys z hz)
  conv => rhs; rw [← before_append_after sorted f xs]
  rw [put, ofField_append, ofField_append, ofField_append, hnil, List.append_nil]

theorem mem_put {sorted : Bool} (h : x ∈ put sorted f ys xs) : x ∈ xs ∨ x ∈ ys := by
  rw [← before_append_after sorted f xs, List.mem_append]
  simp only [put, List.mem_append] at h
  tauto

theorem sorted_put (hs : Sorted xs) (hys : ∀ y ∈ ys, y.id = f) : Sorted (put true f ys xs) := by
  have hbefore : ∀ x ∈ before true f xs, x.id.raw ≤ f.raw := fun x hx => by
    simpa using List.mem_takeWhile_imp hx
  have hsplit := hs
  rw [← before_append_after true f xs] at hsplit
  obtain ⟨hb, ha, hba⟩ := sorted_append.1 hsplit
  refine sorted_append.2 ⟨sorted_append.2 ⟨hb, sorted_of_forall hys, ?_⟩, ha, ?_⟩
  · intro x hx y hy
    rw [hys y hy]
    exact hbefore x hx
  · intro x hx z hz
    rcases List.mem_append.1 hx with hx | hx
    · exact hba x hx z hz
    · rw [hys x hx]
      exact Nat.le_of_lt (lt_of_mem_after hs hz)

theorem sorted_ofField (f : FieldId w) (xs : List (Item w)) : Sorted (ofField f xs) :=
  sorted_of_forall fun _ hx => (mem_ofField.1 hx).2

theorem sorted_filter (keep : Item w → Bool) (hs : Sorted xs) : Sorted (xs.filter keep) :=
  hs.sublist List.filter_sublist

/-- Bringing items in the order of the fields moves no occurrence past another of its field. -/
theorem ofField_sort (f : FieldId w) (xs : List (Item w)) : ofField f (sort xs) = ofField f xs := by
  have h : (xs.filter (·.id = f)).Sublist (sort xs) :=
    List.sublist_mergeSort
      (fun a b c hab hbc => by
        rw [decide_eq_true_eq] at hab hbc ⊢
        exact Nat.le_trans hab hbc)
      (fun a b => by simpa using Nat.le_total a.id.raw b.id.raw)
      ((sorted_ofField f xs).imp decide_eq_true)
      List.filter_sublist
  have h' := h.filter (·.id = f)
  rw [List.filter_filter] at h'
  simp only [Bool.and_self] at h'
  exact (h'.eq_of_length ((sort_perm xs).filter _).length_eq.symm).symm

end FieldBuffers.Item
