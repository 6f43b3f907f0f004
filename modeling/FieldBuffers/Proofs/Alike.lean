import FieldBuffers.Proofs.Acceptance
import FieldBuffers.Proofs.Same

/-! Items that differ in the order of nested fields only. Regions of such items are equal as buffers
(`same_of_alike`), take as many bytes and nest as deep. -/

namespace FieldBuffers

open Item

namespace Storage

variable {w : Width} {s : Storage w} {xs : List (Item w)}

theorem Holds.entries_standalone (h : s.Holds xs) :
    Entry.ofRegion w s.standalone = layout Header.size xs := by
  rw [Entry.ofRegion, s.drop_standalone, h.live_eq, Entry.scan_encodeAll _ _ h.stated]

end Storage

namespace Item

variable {w : Width} {xs ys zs : List (Item w)} {x y : Item w}

theorem map_id_perm {R : Item w → Item w → Prop}
    (h : ∀ f, List.Forall₂ R (ofField f xs) (ofField f ys)) :
    (xs.map Item.id).Perm (ys.map Item.id) := by
  have hcount : ∀ (f : FieldId w) (zs : List (Item w)),
      (zs.map Item.id).count f = (ofField f zs).length := fun f zs => by
    rw [List.count, List.countP_map, List.countP_eq_length_filter]
    rfl
  exact List.perm_iff_count.2 fun f => by rw [hcount, hcount, (h f).length_eq]

/-- Items in one order of fields are told by the occurrences of each field. -/
theorem forall₂_of_map_id {R : Item w → Item w → Prop} (hid : xs.map Item.id = ys.map Item.id)
    (h : ∀ f, List.Forall₂ R (ofField f xs) (ofField f ys)) : List.Forall₂ R xs ys := by
  induction xs generalizing ys with
  | nil =>
    obtain rfl := List.map_eq_nil_iff.1 hid.symm
    exact .nil
  | cons x xs ih =>
    obtain ⟨y, ys, rfl, hhead, htail⟩ := List.map_eq_cons_iff.1 hid.symm
    have hf := h x.id
    rw [ofField_cons_self rfl, ofField_cons_self hhead] at hf
    obtain ⟨hxy, -⟩ := List.forall₂_cons.1 hf
    refine .cons hxy (ih htail.symm fun f => ?_)
    have hf := h f
    by_cases hfx : x.id = f
    · rw [ofField_cons_self hfx, ofField_cons_self (hhead.trans hfx)] at hf
      exact (List.forall₂_cons.1 hf).2
    · rwa [ofField_cons_ne hfx, ofField_cons_ne (hhead ▸ hfx)] at hf

theorem map_id_eq_of_sorted {R : Item w → Item w → Prop} (hx : Sorted xs) (hy : Sorted ys)
    (h : ∀ f, List.Forall₂ R (ofField f xs) (ofField f ys)) :
    xs.map Item.id = ys.map Item.id := by
  have hids : ∀ {zs : List (Item w)}, Sorted zs → (zs.map Item.id).Pairwise (·.raw ≤ ·.raw) :=
    fun hz => List.pairwise_map.2 hz
  refine (map_id_perm h).eq_of_pairwise (fun f g _ _ hfg hgf => ?_) (hids hx) (hids hy)
  exact FieldId.raw_injective (Nat.le_antisymm hfg hgf)

/-- Sorted items have their fields in one order. -/
theorem forall₂_of_sorted {R : Item w → Item w → Prop} (hx : Sorted xs) (hy : Sorted ys)
    (h : ∀ f, List.Forall₂ R (ofField f xs) (ofField f ys)) : List.Forall₂ R xs ys :=
  forall₂_of_map_id (map_id_eq_of_sorted hx hy h) h

theorem eq_of_sorted (hx : Sorted xs) (hy : Sorted ys)
    (h : ∀ f, ofField f xs = ofField f ys) : xs = ys := by
  have heq : List.Forall₂ (· = ·) xs ys := by
    refine forall₂_of_sorted hx hy fun f => ?_
    rw [h f]
    exact List.forall₂_same.2 fun _ _ => rfl
  rwa [List.forall₂_eq_eq_eq] at heq

theorem forall₂_sort_iff {R : Item w → Item w → Prop} (hid : ∀ x y, R x y → x.id = y.id) :
    List.Forall₂ R (sort xs) (sort ys) ↔
      ∀ f, List.Forall₂ R (ofField f xs) (ofField f ys) := by
  constructor
  · intro h f
    rw [← ofField_sort f xs, ← ofField_sort f ys]
    exact List.rel_filter (fun x y hxy => by simp [hid x y hxy]) h
  · intro h
    refine forall₂_of_sorted (sorted_sort xs) (sorted_sort ys) fun f => ?_
    rw [ofField_sort, ofField_sort]
    exact h f

theorem put_eq_sort (hs : Sorted xs) : put true x.id [x] xs = sort (xs ++ [x]) := by
  have hx : ∀ y ∈ [x], y.id = x.id := by simp
  refine eq_of_sorted (sorted_put hs hx) (sorted_sort _) fun f => ?_
  rw [ofField_sort, ofField_append]
  by_cases hf : f = x.id
  · subst hf
    rw [ofField_put (fun _ => hs) hx, ofField_eq_self hx]
  · rw [ofField_put_ne hx hf, ofField_cons_ne (Ne.symm hf)]
    exact (List.append_nil _).symm

theorem put_perm (sorted : Bool) (f : FieldId w) (ys xs : List (Item w)) :
    (put sorted f ys xs).Perm (xs ++ ys) := by
  conv => rhs; rw [← before_append_after sorted f xs, List.append_assoc]
  rw [put, List.append_assoc]
  exact List.perm_append_comm.append_left _

/-- An item that no other is above goes to the end. -/
theorem put_eq_append {sorted : Bool} (hs : Sorted (xs ++ [x])) :
    put sorted x.id [x] xs = xs ++ [x] := by
  cases sorted with
  | false => exact List.append_nil _
  | true => rw [put_eq_sort (sorted_append.1 hs).1, sort_eq_self hs]

theorem sort_append_sort (xs ys : List (Item w)) : sort (sort xs ++ ys) = sort (xs ++ ys) := by
  refine eq_of_sorted (sorted_sort _) (sorted_sort _) fun f => ?_
  rw [ofField_sort, ofField_append, ofField_sort, ofField_sort, ofField_append]

/-- The same item, or two that are nested buffers whose items, once sorted, are alike one by one. -/
inductive Alike : {w : Width} → Item w → Item w → Prop
  | refl {w : Width} (x : Item w) : Alike x x
  | nested {w : Width} {x y : Item w} {s t : Storage .wide} {xs ys : List (Item .wide)} :
      x.id = y.id → x.id.type = .fml → s.Holds xs → t.Holds ys → x.value = s.standalone →
      y.value = t.standalone → (sort xs).length = (sort ys).length →
      (∀ a b, (a, b) ∈ (sort xs).zip (sort ys) → Alike a b) → Alike x y

theorem Alike.id_eq (h : Alike x y) : x.id = y.id := by
  cases h with
  | refl => rfl
  | nested hid => exact hid

/-- Pairs keep together, as a pair has one identifier. -/
theorem forall₂_sort (h : List.Forall₂ Alike xs ys) : List.Forall₂ Alike (sort xs) (sort ys) := by
  obtain ⟨hlen, hzip⟩ := List.forall₂_iff_zip.1 h
  have hxs : (xs.zip ys).map Prod.fst = xs := List.map_fst_zip (Nat.le_of_eq hlen)
  have hys : (xs.zip ys).map Prod.snd = ys := List.map_snd_zip (Nat.le_of_eq hlen.symm)
  have hid : ∀ p ∈ xs.zip ys, p.1.id = p.2.id := fun p hp => (hzip hp).id_eq
  have hfst : ((xs.zip ys).mergeSort fun p q => p.1.id.raw ≤ q.1.id.raw).map Prod.fst
      = sort ((xs.zip ys).map Prod.fst) := List.map_mergeSort fun _ _ _ _ => rfl
  have hsnd : ((xs.zip ys).mergeSort fun p q => p.1.id.raw ≤ q.1.id.raw).map Prod.snd
      = sort ((xs.zip ys).map Prod.snd) :=
    List.map_mergeSort fun p hp q hq => by rw [hid p hp, hid q hq]
  rw [hxs] at hfst
  rw [hys] at hsnd
  rw [← hfst, ← hsnd, List.forall₂_map_left_iff, List.forall₂_map_right_iff, List.forall₂_same]
  exact fun p hp => hzip (List.mem_mergeSort.1 hp)

theorem length_encodeAll_eq (h : List.Forall₂ (fun x y => x.value.length = y.value.length) xs ys) :
    (encodeAll xs).length = (encodeAll ys).length := by
  induction h with
  | nil => rfl
  | cons hxy _ ih =>
    rw [encodeAll_cons, encodeAll_cons, List.length_append, List.length_append, length_encode,
      length_encode, size, size, hxy, ih]

theorem Alike.length_value (h : Alike x y) : x.value.length = y.value.length := by
  induction h with
  | refl => rfl
  | @nested w x y s t xs ys hid ht hs hs' hx hy hlen _ ih =>
    rw [hx, hy, hs.length_standalone, hs'.length_standalone, hs.used, hs'.used,
      ← regionSize_perm (sort_perm xs), ← regionSize_perm (sort_perm ys), regionSize, regionSize,
      length_encodeAll_eq (List.forall₂_iff_zip.2 ⟨hlen, fun hab => ih _ _ hab⟩)]

theorem regionSize_eq (h : List.Forall₂ Alike xs ys) : regionSize xs = regionSize ys := by
  rw [regionSize, regionSize, length_encodeAll_eq (h.imp fun _ _ hxy => hxy.length_value)]

/-- The value of an item nests buffers at most so many levels deep, its own level counted. -/
def NestsBelow (n : Nat) (x : Item w) : Prop :=
  x.id.type = .fml → x.value ≠ [] → ∃ m, n = m + 1 ∧ Region.NestsWithin m .wide x.value

theorem nestsWithin_iff_items (n : Nat) (region : Bytes) :
    Region.NestsWithin n w region ↔ ∀ x ∈ Region.items w region, x.NestsBelow n := by
  rw [Region.items, List.forall_mem_map]
  cases n with
  | zero =>
    refine forall₂_congr fun e _ => forall_congr' fun _ => ?_
    simp [Entry.item]
  | succ n =>
    refine forall₂_congr fun e _ => forall_congr' fun _ => forall_congr' fun _ => ?_
    simp [Entry.item]

theorem nestsWithin_iff {n : Nat} {region : Bytes} {offset : Nat}
    (h : Entry.ofRegion w region = layout offset xs) :
    Region.NestsWithin n w region ↔ ∀ x ∈ xs, x.NestsBelow n := by
  rw [nestsWithin_iff_items, Region.items_of_layout h]

theorem nestingDepth_lt_iff (region : Bytes) : nestingDepth w region < maxNesting ↔
    Region.NestsWithin (maxNesting - 1) w region :=
  (Nat.lt_iff_le_pred (by decide)).trans (Region.nesting_le_iff (by decide) region)

theorem nestsBelow_of_sound {x : Item w} (hx : x.Sound) : x.NestsBelow maxNesting :=
  fun ht hv => ⟨maxNesting - 1, rfl, (nestingDepth_lt_iff x.value).1 (hx.value.shallow ht hv)⟩

theorem Alike.nestsBelow {n : Nat} (h : Alike x y) (hx : x.NestsBelow n) : y.NestsBelow n := by
  induction h generalizing n with
  | refl => exact hx
  | @nested w x y s t xs ys hid ht hs hs' hvx hvy hlen _ ih =>
    intro _ _
    have hne : x.value ≠ [] := hvx ▸ hs.standalone_ne_nil
    obtain ⟨m, rfl, hm⟩ := hx ht hne
    rw [hvx, nestsWithin_iff (hs.entries_standalone)] at hm
    refine ⟨m, rfl, ?_⟩
    rw [hvy, nestsWithin_iff (hs'.entries_standalone)]
    intro b hb
    obtain ⟨i, hi, rfl⟩ := List.mem_iff_getElem.1 ((sort_perm ys).mem_iff.2 hb)
    have hpair : ((sort xs)[i], (sort ys)[i]) ∈ (sort xs).zip (sort ys) := by
      rw [← List.getElem_zip (h := by rw [List.length_zip]; omega)]
      exact List.getElem_mem ..
    exact ih _ _ hpair (hm _ ((sort_perm xs).mem_iff.1 (List.getElem_mem ..)))

end Item

variable {w : Width} {xs ys : List (Item w)}

/-- A sound region can be read wherever there is room for it. -/
theorem Region.Sound.isReadable_iff {bs : Bytes} (hs : Region.Sound .wide bs)
    (c : ArenaConfig) (hd : nestingDepth .wide bs ≤ maxNesting) (hne : bs ≠ []) :
    Region.isReadable c bs = true ↔ Region.Room c bs.length := by
  rw [isReadable]
  cases hv : Value.decode c .fml 0 bs with
  | ok v =>
    obtain ⟨-, -, -, -, hroom, -⟩ := (Value.decode_fml_eq_ok_iff hne).1 hv
    exact iff_of_true rfl hroom
  | error e =>
    refine iff_of_false (by simp [Except.toBool]) fun hroom => ?_
    obtain ⟨g, hg⟩ := hs.header_eq_ok
    rw [(Value.decode_fml_eq_ok_iff hne).2 ⟨g, hg, hs, hd, hroom, rfl⟩] at hv
    cases hv

theorem Storage.Holds.isReadable {s : Storage .wide} {xs : List (Item .wide)} (h : s.Holds xs)
    (c : ArenaConfig) :
    Region.isReadable c s.standalone = true ↔ Region.Room c s.standalone.length :=
  h.sound_standalone.isReadable_iff c h.nestingDepth_le h.standalone_ne_nil

theorem Item.Alike.same (c : ArenaConfig) {x y : Item w} (h : Alike x y) : Same c x y := by
  induction h with
  | refl x => exact .of_self (Region.same_refl c x.value)
  | @nested w x y s t xs ys hid ht hs hs' hvx hvy hlen hall ih =>
    have hroom : Region.isReadable c x.value = Region.isReadable c y.value := by
      rw [Bool.eq_iff_iff, hvx, hvy, hs.isReadable, hs'.isReadable, ← hvx, ← hvy,
        (Alike.nested hid ht hs hs' hvx hvy hlen hall).length_value]
    refine ⟨⟨hid, fun hf => absurd ht hf, fun _ => hroom⟩, fun _ _ => ?_, fun _ _ _ => ?_⟩
    · exact iff_of_false (hvx ▸ hs.standalone_ne_nil) (hvy ▸ hs'.standalone_ne_nil)
    · rw [Region.same_iff, hvx, hvy, Region.items_of_layout hs.entries_standalone,
        Region.items_of_layout hs'.entries_standalone]
      exact List.forall₂_iff_zip.2 ⟨hlen, fun hab => ih _ _ hab⟩

theorem Region.same_of_alike (c : ArenaConfig) {a b : Bytes} {i j : Nat}
    (ha : Entry.ofRegion w a = layout i xs) (hb : Entry.ofRegion w b = layout j ys)
    (h : List.Forall₂ Alike (sort xs) (sort ys)) : same c w a b = true := by
  rw [same_iff, items_of_layout ha, items_of_layout hb]
  exact h.imp fun _ _ hxy => hxy.same c

end FieldBuffers
