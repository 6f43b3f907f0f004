import FieldBuffers.Proofs.Logical
import Mathlib.Data.List.Zip

/-! What equality of buffers means where all that is nested can be read: both are null, or each
field has as many occurrences in both, in pairs of the same bytes or, if they are nested buffers, of
equal ones (`Buffer.same_iff_equals`). Such buffers take as many bytes and nest as deep. -/

namespace FieldBuffers

open Item

variable {w : Width} {c : ArenaConfig} {a b : Bytes} {x y : Item w} {xs ys : List (Item w)}

/-- The bytes of a field's occurrences, in order. -/
def Region.values (w : Width) (region : Bytes) (f : FieldId w) : List Bytes :=
  (ofField f (items w region)).map Item.value

/-- Equality of buffers, told by the values of each field. A null buffer has no bytes. -/
inductive Region.Equals : (w : Width) → Bytes → Bytes → Prop
  | null {w : Width} : Equals w [] []
  | allocated {w : Width} {a b : Bytes} : a ≠ [] → b ≠ [] →
      (∀ f, (values w a f).length = (values w b f).length) →
      (∀ f, f.type ≠ .fml → values w a f = values w b f) →
      (∀ f, f.type = .fml → ∀ u v, (u, v) ∈ (values w a f).zip (values w b f) →
        Equals .wide u v) → Equals w a b

/-- Two items of one field with the same bytes, or with equal nested buffers. -/
structure Item.Equals (x y : Item w) : Prop where
  id : x.id = y.id
  value : x.id.type ≠ .fml → x.value = y.value
  nested : x.id.type = .fml → Region.Equals .wide x.value y.value

theorem forall₂_imp_of_mem {α β : Type} {R S : α → β → Prop} {as : List α} {bs : List β}
    (hRS : ∀ a ∈ as, ∀ b ∈ bs, R a b → S a b) (h : List.Forall₂ R as bs) :
    List.Forall₂ S as bs := by
  obtain ⟨hlen, hzip⟩ := List.forall₂_iff_zip.1 h
  refine List.forall₂_iff_zip.2 ⟨hlen, fun hab => ?_⟩
  exact hRS _ (List.of_mem_zip hab).1 _ (List.of_mem_zip hab).2 (hzip hab)

theorem forall₂_congr_of_mem {α β : Type} {R S : α → β → Prop} {as : List α} {bs : List β}
    (h : ∀ a ∈ as, ∀ b ∈ bs, R a b ↔ S a b) : List.Forall₂ R as bs ↔ List.Forall₂ S as bs :=
  ⟨forall₂_imp_of_mem fun a ha b hb => (h a ha b hb).1,
    forall₂_imp_of_mem fun a ha b hb => (h a ha b hb).2⟩

theorem exists_mem_of_forall₂ {α β : Type} {R : α → β → Prop} {as : List α} {bs : List β} {b : β}
    (h : List.Forall₂ R as bs) (hb : b ∈ bs) : ∃ a ∈ as, R a b := by
  induction h with
  | nil => cases hb
  | cons hab _ ih =>
    rcases List.mem_cons.1 hb with rfl | hb
    · exact ⟨_, List.mem_cons_self .., hab⟩
    · obtain ⟨a, ha, hR⟩ := ih hb
      exact ⟨a, List.mem_cons_of_mem _ ha, hR⟩

theorem forall₂_apply_eq_iff {α β : Type} {g : α → β} {as bs : List α} :
    List.Forall₂ (fun a b => g a = g b) as bs ↔ as.map g = bs.map g := by
  rw [← List.forall₂_eq_eq_eq, List.forall₂_map_left_iff, List.forall₂_map_right_iff]

namespace Region

theorem forall₂_equals_iff (f : FieldId w) :
    List.Forall₂ Item.Equals (ofField f (items w a)) (ofField f (items w b)) ↔
      (values w a f).length = (values w b f).length ∧
      (f.type ≠ .fml → values w a f = values w b f) ∧
      (f.type = .fml → ∀ u v, (u, v) ∈ (values w a f).zip (values w b f) → Equals .wide u v) := by
  have hfield : ∀ x ∈ ofField f (items w a), ∀ y ∈ ofField f (items w b),
      Item.Equals x y ↔ (f.type ≠ .fml → x.value = y.value) ∧
        (f.type = .fml → Equals .wide x.value y.value) := by
    intro x hx y hy
    obtain ⟨-, rfl⟩ := mem_ofField.1 hx
    have hid := (mem_ofField.1 hy).2
    exact ⟨fun h => ⟨h.value, h.nested⟩, fun h => ⟨hid.symm, h.1, h.2⟩⟩
  rw [forall₂_congr_of_mem hfield]
  by_cases ht : f.type = .fml
  · simp only [ht, ne_eq, not_true_eq_false, false_implies, true_and, forall_const]
    rw [← List.forall₂_iff_zip, values, values, List.forall₂_map_left_iff,
      List.forall₂_map_right_iff]
  · simp only [ht, ne_eq, not_false_eq_true, false_implies, and_true, forall_const]
    rw [forall₂_apply_eq_iff]
    exact ⟨fun h => ⟨congrArg List.length h, h⟩, fun h => h.2⟩

theorem items_nil (w : Width) : items w [] = [] :=
  have h : Entry.ofRegion w [] = layout Header.size [] :=
    Entry.scan_of_next?_eq_none (Entry.next?_nil _)
  items_of_layout h

theorem Equals.eq_nil_iff (h : Equals w a b) : a = [] ↔ b = [] := by
  cases h with
  | null => exact Iff.rfl
  | allocated ha hb => exact iff_of_false ha hb

theorem Equals.symm (h : Equals w a b) : Equals w b a := by
  induction h with
  | null => exact .null
  | allocated ha hb hlen hvalue _ ih =>
    refine .allocated hb ha (fun f => (hlen f).symm) (fun f ht => (hvalue f ht).symm) ?_
    intro f ht u v huv
    refine ih f ht v u ?_
    rw [← List.zip_swap]
    exact List.mem_map_of_mem (f := Prod.swap) huv

theorem equals_iff : Equals w a b ↔ (a = [] ↔ b = []) ∧
    ∀ f, List.Forall₂ Item.Equals (ofField f (items w a)) (ofField f (items w b)) := by
  constructor
  · intro h
    refine ⟨h.eq_nil_iff, fun f => ?_⟩
    cases h with
    | null =>
      rw [items_nil]
      exact .nil
    | allocated _ _ hlen hvalue hnested =>
      exact (forall₂_equals_iff f).2 ⟨hlen f, hvalue f, hnested f⟩
  · rintro ⟨hnil, h⟩
    simp only [forall₂_equals_iff] at h
    by_cases ha : a = []
    · rw [ha, hnil.1 ha]
      exact .null
    · exact .allocated ha (mt hnil.2 ha) (fun f => (h f).1) (fun f => (h f).2.1) fun f => (h f).2.2

theorem items_encode (h : Header) (hx : ∀ x ∈ xs, x.Stated) :
    items w (h.encode ++ encodeAll xs) = xs := by
  have h : Entry.ofRegion w (h.encode ++ encodeAll xs) = layout Header.size xs := by
    rw [Entry.ofRegion, List.drop_left' h.length_encode, Entry.scan_encodeAll _ _ hx]
  exact items_of_layout h

theorem Sound.length_eq (hs : Sound w a) : a.length = regionSize (items w a) := by
  cases hs with
  | intro h xs _ _ hst => rw [items_encode h hst, List.length_append, h.length_encode, regionSize]

theorem Sound.nested (hs : Sound w a) (hx : x ∈ items w a) (ht : x.id.type = .fml)
    (hne : x.value ≠ []) : Sound .wide x.value := by
  cases hs with
  | intro h xs _ _ hst hn =>
    rw [items_encode h hst] at hx
    exact hn x hx ht hne

theorem Sound.items_sound (hs : Sound w a) (hd : nestingDepth w a ≤ maxNesting) :
    ∀ x ∈ items w a, x.Sound := by
  obtain ⟨h, hh⟩ := hs.header_eq_ok
  obtain ⟨xs, rfl, hx, -⟩ := hs.exists_items hd hh
  rwa [items_encode h fun x hmem => (hx x hmem).stated]

/-- Equal buffers take as many bytes, since their values do, two by two. -/
theorem Equals.length_eq (h : Equals w a b) (ha : a ≠ [] → Sound w a) (hb : b ≠ [] → Sound w b) :
    a.length = b.length := by
  induction hn : a.length using Nat.strongRecOn generalizing w a b with
  | ind n ih =>
    by_cases hne : a = []
    · rw [← hn, hne, h.eq_nil_iff.1 hne]
    have hne' : b ≠ [] := mt h.eq_nil_iff.2 hne
    have hpairs := (forall₂_sort_iff fun _ _ h => h.id).2 (equals_iff.1 h).2
    have hvalues := forall₂_imp_of_mem (S := fun x y => x.value.length = y.value.length)
      (fun x hx y hy hxy => ?_) hpairs
    · rw [← hn, (ha hne).length_eq, (hb hne').length_eq, ← regionSize_perm (sort_perm (items w a)),
        ← regionSize_perm (sort_perm (items w b)), regionSize, regionSize,
        length_encodeAll_eq hvalues]
    · by_cases ht : x.id.type = .fml
      · refine ih _ (hn ▸ length_value_lt_of_mem_items hx) (hxy.nested ht) ?_ ?_ rfl
        · exact (ha hne).nested ((sort_perm _).mem_iff.1 hx) ht
        · exact (hb hne').nested ((sort_perm _).mem_iff.1 hy) (hxy.id ▸ ht)
      · rw [hxy.value ht]

theorem Equals.nestsWithin {n : Nat} (h : Equals w a b) (ha : NestsWithin n w a) :
    NestsWithin n w b := by
  induction hl : a.length using Nat.strongRecOn generalizing w a b n with
  | ind l ih =>
    rw [nestsWithin_iff_items] at ha ⊢
    intro y hy ht hv
    have hpairs := (equals_iff.1 h).2 y.id
    obtain ⟨x, hx, hxy⟩ := exists_mem_of_forall₂ hpairs (mem_ofField.2 ⟨hy, rfl⟩)
    have hmem := (mem_ofField.1 hx).1
    have hnested := hxy.nested (hxy.id ▸ ht)
    obtain ⟨m, rfl, hm⟩ := ha x hmem (hxy.id ▸ ht) (mt hnested.eq_nil_iff.1 hv)
    have hlt := length_value_lt_of_mem_items ((sort_perm _).mem_iff.2 hmem)
    exact ⟨m, rfl, ih _ (hl ▸ hlt) hnested hm rfl⟩

theorem Equals.nestingDepth_le (h : Equals w a b) (ha : nestingDepth w a ≤ maxNesting) :
    nestingDepth w b ≤ nestingDepth w a :=
  (nesting_le_iff (Nat.lt_succ_of_le ha) b).2
    (h.nestsWithin ((nesting_le_iff (Nat.lt_succ_of_le ha) a).1 (Nat.le_refl _)))

end Region

namespace Item

theorem same_iff_equals_of (hx : x.Sound) (hy : y.Sound)
    (hfit : x.id.type = .fml → x.value.length ≤ c.ceiling)
    (hsame : x.id = y.id → x.id.type = .fml → x.value ≠ [] → y.value ≠ [] →
      (Region.same c .wide x.value y.value = true ↔ Region.Equals .wide x.value y.value)) :
    Same c x y ↔ Equals x y := by
  constructor
  · intro h
    refine ⟨h.id, h.value, fun ht => ?_⟩
    have hr := hx.isReadable ht (hfit ht)
    by_cases hne : x.value = []
    · rw [hne, (h.empty ht hr).1 hne]
      exact .null
    · exact (hsame h.id ht hne (mt (h.empty ht hr).2 hne)).1 (h.same ht hr hne)
  · intro h
    refine ⟨⟨h.id, h.value, fun ht => ?_⟩, fun ht _ => (h.nested ht).eq_nil_iff, fun ht _ hne => ?_⟩
    · have ht' : y.id.type = .fml := h.id ▸ ht
      have hlen := (h.nested ht).length_eq (hx.value.nested ht) (hy.value.nested ht')
      rw [hx.isReadable ht (hfit ht), hy.isReadable ht' (hlen ▸ hfit ht)]
    · exact (hsame h.id ht hne (mt (h.nested ht).eq_nil_iff.2 hne)).2 (h.nested ht)

/-- Where a nested buffer fits, equality of items is equality of what they nest. -/
theorem same_iff_equals (hx : x.Sound) (hy : y.Sound)
    (hfit : x.id.type = .fml → x.value.length ≤ c.ceiling) : Same c x y ↔ Equals x y := by
  induction hn : x.value.length using Nat.strongRecOn generalizing w x y with
  | ind n ih =>
    refine same_iff_equals_of hx hy hfit fun hid ht hvx hvy => ?_
    have hsx := (hx.value.nested ht hvx).items_sound (hx.value.shallow ht hvx).le
    have hsy := (hy.value.nested (hid ▸ ht) hvy).items_sound (hy.value.shallow (hid ▸ ht) hvy).le
    rw [Region.same_iff, forall₂_sort_iff fun _ _ h => h.id, Region.equals_iff,
      and_iff_right (iff_of_false hvx hvy)]
    refine forall_congr' fun f => forall₂_congr_of_mem fun u hu v hv => ?_
    have hmem := (mem_ofField.1 hu).1
    have hlt := Region.length_value_lt_of_mem_items ((sort_perm _).mem_iff.2 hmem)
    exact ih _ (hn ▸ hlt) (hsx u hmem) (hsy v (mem_ofField.1 hv).1)
      (fun _ => hlt.le.trans (hfit ht)) rfl

end Item

/-- Each field has the same occurrences in both lists, as equality of buffers sees it. -/
def Item.SameFields (c : ArenaConfig) (xs ys : List (Item w)) : Prop :=
  ∀ f, List.Forall₂ (Same c) (ofField f xs) (ofField f ys)

namespace Buffer

variable {a b d : Buffer w} {i j : Bool}

theorem same_refl (c : ArenaConfig) (a : Buffer w) : a.same c a = true := by
  cases a with
  | null => rfl
  | allocated s => exact Region.same_refl c s.region

theorem same_symm (h : a.same c b = true) : b.same c a = true := by
  cases a <;> cases b
  case allocated.allocated => exact Region.same_symm h
  all_goals exact h

theorem same_trans (hab : a.same c b = true) (hbd : b.same c d = true) : a.same c d = true := by
  cases b with
  | null =>
    cases a with
    | null => exact hbd
    | allocated s => cases hab
  | allocated t =>
    cases a with
    | null => cases hab
    | allocated s =>
      cases d with
      | null => cases hbd
      | allocated u => exact Region.same_trans hab hbd

theorem Holds.same_iff (ha : a.Holds xs i) (hb : b.Holds ys j) :
    a.same c b = true ↔ SameFields c xs ys := by
  obtain ⟨s, rfl, -⟩ := id ha
  obtain ⟨t, rfl, -⟩ := id hb
  exact (Offers.same_iff (.inl ha) (.inl hb)).trans (and_iff_right rfl)

theorem Offers.items_region (h : b.Offers xs i) : Region.items w b.region = xs := by
  obtain ⟨s, rfl, hs, -⟩ | ⟨rfl, rfl, -⟩ := h
  · exact hs.items_region
  · exact Region.items_nil w

theorem isNull_iff (b : Buffer w) : b.isNull = true ↔ b.region = [] := by
  cases b with
  | null => exact iff_of_true rfl rfl
  | allocated s =>
    have hlen : 0 < s.region.length := by
      rw [Storage.region, List.length_append, s.header.length_encode]
      exact Nat.lt_of_lt_of_le (by decide) (Nat.le_add_right ..)
    exact iff_of_false Bool.false_ne_true (List.ne_nil_of_length_pos hlen)

theorem Offers.equals_iff (ha : a.Offers xs i) (hb : b.Offers ys j) :
    Region.Equals w a.region b.region ↔
      a.isNull = b.isNull ∧ ∀ f, List.Forall₂ Item.Equals (ofField f xs) (ofField f ys) := by
  rw [Region.equals_iff, ha.items_region, hb.items_region, Bool.eq_iff_iff, isNull_iff, isNull_iff]

/-- Equality of buffers whose nested ones fit the arena in which it reads them. -/
theorem Offers.same_iff_equals (ha : a.Offers xs i) (hb : b.Offers ys j) (hfit : a.NestsUnder c) :
    a.same c b = true ↔ Region.Equals w a.region b.region := by
  rw [ha.same_iff hb, ha.equals_iff hb]
  refine and_congr_right fun _ => forall_congr' fun f => forall₂_congr_of_mem fun x hx y hy => ?_
  have hmem := (mem_ofField.1 hx).1
  refine Item.same_iff_equals (ha.sound x hmem) (hb.sound y (mem_ofField.1 hy).1) fun ht => ?_
  obtain ⟨e, he, rfl⟩ := List.mem_map.1 (ha.map_item_entries ▸ hmem)
  exact hfit e he ht

end Buffer

end FieldBuffers
