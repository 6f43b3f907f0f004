import FieldBuffers.Buffer.Equality
import FieldBuffers.Proofs.Offers
import Mathlib.Data.List.Forall2

/-! Equality of buffers, item by item (`Region.same_iff`). It is an equivalence, and takes no notice
of the order in which the fields stand. -/

namespace FieldBuffers

open Item

variable {w : Width} {s t : Storage w} {xs ys : List (Item w)} {x y z : Item w} {c : ArenaConfig}

/-- Two items that read alike: one field and the same value, or nested buffers of which both or none
can be read. -/
structure Item.Looks (c : ArenaConfig) (x y : Item w) : Prop where
  id : x.id = y.id
  value : x.id.type ≠ .fml → x.value = y.value
  nested : x.id.type = .fml → Region.isReadable c x.value = Region.isReadable c y.value

/-- Two items that equality of buffers does not tell apart, as far as nested ones can be read. -/
structure Item.Same (c : ArenaConfig) (x y : Item w) : Prop extends Looks c x y where
  empty : x.id.type = .fml → Region.isReadable c x.value = true → (x.value = [] ↔ y.value = [])
  same : x.id.type = .fml → Region.isReadable c x.value = true → x.value ≠ [] →
    Region.same c .wide x.value y.value = true

namespace Item

theorem Same.of_self (h : Region.same c .wide x.value x.value = true) : Same c x x where
  id := rfl
  value _ := rfl
  nested _ := rfl
  empty _ _ := Iff.rfl
  same _ _ _ := h

theorem Same.symm_of (h : Same c x y)
    (hs : Region.same c .wide x.value y.value = true → Region.same c .wide y.value x.value = true) :
    Same c y x where
  id := h.id.symm
  value ht := (h.value (h.id ▸ ht)).symm
  nested ht := (h.nested (h.id ▸ ht)).symm
  empty ht hr := by
    rw [← h.id] at ht
    exact (h.empty ht (h.nested ht ▸ hr)).symm
  same ht hr hne := by
    rw [← h.id] at ht
    rw [← h.nested ht] at hr
    exact hs (h.same ht hr (mt (h.empty ht hr).1 hne))

theorem Same.trans_of (h : Same c x y) (h' : Same c y z)
    (hs : Region.same c .wide x.value y.value = true → Region.same c .wide y.value z.value = true →
      Region.same c .wide x.value z.value = true) : Same c x z where
  id := h.id.trans h'.id
  value ht := (h.value ht).trans (h'.value (h.id ▸ ht))
  nested ht := (h.nested ht).trans (h'.nested (h.id ▸ ht))
  empty ht hr := (h.empty ht hr).trans (h'.empty (h.id ▸ ht) (h.nested ht ▸ hr))
  same ht hr hne := hs (h.same ht hr hne)
    (h'.same (h.id ▸ ht) (h.nested ht ▸ hr) (mt (h.empty ht hr).2 hne))

/-- The comparison of two entries. -/
theorem Same.iff_eq_true (x y : Item w) : Same c x y ↔ x.id = y.id ∧
    (if x.id.type = .fml then
      Region.isReadable c x.value == Region.isReadable c y.value &&
        (!Region.isReadable c x.value ||
          if x.value.isEmpty || y.value.isEmpty then x.value.isEmpty && y.value.isEmpty
          else Region.same c .wide x.value y.value)
    else x.value == y.value) = true := by
  constructor
  · intro h
    refine ⟨h.id, ?_⟩
    split
    · rename_i ht
      cases hr : Region.isReadable c x.value with
      | false => simp [← h.nested ht, hr]
      | true =>
        have hempty := h.empty ht hr
        by_cases hx : x.value = []
        · rw [hempty.1 hx, ← hx, hr]
          simp [hx]
        · simp [← h.nested ht, hr, hx, mt hempty.2 hx, h.same ht hr hx]
    · exact beq_iff_eq.2 (h.value ‹_›)
  · rintro ⟨hid, h⟩
    by_cases ht : x.id.type = .fml
    · rw [if_pos ht, Bool.and_eq_true, beq_iff_eq] at h
      obtain ⟨hread, h⟩ := h
      refine ⟨⟨hid, fun hf => absurd ht hf, fun _ => hread⟩, fun _ hr => ?_, fun _ hr hx => ?_⟩
      · by_cases hx : x.value = [] <;> by_cases hy : y.value = [] <;> simp_all
      · by_cases hy : y.value = [] <;> simp_all
    · rw [if_neg ht] at h
      exact ⟨⟨hid, fun _ => beq_iff_eq.1 h, fun hf => absurd hf ht⟩, fun hf => absurd hf ht,
        fun hf => absurd hf ht⟩

end Item

theorem forall_mem_attach_zip {α β : Type} {as : List α} {bs : List β} {P : α → β → Prop} :
    (∀ p ∈ as.attach.zip bs, P p.1.1 p.2) ↔ ∀ {a b}, (a, b) ∈ as.zip bs → P a b := by
  have hzip : as.zip bs = (as.attach.zip bs).map (Prod.map Subtype.val fun b => b) := by
    rw [← List.zip_map, List.attach_map_subtype_val, List.map_id']
  rw [hzip]
  refine ⟨fun h a b hab => ?_, fun h p hp => h (List.mem_map_of_mem hp)⟩
  obtain ⟨p, hp, ⟨⟩⟩ := List.mem_map.1 hab
  exact h p hp

theorem forall₂_trans_of {α β γ : Type} {R : α → β → Prop} {S : β → γ → Prop} {T : α → γ → Prop}
    (hT : ∀ a b c, R a b → S b c → T a c) {as : List α} {bs : List β} {cs : List γ}
    (h : List.Forall₂ R as bs) (h' : List.Forall₂ S bs cs) : List.Forall₂ T as cs := by
  induction h generalizing cs with
  | nil =>
    cases h'
    exact .nil
  | cons hab _ ih =>
    cases h' with
    | cons hbc h' => exact .cons (hT _ _ _ hab hbc) (ih h')

namespace Region

/-- What stands in a region, its header and the places of its entries left out. -/
def items (w : Width) (region : Bytes) : List (Item w) := (Entry.ofRegion w region).map Entry.item

theorem items_of_layout {region : Bytes} {offset : Nat}
    (h : Entry.ofRegion w region = layout offset xs) : items w region = xs := by
  rw [items, h, map_item_layout]

theorem length_value_lt_of_mem_items {region : Bytes} (h : x ∈ sort (items w region)) :
    x.value.length < region.length := by
  obtain ⟨e, he, rfl⟩ := List.mem_map.1 ((sort_perm _).mem_iff.1 h)
  exact Entry.length_value_lt_of_mem_sorted (List.mem_mergeSort.2 he)

theorem same_iff (c : ArenaConfig) (a b : Bytes) : same c w a b = true ↔
    List.Forall₂ (Same c) (sort (items w a)) (sort (items w b)) := by
  rw [items, items, sort_map_item, sort_map_item, List.forall₂_map_left_iff,
    List.forall₂_map_right_iff, List.forall₂_iff_zip, same]
  simp only [Bool.and_eq_true, beq_iff_eq, List.all_eq_true]
  refine and_congr_right fun _ => ?_
  refine Iff.trans ?_ (forall_mem_attach_zip (P := fun e f : Entry w => Same c e.item f.item))
  exact ⟨fun h p hp => (Same.iff_eq_true p.1.1.item p.2.item).2 (h p hp),
    fun h p hp => (Same.iff_eq_true p.1.1.item p.2.item).1 (h p hp)⟩

/-- Regions with the same items in the same order of occurrences are equal, whatever the order of
their fields. -/
theorem same_of_items (c : ArenaConfig) {a b : Bytes}
    (h : sort (items w a) = sort (items w b)) : same c w a b = true := by
  induction hn : a.length using Nat.strongRecOn generalizing w a b with
  | ind n ih =>
    rw [same_iff, h, List.forall₂_same]
    exact fun x hx => .of_self (ih _ (hn ▸ length_value_lt_of_mem_items (h ▸ hx)) rfl rfl)

theorem same_refl (c : ArenaConfig) (a : Bytes) : same c w a a = true := same_of_items c rfl

theorem same_symm {a b : Bytes} (h : same c w a b = true) : same c w b a = true := by
  induction hn : a.length using Nat.strongRecOn generalizing w a b with
  | ind n ih =>
    rw [same_iff] at h ⊢
    have hmem := (List.forall₂_and_left ..).2 ⟨fun _ => length_value_lt_of_mem_items, h⟩
    refine List.Forall₂.flip (hmem.imp fun x y hxy => ?_)
    exact hxy.2.symm_of fun hs => ih _ (hn ▸ hxy.1) hs rfl

theorem same_trans {a b d : Bytes} (hab : same c w a b = true) (hbd : same c w b d = true) :
    same c w a d = true := by
  induction hn : a.length using Nat.strongRecOn generalizing w a b d with
  | ind n ih =>
    rw [same_iff] at hab hbd ⊢
    have hmem := (List.forall₂_and_left ..).2 ⟨fun _ => length_value_lt_of_mem_items, hab⟩
    refine forall₂_trans_of (fun x y z hxy hyz => ?_) hmem hbd
    exact hxy.2.trans_of hyz fun hs hs' => ih _ (hn ▸ hxy.1) hs hs' rfl

end Region

namespace Storage

theorem ofRegion_region (s : Storage w) : Entry.ofRegion w s.region = s.entries := by
  rw [Entry.ofRegion, s.drop_region]
  rfl

theorem Stores.items_region (h : s.Stores xs) : Region.items w s.region = xs :=
  Region.items_of_layout ((ofRegion_region s).trans h.entries_eq)

theorem Stores.same (hs : s.Stores xs) (ht : t.Stores ys) (h : sort xs = sort ys)
    (c : ArenaConfig) : Buffer.same c (.allocated s) (.allocated t) = true :=
  Region.same_of_items c (by rw [hs.items_region, ht.items_region, h])

end Storage

end FieldBuffers
