import FieldBuffers.Proofs.Loading
import FieldBuffers.Proofs.Nested

/-! Check sums of equal buffers. Equal buffers with an index have their fields in one order, so they
differ in nothing but the layout of what they nest: in header words and in the order of nested
fields (`Buffer.checksum_of_same`). -/

namespace FieldBuffers

open Item

variable {w : Width} {c : ArenaConfig} {a b : Bytes} {xs ys : List (Item w)}

/-- Regions with the same header words and the same order of fields, at every level of nesting. -/
inductive Region.LaidAlike : (w : Width) → Bytes → Bytes → Prop
  | intro {w : Width} {a b : Bytes} : a.take Header.size = b.take Header.size →
      (items w a).map Item.id = (items w b).map Item.id →
      (∀ f, f.type = .fml → ∀ u v, (u, v) ∈ (values w a f).zip (values w b f) →
        LaidAlike .wide u v) → LaidAlike w a b

def Region.NestsAlike (w : Width) (a b : Bytes) : Prop :=
  ∀ f, f.type = .fml → ∀ u v, (u, v) ∈ (values w a f).zip (values w b f) → LaidAlike .wide u v

theorem forall_mem_zip_self {α : Type} {R : α → α → Prop} {as : List α} (h : ∀ a ∈ as, R a a)
    {u v : α} (huv : (u, v) ∈ as.zip as) : R u v :=
  (List.forall₂_iff_zip.1 (List.forall₂_same.2 h)).2 huv

namespace Region

theorem forall_mem_values {f : FieldId w} {P : Bytes → Prop}
    (h : ∀ x ∈ items w a, x.id = f → P x.value) : ∀ u ∈ values w a f, P u := by
  intro u hu
  obtain ⟨x, hx, rfl⟩ := List.mem_map.1 hu
  exact h x (mem_ofField.1 hx).1 (mem_ofField.1 hx).2

theorem LaidAlike.refl (w : Width) (a : Bytes) : LaidAlike w a a := by
  -- nested buffers are shorter than what they stand in
  induction hn : a.length using Nat.strongRecOn generalizing w a with
  | ind n ih =>
    have hvalues : ∀ f, ∀ u ∈ values w a f, LaidAlike .wide u u := fun f =>
      forall_mem_values fun x hx _ =>
        ih _ (hn ▸ length_value_lt_of_mem_items ((sort_perm _).mem_iff.2 hx)) .wide x.value rfl
    exact .intro rfl rfl fun f _ u v => forall_mem_zip_self (hvalues f)

theorem items_eq_of_values (hid : (items w a).map Item.id = (items w b).map Item.id)
    (h : ∀ f, values w a f = values w b f) : items w a = items w b := by
  rw [← List.forall₂_eq_eq_eq]
  refine forall₂_of_map_id hid fun f => ?_
  refine forall₂_imp_of_mem (fun x hx y hy hxy => ?_) (forall₂_apply_eq_iff.2 (h f))
  cases x
  cases y
  obtain ⟨rfl, rfl⟩ := And.intro ((mem_ofField.1 hx).2.trans (mem_ofField.1 hy).2.symm) hxy
  rfl

theorem Sound.drop_eq (hs : Sound w a) : a.drop Header.size = encodeAll (items w a) := by
  cases hs with
  | intro h xs _ _ hst => rw [items_encode h hst, List.drop_left' h.length_encode]

theorem values_eq_of_equals {f : FieldId w} (h : Equals w a b)
    (hnested : f.type = .fml → ∀ u v, (u, v) ∈ (values w a f).zip (values w b f) →
      Equals .wide u v → u = v) : values w a f = values w b f := by
  obtain ⟨hlen, hvalue, hfml⟩ := (forall₂_equals_iff f).1 ((equals_iff.1 h).2 f)
  by_cases ht : f.type = .fml
  · rw [← List.forall₂_eq_eq_eq]
    exact List.forall₂_iff_zip.2 ⟨hlen, fun {u v} huv => hnested ht u v huv (hfml ht u v huv)⟩
  · exact hvalue ht

theorem Sound.of_mem_values {f : FieldId w} (hs : Sound w a) (ht : f.type = .fml) :
    ∀ u ∈ values w a f, u ≠ [] → Sound .wide u :=
  forall_mem_values fun _ hx hf => hs.nested hx (hf ▸ ht)

/-- Equal buffers that are laid out alike have the same bytes. -/
theorem Equals.eq_of_laidAlike (hl : LaidAlike w a b) (h : Equals w a b)
    (ha : a ≠ [] → Sound w a) (hb : b ≠ [] → Sound w b) : a = b := by
  induction hl with
  | @intro w a b htake hid _ ih =>
    by_cases hnil : a = []
    · rw [hnil, h.eq_nil_iff.1 hnil]
    have hsa := ha hnil
    have hsb := hb (mt h.eq_nil_iff.2 hnil)
    have hitems : items w a = items w b := by
      refine items_eq_of_values hid fun f => values_eq_of_equals h fun ht u v huv heq => ?_
      obtain ⟨hu, hv⟩ := List.of_mem_zip huv
      exact ih f ht u v huv heq (hsa.of_mem_values ht u hu) (hsb.of_mem_values ht v hv)
    rw [← List.take_append_drop Header.size a, ← List.take_append_drop Header.size b, htake,
      hsa.drop_eq, hsb.drop_eq, hitems]

end Region

namespace Checksum

/-- Divides by the polynomial bit by bit and goes on with the remainder once that is known, so that
an evaluation of many bytes does not get deep. -/
def shiftsThen {α : Type} (next : UInt32 → α) : Nat → UInt32 → α
  | 0, r => next r
  | n + 1, r =>
    if r &&& 1 = 1 then shiftsThen next n ((r >>> 1) ^^^ polynomial)
    else shiftsThen next n (r >>> 1)

/-- The division of all bytes, without the table. -/
def divide : Bytes → UInt32 → UInt32
  | [], r => r
  | b :: bs, r =>
    shiftsThen (fun i => divide bs (i ^^^ (r >>> 8))) 8 ((r ^^^ b.toUInt32) &&& 0xFF)

theorem shiftsThen_eq {α : Type} (next : UInt32 → α) (n : Nat) (r : UInt32) :
    shiftsThen next n r = next (shifts n r) := by
  induction n generalizing r with
  | zero => rfl
  | succ n ih =>
    rw [shiftsThen, ih, ih, shifts, shift]
    split <;> rfl

theorem getD_table (i : UInt32) : table[i.toNat]?.getD (shifts 8 i) = shifts 8 i := by
  rw [table, Array.getElem?_ofFn]
  split
  · rw [Option.getD_some, UInt32.ofNat_toNat]
  · rfl

theorem foldl_step (bs : Bytes) (r : UInt32) : bs.foldl step r = divide bs r := by
  induction bs generalizing r with
  | nil => rfl
  | cons b bs ih => rw [List.foldl_cons, ih, divide, shiftsThen_eq, step, getD_table]

theorem crc32_eq_iff {as bs : Bytes} :
    crc32 as = crc32 bs ↔ divide as 0xFFFFFFFF = divide bs 0xFFFFFFFF := by
  rw [crc32, crc32, foldl_step, foldl_step, UInt32.xor_left_inj]

end Checksum

namespace Buffer

variable {a b : Buffer w} {i j : Bool}

theorem Offers.sound_of_mem_values {f : FieldId w} (h : b.Offers xs i) (ht : f.type = .fml) :
    ∀ u ∈ Region.values w b.region f, u ≠ [] → Region.Sound .wide u := by
  refine Region.forall_mem_values fun x hx hf => ?_
  rw [h.items_region] at hx
  exact (h.sound x hx).value.nested (hf ▸ ht)

/-- Equal buffers of sorted items differ in nothing but the layout of what they nest. -/
theorem Offers.eq_iff_nestsAlike (ha : a.Offers xs i) (hb : b.Offers ys j) (hx : Sorted xs)
    (hy : Sorted ys) (h : Region.Equals w a.region b.region) :
    xs = ys ↔ Region.NestsAlike w a.region b.region := by
  constructor
  · rintro rfl f _ u v huv
    have hvalues : Region.values w a.region f = Region.values w b.region f := by
      rw [Region.values, Region.values, ha.items_region, hb.items_region]
    rw [hvalues] at huv
    exact forall_mem_zip_self (fun u _ => .refl .wide u) huv
  · intro hn
    have hid : (Region.items w a.region).map Item.id = (Region.items w b.region).map Item.id := by
      rw [ha.items_region, hb.items_region]
      exact map_id_eq_of_sorted hx hy ((ha.equals_iff hb).1 h).2
    rw [← ha.items_region, ← hb.items_region]
    refine Region.items_eq_of_values hid fun f => Region.values_eq_of_equals h ?_
    intro ht u v huv heq
    obtain ⟨hu, hv⟩ := List.of_mem_zip huv
    exact heq.eq_of_laidAlike (hn f ht u v huv) (ha.sound_of_mem_values ht u hu)
      (hb.sound_of_mem_values ht v hv)

theorem exists_holds_of_isIndexed (hb : Reachable ArenaConfig.Stated b) (hi : b.isIndexed = true) :
    ∃ xs, b.Holds xs true ∧ Sorted xs := by
  obtain ⟨xs, i, hx | ⟨rfl, -⟩⟩ := sound_invariant.of_reachable hb
  · obtain rfl := hx.isIndexed_eq.symm.trans hi
    exact ⟨xs, hx, Offers.sorted (.inl hx) rfl⟩
  · cases hi

/-- Equal buffers with an index, where what is nested fits the arena in which equality reads it,
have the same entries byte for byte exactly if corresponding nested buffers are laid out alike, and
then the same check sum. -/
theorem checksum_of_same {c : ArenaConfig} {a b : Buffer w} (ha : Reachable ArenaConfig.Stated a)
    (hb : Reachable ArenaConfig.Stated b) (hia : a.isIndexed = true) (hib : b.isIndexed = true)
    (hfit : a.NestsUnder c) (h : a.same c b = true) :
    (a.live = b.live ↔ Region.NestsAlike w a.region b.region) ∧
      (Region.NestsAlike w a.region b.region →
        ∃ sum, a.checksum = .ok sum ∧ b.checksum = .ok sum) := by
  obtain ⟨xs, ha, hx⟩ := exists_holds_of_isIndexed ha hia
  obtain ⟨ys, hb, hy⟩ := exists_holds_of_isIndexed hb hib
  have hequals := (Offers.same_iff_equals (.inl ha) (.inl hb) hfit).1 h
  have hiff := Offers.eq_iff_nestsAlike (.inl ha) (.inl hb) hx hy hequals
  have hlive : a.live = b.live ↔ xs = ys := by
    refine ⟨fun hl => ?_, fun hxy => by rw [ha.live_eq, hb.live_eq, hxy]⟩
    rw [ha.live_eq, hb.live_eq] at hl
    exact Entry.eq_of_encodeAll_eq (fun x hx => (Offers.sound (.inl ha) x hx).stated)
      (fun y hy => (Offers.sound (.inl hb) y hy).stated) hl
  refine ⟨hlive.trans hiff, fun hn => ⟨_, ha.checksum_eq, ?_⟩⟩
  rw [hb.checksum_eq, hiff.2 hn]

theorem checksum_after_buildIndex :
    let f : FieldId .wide := ⟨.fml, 1, by decide, by decide, by decide⟩
    let g : FieldId .wide := ⟨.short, 1, by decide, by decide, by decide⟩
    let tight : Place .wide := ⟨{ config := ⟨32, 64⟩ }, .null⟩
    let roomy : Place .wide := (Change.reallocate 128).after ⟨{ config := ⟨64, 256⟩ }, .null⟩
    let n := ((Change.add g (.short 7)).after tight).buffer
    let m := ((Change.add g (.short 7)).after roomy).buffer
    let q := (Change.append f (.fml n)).after tight
    let a := ((Change.buildIndex 1).after q).buffer
    let b := ((Change.add f (.fml m)).after roomy).buffer
    n ≠ m ∧ a ≠ b ∧ Region.NestsAlike .wide a.region b.region ∧
      ∃ sum, a.checksum = .ok sum ∧ b.checksum = .ok sum := by
  intro f g tight roomy n m q a b
  have hc : ∀ p : Place .wide, p.arena.config.ceiling ≤ 256 → p.arena.config.Stated :=
    fun p hp => Nat.lt_of_le_of_lt hp (by decide)
  have htight : tight.arena.config.Stated := hc tight (by decide)
  have hroomy : roomy.arena.config.Stated := hc roomy (by decide +kernel)
  have hr : Reachable ArenaConfig.Stated roomy.buffer :=
    .after (p := ⟨{ config := ⟨64, 256⟩ }, .null⟩) (hc _ (by decide)) .null nofun nofun
  have hn : Reachable ArenaConfig.Stated n := .after htight .null nofun nofun
  have hm : Reachable ArenaConfig.Stated m := .after hroomy hr nofun nofun
  have hq : Reachable ArenaConfig.Stated q.buffer := .after htight .null hn.of_written nofun
  have ha : Reachable ArenaConfig.Stated a := .after (hc q (by decide +kernel)) hq nofun nofun
  have hb : Reachable ArenaConfig.Stated b := .after hroomy hr hm.of_written nofun
  obtain ⟨hlive, hsum⟩ := checksum_of_same (c := {}) ha hb (by decide +kernel) (by decide +kernel)
    (by decide +kernel) (by decide +kernel)
  have hnests := hlive.1 (by decide +kernel)
  exact ⟨by decide +kernel, by decide +kernel, hnests, hsum hnests⟩

theorem crc32_live_eq {a b : Buffer w} (h : a.checksum = b.checksum) :
    Checksum.crc32 a.live = Checksum.crc32 b.live := by
  cases a with
  | null =>
    cases b with
    | null => rfl
    | allocated t => cases h
  | allocated s =>
    cases b with
    | null => cases h
    | allocated t => exact Except.ok.inj h

/-- The index of a nested buffer tells in its header, and what does not fit counts as equal. -/
theorem checksum_ne_of_nested :
    let f : FieldId .wide := ⟨.fml, 1, by decide, by decide, by decide⟩
    let g : FieldId .wide := ⟨.short, 1, by decide, by decide, by decide⟩
    let p : Place .wide := ⟨{}, .null⟩
    let n := ((Change.append g (.short 7)).after p).buffer
    let m := ((Change.add g (.short 7)).after p).buffer
    let a := ((Change.add f (.fml n)).after p).buffer
    let b := ((Change.add f (.fml m)).after p).buffer
    (Reachable ArenaConfig.Stated a ∧ Reachable ArenaConfig.Stated b ∧ a.isIndexed = true ∧
      b.isIndexed = true ∧ a.same {} b = true ∧ a.checksum ≠ b.checksum) ∧
    Reachable ArenaConfig.Stated (chain f 2) ∧ Reachable ArenaConfig.Stated (chain f 3) ∧
      (chain f 2).isIndexed = true ∧ (chain f 3).isIndexed = true ∧
      (chain f 2).same ⟨8, 15⟩ (chain f 3) = true ∧
      (chain f 2).checksum ≠ (chain f 3).checksum := by
  intro f g p n m a b
  have hc : p.arena.config.Stated := show 64 * 1024 * 1024 < 2 ^ 32 by decide
  have hn : Reachable ArenaConfig.Stated n := .after hc .null nofun nofun
  have hm : Reachable ArenaConfig.Stated m := .after hc .null nofun nofun
  have ha : Reachable ArenaConfig.Stated a := .after hc .null hn.of_written nofun
  have hb : Reachable ArenaConfig.Stated b := .after hc .null hm.of_written nofun
  have hne : ∀ {d e : Buffer .wide}, Checksum.divide d.live 0xFFFFFFFF ≠
      Checksum.divide e.live 0xFFFFFFFF → d.checksum ≠ e.checksum :=
    fun h he => h (Checksum.crc32_eq_iff.1 (crc32_live_eq he))
  have hsums : Checksum.divide a.live 0xFFFFFFFF ≠ Checksum.divide b.live 0xFFFFFFFF ∧
      Checksum.divide (chain f 2).live 0xFFFFFFFF ≠
        Checksum.divide (chain f 3).live 0xFFFFFFFF := by
    decide +kernel
  have hsame : (chain f 2).same ⟨8, 15⟩ (chain f 3) = true :=
    same_chain rfl (m := 1) (n := 2) (by decide) (by decide) (by decide)
  exact ⟨⟨ha, hb, by decide +kernel, by decide +kernel, by decide +kernel, hne hsums.1⟩,
    reachable_chain f 2, reachable_chain f 3, by decide +kernel, by decide +kernel, hsame,
    hne hsums.2⟩

end Buffer

end FieldBuffers
