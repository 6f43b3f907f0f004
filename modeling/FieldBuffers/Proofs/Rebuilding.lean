import FieldBuffers.Proofs.Ample
import FieldBuffers.Proofs.Logical
import FieldBuffers.Proofs.Multimap
import FieldBuffers.Proofs.Reexporting

/-! Buffers rebuilt from their values. A value that was read is written as the bytes that it was
read from, save for a text whose bytes lack the zero at the end and for the order and the header of
a nested buffer, of which equality takes no notice. -/

namespace FieldBuffers

open Item

variable {w : Width} {t : FieldType} {offset : Nat} {bs : Bytes} {v : Value} {c : ArenaConfig}

theorem Bytes.little_of_length {n m : Nat} (h : bs.length = n) (hm : m = ofLittle bs) :
    little n m = bs := by
  rw [← h, hm, little_ofLittle]

namespace Value

theorem encode_of_sized {α : Type} {n : Nat} {a b : α}
    (h : decodeFlat.sized t offset bs n a = .ok b) : bs.length = n ∧ a = b := by
  rw [decodeFlat.sized] at h
  split at h
  · rename_i hn
    rw [List.length_take] at hn
    exact ⟨by omega, Except.ok.inj h⟩
  · cases h

theorem toByte_of_ofByte? {b : UInt8} {o : Ownership} (h : Ownership.ofByte? b = some o) :
    o.toByte = b := by
  rw [Ownership.ofByte?] at h
  split at h
  · obtain rfl := Option.some.inj h
    exact Eq.symm ‹_›
  split at h
  · obtain rfl := Option.some.inj h
    exact Eq.symm ‹_›
  · cases h

theorem encodeName_of_splitName {name : String} {data : Bytes}
    (h : splitName offset bs = .ok (name, data)) :
    encodeName name ++ data = bs ∧ name.utf8ByteSize ≤ maxName := by
  obtain ⟨n, text, rfl, hn, ht⟩ := (splitName_eq_ok_iff ..).1 h
  obtain rfl := Bytes.toText?_eq_some_iff.1 ht
  rw [Bytes.length_ofText] at hn
  have hlt := n.toNat_lt
  refine ⟨?_, by rw [hn, maxName]; omega⟩
  rw [encodeName, hn, UInt8.ofNat_toNat]
  rfl

theorem append_dropTerminator (h : bs.getLast? = some 0) : dropTerminator bs ++ [0] = bs := by
  rw [dropTerminator, if_pos h]
  exact List.dropLast_append_getLast? 0 h

/-- Only a text without the zero at its end is written otherwise than it was read. -/
theorem encode_of_decodeFlat (h : decodeFlat t offset bs = .ok v) (ht : t ≠ .fml)
    (hz : t = .string → bs.getLast? = some 0) : v.encode = bs ∧ v.Named ∧ v.Shallow := by
  cases t <;> simp only [decodeFlat] at h
  case short =>
    obtain ⟨hlen, rfl⟩ := encode_of_sized h
    have hlt := hlen ▸ Bytes.ofLittle_lt bs
    exact ⟨Bytes.little_of_length hlen (UInt16.toNat_ofNat'.trans (Nat.mod_eq_of_lt hlt)),
      trivial, trivial⟩
  case long =>
    obtain ⟨hlen, rfl⟩ := encode_of_sized h
    have hlt := hlen ▸ Bytes.ofLittle_lt bs
    exact ⟨Bytes.little_of_length hlen (UInt64.toNat_ofNat'.trans (Nat.mod_eq_of_lt hlt)),
      trivial, trivial⟩
  case char =>
    obtain ⟨hlen, rfl⟩ := encode_of_sized h
    obtain ⟨b, rfl⟩ := List.length_eq_one_iff.1 hlen
    have hb : UInt8.ofNat (Bytes.ofLittle [b]) = b := UInt8.ofNat_toNat
    exact ⟨congrArg (fun b => [b]) hb, trivial, trivial⟩
  case float =>
    obtain ⟨hlen, rfl⟩ := encode_of_sized h
    have hlt := hlen ▸ Bytes.ofLittle_lt bs
    exact ⟨Bytes.little_of_length hlen (UInt32.toNat_ofNat'.trans (Nat.mod_eq_of_lt hlt)),
      trivial, trivial⟩
  case double =>
    obtain ⟨hlen, rfl⟩ := encode_of_sized h
    have hlt := hlen ▸ Bytes.ofLittle_lt bs
    exact ⟨Bytes.little_of_length hlen (UInt64.toNat_ofNat'.trans (Nat.mod_eq_of_lt hlt)),
      trivial, trivial⟩
  case int =>
    obtain ⟨hlen, rfl⟩ := encode_of_sized h
    have hlt := hlen ▸ Bytes.ofLittle_lt bs
    exact ⟨Bytes.little_of_length hlen (UInt32.toNat_ofNat'.trans (Nat.mod_eq_of_lt hlt)),
      trivial, trivial⟩
  case string =>
    split at h
    · rename_i s hs
      obtain rfl := Except.ok.inj h
      refine ⟨?_, trivial, trivial⟩
      rw [encode, ← Bytes.toText?_eq_some_iff.1 hs, append_dropTerminator (hz rfl)]
    · cases h
  case carray =>
    obtain rfl := Except.ok.inj h
    exact ⟨rfl, trivial, trivial⟩
  case mbstring | view =>
    obtain ⟨⟨name, data⟩, hs, rfl⟩ := ok_map_iff.1 h
    obtain ⟨hbytes, hname⟩ := encodeName_of_splitName hs
    exact ⟨hbytes, hname, trivial⟩
  case fml => exact absurd rfl ht
  case ptr =>
    obtain ⟨a, ha, h⟩ := ok_bind_iff.1 h
    obtain ⟨hlen, rfl⟩ := encode_of_sized ha
    split at h
    · rename_i o ho
      obtain rfl := Except.ok.inj h
      obtain ⟨b, hb, ho⟩ := Option.bind_eq_some_iff.1 ho
      refine ⟨?_, trivial, trivial⟩
      obtain ⟨hlt, rfl⟩ := List.getElem?_eq_some_iff.1 hb
      have hword : (bs.take 8).length = 8 := by rw [List.length_take]; omega
      have hnum := hword ▸ Bytes.ofLittle_lt (bs.take 8)
      rw [encode, toByte_of_ofByte? ho, Bytes.little_of_length hword
        (UInt64.toNat_ofNat'.trans (Nat.mod_eq_of_lt hnum)), List.take_append_getElem,
        List.take_of_length_le hlen.le]
    · cases h

end Value

/-! Equality, item by item. -/

/-- Two items that equality of buffers does not tell apart. -/
structure Item.Equal (c : ArenaConfig) (x y : Item w) : Prop extends Looks c x y where
  empty : x.id.type = .fml → x.value.isEmpty = y.value.isEmpty
  same : x.id.type = .fml → Region.same c .wide x.value y.value = true

theorem Item.Equal.of_value_eq {x y : Item w} (hid : x.id = y.id) (h : x.value = y.value) :
    Equal c x y where
  id := hid
  value _ := h
  nested _ := by rw [h]
  empty _ := by rw [h]
  same _ := by
    rw [h]
    exact Region.same_refl c _

theorem Item.Equal.toSame {x y : Item w} (h : Equal c x y) : Same c x y where
  toLooks := h.toLooks
  empty ht _ := by simpa using congrArg (· = true) (h.empty ht)
  same ht _ _ := h.same ht

theorem Region.same_of_equal {a b : Bytes} {xs ys : List (Item w)} {i j : Nat}
    (ha : Entry.ofRegion w a = layout i xs) (hb : Entry.ofRegion w b = layout j ys)
    (h : List.Forall₂ (Equal c) (sort xs) (sort ys)) : same c w a b = true := by
  rw [same_iff, items_of_layout ha, items_of_layout hb]
  exact h.imp fun _ _ hxy => hxy.toSame

/-- A nested buffer that was read is written as a region that is equal to the one it was read
from. -/
theorem Item.Sound.equal_of_decode_fml {x : Item w} (hx : x.Sound) (ht : x.id.type = .fml)
    (hne : x.value ≠ []) (h : Value.decode c .fml offset x.value = .ok v) :
    v.encode.length = x.value.length ∧ v.Shallow ∧ ∀ d, Equal d ⟨x.id, v.encode⟩ x := by
  obtain ⟨g, hg, hs, hd, -, rfl⟩ := (Value.decode_fml_eq_ok_iff hne).1 h
  obtain ⟨xs, hholds, -, hused, hitems⟩ := hs.exists_holds hd hg 0
  generalize (Region.storage 0 g x.value : Storage .wide) = s at hused hholds
  have hlen : s.standalone.length = x.value.length := hholds.length_standalone.trans hused
  have hne' := hholds.standalone_ne_nil
  have hread : ∀ d, Region.isReadable d s.standalone = Region.isReadable d x.value := by
    intro d
    rw [Bool.eq_iff_iff, hholds.isReadable, hs.isReadable_iff d hd hne, hlen]
  have hsame : ∀ d, Region.same d .wide s.standalone x.value = true := by
    intro d
    refine Region.same_of_items d ?_
    rw [Region.items_of_layout hholds.entries_standalone, Region.items_of_layout hitems,
      sort_eq_self (sorted_sort xs)]
  refine ⟨hlen, ?_, fun d => ⟨⟨rfl, fun hf => absurd ht hf, fun _ => hread d⟩, fun _ => ?_,
    fun _ => hsame d⟩⟩
  · have hshallow := (nestingDepth_lt_iff _).1 (hx.value.shallow ht hne)
    rw [nestsWithin_iff hitems] at hshallow
    refine (nestingDepth_lt_iff _).2 ?_
    rw [nestsWithin_iff ((Storage.ofRegion_region s).trans hholds.entries_eq)]
    exact fun y hy => hshallow y ((sort_perm xs).mem_iff.1 hy)
  · have hempty : s.standalone.isEmpty = false := by simpa using hne'
    have hempty' : x.value.isEmpty = false := by simpa using hne
    exact hempty.trans hempty'.symm

/-- The value that an item is read as, and the item that it is written as. -/
theorem Item.Sound.exists_value {x : Item w} (hx : x.Sound) (hroom : Region.Room c x.value.length)
    (hz : x.id.type = .string → x.value.getLast? = some 0) (offset : Nat) :
    ∃ v, Value.decode c x.id.type offset x.value = .ok v ∧ v.type = x.id.type ∧ v.Built ∧
      v.Named ∧ v.Shallow ∧ v.encode.length = x.value.length ∧
      ∀ d, Equal d ⟨x.id, v.encode⟩ x := by
  obtain ⟨v, hv⟩ := hx.value.decode_eq_ok hroom offset
  refine ⟨v, hv, Value.type_decode hv, Value.built_decode hv, ?_⟩
  by_cases hnested : x.id.type = .fml ∧ x.value ≠ []
  · obtain ⟨ht, hne⟩ := hnested
    obtain ⟨hlen, hs, heq⟩ := hx.equal_of_decode_fml ht hne (ht ▸ hv)
    have hn : v.Named := by
      have htype := (Value.type_decode hv).trans ht
      cases v <;> simp_all [Value.type, Value.Named]
    exact ⟨hn, hs, hlen, heq⟩
  by_cases ht : x.id.type = .fml
  · have hnil : x.value = [] := by
      by_contra hne
      exact hnested ⟨ht, hne⟩
    rw [ht, hnil] at hv
    obtain rfl := Except.ok.inj hv
    exact ⟨trivial, trivial, by rw [hnil]; rfl, fun d => .of_value_eq rfl hnil.symm⟩
  · rw [Value.decode_of_ne_fml ht] at hv
    obtain ⟨hbytes, hn, hs⟩ := Value.encode_of_decodeFlat hv ht hz
    exact ⟨hn, hs, congrArg List.length hbytes, fun d => .of_value_eq rfl hbytes⟩

/-! Many values added one after another. -/

/-- The fields and the values of a walk over all entries. -/
def Buffer.pairs (c : ArenaConfig) (b : Buffer w) : List (FieldId w × Value) :=
  (b.toList c).map fun (f, _, v) => (f, v)

def Edit.addAll (vs : List (FieldId w × Value)) : Edit w Unit := vs.forM fun (f, v) => add f v

/-- What adding a value puts into a buffer. -/
structure Item.Becomes (x : FieldId w × Value) (y : Item w) : Prop where
  id : x.1 = y.id
  type : x.2.type = y.id.type
  built : x.2.Built
  named : x.2.Named
  shallow : x.2.Shallow
  stated : y.Stated
  value : y.value = x.2.encode

/-- Ascending items go one after the other to the end, whether there is an index or not. -/
theorem Edit.addAll_ends {vs : List (FieldId w × Value)} {ys zs : List (Item w)} {p : Place w}
    {indexed : Bool} (h : List.Forall₂ Item.Becomes vs ys) (hs : Sorted (zs ++ ys))
    (hp : p.buffer.Offers zs indexed) (hc : p.arena.config.Stated) :
    Ends (addAll vs) p
      (fun _ q => q.buffer.Offers (zs ++ ys) indexed ∧ (q.buffer = .null → p.buffer = .null))
      fun e _ => p.arena.config.Refuses e ∧ ¬ p.arena.config.Ample (regionSize (zs ++ ys)) ∧
        p.buffer.capacity < regionSize (zs ++ ys) := by
  induction h generalizing p zs with
  | nil =>
    rw [List.append_nil]
    exact ⟨hp, id⟩
  | @cons x y vs ys hxy _ ih =>
    obtain ⟨f, v⟩ := x
    obtain ⟨rfl, ht, hv, hn, hd, hst, hy⟩ := hxy
    have hsplit : zs ++ y :: ys = zs ++ [y] ++ ys := by rw [List.append_assoc]; rfl
    rw [hsplit] at hs ⊢
    have hsize : regionSize (zs ++ [y]) ≤ regionSize (zs ++ [y] ++ ys) :=
      Nat.add_le_add_left (length_encodeAll_sublist (List.sublist_append_left ..)) _
    have hadd := add_put_ends hp hc hv ht hn hd hst hy
    rw [put_eq_append (sorted_append.1 hs).1] at hadd
    refine ends_bind.2 (hadd.mono ?_ fun e q h => ?_)
    · rintro _ q ⟨hq, hconfig, hcap⟩
      refine (ih hs (.inl hq) (hconfig ▸ hc)).mono (fun _ r h => ⟨h.1, fun hr => ?_⟩) fun e r h => ?_
      · obtain ⟨t, ht, -⟩ := hq
        cases ht.symm.trans (h.2 hr)
      · rw [hconfig] at h
        exact ⟨h.1, h.2.1, Nat.lt_of_le_of_lt hcap h.2.2⟩
    · exact ⟨h.1, fun hample => h.2.1 (hample.mono hsize), Nat.lt_of_lt_of_le h.2.2 hsize⟩

theorem Buffer.pairs_eq (c : ArenaConfig) (b : Buffer w) :
    b.pairs c = b.entries.map fun e => (e.id, (e.decode c).toOption.getD (.carray e.value)) := by
  rw [pairs, toList, List.map_map, ← map_zip_positionsAfter [] b.entries fun f e =>
    (f, (e.decode c).toOption.getD (.carray e.value))]
  rfl

/-- The items that some entries become once their values are read and written. -/
theorem exists_becomes {es : List (Entry w)} (h : ∀ e ∈ es, e.item.Sound ∧
    Region.Room c e.value.length ∧ (e.id.type = .string → e.value.getLast? = some 0)) :
    ∃ ys : List (Item w), List.Forall₂ Item.Becomes
        (es.map fun e => (e.id, (e.decode c).toOption.getD (.carray e.value))) ys ∧
      List.Forall₂ (fun y x => y.value.length = x.value.length ∧ ∀ d, Equal d y x) ys
        (es.map Entry.item) := by
  induction es with
  | nil => exact ⟨[], .nil, .nil⟩
  | cons e es ih =>
    obtain ⟨⟨hsound, hroom, hz⟩, hes⟩ := List.forall_mem_cons.1 h
    obtain ⟨ys, hbecomes, hequal⟩ := ih hes
    obtain ⟨v, hv, ht, hb, hn, hs, hlen, heq⟩ := hsound.exists_value hroom hz e.valueOffset
    have hread : (e.decode c).toOption.getD (.carray e.value) = v := by
      change (Value.decode c e.item.id.type e.valueOffset e.item.value).toOption.getD _ = v
      rw [hv]
      rfl
    refine ⟨⟨e.id, v.encode⟩ :: ys, .cons ?_ hbecomes, .cons ⟨hlen, heq⟩ hequal⟩
    simp only [hread]
    exact ⟨rfl, ht, hb, hn, hs, hlen.trans_le hsound.stated, rfl⟩

theorem Item.sorted_of_forall₂ {xs ys : List (Item w)}
    (h : List.Forall₂ (fun y x : Item w => y.id = x.id) ys xs) (hs : Sorted xs) : Sorted ys := by
  have hraw : ys.map (·.id.raw) = xs.map (·.id.raw) := by
    rw [← List.forall₂_eq_eq_eq, List.forall₂_map_left_iff, List.forall₂_map_right_iff]
    exact h.imp fun _ _ hid => congrArg FieldId.raw hid
  have hsorted := (List.pairwise_map (f := fun x : Item w => x.id.raw) (R := (· ≤ ·))).2 hs
  rw [← hraw] at hsorted
  exact List.pairwise_map.1 hsorted

/-- Adding the values of an imported buffer one after another to an empty buffer gives an equal one,
if the bytes of its texts end in zero. It is refused room only where the empty buffer is too small
and the arena not ample. -/
theorem rebuilt_of_imported {m : ExportMode} {a a' : Arena} {s : Storage w}
    (h : Buffer.imported w m bs a = .ok (.allocated s, a'))
    (hz : ∀ e ∈ s.entries, e.id.type = .string → e.value.getLast? = some 0) {p : Place w}
    (hb : Reachable ArenaConfig.Stated p.buffer) (hempty : p.buffer.entries = [])
    (hnull : p.buffer = .null → s.entries ≠ []) (hc : p.arena.config.Stated) :
    Ends (Edit.addAll ((Buffer.allocated s).pairs a.config)) p
      (fun _ q => ∀ d, Buffer.same d q.buffer (.allocated s) = true)
      fun e _ => p.arena.config.Refuses e ∧ ¬ p.arena.config.Ample s.used ∧
        p.buffer.capacity < s.used := by
  obtain hn | ⟨region, hregion⟩ := Buffer.exists_of_imported h
  · cases hn
  obtain ⟨_, xs, ⟨⟩, hs, hi, hused⟩ := Buffer.holds_of_ofRegion hregion
  have hsorted : Sorted xs := hs.sorted hi
  have hentries := hs.entries_eq
  have hread : ∀ e ∈ s.entries, e.item.Sound ∧ Region.Room a.config e.value.length ∧
      (e.id.type = .string → e.value.getLast? = some 0) := by
    intro e he
    have hmem : e.item ∈ xs := mem_of_mem_layout (hentries ▸ he)
    have hlen : e.value.length < (encodeAll xs).length := length_value_lt_encodeAll hmem
    have hsize := hs.used
    have hlt := s.header.used.toNat_lt
    refine ⟨hs.sound _ hmem, ⟨?_, ?_⟩, hz e he⟩
    all_goals
      rw [regionSize] at hsize
      simp only [Storage.used] at hsize hused
      omega
  obtain ⟨ys, hbecomes, hequal⟩ := exists_becomes hread
  have hitems : s.entries.map Entry.item = xs := by rw [hentries, map_item_layout]
  rw [hitems] at hequal
  have hsize : regionSize ys = s.used := by
    rw [hs.used, regionSize, regionSize, length_encodeAll_eq (hequal.imp fun _ _ h => h.1)]
  have hys : Sorted ys := sorted_of_forall₂ (hequal.imp fun _ _ h => (h.2 {}).id) hsorted
  obtain ⟨zs, indexed, hoffers⟩ := sound_invariant.of_reachable hb
  obtain rfl : zs = [] := by
    obtain ⟨t, ht, hx, -⟩ | ⟨-, hzs, -⟩ := hoffers
    · rw [ht] at hempty
      exact hx.eq_nil_of_entries hempty
    · exact hzs
  rw [Buffer.pairs_eq]
  have hall := Edit.addAll_ends hbecomes ((List.nil_append ys).symm ▸ hys) hoffers hc
  rw [List.nil_append, hsize] at hall
  refine hall.mono (fun _ q hq d => ?_) fun _ _ h => h
  obtain ⟨⟨t, ht, hx, -⟩ | ⟨hq, rfl, -⟩, hkeep⟩ := hq
  · rw [ht]
    refine Region.same_of_equal ((Storage.ofRegion_region t).trans hx.entries_eq)
      ((Storage.ofRegion_region s).trans hentries) ?_
    rw [sort_eq_self hys, sort_eq_self hsorted]
    exact hequal.imp fun _ _ h => h.2 d
  · refine absurd ?_ (hnull (hkeep hq))
    rw [hentries, List.forall₂_nil_left_iff.1 hequal]
    rfl

theorem rebuilt_after_import :
    let note : FieldId .wide := ⟨.string, 1, by decide, by decide, by decide⟩
    let b : Buffer .wide := .allocated
      { handle := 0, header := { Header.empty .wide 64 with used := 26 },
        body := encodeAll [⟨note, [0x41, 0]⟩], index := none, interval := 16 }
    ∃ s a' q, Buffer.imported .wide .binary (b.exported .binary) {} = .ok (.allocated s, a') ∧
      s.entries.length = 1 ∧
      Edit.addAll ((Buffer.allocated s).pairs {}) ⟨{}, .null⟩ = .ok () q ∧
        ∀ d, Buffer.same d q.buffer (.allocated s) = true := by
  intro note b
  have hb : (match Buffer.imported .wide .binary (b.exported .binary) {} with
    | .ok (.allocated s, _) => decide (s.entries.length = 1 ∧ s.used ≤ 64 ∧
        ∀ e ∈ s.entries, e.id.type = .string → e.value.getLast? = some 0)
    | .ok (.null, _) => false
    | .error _ => false) = true := by decide +kernel
  split at hb
  · rename_i s a' hs
    obtain ⟨hlen, hused, hz⟩ := of_decide_eq_true hb
    have hne : s.entries ≠ [] := List.ne_nil_of_length_pos (hlen ▸ Nat.one_pos)
    have hends := rebuilt_of_imported hs hz (p := ⟨{}, .null⟩) .null rfl (fun _ => hne)
      (show 64 * 1024 * 1024 < 2 ^ 32 by decide)
    have hample : ArenaConfig.Ample {} s.used :=
      ⟨by decide, (Nat.mul_le_mul_left 2 hused).trans (by decide)⟩
    rw [Ends] at hends
    split at hends
    · rename_i q hq
      exact ⟨s, a', q, hs, hlen, hq, hends⟩
    · exact absurd hample hends.2.1
  · cases hb
  · cases hb

/-- A text without a zero at the end gets one, and the block of a small arena is not doubled. -/
theorem not_rebuilt_after_import :
    let age : FieldId .wide := ⟨.short, 1, by decide, by decide, by decide⟩
    let note : FieldId .wide := ⟨.string, 1, by decide, by decide, by decide⟩
    let b : Buffer .wide := .allocated
      { handle := 0, header := { Header.empty .wide 25 with used := 25 },
        body := encodeAll [⟨note, [0x41]⟩], index := none, interval := 16 }
    let c : Buffer .wide := .allocated
      { handle := 0, header := { Header.empty .wide 26 with used := 26 },
        body := encodeAll [⟨age, [7, 0]⟩], index := none, interval := 16 }
    let p : Place .wide := ⟨{}, .allocated (Storage.fresh .wide 1 64)⟩
    let r : Place .wide := ⟨{ config := ⟨16, 30⟩ }, .allocated (Storage.fresh .wide 1 20)⟩
    (∃ s a' q, Buffer.imported .wide .binary (b.exported .binary) {} = .ok (.allocated s, a') ∧
      Edit.addAll ((Buffer.allocated s).pairs {}) p = .ok () q ∧
        Buffer.same {} q.buffer (.allocated s) = false) ∧
    ∃ s a' e q, Buffer.imported .wide .binary (c.exported .binary) {} = .ok (.allocated s, a') ∧
      Edit.addAll ((Buffer.allocated s).pairs {}) r = .error e q := by
  intro age note b c p r
  have hb : (match Buffer.imported .wide .binary (b.exported .binary) {} with
    | .ok (.allocated s, _) =>
      match Edit.addAll ((Buffer.allocated s).pairs {}) p with
      | .ok () q => !Buffer.same {} q.buffer (.allocated s)
      | .error .. => false
    | .ok (.null, _) => false
    | .error _ => false) = true := by decide +kernel
  have hc : (match Buffer.imported .wide .binary (c.exported .binary) {} with
    | .ok (.allocated s, _) =>
      match Edit.addAll ((Buffer.allocated s).pairs {}) r with
      | .ok .. => false
      | .error .. => true
    | .ok (.null, _) => false
    | .error _ => false) = true := by decide +kernel
  constructor
  · split at hb
    · rename_i s a' hs
      split at hb
      · rename_i q hq
        exact ⟨s, a', q, hs, hq, by simpa using hb⟩
      · cases hb
    · cases hb
    · cases hb
  · split at hc
    · rename_i s a' hs
      split at hc
      · cases hc
      · rename_i e q hq
        exact ⟨s, a', e, q, hs, hq⟩
    · cases hc
    · cases hc

end FieldBuffers
