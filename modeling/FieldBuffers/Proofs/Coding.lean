import FieldBuffers.Proofs.Algebra
import FieldBuffers.Proofs.Assembled

/-! Values as entries. A value is refused for its name, for how deep it nests or for its length and
for nothing else, and what is written of any other is read back as it was. -/

namespace FieldBuffers

open Item

variable {w : Width} {f : FieldId w} {v : Value} {bs : Bytes} {xs : List (Item .wide)}

namespace Value

/-- The name of an encoding or of a record. -/
def name? : Value → Option String
  | mbstring name _ | view name _ => some name
  | _ => none

/-- How many bytes the value takes in an entry. -/
def extent : Value → Nat
  | char _ => 1
  | short _ => 2
  | float _ | int _ => 4
  | long _ | double _ => 8
  | ptr .. => 9
  | string s => s.utf8ByteSize + 1
  | carray data => data.length
  | mbstring name data | view name data => 1 + name.utf8ByteSize + data.length
  | fml b => b.used

/-- What no entry of a family can hold. -/
inductive Unfit (w : Width) (v : Value) : Prop
  | name {name : String} : v.name? = some name → 255 < name.utf8ByteSize → Unfit w v
  -- The nested buffer is a level itself, so 64 levels below it are one too many.
  | deep {s : Storage .wide} : v = fml (.allocated s) →
      ¬ Region.NestsWithin 63 .wide s.region → Unfit w v
  | long : w.maxValueLength < v.extent → Unfit w v

theorem length_encode (hv : v.Built) : v.encode.length = v.extent := by
  cases v with
  | fml b =>
    obtain ⟨xs, i, ⟨s, rfl, hs, -⟩ | ⟨rfl, -⟩⟩ := hv b rfl
    · exact hs.length_standalone
    · rfl
  | string s => simp [encode, extent, Bytes.length_ofText]
  | mbstring name data | view name data =>
    simp only [encode, encodeName, extent, List.length_append, List.length_cons,
      Bytes.length_ofText]
    omega
  | _ => simp [encode, extent]

theorem named_iff : v.Named ↔ ∀ name, v.name? = some name → name.utf8ByteSize ≤ 255 := by
  cases v <;> simp [Named, name?, maxName]

theorem shallow_iff :
    v.Shallow ↔ ∀ s, v = fml (.allocated s) → Region.NestsWithin 63 .wide s.region := by
  cases v with
  | fml b =>
    cases b with
    | null => simp [Shallow]
    | allocated s =>
      rw [Shallow, nestingDepth_lt_iff]
      exact ⟨fun h t ht => Buffer.allocated.inj (fml.inj ht) ▸ h, fun h => h s rfl⟩
  | _ => simp [Shallow]

theorem not_unfit_iff (hv : v.Built) :
    ¬ v.Unfit w ↔ v.Named ∧ v.Shallow ∧ (Item.mk f v.encode).Stated := by
  rw [named_iff, shallow_iff, Stated, length_encode hv]
  constructor
  · refine fun h => ⟨fun name hname => ?_, fun s hs => ?_, ?_⟩
    · exact Nat.le_of_not_lt fun hlt => h (.name hname hlt)
    · exact Classical.not_not.1 fun hdeep => h (.deep hs hdeep)
    · exact Nat.le_of_not_lt fun hlt => h (.long hlt)
  · rintro ⟨hname, hshallow, hlen⟩ (⟨hn, hlt⟩ | ⟨hs, hdeep⟩ | hlt)
    · exact Nat.not_lt.2 (hname _ hn) hlt
    · exact hdeep (hshallow _ hs)
    · exact Nat.not_lt.2 hlen hlt

theorem encodeEntry_eq_error_iff (hv : v.Built) :
    (∃ e, v.encodeEntry f = .error e) ↔ v.Unfit w := by
  cases h : v.encodeEntry f with
  | error e =>
    refine iff_of_true ⟨e, rfl⟩ (Classical.byContradiction fun hfit => ?_)
    obtain ⟨hn, hs, hl⟩ := (not_unfit_iff hv).1 hfit
    rw [(encodeEntry_eq_ok_iff f v _).2 ⟨hn, hs, hl, rfl⟩] at h
    cases h
  | ok bs =>
    obtain ⟨hn, hs, hl, -⟩ := (encodeEntry_eq_ok_iff f v bs).1 h
    exact iff_of_false nofun ((not_unfit_iff hv).2 ⟨hn, hs, hl⟩)

/-- Bytes that are one entry of a field, whatever follows them, with a value that is read as `v`:
the same value, or for a nested buffer an equal one. -/
structure Restored (f : FieldId w) (v : Value) (bs : Bytes) (offset : Nat) (e : Entry w) :
    Prop where
  next (rest : Bytes) : Entry.next? w offset (bs ++ rest) = some (e, rest)
  scan : Entry.scan w offset bs = [e]
  id : e.id = f
  start : e.offset = offset
  stop : e.stop = offset + bs.length
  flat (c : ArenaConfig) : v.type ≠ .fml → e.decode c = .ok v
  nested {b : Buffer .wide} (c : ArenaConfig) : v = fml b → b.used ≤ c.ceiling →
    ∃ n, e.decode c = .ok (fml n) ∧ b.Equal n ∧ n.isNull = b.isNull

theorem decode_nested {b : Buffer .wide} (hv : (fml b).Built) (hs : (fml b).Shallow)
    {c : ArenaConfig} (hfit : b.used ≤ c.ceiling) (offset : Nat) :
    ∃ n, decode c .fml offset b.standalone = .ok (fml n) ∧ b.Equal n ∧ n.isNull = b.isNull := by
  obtain ⟨xs, i, ⟨s, rfl, hx, -⟩ | ⟨rfl, -⟩⟩ := hv b rfl
  · have hroom : Region.Room c s.standalone.length := by
      rw [hx.length_standalone]
      exact ⟨s.header.used.toNat_lt, hfit⟩
    obtain ⟨u, hu⟩ := (sound_encode hv trivial hs).decode_eq_ok hroom offset
    obtain ⟨t, rfl, ht⟩ := decode_standalone hx hu
    refine ⟨_, hu, fun d => hx.same ht.toStores ?_ d, rfl⟩
    exact (sort_eq_self (sorted_sort xs)).symm
  · exact ⟨.null, decode_fml_nil c offset, fun _ => rfl, rfl⟩

theorem restored_of_encodeEntry (ht : v.type = f.type) (hv : v.Built)
    (h : v.encodeEntry f = .ok bs) (offset : Nat) :
    Restored f v bs offset ((Item.mk f v.encode).entry offset) := by
  obtain ⟨hn, hs, hl, rfl⟩ := (encodeEntry_eq_ok_iff f v bs).1 h
  refine ⟨next?_encode _ hl offset, ?_, rfl, rfl, ?_, fun c hne => ?_, fun c hb hfit => ?_⟩
  · rw [← Storage.encodeAll_singleton]
    exact Entry.scan_encodeAll offset [Item.mk f v.encode] (by simpa using hl)
  · rw [Item.length_encode]
    rfl
  · change decode c f.type _ v.encode = _
    rw [← ht, decode_of_ne_fml hne]
    exact decodeFlat_encode hn hne _
  · subst hb
    change ∃ n, decode c f.type _ _ = _ ∧ _
    rw [← ht]
    exact decode_nested hv hs hfit _

theorem built_of_reachable (hb : ∀ b, v = fml b → Reachable ArenaConfig.Stated b) : v.Built :=
  fun b h => sound_invariant.of_reachable (hb b h)

/-- What is not refused is written as one entry, from which it is read back. -/
theorem encodeEntry_round_trip (ht : v.type = f.type)
    (hb : ∀ b, v = fml b → Reachable ArenaConfig.Stated b) :
    ((∃ e, v.encodeEntry f = .error e) ↔ v.Unfit w) ∧
      ∀ bs, v.encodeEntry f = .ok bs → ∀ offset, ∃ e, Restored f v bs offset e := by
  have hv := built_of_reachable hb
  exact ⟨encodeEntry_eq_error_iff hv,
    fun bs h offset => ⟨_, restored_of_encodeEntry ht hv h offset⟩⟩

/-- A nested buffer with a text that ends in a null of its own. -/
theorem encodeEntry_round_trip_nested :
    let f : FieldId .wide := ⟨.string, 1, by decide, by decide, by decide⟩
    let g : FieldId .wide := ⟨.fml, 2, by decide, by decide, by decide⟩
    let b := ((Change.add f (.string "a\x00")).after ⟨{ config := ⟨32, 64⟩ }, .null⟩).buffer
    b.used = 27 ∧ ∃ bs, (fml b).encodeEntry g = .ok bs ∧ bs.length = 35 ∧
      ∀ offset, ∃ e, Restored g (fml b) bs offset e := by
  intro f g b
  have hb : Reachable ArenaConfig.Stated b :=
    .after (show 64 < 2 ^ 32 by decide) .null nofun nofun
  have hlen : ((fml b).encodeEntry g).toOption.map List.length = some 35 := by decide +kernel
  refine ⟨by decide +kernel, ?_⟩
  cases h : (fml b).encodeEntry g with
  | error e =>
    rw [h] at hlen
    cases hlen
  | ok bs =>
    rw [h] at hlen
    have hrestored := (encodeEntry_round_trip (f := g) (v := fml b) rfl
      fun c hc => fml.inj hc ▸ hb).2 bs h
    exact ⟨bs, rfl, Option.some.inj hlen, hrestored⟩

end Value

end FieldBuffers
