import FieldBuffers.Buffer.Read
import FieldBuffers.Proofs.Same
import Mathlib.Logic.Function.Basic

/-! The values of a buffer field by field, and what operations make of them. -/

namespace FieldBuffers

open Item

variable {w : Width}

/-- The values of every field, in the order of their occurrences. -/
abbrev Multimap (w : Width) := FieldId w → List Value

namespace Multimap

/-- One more value of a field. -/
def push (f : FieldId w) (v : Value) (m : Multimap w) : Multimap w :=
  Function.update m f (m f ++ [v])

/-- A value in place of another, or after as many defaults as it takes. -/
def set (f : FieldId w) (k : Nat) (v : Value) (m : Multimap w) : Multimap w :=
  Function.update m f <|
    if k < (m f).length then (m f).set k v
    else m f ++ List.replicate (k - (m f).length) (Value.default f.type) ++ [v]

def erase (f : FieldId w) (k : Nat) (m : Multimap w) : Multimap w :=
  Function.update m f ((m f).eraseIdx k)

def restrict (keep : FieldId w → Bool) (m : Multimap w) : Multimap w :=
  fun f => if keep f then m f else []

end Multimap

/-- The largest arena whose blocks a header can describe. -/
def ArenaConfig.vast : ArenaConfig := { ceiling := 2 ^ 32 - 1 }

/-- The value of an item, where there is room for what it nests. -/
def Item.read (x : Item w) : Value :=
  (Value.decode .vast x.id.type 0 x.value).toOption.getD (.carray x.value)

/-- The values of an allocated buffer; a null one has no lists at all. -/
def Buffer.contents : Buffer w → Option (Multimap w)
  | .null => none
  | .allocated s => some fun f => (s.entries.filter (·.id = f)).map fun e => e.item.read

theorem Buffer.map_zip_positionsAfter {β : Type} (seen : List (FieldId w)) (es : List (Entry w))
    (g : FieldId w → Entry w → β) :
    ((positionsAfter seen es).zip es).map (fun p => g p.1.1 p.2) = es.map fun e => g e.id e := by
  induction es generalizing seen with
  | nil => rfl
  | cons e es ih => rw [positionsAfter, List.zip_cons_cons, List.map_cons, ih, List.map_cons]

/-- A value as it comes back: a nested buffer in a block of its own, sorted and indexed. -/
def Value.stored : Value → Value
  | .fml (.allocated s) =>
    .fml (.allocated
      (Region.storage 0 { s.header with capacity := s.header.used } s.standalone))
  | v => v

/-- A nested buffer finds a block in the arena. -/
def Value.Fits (c : ArenaConfig) (v : Value) : Prop := ∀ b, v = .fml b → b.used ≤ c.ceiling

theorem Value.used_decode {c : ArenaConfig} {offset : Nat} {bs : Bytes} {b : Buffer .wide}
    (h : decode c .fml offset bs = .ok (.fml b)) : b.used = bs.length ∧ bs.length ≤ c.ceiling := by
  by_cases hne : bs = []
  · subst hne
    obtain rfl := Value.fml.inj (Except.ok.inj h)
    exact ⟨rfl, Nat.zero_le _⟩
  · obtain ⟨g, hg, hs, hd, hr, hb⟩ := (decode_fml_eq_ok_iff hne).1 h
    obtain rfl := Value.fml.inj hb
    obtain ⟨xs, -, -, hused, -⟩ := hs.exists_holds hd hg 0
    exact ⟨hused, hr.granted⟩

theorem Value.stored_of_ne_fml {v : Value} (h : v.type ≠ .fml) : v.stored = v := by
  cases v <;> first | rfl | exact absurd rfl h

theorem Value.decode_stored {v : Value} (hb : v.Built) (hn : v.Named) (hs : v.Shallow)
    {c : ArenaConfig} (hroom : Region.Room c v.encode.length) (offset : Nat) :
    decode c v.type offset v.encode = .ok v.stored := by
  have hsound := sound_encode hb hn hs
  by_cases ht : v.type = .fml
  · cases v with
    | fml b =>
      cases b with
      | null => rfl
      | allocated s =>
        obtain ⟨xs, r, ⟨t, ht, hx, -⟩ | ⟨ht, -⟩⟩ := hb _ rfl
        · obtain rfl := Buffer.allocated.inj ht
          have hne : s.standalone ≠ [] := by
            intro h
            have hlen := hx.length_standalone
            rw [h, hx.used, regionSize, Header.size, List.length_nil] at hlen
            omega
          have hlen : s.header.used.toNat = s.standalone.length := hx.length_standalone.symm
          refine (decode_fml_eq_ok_iff hne).2
            ⟨{ s.header with capacity := s.header.used },
              (Region.header_eq_ok_iff ..).2 ⟨?_, hx.check_standalone, hlen⟩,
              hsound.nested rfl hne, Nat.le_of_lt (hsound.shallow rfl hne), hroom, rfl⟩
          rw [s.drop_standalone]
          rfl
        · simp at ht
    | _ => simp [type] at ht
  · rw [stored_of_ne_fml ht, decode_of_ne_fml ht]
    exact decodeFlat_encode hn ht offset

namespace Item

variable {x : Item w} {xs ys : List (Item w)} {f g : FieldId w}

def values (xs : List (Item w)) : Multimap w := fun f => (ofField f xs).map read

theorem length_value_lt (hx : x.Stated) : x.value.length < 2 ^ 32 := by
  have hmax : w.maxValueLength < 2 ^ 32 := by cases w <;> decide
  exact Nat.lt_of_le_of_lt hx hmax

theorem decode_vast (hx : x.Sound) : Value.decode .vast x.id.type 0 x.value = .ok x.read := by
  have hlt := length_value_lt hx.stated
  obtain ⟨v, hv⟩ := hx.value.decode_eq_ok (c := .vast) ⟨hlt, Nat.le_of_lt_succ hlt⟩ 0
  rw [read, hv]
  rfl

theorem decode_read (hx : x.Sound) {c : ArenaConfig} (hf : x.read.Fits c) (offset : Nat) :
    Value.decode c x.id.type offset x.value = .ok x.read := by
  have hv := decode_vast hx
  by_cases ht : x.id.type = .fml
  · rw [ht] at hv ⊢
    refine Value.decode_eq_ok hv ⟨length_value_lt hx.stated, ?_⟩ offset
    cases hr : x.read with
    | fml b =>
      rw [hr] at hv
      rw [← (Value.used_decode hv).1]
      exact hf b hr
    | _ => simpa [hr, Value.type] using Value.type_decode hv
  · rw [Value.decode_of_ne_fml ht] at hv ⊢
    exact Value.decodeFlat_eq_ok offset hv

theorem decode_refuses (hx : x.Sound) {c : ArenaConfig} (hf : ¬ x.read.Fits c) (offset : Nat) :
    ∃ e, c.Refuses e ∧ Value.decode c x.id.type offset x.value = .error e := by
  cases hv : Value.decode c x.id.type offset x.value with
  | error e => exact ⟨e, hx.value.refuses_of_decode hv, rfl⟩
  | ok v =>
    have hlt := length_value_lt hx.stated
    have hread := Value.decode_eq_ok hv (d := .vast) ⟨hlt, Nat.le_of_lt_succ hlt⟩ 0
    obtain rfl := Except.ok.inj (hread.symm.trans (decode_vast hx))
    refine absurd (fun b hb => ?_) hf
    rw [hb] at hv
    have ht : FieldType.fml = x.id.type := Value.type_decode hv
    rw [← ht] at hv
    obtain ⟨hu, hle⟩ := Value.used_decode hv
    exact hu ▸ hle

theorem read_of {v : Value} (hb : v.Built) (hv : v.type = f.type) {entry : Bytes}
    (he : v.encodeEntry f = .ok entry) : (Item.of f v).read = v.stored := by
  obtain ⟨hn, hs, hst, -⟩ := (Value.encodeEntry_eq_ok_iff ..).1 he
  have hlt := length_value_lt hst
  have h := Value.decode_stored hb hn hs (c := .vast) ⟨hlt, Nat.le_of_lt_succ hlt⟩ 0
  rw [hv] at h
  rw [read, Item.of, h]
  rfl

theorem values_eq_update {v : List Value} (hself : (ofField f ys).map read = v)
    (hne : ∀ g, g ≠ f → ofField g ys = ofField g xs) :
    values ys = Function.update (values xs) f v := by
  funext g
  by_cases hg : g = f
  · subst hg
    rw [Function.update_self]
    exact hself
  · rw [Function.update_of_ne hg, values, hne g hg]
    rfl

theorem values_put {sorted : Bool} (hs : sorted → Sorted xs) (hx : x.id = f) :
    values (put sorted f [x] xs) = (values xs).push f x.read := by
  have hone : ∀ y ∈ [x], y.id = f := by simpa using hx
  refine values_eq_update ?_ fun g hg => ofField_put_ne hone hg
  rw [ofField_put hs hone, List.map_append]
  rfl

theorem values_snoc (hx : x.id = f) : values (xs ++ [x]) = (values xs).push f x.read := by
  refine values_eq_update ?_ fun g hg => ?_
  · rw [ofField_append, List.map_append, ofField_cons_self hx]
    rfl
  · have hxg : x.id ≠ g := fun h => hg (h ▸ hx)
    rw [ofField_append, ofField_cons_ne hxg]
    exact List.append_nil _

theorem values_overwrite {sorted : Bool} {k : Nat} {filler : Item w} (hs : sorted → Sorted xs)
    (hx : x.id = f) (hf : filler.id = f) (hd : filler.read = Value.default f.type) :
    values (overwrite sorted f k filler x xs) = (values xs).set f k x.read := by
  have hlen : ((values xs) f).length = (ofField f xs).length := List.length_map _
  have hone : ∀ y ∈ [x], y.id = f := by simpa using hx
  have hmany : ∀ y ∈ List.replicate (k - (ofField f xs).length) filler ++ [x], y.id = f := by
    intro y hy
    rcases List.mem_append.1 hy with hy | hy
    · rw [List.eq_of_mem_replicate hy, hf]
    · exact hone y hy
  rw [overwrite, Multimap.set]
  rw [hlen]
  split
  · rename_i hk
    refine values_eq_update ?_ fun g hg => ofField_substitute_ne hk hone hg
    rw [ofField_substitute hk hone, values, List.set_eq_take_append_cons_drop, List.length_map,
      if_pos hk]
    simp
  · refine values_eq_update ?_ fun g hg => ofField_put_ne hmany hg
    rw [ofField_put hs hmany]
    simp [values, hd]

theorem values_substitute {k : Nat} (hk : k < (ofField f xs).length) :
    values (substitute f [] k xs) = (values xs).erase f k := by
  have hnone : ∀ y ∈ ([] : List (Item w)), y.id = f := by simp
  refine values_eq_update ?_ fun g hg => ofField_substitute_ne hk hnone hg
  rw [ofField_substitute hk hnone, List.append_nil, values, List.eraseIdx_eq_take_drop_succ,
    List.map_append, List.map_take, List.map_drop]

theorem values_filter (keep : FieldId w → Bool) (xs : List (Item w)) :
    values (xs.filter fun x => keep x.id) = (values xs).restrict keep := by
  funext g
  rw [Multimap.restrict, values, ofField_filter]
  split <;> rfl

end Item

theorem Storage.Holds.contents_eq {s : Storage w} {xs : List (Item w)} (h : s.Holds xs) :
    (Buffer.allocated s).contents = some (values xs) := by
  have hf : ∀ f, (s.entries.filter (·.id = f)).map (fun e => e.item.read) = values xs f := by
    intro f
    rw [h.entries_eq, values, ← map_item_filter_layout Header.size, List.map_map]
    rfl
  simp only [Buffer.contents, hf]

/-- What comes back of a nested buffer is equal to it, and null exactly when it is. -/
theorem Value.stored_fml {b : Buffer .wide} (hb : b.Sound) : ∃ d, (fml b).stored = fml d ∧
    (d = .null ↔ b = .null) ∧ ∀ c, Buffer.same c d b = true := by
  obtain ⟨xs, r, ⟨s, rfl, hx, -⟩ | ⟨rfl, -⟩⟩ := hb
  · have hsound := Region.storage_holds hx.check_standalone hx.used hx.sound 0
    have hbytes : { s.header with capacity := s.header.used }.encode ++ encodeAll xs
        = s.standalone := by
      rw [Storage.standalone, hx.live_eq]
    rw [hbytes] at hsound
    refine ⟨_, rfl, by simp, fun c => hsound.1.toStores.same hx.toStores ?_ c⟩
    exact sort_eq_self (sorted_sort xs)
  · exact ⟨.null, rfl, Iff.rfl, fun _ => rfl⟩

end FieldBuffers
