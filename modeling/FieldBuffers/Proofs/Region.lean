import FieldBuffers.Value.Codec
import FieldBuffers.Proofs.Item
import FieldBuffers.Proofs.Outcome

/-! Sound regions: a header that speaks of just these bytes, then entries one after another with
values of their kinds, nested regions by the same rule. They are what the checks of this library
accept, room aside (`of_check_eq_ok`, `Sound.check_eq_ok`). -/

namespace FieldBuffers

open Item

variable {w : Width}

/-- An error of an arena that grants no block of some size. -/
def ArenaConfig.Refuses (c : ArenaConfig) (e : Error) : Prop :=
  ∃ size limit, c.ceiling < size ∧ e = .arenaCapacity size limit

namespace Header

theorem little_toNat (a b c d : UInt8) :
    Bytes.little 4 (UInt32.ofNat (Bytes.ofLittle [a, b, c, d])).toNat = [a, b, c, d] := by
  have h : Bytes.ofLittle [a, b, c, d] < 256 ^ 4 := Bytes.ofLittle_lt [a, b, c, d]
  rw [UInt32.toNat_ofNat', Nat.mod_eq_of_lt (by omega)]
  exact Bytes.little_ofLittle [a, b, c, d]

theorem eq_encode_of_decode? {bs : Bytes} {h : Header} (hd : decode? bs = some h) :
    bs = h.encode ++ bs.drop size := by
  simp only [decode?] at hd
  split at hd
  · rename_i a b c d word flags e f g i j k l m n o rest
    obtain rfl := Option.some.inj hd
    have hr : Bytes.little 2 (UInt16.ofNat (Bytes.ofLittle [e, f])).toNat = [e, f] := by
      have hlt : Bytes.ofLittle [e, f] < 256 ^ 2 := Bytes.ofLittle_lt [e, f]
      rw [UInt16.toNat_ofNat', Nat.mod_eq_of_lt (by omega)]
      exact Bytes.little_ofLittle [e, f]
    simp only [encode, little_toNat, hr, size]
    rfl
  · simp at hd

theorem decode_encode (h : Header) (rest : Bytes) : decode (h.encode ++ rest) = .ok h := by
  simp [decode, decode?_encode]

theorem check_eq_ok_iff (h : Header) (word : Nat) :
    h.check word = .ok () ↔ h.magic = expectedMagic ∧ h.word.toNat = word ∧
      size ≤ h.used.toNat ∧ h.used.toNat ≤ h.capacity.toNat := by
  rw [← UInt32.le_iff_toNat_le, ← UInt32.not_lt]
  rw [check]
  split
  · simp [*]
  split
  · simp [*]
  split
  · rename_i hs
    simp [Nat.not_le.2 hs]
  split <;> simp_all

end Header

namespace Value

theorem splitName_eq_ok_iff (offset : Nat) (bs : Bytes) (s : String) (data : Bytes) :
    splitName offset bs = .ok (s, data) ↔ ∃ (n : UInt8) (name : Bytes),
      bs = n :: (name ++ data) ∧ name.length = n.toNat ∧ Bytes.toText? name = some s := by
  constructor
  · intro h
    cases bs with
    | nil => simp [splitName] at h
    | cons n rest =>
      simp only [splitName] at h
      split at h
      · simp at h
      · rename_i hn
        split at h
        · simp at h
        · rename_i t ht
          obtain ⟨rfl, rfl⟩ := Prod.mk.inj (Except.ok.inj h)
          refine ⟨n, rest.take n.toNat, by rw [List.take_append_drop], ?_, ht⟩
          rw [List.length_take] at hn ⊢
          omega
  · rintro ⟨n, name, rfl, hn, ht⟩
    simp [splitName, ← hn, ht]

theorem decodeFlat_eq_ok {t : FieldType} {offset : Nat} (other : Nat) {bs : Bytes} {v : Value}
    (h : decodeFlat t offset bs = .ok v) : decodeFlat t other bs = .ok v := by
  cases t <;> simp only [decodeFlat, decodeFlat.sized] at h ⊢
  case ptr =>
    obtain ⟨a, ha, hv⟩ := ok_bind_iff.1 h
    refine ok_bind_iff.2 ⟨a, ?_, ?_⟩
    · split at ha <;> simp_all
    · split at hv <;> simp_all
  case mbstring | view =>
    obtain ⟨⟨s, data⟩, hs, hv⟩ := ok_map_iff.1 h
    refine ok_map_iff.2 ⟨(s, data), ?_, hv⟩
    rw [splitName_eq_ok_iff] at hs ⊢
    exact hs
  case carray | fml => exact h
  all_goals split at h <;> simp_all

/-- Bytes that stand for a value of a kind, where that is no nested buffer. -/
def Flat (t : FieldType) (bs : Bytes) : Prop := ∃ v, decodeFlat t 0 bs = .ok v

end Value

namespace Region

inductive Sound : (w : Width) → Bytes → Prop
  | intro {w : Width} (h : Header) (xs : List (Item w)) : h.check w.wordBytes = .ok () →
      h.used.toNat = Header.size + (encodeAll xs).length → (∀ x ∈ xs, x.Stated) →
      (∀ x ∈ xs, x.id.type = .fml → x.value ≠ [] → Sound .wide x.value) →
      (∀ x ∈ xs, x.id.type ≠ .fml → Value.Flat x.id.type x.value) →
      Sound w (h.encode ++ encodeAll xs)

/-- Room for a region, whatever stands before or after it in the arena. -/
structure Room (c : ArenaConfig) (size : Nat) : Prop where
  stated : size < 2 ^ 32
  granted : size ≤ c.ceiling

theorem checkRoom_eq_ok_iff (c : ArenaConfig) (size : Nat) :
    checkRoom c size = .ok () ↔ Room c size := by
  rw [checkRoom, ArenaConfig.check]
  constructor
  · intro h
    split at h
    · simp at h
    split at h
    · exact ⟨by omega, ‹_›⟩
    · simp at h
  · rintro ⟨h, h'⟩
    rw [if_neg (by omega), if_pos h']

theorem Room.mono {c : ArenaConfig} {m n : Nat} (h : Room c n) (hm : m ≤ n) : Room c m :=
  ⟨Nat.lt_of_le_of_lt hm h.stated, Nat.le_trans hm h.granted⟩

theorem header_eq_ok_iff (w : Width) (region : Bytes) (h : Header) :
    header w region = .ok h ↔ region = h.encode ++ region.drop Header.size ∧
      h.check w.wordBytes = .ok () ∧ h.used.toNat = region.length := by
  rw [header]
  rw [ok_bind_iff]
  constructor
  · rintro ⟨g, hd, hrest⟩
    obtain ⟨u, hc, hu⟩ := ok_bind_iff.1 hrest
    split at hu
    · rename_i hused
      obtain rfl := Except.ok.inj hu
      rw [Header.decode] at hd
      split at hd
      · rename_i g hg
        obtain rfl := Except.ok.inj hd
        exact ⟨Header.eq_encode_of_decode? hg, hc, hused⟩
      · simp at hd
    · simp [throw, throwThe, MonadExceptOf.throw] at hu
  · rintro ⟨hr, hc, hu⟩
    refine ⟨h, ?_, ok_bind_iff.2 ⟨(), hc, ?_⟩⟩
    · rw [hr, Header.decode_encode]
    · rw [if_pos hu]
      rfl

/-- What is asked of one entry's value. -/
def checkValue (c : ArenaConfig) (start : Nat) (x : Item w) : Except Error Unit :=
  if x.id.type = .fml ∧ x.value ≠ [] then
    (do
      let _ ← header .wide x.value
      checkEntries c .wide Header.size (x.value.drop Header.size)
      checkRoom c x.value.length).mapError (fromOutside start)
  else (Value.decodeFlat x.id.type start x.value).map fun _ => ()

theorem checkValue_eq_ok {c : ArenaConfig} {start : Nat} (other : Nat) {x : Item w}
    (h : checkValue c start x = .ok ()) : checkValue c other x = .ok () := by
  rw [checkValue] at h ⊢
  split at h
  · rw [if_pos ‹_›]
    exact ok_mapError_iff.2 (ok_mapError_iff.1 h)
  · rw [if_neg ‹_›]
    obtain ⟨v, hv, -⟩ := ok_map_iff.1 h
    exact ok_map_iff.2 ⟨v, Value.decodeFlat_eq_ok other hv, rfl⟩

theorem checkEntries_nil (c : ArenaConfig) (offset : Nat) : checkEntries c w offset [] = .ok () := by
  rw [checkEntries]
  rfl

theorem checkEntries_encode (c : ArenaConfig) (offset : Nat) (x : Item w) (hx : x.Stated)
    (rest : Bytes) :
    checkEntries c w offset (x.encode ++ rest)
      = checkValue c (offset + w.overhead) x >>= fun _ => checkEntries c w (offset + x.size) rest := by
  have hp := x.parts?_encode hx rest
  rw [checkEntries, x.isEmpty_encode_append]
  simp only [Bool.false_eq_true, if_false]
  split
  · simp_all
  · rename_i p hp'
    obtain rfl := Option.some.inj (hp'.symm.trans hp)
    simp only [FieldId.ofRaw?_raw, Nat.lt_irrefl, if_false]
    have hs : offset + w.overhead + x.value.length = offset + x.size := Nat.add_assoc ..
    rw [hs]
    rw [checkValue]
    split <;> rename_i hv <;> rw [hv] <;> rfl

theorem exists_of_checkEntries {c : ArenaConfig} {offset : Nat} {bs : Bytes}
    (h : checkEntries c w offset bs = .ok ()) (hne : bs ≠ []) :
    ∃ (x : Item w) (rest : Bytes), bs = x.encode ++ rest ∧ x.Stated := by
  rw [checkEntries, if_neg (by simpa using hne)] at h
  split at h
  · simp at h
  · rename_i p hp
    split at h
    · simp at h
    · rename_i id hid
      split at h
      · simp at h
      · rename_i hv
        exact ⟨_, _, Entry.parts?_eq_some hp hv hid⟩

theorem checkEntries_eq_ok_iff (c : ArenaConfig) (offset : Nat) (bs : Bytes) :
    checkEntries c w offset bs = .ok () ↔ ∃ xs : List (Item w), bs = encodeAll xs ∧
      ∀ x ∈ xs, x.Stated ∧ ∃ start, checkValue c start x = .ok () := by
  induction hn : bs.length using Nat.strongRecOn generalizing offset bs with
  | ind n ih =>
    by_cases hne : bs = []
    · subst hne
      refine ⟨fun _ => ⟨[], rfl, by simp⟩, fun _ => checkEntries_nil c offset⟩
    constructor
    · intro h
      obtain ⟨x, rest, rfl, hx⟩ := exists_of_checkEntries h hne
      rw [checkEntries_encode c offset x hx] at h
      obtain ⟨⟨⟩, hv, hrest⟩ := ok_bind_iff.1 h
      have hlt : rest.length < n := by
        have := x.size_pos
        rw [← hn, List.length_append, length_encode]
        omega
      obtain ⟨xs, rfl, hxs⟩ := (ih _ hlt _ _ rfl).1 hrest
      exact ⟨x :: xs, rfl, List.forall_mem_cons.2 ⟨⟨hx, _, hv⟩, hxs⟩⟩
    · rintro ⟨xs, rfl, hxs⟩
      cases xs with
      | nil => exact absurd rfl hne
      | cons x xs =>
        obtain ⟨⟨hx, start, hv⟩, hxs⟩ := List.forall_mem_cons.1 hxs
        rw [encodeAll_cons, checkEntries_encode c offset x hx]
        refine ok_bind_iff.2 ⟨(), checkValue_eq_ok _ hv, ?_⟩
        have hlt : (encodeAll xs).length < n := by
          have := x.size_pos
          rw [← hn, encodeAll_cons, List.length_append, length_encode]
          omega
        exact (ih _ hlt _ _ rfl).2 ⟨xs, rfl, hxs⟩

theorem sound_of_checkEntries {c : ArenaConfig} {region : Bytes} {h : Header}
    (hh : header w region = .ok h)
    (he : checkEntries c w Header.size (region.drop Header.size) = .ok ()) : Sound w region := by
  induction hn : region.length using Nat.strongRecOn generalizing w region h with
  | ind n ih =>
    obtain ⟨hr, hc, hu⟩ := (header_eq_ok_iff w region h).1 hh
    obtain ⟨xs, hxs, hall⟩ := (checkEntries_eq_ok_iff c _ _).1 he
    rw [hxs] at hr
    have hlen : region.length = Header.size + (encodeAll xs).length := by
      conv_lhs => rw [hr]
      simp
    rw [hr]
    refine .intro h xs hc (hu.trans hlen) (fun x hx => (hall x hx).1) ?_ ?_
    · intro x hx ht hne
      obtain ⟨-, start, hv⟩ := hall x hx
      rw [checkValue, if_pos ⟨ht, hne⟩, ok_mapError_iff] at hv
      obtain ⟨g, hg, hv⟩ := ok_bind_iff.1 hv
      obtain ⟨⟨⟩, hin, -⟩ := ok_bind_iff.1 hv
      refine ih _ ?_ hg hin rfl
      have := length_value_lt_encodeAll hx
      omega
    · intro x hx ht
      obtain ⟨-, start, hv⟩ := hall x hx
      rw [checkValue, if_neg (fun hf => ht hf.1)] at hv
      obtain ⟨v, hv, -⟩ := ok_map_iff.1 hv
      exact ⟨v, Value.decodeFlat_eq_ok 0 hv⟩

theorem Sound.header_eq_ok {region : Bytes} (hs : Sound w region) :
    ∃ h, header w region = .ok h := by
  cases hs with
  | intro h xs hc hu hst hn hf =>
    refine ⟨h, (header_eq_ok_iff _ _ h).2 ⟨?_, hc, ?_⟩⟩
    · rw [List.drop_left' h.length_encode]
    · rw [hu, List.length_append, h.length_encode]

theorem Sound.checkEntries_eq_ok {c : ArenaConfig} {region : Bytes} (hs : Sound w region)
    (hroom : Room c region.length) :
    checkEntries c w Header.size (region.drop Header.size) = .ok () := by
  induction hs with
  | intro h xs hc hu hst hn hf ih =>
    rw [List.drop_left' h.length_encode, checkEntries_eq_ok_iff]
    refine ⟨xs, rfl, fun x hx => ⟨hst x hx, 0, ?_⟩⟩
    rw [checkValue]
    split
    · rename_i hv
      have hlt := length_value_lt_encodeAll hx
      have hroom' : Room c x.value.length := hroom.mono (by
        rw [List.length_append]
        omega)
      obtain ⟨g, hg⟩ := (hn x hx hv.1 hv.2).header_eq_ok
      exact ok_mapError_iff.2 (ok_bind_iff.2 ⟨g, hg, ok_bind_iff.2
        ⟨(), ih x hx hv.1 hv.2 hroom', (checkRoom_eq_ok_iff ..).2 hroom'⟩⟩)
    · rename_i hv
      by_cases ht : x.id.type = .fml
      · have hne : x.value = [] := by
          by_contra hne
          exact hv ⟨ht, hne⟩
        rw [ht]
        rfl
      · obtain ⟨v, hv⟩ := hf x hx ht
        exact ok_map_iff.2 ⟨v, hv, rfl⟩

theorem exists_of_checkEntries_eq_error {c : ArenaConfig} {offset : Nat} {xs : List (Item w)}
    {e : Error} (hx : ∀ x ∈ xs, x.Stated) (h : checkEntries c w offset (encodeAll xs) = .error e) :
    ∃ x ∈ xs, ∃ start, checkValue c start x = .error e := by
  induction xs generalizing offset with
  | nil => simp [checkEntries_nil] at h
  | cons x xs ih =>
    rw [encodeAll_cons, checkEntries_encode c offset x (hx x (List.mem_cons_self ..))] at h
    cases hv : checkValue c (offset + w.overhead) x with
    | error e' =>
      rw [hv] at h
      obtain rfl : e' = e := Except.error.inj h
      exact ⟨x, List.mem_cons_self .., _, hv⟩
    | ok u =>
      rw [hv] at h
      obtain ⟨y, hy, start, he⟩ := ih (fun y hy => hx y (List.mem_cons_of_mem _ hy)) h
      exact ⟨y, List.mem_cons_of_mem _ hy, start, he⟩

theorem refuses_of_checkRoom {c : ArenaConfig} {size : Nat}
    (hlt : size < 2 ^ 32 ∨ c.ceiling < 2 ^ 32) {e : Error} (h : checkRoom c size = .error e) :
    c.Refuses e := by
  rw [checkRoom, ArenaConfig.check] at h
  split at h
  · exact ⟨_, _, by omega, (Except.error.inj h).symm⟩
  · split at h
    · simp at h
    · exact ⟨_, _, by omega, (Except.error.inj h).symm⟩

theorem Sound.length_lt {region : Bytes} (hs : Sound w region) : region.length < 2 ^ 32 := by
  cases hs with
  | intro h xs hc hu hst hn hf =>
    rw [List.length_append, h.length_encode, ← hu]
    exact h.used.toNat_lt

theorem refuses_fromOutside {c : ArenaConfig} {offset : Nat} {e : Error} (h : c.Refuses e) :
    c.Refuses (fromOutside offset e) := by
  obtain ⟨size, limit, hlt, rfl⟩ := h
  exact ⟨size, limit, hlt, rfl⟩

theorem Sound.refuses_of_checkEntries {c : ArenaConfig} {region : Bytes} (hs : Sound w region)
    {e : Error} (h : checkEntries c w Header.size (region.drop Header.size) = .error e) :
    c.Refuses e := by
  induction hs generalizing e with
  | intro g xs hc hu hst hn hf ih =>
    rw [List.drop_left' g.length_encode] at h
    obtain ⟨x, hx, start, hv⟩ := exists_of_checkEntries_eq_error hst h
    rw [checkValue] at hv
    split at hv
    · rename_i ht
      obtain ⟨e', he', rfl⟩ := error_mapError_iff.1 hv
      refine refuses_fromOutside ?_
      obtain ⟨k, hk⟩ := (hn x hx ht.1 ht.2).header_eq_ok
      rcases error_bind_iff.1 he' with he' | ⟨k', -, he'⟩
      · simp [hk] at he'
      rcases error_bind_iff.1 he' with he' | ⟨⟨⟩, -, he'⟩
      · exact ih x hx ht.1 ht.2 he'
      · exact refuses_of_checkRoom (.inl (hn x hx ht.1 ht.2).length_lt) he'
    · rename_i hv'
      by_cases ht : x.id.type = .fml
      · rw [ht] at hv
        simp [Value.decodeFlat, Except.map] at hv
      · obtain ⟨v, hd⟩ := hf x hx ht
        rw [Value.decodeFlat_eq_ok start hd] at hv
        simp [Except.map] at hv

theorem Sound.refuses_of_check {c : ArenaConfig} {region : Bytes} (hs : Sound w region)
    (hd : nestingDepth w region ≤ maxNesting) {e : Error} (h : check c w region = .error e) :
    c.Refuses e := by
  obtain ⟨g, hg⟩ := hs.header_eq_ok
  rcases error_bind_iff.1 h with h | ⟨g', -, h⟩
  · simp [hg] at h
  rw [if_neg (Nat.not_lt.2 hd)] at h
  rcases error_bind_iff.1 h with h | ⟨⟨⟩, -, h⟩
  · exact hs.refuses_of_checkEntries h
  · cases h

theorem of_check_eq_ok {c : ArenaConfig} {region : Bytes} {h : Header}
    (hc : check c w region = .ok h) :
    header w region = .ok h ∧ Sound w region ∧ nestingDepth w region ≤ maxNesting := by
  rw [check] at hc
  obtain ⟨g, hg, hc⟩ := ok_bind_iff.1 hc
  split at hc
  · obtain ⟨⟨⟩, hd, -⟩ := ok_bind_iff.1 hc
    simp [throw, throwThe, MonadExceptOf.throw] at hd
  · rename_i hd
    obtain ⟨⟨⟩, he, hc⟩ := ok_bind_iff.1 hc
    obtain rfl := Except.ok.inj hc
    exact ⟨hg, sound_of_checkEntries hg he, Nat.not_lt.1 hd⟩

theorem Sound.check_eq_ok {c : ArenaConfig} {region : Bytes} {h : Header} (hs : Sound w region)
    (hh : header w region = .ok h) (hd : nestingDepth w region ≤ maxNesting)
    (hroom : Room c region.length) : check c w region = .ok h := by
  rw [check]
  refine ok_bind_iff.2 ⟨h, hh, ?_⟩
  rw [if_neg (Nat.not_lt.2 hd)]
  exact ok_bind_iff.2 ⟨(), hs.checkEntries_eq_ok hroom, rfl⟩

end Region

section Nesting

theorem foldl_max_le_iff (l : List Nat) (a k : Nat) :
    l.foldl max a ≤ k ↔ a ≤ k ∧ ∀ n ∈ l, n ≤ k := by
  induction l generalizing a with
  | nil => simp
  | cons b l ih => rw [List.foldl_cons, ih, Nat.max_le, List.forall_mem_cons, and_assoc]

theorem nesting_succ_le_iff (n k : Nat) (region : Bytes) :
    nesting (n + 1) w region ≤ k ↔ ∀ e ∈ Entry.ofRegion w region,
      e.id.type = .fml → e.value ≠ [] → nesting n .wide e.value < k := by
  rw [nesting, foldl_max_le_iff]
  simp only [Nat.zero_le, true_and, List.forall_mem_map, Entry.nestedRegions, List.mem_filterMap,
    Option.ite_none_right_eq_some, Option.some.injEq]
  constructor
  · intro h e he ht hv
    exact h _ ⟨e, he, ⟨ht, hv⟩, rfl⟩
  · rintro h _ ⟨e, he, ⟨ht, hv⟩, rfl⟩
    exact h e he ht hv

theorem nesting_le_succ (n : Nat) (region : Bytes) :
    nesting n w region ≤ nesting (n + 1) w region := by
  induction n generalizing w region with
  | zero => exact Nat.zero_le _
  | succ n ih =>
    rw [nesting_succ_le_iff]
    intro e he ht hv
    have h := (nesting_succ_le_iff (n + 1) _ region).1 (Nat.le_refl _) e he ht hv
    exact Nat.lt_of_le_of_lt (ih e.value) h

/-- A walk that did not come to its limit saw everything. -/
theorem nesting_succ_lt {n k : Nat} {region : Bytes} (hn : k ≤ n) (h : nesting n w region < k) :
    nesting (n + 1) w region < k := by
  induction n generalizing w region k with
  | zero => omega
  | succ n ih =>
    obtain ⟨k, rfl⟩ : ∃ j, k = j + 1 := ⟨k - 1, by omega⟩
    rw [Nat.lt_succ_iff, nesting_succ_le_iff] at h ⊢
    intro e he ht hv
    exact ih (by omega) (h e he ht hv)

theorem nestingDepth_le_iff (region : Bytes) :
    nestingDepth w region ≤ maxNesting ↔ ∀ e ∈ Entry.ofRegion w region,
      e.id.type = .fml → e.value ≠ [] → nestingDepth .wide e.value < maxNesting := by
  rw [nestingDepth]
  rw [nesting_succ_le_iff]
  constructor
  · intro h e he ht hv
    exact nesting_succ_lt (Nat.le_refl _) (h e he ht hv)
  · intro h e he ht hv
    exact Nat.lt_of_le_of_lt (nesting_le_succ _ _) (h e he ht hv)

theorem nestingDepth_congr {a b : Bytes} (h : a.drop Header.size = b.drop Header.size) :
    nestingDepth w a = nestingDepth w b := by
  simp only [nestingDepth, nesting, Entry.ofRegion, h]

end Nesting

namespace Value

/-- Bytes that stand for a value of a kind, nested no deeper than one inside a buffer may be. -/
structure Sound (t : FieldType) (bs : Bytes) : Prop where
  nested : t = .fml → bs ≠ [] → Region.Sound .wide bs
  shallow : t = .fml → bs ≠ [] → nestingDepth .wide bs < maxNesting
  flat : t ≠ .fml → Flat t bs

theorem decode_of_ne_fml {t : FieldType} (ht : t ≠ .fml) (c : ArenaConfig) (offset : Nat)
    (bs : Bytes) : decode c t offset bs = decodeFlat t offset bs := by
  rw [decode, if_neg fun h => ht h.1]

theorem decode_fml_nil (c : ArenaConfig) (offset : Nat) :
    decode c .fml offset [] = .ok (fml .null) := rfl

theorem decode_fml_eq_ok_iff {c : ArenaConfig} {offset : Nat} {bs : Bytes} {v : Value}
    (hne : bs ≠ []) : decode c .fml offset bs = .ok v ↔
      ∃ h, Region.header .wide bs = .ok h ∧ Region.Sound .wide bs ∧
        nestingDepth .wide bs ≤ maxNesting ∧ Region.Room c bs.length ∧
          v = fml (.allocated (Region.storage 0 h bs)) := by
  rw [decode, if_pos ⟨rfl, hne⟩, ok_mapError_iff, ok_bind_iff]
  constructor
  · rintro ⟨h, hc, hv⟩
    obtain ⟨⟨⟩, hr, hv⟩ := ok_bind_iff.1 hv
    obtain ⟨hh, hs, hd⟩ := Region.of_check_eq_ok hc
    exact ⟨h, hh, hs, hd, (Region.checkRoom_eq_ok_iff ..).1 hr, (Except.ok.inj hv).symm⟩
  · rintro ⟨h, hh, hs, hd, hr, rfl⟩
    exact ⟨h, hs.check_eq_ok hh hd hr,
      ok_bind_iff.2 ⟨(), (Region.checkRoom_eq_ok_iff ..).2 hr, rfl⟩⟩

theorem Sound.decode_eq_ok {t : FieldType} {bs : Bytes} (hs : Sound t bs) {c : ArenaConfig}
    (hroom : Region.Room c bs.length) (offset : Nat) : ∃ v, decode c t offset bs = .ok v := by
  by_cases ht : t = .fml
  · subst ht
    by_cases hne : bs = []
    · subst hne
      exact ⟨_, decode_fml_nil c offset⟩
    · obtain ⟨h, hh⟩ := (hs.nested rfl hne).header_eq_ok
      exact ⟨_, (decode_fml_eq_ok_iff hne).2 ⟨h, hh, hs.nested rfl hne,
        Nat.le_of_lt (hs.shallow rfl hne), hroom, rfl⟩⟩
  · obtain ⟨v, hv⟩ := hs.flat ht
    exact ⟨v, (decode_of_ne_fml ht ..).trans (decodeFlat_eq_ok offset hv)⟩

theorem Sound.refuses_of_decode {t : FieldType} {bs : Bytes} (hs : Sound t bs) {c : ArenaConfig}
    {offset : Nat} {e : Error} (h : decode c t offset bs = .error e) : c.Refuses e := by
  by_cases hn : t = .fml ∧ bs ≠ []
  · obtain ⟨rfl, hne⟩ := hn
    have hsound := hs.nested rfl hne
    rw [decode, if_pos ⟨rfl, hne⟩] at h
    obtain ⟨e', he', rfl⟩ := error_mapError_iff.1 h
    refine Region.refuses_fromOutside ?_
    rcases error_bind_iff.1 he' with he' | ⟨g, -, he'⟩
    · rw [Region.check] at he'
      obtain ⟨g, hg⟩ := hsound.header_eq_ok
      rcases error_bind_iff.1 he' with he' | ⟨g', -, he'⟩
      · simp [hg] at he'
      rw [if_neg (Nat.not_lt.2 (Nat.le_of_lt (hs.shallow rfl hne)))] at he'
      rcases error_bind_iff.1 he' with he' | ⟨⟨⟩, -, he'⟩
      · exact hsound.refuses_of_checkEntries he'
      · simp [pure, Except.pure] at he'
    · rcases error_bind_iff.1 he' with he' | ⟨⟨⟩, -, he'⟩
      · exact Region.refuses_of_checkRoom (.inl hsound.length_lt) he'
      · simp [pure, Except.pure] at he'
  · rw [decode, if_neg hn] at h
    by_cases ht : t = .fml
    · subst ht
      simp [decodeFlat] at h
    · obtain ⟨v, hv⟩ := hs.flat ht
      simp [decodeFlat_eq_ok offset hv] at h

/-- What is read does not depend on the place or on the room, as long as there is room. -/
theorem decode_eq_ok {t : FieldType} {bs : Bytes} {v : Value} {c d : ArenaConfig} {offset : Nat}
    (h : decode c t offset bs = .ok v) (hroom : Region.Room d bs.length) (other : Nat) :
    decode d t other bs = .ok v := by
  by_cases ht : t = .fml
  · subst ht
    by_cases hne : bs = []
    · subst hne
      exact h
    · obtain ⟨g, hg, hs, hd, -, hv⟩ := (decode_fml_eq_ok_iff hne).1 h
      exact (decode_fml_eq_ok_iff hne).2 ⟨g, hg, hs, hd, hroom, hv⟩
  · rw [decode_of_ne_fml ht] at h ⊢
    exact decodeFlat_eq_ok other h

end Value

end FieldBuffers
