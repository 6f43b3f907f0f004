import FieldBuffers.Proofs.Storage

/-! Buffers as regions and regions as buffers. What a sound buffer writes out is a sound region, and
what is read from one is a buffer of its items. -/

namespace FieldBuffers

open Item

variable {w : Width} {s : Storage w} {xs : List (Item w)}

namespace Storage

theorem drop_standalone (s : Storage w) : s.standalone.drop Header.size = s.live := by
  rw [standalone, List.drop_left' (Header.length_encode _)]

theorem drop_region (s : Storage w) : s.region.drop Header.size = s.live := by
  rw [region, List.drop_left' (Header.length_encode _)]

theorem nestingDepth_standalone (s : Storage w) :
    nestingDepth w s.standalone = nestingDepth w s.region :=
  nestingDepth_congr (by rw [drop_standalone, drop_region])

theorem Stores.length_standalone (h : s.Stores xs) : s.standalone.length = s.used := by
  rw [standalone, List.length_append, Header.length_encode, h.live_eq, h.used, regionSize]

theorem Stores.standalone_ne_nil (h : s.Stores xs) : s.standalone ≠ [] := by
  apply List.ne_nil_of_length_pos
  rw [h.length_standalone, h.used, regionSize]
  exact Nat.lt_of_lt_of_le (by decide) (Nat.le_add_right ..)

theorem Stores.check_standalone (h : s.Stores xs) :
    { s.header with capacity := s.header.used }.check w.wordBytes = .ok () := by
  refine (Header.check_eq_ok_iff ..).2 ⟨h.magic, h.word, ?_, Nat.le_refl _⟩
  have hu : s.header.used.toNat = regionSize xs := h.used
  rw [hu]
  exact Nat.le_add_right ..

theorem Stores.sound_standalone (h : s.Stores xs) : Region.Sound w s.standalone := by
  rw [standalone, h.live_eq]
  exact .intro _ xs h.check_standalone h.used h.stated (fun x hx => (h.sound x hx).value.nested)
    fun x hx => (h.sound x hx).value.flat

end Storage

namespace Region

theorem Sound.exists_items {bs : Bytes} (hs : Sound w bs)
    (hd : nestingDepth w bs ≤ maxNesting) {h : Header} (hh : header w bs = .ok h) :
    ∃ xs : List (Item w), bs = h.encode ++ encodeAll xs ∧ (∀ x ∈ xs, x.Sound) ∧
      h.check w.wordBytes = .ok () ∧ h.used.toNat = regionSize xs := by
  cases hs with
  | intro g xs hg hu hst hn hf =>
    obtain ⟨hb, -, -⟩ := (header_eq_ok_iff ..).1 hh
    rw [List.drop_left' g.length_encode] at hb
    have henc : g.encode = h.encode := List.append_cancel_right hb
    have hgh : g = h := by
      have := Header.decode_encode g []
      rw [henc, Header.decode_encode] at this
      exact (Except.ok.inj this).symm
    subst hgh
    refine ⟨xs, rfl, fun x hx => ⟨hst x hx, hn x hx, fun ht hv => ?_, hf x hx⟩, hg, hu⟩
    have hentries : Entry.ofRegion w (g.encode ++ encodeAll xs) = layout Header.size xs := by
      rw [Entry.ofRegion, List.drop_left' g.length_encode, Entry.scan_encodeAll _ _ hst]
    rw [nestingDepth_le_iff, hentries] at hd
    obtain ⟨e, he, rfl⟩ : ∃ e ∈ layout Header.size xs, e.item = x := by
      rw [← map_item_layout Header.size xs] at hx
      exact List.mem_map.1 hx
    exact hd e he ht hv

/-- The buffer that a region is holds the region's items, sorted. -/
theorem storage_holds {h : Header} (hc : h.check w.wordBytes = .ok ())
    (hu : h.used.toNat = regionSize xs) (hx : ∀ x ∈ xs, x.Sound) (handle : Nat) :
    (storage handle h (h.encode ++ encodeAll xs)).Holds (sort xs) ∧
      (storage handle h (h.encode ++ encodeAll xs) : Storage w).index.isSome := by
  obtain ⟨hm, hw, -, -⟩ := (Header.check_eq_ok_iff ..).1 hc
  have hlen : (h.encode ++ encodeAll xs).length = regionSize xs := by
    rw [List.length_append, h.length_encode, regionSize]
  have hst : Storage.Stores (w := w)
      { handle, header := { h with capacity := UInt32.ofNat (h.encode ++ encodeAll xs).length },
        body := (h.encode ++ encodeAll xs).drop Header.size, index := none,
        interval := Index.defaultInterval } xs := by
    refine ⟨hm, hw, ?_, hu, ⟨0, ?_⟩, hx⟩
    · have hlt : regionSize xs < 2 ^ 32 := hu ▸ h.used.toNat_lt
      rw [hlen, Storage.capacity, List.drop_left' h.length_encode]
      exact (UInt32.toNat_ofNat').trans (Nat.mod_eq_of_lt hlt)
    · rw [List.drop_left' h.length_encode]
      exact (List.append_nil _).symm
  exact ⟨(hst.indexed _).1, rfl⟩

theorem Sound.exists_holds {bs : Bytes} (hs : Sound w bs) (hd : nestingDepth w bs ≤ maxNesting)
    {h : Header} (hh : header w bs = .ok h) (handle : Nat) :
    ∃ xs : List (Item w), (storage handle h bs).Holds (sort xs) ∧
      (storage handle h bs : Storage w).index.isSome ∧
      (storage handle h bs : Storage w).used = bs.length ∧
      Entry.ofRegion w bs = layout Header.size xs := by
  obtain ⟨xs, rfl, hx, hc, hu⟩ := hs.exists_items hd hh
  obtain ⟨hholds, hindex⟩ := storage_holds hc hu hx handle
  refine ⟨xs, hholds, hindex, ?_, ?_⟩
  · rw [hholds.used, regionSize_perm (sort_perm xs), regionSize, List.length_append,
      h.length_encode]
  · rw [Entry.ofRegion, List.drop_left' h.length_encode,
      Entry.scan_encodeAll _ _ fun x hx' => (hx x hx').stated]

end Region

namespace Value

/-- The buffer that the value is, if any, holds items. -/
def Built (v : Value) : Prop := ∀ b, v = fml b → ∃ xs r, b.Offers xs r

theorem built_of_ne_fml {v : Value} (h : v.type ≠ .fml) : v.Built := by
  rintro b rfl
  exact absurd rfl h

theorem sound_encode {v : Value} (hb : v.Built) (hn : v.Named) (hs : v.Shallow) :
    Sound v.type v.encode := by
  by_cases ht : v.type = .fml
  · cases v with
    | fml b =>
      cases b with
      | null => exact ⟨fun _ h => absurd rfl h, fun _ h => absurd rfl h, fun h => absurd rfl h⟩
      | allocated s =>
        obtain ⟨xs, r, ⟨t, ht, hx, -⟩ | ⟨ht, -⟩⟩ := hb _ rfl
        · obtain rfl := Buffer.allocated.inj ht
          refine ⟨fun _ _ => hx.sound_standalone, fun _ _ => ?_, fun h => absurd rfl h⟩
          change nestingDepth .wide s.standalone < maxNesting
          rw [s.nestingDepth_standalone]
          exact hs
        · simp at ht
    | _ => simp [type] at ht
  · exact ⟨fun h => absurd h ht, fun h => absurd h ht, fun _ => ⟨v, decodeFlat_encode hn ht 0⟩⟩

theorem type_decodeFlat {t : FieldType} {offset : Nat} {bs : Bytes} {v : Value}
    (h : decodeFlat t offset bs = .ok v) : v.type = t := by
  cases t <;> simp only [decodeFlat, decodeFlat.sized] at h
  case ptr =>
    obtain ⟨a, -, hv⟩ := ok_bind_iff.1 h
    split at hv
    · exact Except.ok.inj hv ▸ rfl
    · simp [throw, throwThe, MonadExceptOf.throw] at hv
  case mbstring | view =>
    obtain ⟨a, -, rfl⟩ := ok_map_iff.1 h
    rfl
  case carray | fml => exact Except.ok.inj h ▸ rfl
  all_goals
    split at h
    · exact Except.ok.inj h ▸ rfl
    · simp at h

theorem type_decode {c : ArenaConfig} {t : FieldType} {offset : Nat} {bs : Bytes} {v : Value}
    (h : decode c t offset bs = .ok v) : v.type = t := by
  by_cases hn : t = .fml ∧ bs ≠ []
  · obtain ⟨rfl, hne⟩ := hn
    obtain ⟨g, -, -, -, -, rfl⟩ := (decode_fml_eq_ok_iff hne).1 h
    rfl
  · rw [decode, if_neg hn] at h
    exact type_decodeFlat h

theorem built_decode {c : ArenaConfig} {t : FieldType} {offset : Nat} {bs : Bytes} {v : Value}
    (h : decode c t offset bs = .ok v) : v.Built := by
  by_cases hn : t = .fml ∧ bs ≠ []
  · obtain ⟨rfl, hne⟩ := hn
    obtain ⟨g, hg, hs, hd, -, rfl⟩ := (decode_fml_eq_ok_iff hne).1 h
    obtain ⟨xs, hh, hi, -⟩ := hs.exists_holds hd hg 0
    rintro b hb
    obtain rfl := Value.fml.inj hb
    exact ⟨_, _, .inl ⟨_, rfl, hh, hi⟩⟩
  · rw [decode, if_neg hn] at h
    by_cases ht : t = .fml
    · subst ht
      rintro b rfl
      obtain rfl := Value.fml.inj (Except.ok.inj h)
      exact ⟨[], true, .inr ⟨rfl, rfl, rfl⟩⟩
    · exact built_of_ne_fml (type_decodeFlat h ▸ ht)

end Value

end FieldBuffers
