import FieldBuffers.Proofs.Acceptance

/-! Imported buffers written out again. Import leaves nothing of a frame but its items, in order, so
what it gives is written as a frame that stays the same from then on. -/

namespace FieldBuffers

open Item

variable {w : Width} {s : Storage w} {xs : List (Item w)} {a a' : Arena} {b : Buffer w}

theorem Header.setIndexed_eq_self {h : Header} (hi : h.isIndexed = true) :
    h.setIndexed true = h := by
  have hor : ∀ n : Fin 256, UInt8.ofNat n &&& 1 ≠ 0 → UInt8.ofNat n ||| 1 = UInt8.ofNat n := by
    decide +kernel
  have hflags := hor ⟨h.flags.toNat, h.flags.toNat_lt⟩
  rw [UInt8.ofNat_toNat] at hflags
  rw [isIndexed, bne_iff_ne] at hi
  rw [setIndexed, if_pos rfl, indexedFlag, hflags hi]

theorem Storage.Holds.standalone_storage (h : s.Holds xs) (hi : s.index.isSome) (handle : Nat) :
    (Region.storage handle { s.header with capacity := s.header.used } s.standalone :
      Storage w).standalone = s.standalone := by
  have ht : (Region.storage handle { s.header with capacity := s.header.used } s.standalone :
      Storage w).Holds (sort xs) := by
    rw [standalone, h.live_eq]
    exact (Region.storage_holds h.check_standalone h.used h.sound handle).1
  generalize hdef : (Region.storage handle { s.header with capacity := s.header.used }
    s.standalone : Storage w) = t at ht ⊢
  rw [sort_eq_self (h.sorted hi)] at ht
  have hused : t.header.used = s.header.used := UInt32.toNat_inj.1 (ht.used.trans h.used.symm)
  have hheader : t.header = { s.header with
      capacity := t.header.capacity, used := t.header.used }.setIndexed true := by
    rw [← hdef]
    rfl
  -- the flag is set in the first header already
  have hflag : { s.header with
      capacity := t.header.capacity, used := s.header.used }.isIndexed = true := h.flag.trans hi
  rw [hused, Header.setIndexed_eq_self hflag] at hheader
  rw [standalone, standalone, ht.live_eq, h.live_eq, hheader]

/-- Written out, an imported buffer is accepted again wherever there is as much room, and is then
equal and written as the same bytes. -/
theorem exported_of_imported {m : ExportMode} {bs : Bytes} (h : Buffer.imported w m bs a = .ok (b, a'))
    {d : Arena} (hroom : a.config.ceiling ≤ d.config.ceiling) :
    ∃ (c : Buffer w) (d' : Arena), Buffer.imported w m (b.exported m) d = .ok (c, d') ∧
      (∀ e, Buffer.same e c b = true) ∧ c.exported m = b.exported m := by
  rcases Buffer.exists_of_imported h with rfl | ⟨region, hregion⟩
  · exact ⟨.null, d, Buffer.imported_exported m d (show 0 < 2 ^ 32 by decide), fun _ => rfl, rfl⟩
  obtain ⟨s, xs, rfl, hs, hi, hused⟩ := Buffer.holds_of_ofRegion hregion
  have hlen : s.standalone.length < 2 ^ 32 := hs.length_standalone ▸ s.header.used.toNat_lt
  obtain ⟨t, d', ht, hholds, -⟩ := hs.ofRegion_standalone (Nat.le_trans hused hroom)
  obtain ⟨g, handle, hg, -, -, -, hstorage⟩ := Buffer.exists_of_ofRegion ht
  obtain rfl := Buffer.allocated.inj hstorage
  obtain rfl := Except.ok.inj (hs.header_standalone.symm.trans hg)
  have hfixed := hs.standalone_storage hi handle
  refine ⟨_, d', (Buffer.imported_exported (b := .allocated s) m d hlen).trans ht, fun e => ?_, ?_⟩
  · exact hholds.same hs.toStores (sort_eq_self (sorted_sort xs)) e
  · simp only [Buffer.exported, Frame.ofBuffer, Buffer.standalone, hfixed]
    rfl

theorem stray_frame_reexported :
    let f : FieldId .wide := ⟨.short, 1, by decide, by decide, by decide⟩
    let g : FieldId .wide := ⟨.string, 1, by decide, by decide, by decide⟩
    let items : List (Item .wide) := [⟨g, [0x41]⟩, ⟨f, [1, 0]⟩]
    let header : Header := { Header.empty .wide 64 with
      flags := 0xFE, reserved := 7, used := UInt32.ofNat (regionSize items) }
    let region := header.encode ++ encodeAll items
    let bs := Frame.magic ++ Frame.version :: 0xFE :: (Frame.shortText Width.wide.blockKind.name ++
      Frame.shortText "stray" ++ Bytes.little 4 region.length ++ region)
    ∃ (b c : Buffer .wide) (a' d' : Arena), Buffer.imported .wide .binary bs {} = .ok (b, a') ∧
      b.exported .binary ≠ bs ∧ Buffer.imported .wide .binary (b.exported .binary) {} = .ok (c, d') ∧
      (∀ e, Buffer.same e c b = true) ∧ c.exported .binary = b.exported .binary := by
  intro f g items header region bs
  have hchanged : ((Buffer.imported .wide .binary bs {}).toOption.any fun r =>
      r.1.exported .binary != bs) = true := by decide +kernel
  cases h : Buffer.imported .wide .binary bs {} with
  | error e => simp [h, Except.toOption] at hchanged
  | ok r =>
    obtain ⟨b, a'⟩ := r
    rw [h] at hchanged
    obtain ⟨c, d', hc, hsame, hfixed⟩ := exported_of_imported h (Nat.le_refl _)
    exact ⟨b, c, a', d', rfl, bne_iff_ne.1 hchanged, hc, hsame, hfixed⟩

end FieldBuffers
