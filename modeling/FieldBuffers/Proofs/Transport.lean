import FieldBuffers.Frame
import FieldBuffers.Proofs.Base64
import FieldBuffers.Proofs.Same

/-! Buffers that travel. What is written to a frame is what is read from it, and every buffer that
operations can leave passes the checks that a region has to pass. -/

namespace FieldBuffers

open Item

variable {w : Width} {s : Storage w} {xs : List (Item w)}

namespace ExportMode

theorem unwrap_wrap (m : ExportMode) (frame : Bytes) : m.unwrap (m.wrap frame) = .ok frame := by
  cases m with
  | binary => rfl
  | textSafe =>
    have hwritten := Base64.written_of_mem_encode frame
    have htext : Bytes.toText? ((Base64.encode frame).map fun c => UInt8.ofNat c.toNat)
        = some (String.ofList (Base64.encode frame)) := by
      rw [← Bytes.ofText_ofList fun c hc => (hwritten c hc).toNat_lt, Bytes.toText?_ofText]
    simp only [unwrap, wrap, htext, String.toList_ofList,
      Text.trim_eq_self fun c hc => (hwritten c hc).not_blank, Base64.decode_encode]

/-- The letters of a frame are not what base 64 makes of them. -/
theorem detect_wrap (m : ExportMode) (rest : Bytes) : detect (m.wrap (Frame.magic ++ rest)) = m := by
  cases m with
  | binary => simp [detect, wrap]
  | textSafe =>
    have hhead : (wrap .textSafe (Frame.magic ++ rest)).head? = some 0x52 := by
      change (List.map _ (Base64.encode (0x46 :: 0x4D :: 0x4C :: 0x58 :: rest))).head? = _
      rw [Base64.encode_cons]
      rfl
    have hprefix : Frame.magic.isPrefixOf (wrap .textSafe (Frame.magic ++ rest)) = false := by
      cases hw : wrap .textSafe (Frame.magic ++ rest) with
      | nil => rfl
      | cons b bs =>
        rw [hw] at hhead
        obtain rfl := Option.some.inj hhead
        rfl
    rw [detect, hprefix]
    rfl

end ExportMode

namespace Frame

theorem splitHead_magic (flags : UInt8) (rest : Bytes) :
    splitHead (magic ++ version :: flags :: rest) = .ok (flags, rest) := rfl

theorem splitText_shortText (what s : String) (h : s.utf8ByteSize < 256) (rest : Bytes) :
    splitText what (shortText s ++ rest) = .ok (s, rest) := by
  have hn : (UInt8.ofNat s.utf8ByteSize).toNat = (Bytes.ofText s).length := by
    rw [Bytes.length_ofText]
    exact UInt8.toNat_ofNat'.trans (Nat.mod_eq_of_lt h)
  simp only [shortText, List.cons_append, splitText, hn, List.take_left', List.drop_left',
    Nat.lt_irrefl, if_false, Bytes.toText?_ofText]

theorem splitPayload_little {payload : Bytes} (h : payload.length < 2 ^ 32) :
    splitPayload (Bytes.little 4 payload.length ++ payload) = .ok payload := by
  have hword : (Bytes.little 4 payload.length).length = 4 := Bytes.length_little ..
  have hn : Bytes.ofLittle (Bytes.little 4 payload.length) = payload.length := by
    rw [Bytes.ofLittle_little]
    exact Nat.mod_eq_of_lt h
  simp only [splitPayload, List.take_left' hword, List.drop_left' hword, hword, hn,
    Nat.lt_irrefl, if_false, if_true]

theorem ofName_blockKind (w : Width) : BlockKind.ofName w.blockKind.name = .ok w.blockKind := by
  cases w <;> rfl

theorem utf8ByteSize_blockKind (w : Width) : w.blockKind.name.utf8ByteSize < 256 := by
  cases w <;> decide

theorem region?_ofBuffer {b : Buffer w} (h : b.standalone.length < 2 ^ 32) :
    region? w (ofBuffer b) = .ok (if b.isNull then none else some b.standalone) := by
  have hempty : ("" : String).utf8ByteSize < 256 := by decide
  simp only [region?, ofBuffer, List.append_assoc, splitHead_magic, bind, Except.bind,
    splitText_shortText _ _ (utf8ByteSize_blockKind w), ofName_blockKind,
    splitText_shortText _ _ hempty, splitPayload_little h, ne_eq, not_true_eq_false, if_false]
  cases b with
  | null =>
    change (if nullFlag &&& nullFlag = 0 then _ else _) = _
    rw [if_neg (by decide)]
    rfl
  | allocated s =>
    change (if (0 : UInt8) &&& nullFlag = 0 then _ else _) = _
    rw [if_pos (by decide)]
    rfl

end Frame

theorem Storage.Holds.header_standalone (h : s.Holds xs) :
    Region.header w s.standalone = .ok { s.header with capacity := s.header.used } := by
  refine (Region.header_eq_ok_iff ..).2 ⟨?_, h.check_standalone, h.length_standalone.symm⟩
  rw [s.drop_standalone]
  rfl

theorem Storage.Holds.nestingDepth_le (h : s.Holds xs) :
    nestingDepth w s.standalone ≤ maxNesting := by
  rw [s.nestingDepth_standalone, nestingDepth_le_iff, s.ofRegion_region, h.entries_eq]
  intro e he ht hv
  exact (h.sound _ (mem_of_mem_layout he)).value.shallow ht hv

/-- What a buffer writes out is taken in wherever there is room for it, and comes back sorted. -/
theorem Storage.Holds.ofRegion_standalone (h : s.Holds xs) {a : Arena}
    (hroom : s.used ≤ a.config.ceiling) : ∃ (t : Storage w) (a' : Arena),
      Buffer.ofRegion w s.standalone a = .ok (.allocated t, a') ∧ t.Holds (sort xs) ∧
        t.index.isSome := by
  have hlen := h.length_standalone
  have hlt : s.standalone.length < 2 ^ 32 := hlen ▸ s.header.used.toNat_lt
  have hgrant : Region.Room a.config s.standalone.length := ⟨hlt, hlen ▸ hroom⟩
  have hcheck := h.sound_standalone.check_eq_ok h.header_standalone h.nestingDepth_le hgrant
  have hreserve : ∃ r, a.reserve w.blockKind s.standalone.length = .ok r := by
    rw [Arena.reserve, ArenaConfig.check, if_pos hgrant.granted]
    exact ⟨_, rfl⟩
  obtain ⟨⟨handle, a'⟩, hreserve⟩ := hreserve
  have hstorage := Region.storage_holds h.check_standalone h.used h.sound handle
  refine ⟨_, a', ?_, hstorage.1, hstorage.2⟩
  rw [Buffer.ofRegion]
  refine ok_bind_iff.2 ⟨_, hcheck, ok_bind_iff.2 ⟨(), ?_, ok_bind_iff.2 ⟨_, hreserve, ?_⟩⟩⟩
  · exact (Region.checkRoom_eq_ok_iff ..).2 hgrant
  · rw [standalone, h.live_eq]
    rfl

theorem Buffer.imported_exported (m : ExportMode) {b : Buffer w} (a : Arena)
    (h : b.standalone.length < 2 ^ 32) : Buffer.imported w m (b.exported m) a
      = if b.isNull then .ok (.null, a) else Buffer.ofRegion w b.standalone a := by
  simp only [imported, exported, ExportMode.unwrap_wrap, bind, Except.bind, Frame.region?_ofBuffer h]
  cases b with
  | null => rfl
  | allocated s => rfl

/-- Exported in either mode, a buffer that operations left is known for what it is and comes back
equal, null or else indexed, wherever it has room; the bytes of an indexed one are the same. -/
theorem comes_back_of_reachable {b : Buffer w} (hb : Reachable ArenaConfig.Stated b)
    (m : ExportMode) {a : Arena} (hroom : b.used ≤ a.config.ceiling) :
    ExportMode.detect (b.exported m) = m ∧
      ∃ (d : Buffer w) (a' : Arena), Buffer.imported w m (b.exported m) a = .ok (d, a') ∧
        (∀ c, Buffer.same c b d = true) ∧ d.isNull = b.isNull ∧
        (b.isNull = false → d.isIndexed) ∧
        (b.isIndexed → d.region.drop Header.size = b.region.drop Header.size ∧
          d.checksum = b.checksum) := by
  refine ⟨ExportMode.detect_wrap m _, ?_⟩
  obtain ⟨xs, indexed, ⟨s, rfl, hx, hi⟩ | ⟨rfl, -⟩⟩ := sound_invariant.of_reachable hb
  · have hlen : s.standalone.length < 2 ^ 32 := hx.length_standalone ▸ s.header.used.toNat_lt
    obtain ⟨t, a', hregion, ht, hindex⟩ := hx.ofRegion_standalone hroom
    refine ⟨.allocated t, a', ?_, fun c => ?_, rfl, fun _ => hindex, fun hs => ?_⟩
    · rw [Buffer.imported_exported (b := .allocated s) m a hlen]
      exact hregion
    · exact hx.same ht.toStores (sort_eq_self (sorted_sort xs)).symm c
    · have hlive : t.live = s.live := by
        rw [ht.live_eq, hx.live_eq, sort_eq_self (hx.sorted hs)]
      refine ⟨?_, ?_⟩
      · change t.region.drop _ = s.region.drop _
        rw [t.drop_region, s.drop_region, hlive]
      · change Except.ok (Checksum.crc32 t.live) = Except.ok (Checksum.crc32 s.live)
        rw [hlive]
  · refine ⟨.null, a, ?_, fun c => rfl, rfl, fun hn => ?_, fun hs => ?_⟩
    · exact Buffer.imported_exported (b := .null) m a (show 0 < 2 ^ 32 by decide)
    · simp [Buffer.isNull, Buffer.storage?] at hn
    · simp [Buffer.isIndexed, Buffer.index?] at hs

theorem text_comes_back_after_append :
    let f : FieldId .wide := ⟨.short, 1, by decide, by decide, by decide⟩
    let b := ((Change.append f (.short 7)).after ⟨{ config := ⟨32, 64⟩ }, .null⟩).buffer
    b.isIndexed = false ∧ ∃ (d : Buffer .wide) (a' : Arena),
      Buffer.imported .wide .textSafe (b.exported .textSafe) {} = .ok (d, a') ∧ d.isIndexed ∧
        Buffer.same {} b d = true := by
  intro f b
  have hreach : Reachable ArenaConfig.Stated b := by
    refine .after (show 64 < 2 ^ 32 by decide) .null (fun b hb => ?_) fun b hb => ?_
    · simp [Change.value?] at hb
    · simp [Change.other?] at hb
  have hroom : b.used ≤ ({} : Arena).config.ceiling := by decide +kernel
  have hnull : b.isNull = false := by decide +kernel
  obtain ⟨-, d, a', hd, hsame, -, hindexed, -⟩ := comes_back_of_reachable hreach .textSafe hroom
  exact ⟨by decide +kernel, d, a', hd, hindexed hnull, hsame {}⟩

end FieldBuffers
