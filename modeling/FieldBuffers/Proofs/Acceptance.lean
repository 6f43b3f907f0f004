import FieldBuffers.Proofs.Transport
import FieldBuffers.Proofs.WellFormed

/-! What import accepts: frames whose parts have the right values, with a sound region of bounded
depth in them or none at all (`Acceptable`). Whatever else the bytes are, they are refused with an
error of transport or of the region. -/

namespace FieldBuffers

open Item

variable {w : Width} {bs frame : Bytes}

/-! Modes. -/

/-- The exported bytes stand for a frame. -/
def ExportMode.Carries : ExportMode → Bytes → Bytes → Prop
  | binary, bs, frame => bs = frame
  | textSafe, bs, frame => ∃ before after : List Char,
      (∀ c ∈ before ++ after, Text.isBlank c = true) ∧
        bs = Bytes.ofText (String.ofList (before ++ Base64.encode frame ++ after))

theorem ExportMode.unwrap_eq_ok_iff (m : ExportMode) :
    m.unwrap bs = .ok frame ↔ m.Carries bs frame := by
  cases m with
  | binary => simp [unwrap, Carries]
  | textSafe =>
    have hplain : ∀ c ∈ Base64.encode frame, Text.isBlank c = false :=
      fun c hc => (Base64.written_of_mem_encode frame c hc).not_blank
    constructor
    · intro h
      simp only [unwrap] at h
      split at h
      · simp at h
      · rename_i s hs
        split at h
        · simp at h
        · rename_i frame' hdecode
          obtain rfl := Except.ok.inj h
          obtain ⟨before, after, hblank, htext⟩ := Text.exists_trim s.toList
          rw [Base64.decode_eq_some_iff.1 hdecode] at htext
          refine ⟨before, after, hblank, ?_⟩
          rw [← htext, String.ofList_toList]
          exact Bytes.toText?_eq_some_iff.1 hs
    · rintro ⟨before, after, hblank, rfl⟩
      have htrim : Text.trim (before ++ Base64.encode frame ++ after) = Base64.encode frame :=
        Text.trim_append (fun c hc => hblank c (List.mem_append_left _ hc)) hplain
          fun c hc => hblank c (List.mem_append_right _ hc)
      simp only [unwrap, Bytes.toText?_ofText, String.toList_ofList, htrim, Base64.decode_encode]

theorem ExportMode.Carries.length_le {m : ExportMode} (h : m.Carries bs frame) :
    frame.length ≤ bs.length := by
  cases m with
  | binary => exact Nat.le_of_eq (congrArg List.length h.symm)
  | textSafe =>
    obtain ⟨before, after, -, rfl⟩ := h
    refine Nat.le_trans (Base64.length_le_encode frame) (Nat.le_trans ?_ (Bytes.length_le_ofText _))
    simp only [List.length_append]
    omega

/-- An error that is about how bytes travel. -/
def Error.IsTransport (e : Error) : Prop := ∃ cause, e = .transport cause

theorem ExportMode.transport_of_unwrap {m : ExportMode} {e : Error}
    (h : m.unwrap bs = .error e) : e.IsTransport := by
  cases m with
  | binary => simp [unwrap] at h
  | textSafe =>
    simp only [unwrap] at h
    split at h
    · exact ⟨_, (Except.error.inj h).symm⟩
    · split at h
      · exact ⟨_, (Except.error.inj h).symm⟩
      · simp at h

/-! Frames. -/

namespace Frame

/-- A frame of the family's buffers, with a region or, if the flag says so, with none. -/
structure Holds (w : Width) (frame : Bytes) (region : Option Bytes) : Prop where
  parts : ∃ (flags : UInt8) (subtype : String) (payload : Bytes),
    subtype.utf8ByteSize < 256 ∧ payload.length < 2 ^ 32 ∧
      frame = magic ++ version :: flags :: (shortText w.blockKind.name ++ shortText subtype
        ++ Bytes.little 4 payload.length ++ payload) ∧
      (flags &&& nullFlag ≠ 0 ∧ payload = [] ∧ region = none ∨
        flags &&& nullFlag = 0 ∧ region = some payload)

theorem splitHead_eq_ok_iff {flags : UInt8} {rest : Bytes} :
    splitHead bs = .ok (flags, rest) ↔ bs = magic ++ version :: flags :: rest := by
  constructor
  · intro h
    rw [splitHead] at h
    split at h
    · simp at h
    split at h
    · simp at h
    rename_i hmagic
    rw [Decidable.not_not] at hmagic
    split at h
    · simp at h
    rename_i v more hmore
    split at h
    · simp at h
    rename_i hv
    rw [Decidable.not_not] at hv
    split at h
    · simp at h
    · obtain ⟨rfl, rfl⟩ := Prod.mk.inj (Except.ok.inj h)
      rw [← List.take_append_drop 4 bs, hmagic, hmore, hv]
  · rintro rfl
    exact splitHead_magic flags rest

theorem splitText_eq_ok_iff {what s : String} {rest : Bytes} :
    splitText what bs = .ok (s, rest) ↔ s.utf8ByteSize < 256 ∧ bs = shortText s ++ rest := by
  constructor
  · intro h
    cases bs with
    | nil => simp [splitText] at h
    | cons n more =>
      simp only [splitText] at h
      split at h
      · simp at h
      rename_i hlen
      split at h
      · simp at h
      rename_i t ht
      obtain ⟨rfl, rfl⟩ := Prod.mk.inj (Except.ok.inj h)
      have htext := Bytes.toText?_eq_some_iff.1 ht
      have hsize : t.utf8ByteSize = n.toNat := by
        rw [← Bytes.length_ofText, ← htext, List.length_take]
        rw [List.length_take] at hlen
        omega
      refine ⟨hsize ▸ n.toNat_lt, ?_⟩
      rw [shortText, hsize, UInt8.ofNat_toNat, ← htext, List.cons_append, List.take_append_drop]
  · rintro ⟨hs, rfl⟩
    exact splitText_shortText what s hs rest

theorem splitPayload_eq_ok_iff {payload : Bytes} :
    splitPayload bs = .ok payload ↔
      payload.length < 2 ^ 32 ∧ bs = Bytes.little 4 payload.length ++ payload := by
  constructor
  · intro h
    simp only [splitPayload] at h
    split at h
    · simp at h
    rename_i hword
    split at h
    · rename_i hlen
      obtain rfl := Except.ok.inj h
      have hfour : (bs.take 4).length = 4 := by
        rw [List.length_take] at hword ⊢
        omega
      refine ⟨?_, ?_⟩
      · have hlt := Bytes.ofLittle_lt (bs.take 4)
        rw [hfour] at hlt
        exact hlen ▸ hlt
      · have hback := Bytes.little_ofLittle (bs.take 4)
        rw [hfour] at hback
        rw [hlen, hback, List.take_append_drop]
    · simp at h
  · rintro ⟨hlt, rfl⟩
    exact splitPayload_little hlt

theorem ofName_eq_ok {s : String} {k : BlockKind} (h : BlockKind.ofName s = .ok k) :
    s = k.name := by
  rw [BlockKind.ofName] at h
  split at h
  · rename_i k' hk
    obtain rfl := Except.ok.inj h
    have hname := List.find?_some hk
    exact (beq_iff_eq.1 hname).symm
  · simp at h

theorem region?_eq_ok_iff {region : Option Bytes} :
    region? w frame = .ok region ↔ Holds w frame region := by
  constructor
  · intro h
    obtain ⟨⟨flags, rest⟩, hhead, h⟩ := ok_bind_iff.1 h
    obtain ⟨⟨name, rest'⟩, hname, h⟩ := ok_bind_iff.1 h
    obtain ⟨kind, hkind, h⟩ := ok_bind_iff.1 h
    simp only at h
    split at h
    · obtain ⟨⟨⟩, hthrow, -⟩ := ok_bind_iff.1 h
      cases hthrow
    rename_i hexpected
    rw [Decidable.not_not] at hexpected
    obtain ⟨⟨subtype, rest''⟩, hsubtype, h⟩ := ok_bind_iff.1 h
    obtain ⟨payload, hpayload, hend⟩ := ok_bind_iff.1 h
    have hflags : flags &&& nullFlag ≠ 0 ∧ payload = [] ∧ region = none ∨
        flags &&& nullFlag = 0 ∧ region = some payload := by
      split at hend
      · rename_i hflags
        exact .inr ⟨hflags, (Except.ok.inj hend).symm⟩
      rename_i hflags
      split at hend
      · rename_i hempty
        exact .inl ⟨hflags, List.isEmpty_iff.1 hempty, (Except.ok.inj hend).symm⟩
      · cases hend
    obtain ⟨-, rfl⟩ := splitText_eq_ok_iff.1 hname
    obtain ⟨hsize, rfl⟩ := splitText_eq_ok_iff.1 hsubtype
    obtain ⟨hlen, rfl⟩ := splitPayload_eq_ok_iff.1 hpayload
    obtain rfl := splitHead_eq_ok_iff.1 hhead
    refine ⟨flags, subtype, payload, hsize, hlen, ?_, hflags⟩
    rw [ofName_eq_ok hkind, hexpected]
    simp only [List.append_assoc]
  · rintro ⟨flags, subtype, payload, hsubtype, hlen, rfl, hflags⟩
    simp only [region?, List.append_assoc, splitHead_magic, bind, Except.bind,
      splitText_shortText _ _ (utf8ByteSize_blockKind w), ofName_blockKind,
      splitText_shortText _ _ hsubtype, splitPayload_little hlen, ne_eq, not_true_eq_false, if_false]
    obtain ⟨hnull, rfl, rfl⟩ | ⟨hnone, rfl⟩ := hflags
    · rw [if_neg hnull]
      rfl
    · rw [if_pos hnone]
      rfl

theorem transport_of_splitHead {e : Error} (h : splitHead bs = .error e) : e.IsTransport := by
  rw [splitHead] at h
  split at h
  · exact ⟨_, (Except.error.inj h).symm⟩
  split at h
  · exact ⟨_, (Except.error.inj h).symm⟩
  split at h
  · exact ⟨_, (Except.error.inj h).symm⟩
  split at h
  · exact ⟨_, (Except.error.inj h).symm⟩
  split at h
  · exact ⟨_, (Except.error.inj h).symm⟩
  · simp at h

theorem transport_of_splitText {what : String} {e : Error} (h : splitText what bs = .error e) :
    e.IsTransport := by
  cases bs with
  | nil => exact ⟨_, (Except.error.inj h).symm⟩
  | cons n rest =>
    simp only [splitText] at h
    split at h
    · exact ⟨_, (Except.error.inj h).symm⟩
    split at h
    · exact ⟨_, (Except.error.inj h).symm⟩
    · simp at h

theorem transport_of_splitPayload {e : Error} (h : splitPayload bs = .error e) :
    e.IsTransport := by
  simp only [splitPayload] at h
  split at h
  · exact ⟨_, (Except.error.inj h).symm⟩
  split at h
  · simp at h
  · exact ⟨_, (Except.error.inj h).symm⟩

theorem transport_of_ofName {s : String} {e : Error} (h : BlockKind.ofName s = .error e) :
    e.IsTransport := by
  rw [BlockKind.ofName] at h
  split at h
  · simp at h
  · exact ⟨_, (Except.error.inj h).symm⟩

theorem transport_of_region? {e : Error} (h : region? w frame = .error e) : e.IsTransport := by
  rcases error_bind_iff.1 h with h | ⟨⟨flags, rest⟩, -, h⟩
  · exact transport_of_splitHead h
  rcases error_bind_iff.1 h with h | ⟨⟨name, rest'⟩, -, h⟩
  · exact transport_of_splitText h
  rcases error_bind_iff.1 h with h | ⟨kind, -, h⟩
  · exact transport_of_ofName h
  simp only at h
  split at h
  · rcases error_bind_iff.1 h with h | ⟨⟨⟩, h, -⟩
    · exact ⟨_, (Except.error.inj h).symm⟩
    · cases h
  rcases error_bind_iff.1 h with h | ⟨⟨subtype, rest''⟩, -, h⟩
  · exact transport_of_splitText h
  rcases error_bind_iff.1 h with h | ⟨payload, -, h⟩
  · exact transport_of_splitPayload h
  split at h
  · cases h
  split at h
  · cases h
  · exact ⟨_, (Except.error.inj h).symm⟩

theorem length_le_of_holds {region : Bytes} (h : Holds w frame (some region)) :
    region.length ≤ frame.length := by
  obtain ⟨flags, subtype, payload, -, -, rfl, ⟨-, -, hnone⟩ | ⟨-, hsome⟩⟩ := h
  · simp at hnone
  · obtain rfl := Option.some.inj hsome
    simp only [List.length_append, List.length_cons]
    omega

end Frame

/-! Regions. -/

/-- An error that is about the bytes of a region, or about room for it. -/
def Error.IsOfRegion (e : Error) : Prop :=
  (∃ offset cause, e = .corrupt offset cause) ∨ ∃ size limit, e = .arenaCapacity size limit

namespace Region

theorem isOfRegion_fromOutside {e : Error} (offset : Nat) (h : e.IsOfRegion) :
    (fromOutside offset e).IsOfRegion := by
  obtain ⟨inner, cause, rfl⟩ | ⟨size, limit, rfl⟩ := h
  · exact .inl ⟨_, _, rfl⟩
  · exact .inr ⟨_, _, rfl⟩

theorem isOfRegion_of_header {e : Error} (h : header w bs = .error e) : e.IsOfRegion := by
  rcases error_bind_iff.1 h with h | ⟨g, -, h⟩
  · rw [Header.decode] at h
    split at h
    · simp at h
    · exact .inl ⟨_, _, (Except.error.inj h).symm⟩
  rcases error_bind_iff.1 h with h | ⟨⟨⟩, -, h⟩
  · rw [Header.check] at h
    split at h
    · exact .inl ⟨_, _, (Except.error.inj h).symm⟩
    split at h
    · exact .inl ⟨_, _, (Except.error.inj h).symm⟩
    split at h
    · exact .inl ⟨_, _, (Except.error.inj h).symm⟩
    split at h
    · exact .inl ⟨_, _, (Except.error.inj h).symm⟩
    · simp at h
  · split at h
    · cases h
    · exact .inl ⟨_, _, (Except.error.inj h).symm⟩

theorem isOfRegion_of_checkRoom {c : ArenaConfig} {size : Nat} {e : Error}
    (h : checkRoom c size = .error e) : e.IsOfRegion := by
  rw [checkRoom, ArenaConfig.check] at h
  split at h
  · exact .inr ⟨_, _, (Except.error.inj h).symm⟩
  · split at h
    · simp at h
    · exact .inr ⟨_, _, (Except.error.inj h).symm⟩

theorem isOfRegion_of_splitName {offset : Nat} {e : Error}
    (h : Value.splitName offset bs = .error e) : e.IsOfRegion := by
  cases bs with
  | nil => exact .inl ⟨_, _, (Except.error.inj h).symm⟩
  | cons n rest =>
    simp only [Value.splitName] at h
    split at h
    · exact .inl ⟨_, _, (Except.error.inj h).symm⟩
    split at h
    · exact .inl ⟨_, _, (Except.error.inj h).symm⟩
    · simp at h

theorem isOfRegion_of_decodeFlat {t : FieldType} {offset : Nat} {e : Error}
    (h : Value.decodeFlat t offset bs = .error e) : e.IsOfRegion := by
  cases t <;> simp only [Value.decodeFlat, Value.decodeFlat.sized] at h
  case ptr =>
    rcases error_bind_iff.1 h with h | ⟨address, -, h⟩
    · split at h
      · simp at h
      · exact .inl ⟨_, _, (Except.error.inj h).symm⟩
    · split at h
      · cases h
      · exact .inl ⟨_, _, (Except.error.inj h).symm⟩
  case mbstring | view => exact isOfRegion_of_splitName (error_map_iff.1 h)
  case carray | fml => cases h
  all_goals
    split at h
    · simp at h
    · exact .inl ⟨_, _, (Except.error.inj h).symm⟩

theorem isOfRegion_of_checkEntries {c : ArenaConfig} {offset : Nat} {e : Error}
    (h : checkEntries c w offset bs = .error e) : e.IsOfRegion := by
  induction hn : bs.length using Nat.strongRecOn generalizing w offset bs e with
  | ind n ih =>
    rw [checkEntries] at h
    split at h
    · simp at h
    split at h
    · exact .inl ⟨_, _, (Except.error.inj h).symm⟩
    rename_i p hp
    split at h
    · exact .inl ⟨_, _, (Except.error.inj h).symm⟩
    split at h
    · exact .inl ⟨_, _, (Except.error.inj h).symm⟩
    have hrest := Entry.length_rest_lt hp
    have hvalue := Entry.length_value_lt hp
    simp only at h
    split at h
    · rename_i e' hchecked
      obtain rfl := Except.error.inj h
      split at hchecked
      · obtain ⟨inner, hinner, rfl⟩ := error_mapError_iff.1 hchecked
        apply isOfRegion_fromOutside
        rcases error_bind_iff.1 hinner with hheader | ⟨g, -, hinner⟩
        · exact isOfRegion_of_header hheader
        rcases error_bind_iff.1 hinner with hentries | ⟨⟨⟩, -, hroom⟩
        · refine ih _ ?_ hentries rfl
          rw [List.length_drop]
          omega
        · exact isOfRegion_of_checkRoom hroom
      · exact isOfRegion_of_decodeFlat (error_map_iff.1 hchecked)
    · exact ih _ (hn ▸ hrest) h rfl

theorem isOfRegion_of_check {c : ArenaConfig} {e : Error} (h : check c w bs = .error e) :
    e.IsOfRegion := by
  rcases error_bind_iff.1 h with h | ⟨g, -, h⟩
  · exact isOfRegion_of_header h
  split at h
  · rcases error_bind_iff.1 h with h | ⟨⟨⟩, h, -⟩
    · exact .inl ⟨_, _, (Except.error.inj h).symm⟩
    · cases h
  · rcases error_bind_iff.1 h with h | ⟨⟨⟩, -, h⟩
    · exact isOfRegion_of_checkEntries h
    · cases h

/-- Buffers nest in the region at most so many levels deep. -/
def NestsWithin : Nat → (w : Width) → Bytes → Prop
  | 0, w, region => ∀ e ∈ Entry.ofRegion w region, e.id.type = .fml → e.value = []
  | n + 1, w, region => ∀ e ∈ Entry.ofRegion w region, e.id.type = .fml → e.value ≠ [] →
      NestsWithin n .wide e.value

theorem nesting_le_iff {n limit : Nat} (hn : n < limit) (region : Bytes) :
    nesting limit w region ≤ n ↔ NestsWithin n w region := by
  obtain ⟨limit, rfl⟩ := Nat.exists_eq_succ_of_ne_zero (Nat.ne_of_gt (Nat.zero_lt_of_lt hn))
  rw [Nat.succ_eq_add_one, nesting_succ_le_iff]
  induction n generalizing w region limit with
  | zero =>
    simp only [Nat.not_lt_zero, imp_false, Decidable.not_not]
    rfl
  | succ n ih =>
    obtain ⟨limit, rfl⟩ := Nat.exists_eq_succ_of_ne_zero (show limit ≠ 0 by omega)
    have hdeeper : ∀ value : Bytes,
        nesting (limit + 1) .wide value < n + 1 ↔ NestsWithin n .wide value := by
      intro value
      rw [Nat.lt_succ_iff, nesting_succ_le_iff]
      exact ih value limit (by omega)
    simp only [Nat.succ_eq_add_one, hdeeper]
    rfl

theorem nestingDepth_le_iff_nestsWithin (region : Bytes) :
    nestingDepth w region ≤ maxNesting ↔ NestsWithin maxNesting w region :=
  nesting_le_iff (Nat.lt_succ_self _) region

end Region

/-! Import. -/

/-- The bytes are, in their mode, a frame with nothing in it or with a sound region in which
buffers nest to the bounded depth. -/
def Acceptable (w : Width) (m : ExportMode) (bs : Bytes) : Prop :=
  ∃ frame region, m.Carries bs frame ∧ Frame.Holds w frame region ∧
    ∀ r, region = some r → Region.Sound w r ∧ Region.NestsWithin maxNesting w r

namespace Buffer

/-- A buffer as import leaves it. -/
def IsImported (b : Buffer w) : Prop :=
  b = .null ∨ ∃ s, b = .allocated s ∧ s.index.isSome ∧ s.WellFormed

variable {region : Bytes} {a : Arena}

theorem ofRegion_eq_ok {b : Buffer w} {a' : Arena} (h : ofRegion w region a = .ok (b, a')) :
    Region.Sound w region ∧ Region.NestsWithin maxNesting w region ∧ b.IsImported := by
  obtain ⟨g, handle, -, hs, hd, -, -⟩ := exists_of_ofRegion h
  obtain ⟨s, xs, rfl, hx, hi, -⟩ := holds_of_ofRegion h
  exact ⟨hs, (Region.nestingDepth_le_iff_nestsWithin _).1 hd, .inr ⟨_, rfl, hi, hx.wellFormed⟩⟩

theorem ofRegion_of_room (hs : Region.Sound w region)
    (hn : Region.NestsWithin maxNesting w region) (hroom : region.length ≤ a.config.ceiling) :
    ∃ r, ofRegion w region a = .ok r := by
  have hgrant : Region.Room a.config region.length := ⟨hs.length_lt, hroom⟩
  obtain ⟨h, hh⟩ := hs.header_eq_ok
  have hcheck := hs.check_eq_ok hh ((Region.nestingDepth_le_iff_nestsWithin _).2 hn) hgrant
  have hreserve : ∃ r, a.reserve w.blockKind region.length = .ok r := by
    rw [Arena.reserve, ArenaConfig.check, if_pos hgrant.granted]
    exact ⟨_, rfl⟩
  obtain ⟨⟨handle, a'⟩, hreserve⟩ := hreserve
  refine ⟨_, ok_bind_iff.2 ⟨h, hcheck, ok_bind_iff.2 ⟨(), ?_, ok_bind_iff.2 ⟨_, hreserve, rfl⟩⟩⟩⟩
  exact (Region.checkRoom_eq_ok_iff ..).2 hgrant

theorem ofRegion_eq_error {e : Error} (h : ofRegion w region a = .error e) :
    e.IsOfRegion ∧ (Region.Sound w region → Region.NestsWithin maxNesting w region →
      a.config.Refuses e) := by
  rcases error_bind_iff.1 h with hcheck | ⟨g, -, h⟩
  · refine ⟨Region.isOfRegion_of_check hcheck, fun hs hn => ?_⟩
    exact hs.refuses_of_check ((Region.nestingDepth_le_iff_nestsWithin _).2 hn) hcheck
  rcases error_bind_iff.1 h with hroom | ⟨⟨⟩, -, h⟩
  · exact ⟨Region.isOfRegion_of_checkRoom hroom,
      fun hs _ => Region.refuses_of_checkRoom (.inl hs.length_lt) hroom⟩
  rcases error_bind_iff.1 h with hreserve | ⟨r, -, h⟩
  · rcases error_bind_iff.1 hreserve with hsize | ⟨⟨⟩, -, hend⟩
    · rw [ArenaConfig.check] at hsize
      split at hsize
      · simp at hsize
      · rename_i hlt
        obtain rfl := Except.error.inj hsize
        exact ⟨.inr ⟨_, _, rfl⟩, fun _ _ => ⟨_, _, Nat.not_le.1 hlt, rfl⟩⟩
    · cases hend
  · cases h

theorem imported_eq_ok {m : ExportMode} {b : Buffer w} {a' : Arena}
    (h : imported w m bs a = .ok (b, a')) : Acceptable w m bs ∧ b.IsImported := by
  obtain ⟨frame, hframe, h⟩ := ok_bind_iff.1 h
  obtain ⟨region, hregion, h⟩ := ok_bind_iff.1 h
  have hcarries := m.unwrap_eq_ok_iff.1 hframe
  have hholds := Frame.region?_eq_ok_iff.1 hregion
  cases region with
  | none =>
    obtain ⟨rfl, -⟩ := Prod.mk.inj (Except.ok.inj h)
    exact ⟨⟨frame, none, hcarries, hholds, by simp⟩, .inl rfl⟩
  | some region =>
    obtain ⟨hs, hn, hb⟩ := ofRegion_eq_ok h
    refine ⟨⟨frame, some region, hcarries, hholds, ?_⟩, hb⟩
    rintro r ⟨⟩
    exact ⟨hs, hn⟩

theorem imported_eq_error {m : ExportMode} {e : Error} (h : imported w m bs a = .error e) :
    (e.IsTransport ∨ e.IsOfRegion) ∧ (Acceptable w m bs → a.config.Refuses e) := by
  rcases error_bind_iff.1 h with hunwrap | ⟨frame, hframe, h⟩
  · refine ⟨.inl (ExportMode.transport_of_unwrap hunwrap), ?_⟩
    rintro ⟨frame, region, hcarries, -⟩
    rw [m.unwrap_eq_ok_iff.2 hcarries] at hunwrap
    simp at hunwrap
  rcases error_bind_iff.1 h with hregion | ⟨region, hregion, h⟩
  · refine ⟨.inl (Frame.transport_of_region? hregion), ?_⟩
    rintro ⟨frame', region, hcarries, hholds, -⟩
    obtain rfl := Except.ok.inj (hframe.symm.trans (m.unwrap_eq_ok_iff.2 hcarries))
    rw [Frame.region?_eq_ok_iff.2 hholds] at hregion
    simp at hregion
  cases region with
  | none => cases h
  | some region =>
    obtain ⟨hkind, hrefuses⟩ := ofRegion_eq_error h
    refine ⟨.inr hkind, ?_⟩
    rintro ⟨frame', region', hcarries, hholds, hall⟩
    obtain rfl := Except.ok.inj (hframe.symm.trans (m.unwrap_eq_ok_iff.2 hcarries))
    obtain rfl := Except.ok.inj (hregion.symm.trans (Frame.region?_eq_ok_iff.2 hholds))
    obtain ⟨hs, hn⟩ := hall region rfl
    exact hrefuses hs hn

theorem imported_of_room {m : ExportMode} (h : Acceptable w m bs)
    (hroom : bs.length ≤ a.config.ceiling) : ∃ r, imported w m bs a = .ok r := by
  obtain ⟨frame, region, hcarries, hholds, hall⟩ := h
  have hunwrap := m.unwrap_eq_ok_iff.2 hcarries
  have hregion := Frame.region?_eq_ok_iff.2 hholds
  cases region with
  | none => exact ⟨_, ok_bind_iff.2 ⟨frame, hunwrap, ok_bind_iff.2 ⟨none, hregion, rfl⟩⟩⟩
  | some region =>
    obtain ⟨hs, hn⟩ := hall region rfl
    have hlen := Nat.le_trans (Frame.length_le_of_holds hholds) hcarries.length_le
    obtain ⟨r, hr⟩ := ofRegion_of_room hs hn (Nat.le_trans hlen hroom)
    exact ⟨r, ok_bind_iff.2 ⟨frame, hunwrap, ok_bind_iff.2 ⟨some region, hregion, hr⟩⟩⟩

end Buffer

end FieldBuffers
