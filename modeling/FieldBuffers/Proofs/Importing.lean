import FieldBuffers.Proofs.Acceptance
import FieldBuffers.Proofs.Positions

/-! Import is safe and exact (`Buffer.imported_exact`): it reads no byte that is not there, refuses
with an error of transport or of the region, leaves a null buffer or an indexed one that is well
formed, and takes what is `Acceptable` as far as the ceiling allows. -/

namespace FieldBuffers

open Item

namespace Positional

variable {β : Type} {w : Width} {bs region : Bytes} {i : Nat}

/-! The storage that a region is. -/

/-- The entries in use put in order, and indexed where they then are. -/
def indexedAt (s : Storage w) : Positional (Storage w) := do
  let region ← slice s.block 0 s.used
  let es ← walk w region.val Header.size
  let sorted ← (Storage.sortEntries es).mapM fun e => do
    return (← slice region.val e.offset e.stop).val
  let s := s.withLive sorted.flatten
  let region ← slice s.block 0 s.used
  let es ← walk w region.val Header.size
  return { s with
    header := s.header.setIndexed true
    interval := Index.defaultInterval
    index := some (Index.build Index.defaultInterval es) }

def storageAt (handle : Nat) (h : Header) (region : Bytes) : Positional (Storage w) := do
  let body ← slice region Header.size region.length
  indexedAt
    { handle
      header := { h with capacity := UInt32.ofNat region.length }
      body := body.val
      index := none
      interval := Index.defaultInterval }

/-- An entry lies inside of its region. -/
theorem slice_of_mem_layout {xs : List (Item w)} {offset : Nat} {rest : Bytes} {e : Entry w}
    (hr : region.drop offset = encodeAll xs ++ rest) (he : e ∈ layout offset xs) :
    e.stop ≤ region.length ∧ (region.drop e.offset).take e.size = e.encode := by
  induction xs generalizing offset with
  | nil => cases he
  | cons x xs ih =>
    rw [encodeAll_cons, List.append_assoc] at hr
    rw [layout_cons] at he
    cases he with
    | head =>
      have hlen := congrArg List.length hr
      have hpos := x.size_pos
      rw [List.length_drop, List.length_append, length_encode] at hlen
      refine ⟨show offset + x.size ≤ region.length by omega, ?_⟩
      show (region.drop offset).take x.size = x.encode
      rw [hr, ← length_encode, List.take_left']
      rfl
    | tail _ he =>
      refine ih ?_ he
      rw [← List.drop_drop, hr, List.drop_left' (length_encode x)]

theorem slice_of_mem_scan {offset : Nat} {e : Entry w}
    (he : e ∈ Entry.scan w offset (region.drop offset)) :
    e.stop ≤ region.length ∧ (region.drop e.offset).take e.size = e.encode := by
  obtain ⟨xs, rest, hr, -, hscan⟩ := Entry.exists_scan (w := w) offset (region.drop offset)
  exact slice_of_mem_layout hr (hscan ▸ he)

/-- The bytes in use are the header's and then the entries'. -/
theorem used_bind {s : Storage w} {f : { r : Bytes // r.length = s.used - 0 } → Positional β}
    {y : Except Error β} (h : s.used ≤ s.capacity)
    (hf : ∀ r hr, r.drop Header.size = s.live → Gives (f ⟨r, hr⟩) y) :
    Gives (slice s.block 0 s.used >>= f) y := by
  have hblock : s.block.length = s.capacity := by
    rw [Storage.block, List.length_append, Header.length_encode, Storage.capacity]
  refine slice_bind (Nat.zero_le _) (hblock ▸ h) fun hs => hf _ hs ?_
  rw [List.drop_zero, Nat.sub_zero, List.drop_take, Storage.block,
    List.drop_left' (Header.length_encode _)]
  rfl

theorem used_withLive_le (s : Storage w) (live : Bytes) :
    (s.withLive live).used ≤ (s.withLive live).capacity := by
  have hmod : (s.withLive live).used ≤ Header.size + live.length := by
    simp only [Storage.used, Storage.withLive, UInt32.toNat_ofNat']
    exact Nat.mod_le ..
  refine Nat.le_trans hmod (Nat.add_le_add_left ?_ _)
  rw [Storage.withLive, List.length_append, List.length_append]
  omega

theorem indexedAt_gives {s : Storage w} (h : s.used ≤ s.capacity) :
    Gives (indexedAt s) (.ok (s.indexed Index.defaultInterval)) := by
  refine used_bind h fun region _ hlive => (walk_gives region Header.size).bind_ok ?_
  have hsorted : Gives ((Storage.sortEntries s.entries).mapM fun e => do
      return (← slice region e.offset e.stop).val)
      (.ok ((Storage.sortEntries s.entries).map Entry.encode)) := by
    refine mapM_gives fun e he => ?_
    rw [Storage.sortEntries, List.mem_mergeSort, Storage.entries, ← hlive] at he
    obtain ⟨hstop, hencode⟩ := slice_of_mem_scan he
    refine slice_bind (Nat.le_add_right ..) hstop fun _ => ?_
    simp only [Entry.stop, Nat.add_sub_cancel_left, hencode]
    exact gives_pure _
  rw [hlive]
  refine hsorted.bind_ok (used_bind (used_withLive_le ..) fun sorted _ hsortedLive => ?_)
  refine (walk_gives sorted Header.size).bind_ok ?_
  rw [hsortedLive, ← List.flatMap_def]
  exact gives_pure _

theorem storageAt_gives (handle : Nat) {h : Header} (hu : h.used.toNat = region.length)
    (hsize : Header.size ≤ region.length) :
    Gives (storageAt handle h region) (.ok (Region.storage handle h region : Storage w)) := by
  refine slice_bind hsize (Nat.le_refl _) fun _ => ?_
  have hbody : (region.drop Header.size).take (region.length - Header.size) =
      region.drop Header.size := List.take_of_length_le (Nat.le_of_eq List.length_drop)
  simp only [hbody]
  refine indexedAt_gives ?_
  simp only [Storage.used, Storage.capacity, hu, List.length_drop]
  omega

/-! Regions and frames. -/

def checkAt (c : ArenaConfig) (w : Width) (region : Bytes) : Positional Header := do
  let h ← headerAt w region
  if maxNesting < (← nestingAt (maxNesting + 1) w region) then
    throw (.corrupt Header.size s!"buffers nested more than {maxNesting} levels deep")
  checkEntriesAt c w region Header.size
  return h

def ofRegionAt (w : Width) (region : Bytes) (a : Arena) : Positional (Buffer w × Arena) := do
  let h ← checkAt a.config w region
  pureStep (Region.checkRoom a.config region.length)
  let (handle, a) ← pureStep (a.reserve w.blockKind region.length)
  return (.allocated (← storageAt handle h region), a)

theorem checkAt_gives (c : ArenaConfig) (w : Width) (region : Bytes) :
    Gives (checkAt c w region) (Region.check c w region) := by
  have hdepth : Gives (nestingAt (maxNesting + 1) w region) (.ok (nestingDepth w region)) :=
    nestingAt_gives ..
  refine (headerAt_gives w region).bind fun h _ => hdepth.bind_ok ?_
  by_cases hdeep : maxNesting < nestingDepth w region
  · rw [if_pos hdeep, if_pos hdeep]
    exact gives_throw _
  · rw [if_neg hdeep, if_neg hdeep]
    exact (checkEntriesAt_gives c w region Header.size).bind fun _ _ => gives_pure _

theorem ofRegionAt_gives (w : Width) (region : Bytes) (a : Arena) :
    Gives (ofRegionAt w region a) (Buffer.ofRegion w region a) := by
  refine (checkAt_gives a.config w region).bind fun h hcheck => ?_
  refine (gives_pureStep _).bind fun _ _ => (gives_pureStep _).bind fun r _ => ?_
  obtain ⟨hh, -, -⟩ := Region.of_check_eq_ok hcheck
  obtain ⟨hr, -, hu⟩ := (Region.header_eq_ok_iff w region h).1 hh
  have hsize : Header.size ≤ region.length := by
    rw [hr, List.length_append, Header.length_encode]
    exact Nat.le_add_right ..
  exact (storageAt_gives r.1 hu hsize).bind_ok (gives_pure _)

/-- The flags of a frame, with which the first six bytes of it end. -/
def headAt (bs : Bytes) : Positional UInt8 :=
  if bs.length < 4 then throw (.transport "truncated frame header")
  else do
    if (← slice bs 0 4).val ≠ Frame.magic then throw (.transport "bad frame magic")
    else if bs.length < 5 then throw (.transport "truncated frame header")
    else
      let v ← byte bs 4
      if v ≠ Frame.version then throw (.transport s!"unsupported frame version {v}")
      else if bs.length < 6 then throw (.transport "truncated frame header")
      else byte bs 5

/-- A text after its length, and where it ends. -/
def textAt (what : String) (bs : Bytes) (i : Nat) : Positional (String × Nat) :=
  if bs.length < i + 1 then throw (.transport s!"truncated {what}")
  else do
    let stop := i + 1 + (← byte bs i).toNat
    if bs.length < stop then throw (.transport s!"truncated {what}")
    else
      match Bytes.toText? (← slice bs (i + 1) stop).val with
      | none => throw (.transport s!"{what} is not UTF-8")
      | some s => return (s, stop)

/-- The payload, whose length has to be the stated one. -/
def payloadAt (bs : Bytes) (i : Nat) : Positional Bytes :=
  if bs.length < i + 4 then throw (.transport "truncated payload length")
  else do
    let stated ← number bs i 4
    let payload := (← slice bs (i + 4) bs.length).val
    if payload.length = stated then return payload
    else
      throw (.transport s!"payload length {stated} does not match {payload.length} bytes present")

def regionAt (w : Width) (bs : Bytes) : Positional (Option Bytes) := do
  let flags ← headAt bs
  let (name, i) ← textAt "buffer kind" bs 6
  let kind ← pureStep (BlockKind.ofName name)
  if kind ≠ w.blockKind then
    throw (.transport s!"expected {w.blockKind.name} buffer, frame holds {kind.name}")
  let (_, i) ← textAt "subtype" bs i
  let payload ← payloadAt bs i
  if flags &&& Frame.nullFlag = 0 then return some payload
  else if payload.isEmpty then return none
  else throw (.transport "null buffer frame carries a payload")

theorem headAt_bind {f : UInt8 → Positional β} {g : UInt8 × Bytes → Except Error β}
    (h : ∀ flags, Gives (f flags) (g (flags, bs.drop 6))) :
    Gives (headAt bs >>= f) (Frame.splitHead bs >>= g) := by
  rw [headAt, Frame.splitHead]
  by_cases hfour : bs.length < 4
  · rw [if_pos hfour, if_pos (by rw [List.length_take]; omega)]
    exact gives_throw _
  have hhead : ¬ (bs.take 4).length < 4 := by
    rw [List.length_take]
    omega
  rw [if_neg hfour, if_neg hhead, bind_assoc]
  refine slice_bind (Nat.zero_le _) (by omega) fun _ => ?_
  simp only [Nat.sub_zero, List.drop_zero]
  by_cases hmagic : bs.take 4 ≠ Frame.magic
  · rw [if_pos hmagic, if_pos hmagic]
    exact gives_throw _
  rw [if_neg hmagic, if_neg hmagic]
  by_cases hfive : bs.length < 5
  · rw [if_pos hfive, List.drop_eq_nil_of_le (by omega)]
    exact gives_throw _
  rw [if_neg hfive, bind_assoc, List.drop_eq_getElem_cons (by omega)]
  refine byte_bind (by omega) ?_
  simp only
  by_cases hversion : bs[4] ≠ Frame.version
  · rw [if_pos hversion, if_pos hversion]
    exact gives_throw _
  rw [if_neg hversion, if_neg hversion]
  by_cases hsix : bs.length < 6
  · rw [if_pos hsix, List.drop_eq_nil_of_le (by omega)]
    exact gives_throw _
  rw [if_neg hsix, List.drop_eq_getElem_cons (by omega)]
  exact byte_bind (by omega) (h _)

theorem textAt_bind {what : String} {f : String × Nat → Positional β}
    {g : String × Bytes → Except Error β} (h : ∀ s j, Gives (f (s, j)) (g (s, bs.drop j))) :
    Gives (textAt what bs i >>= f) (Frame.splitText what (bs.drop i) >>= g) := by
  rw [textAt]
  by_cases hshort : bs.length < i + 1
  · rw [if_pos hshort, List.drop_eq_nil_of_le (by omega)]
    exact gives_throw _
  rw [if_neg hshort, bind_assoc, List.drop_eq_getElem_cons (by omega), Frame.splitText]
  refine byte_bind (by omega) ?_
  simp only [List.length_take, List.length_drop]
  by_cases hover : bs.length < i + 1 + bs[i].toNat
  · rw [if_pos hover, if_pos (by omega)]
    exact gives_throw _
  rw [if_neg hover, if_neg (by omega), bind_assoc]
  refine slice_bind (Nat.le_add_right ..) (by omega) fun _ => ?_
  simp only [Nat.add_sub_cancel_left, List.drop_drop]
  cases Bytes.toText? ((bs.drop (i + 1)).take bs[i].toNat) with
  | none => exact gives_throw _
  | some s => exact h s _

theorem payloadAt_gives (bs : Bytes) (i : Nat) :
    Gives (payloadAt bs i) (Frame.splitPayload (bs.drop i)) := by
  rw [payloadAt]
  simp only [Frame.splitPayload, List.length_take, List.length_drop, List.drop_drop]
  by_cases hshort : bs.length < i + 4
  · rw [if_pos hshort, if_pos (by omega)]
    exact gives_throw _
  rw [if_neg hshort, if_neg (by omega)]
  refine number_bind (by omega) (slice_bind (by omega) (Nat.le_refl _) fun hlen => ?_)
  have hrest : (bs.drop (i + 4)).take (bs.length - (i + 4)) = bs.drop (i + 4) :=
    List.take_of_length_le (Nat.le_of_eq List.length_drop)
  simp only [hrest, List.length_drop]
  split
  · exact gives_pure _
  · exact gives_throw _

theorem regionAt_gives (w : Width) (bs : Bytes) :
    Gives (regionAt w bs) (Frame.region? w bs) := by
  refine headAt_bind fun flags => textAt_bind fun name i => ?_
  refine (gives_pureStep _).bind fun kind _ => ?_
  simp only
  by_cases hkind : kind ≠ w.blockKind
  · rw [if_pos hkind, if_pos hkind]
    exact gives_throw _
  rw [if_neg hkind, if_neg hkind]
  refine textAt_bind fun _ i => (payloadAt_gives bs i).bind fun payload _ => ?_
  split
  · exact gives_pure _
  split
  · exact gives_pure _
  · exact gives_throw _

/-! Import. -/

def importedAt (w : Width) (m : ExportMode) (bs : Bytes) (a : Arena) :
    Positional (Buffer w × Arena) := do
  match ← regionAt w (← pureStep (m.unwrap bs)) with
  | none => return (.null, a)
  | some region => ofRegionAt w region a

theorem importedAt_gives (w : Width) (m : ExportMode) (bs : Bytes) (a : Arena) :
    Gives (importedAt w m bs a) (Buffer.imported w m bs a) := by
  refine (gives_pureStep _).bind fun frame _ => (regionAt_gives w frame).bind fun region _ => ?_
  cases region with
  | none => exact gives_pure _
  | some region => exact ofRegionAt_gives w region a

end Positional

/-- Import gives what it gives without a read outside of the bytes. What it takes is acceptable, and
an acceptable input is refused only for want of room under the ceiling. -/
theorem Buffer.imported_exact (w : Width) (m : ExportMode) (bs : Bytes) (a : Arena) :
    Positional.Gives (Positional.importedAt w m bs a) (imported w m bs a) ∧
    (∀ b a', imported w m bs a = .ok (b, a') → Acceptable w m bs ∧ b.IsImported) ∧
    (∀ e, imported w m bs a = .error e →
      (e.IsTransport ∨ e.IsOfRegion) ∧ (Acceptable w m bs → a.config.Refuses e)) ∧
    (Acceptable w m bs → bs.length ≤ a.config.ceiling → ∃ r, imported w m bs a = .ok r) :=
  ⟨Positional.importedAt_gives w m bs a, fun _ _ => imported_eq_ok, fun _ => imported_eq_error,
    imported_of_room⟩

end FieldBuffers
