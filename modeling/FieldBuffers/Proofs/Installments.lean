import FieldBuffers.Proofs.Blocks
import FieldBuffers.Proofs.Custody

/-! A dump that is read in parts. A buffer that an arena holds can always be copied, since its block
is one that the arena could give (`Custody.Run.settled`). Reading a dump comes to going through its
blocks (`read_concurs`), and so to reading its parts one after the other (`folds_of_run`). -/

namespace FieldBuffers

namespace Books

variable {a a' : Arena} {b b' : Books} {c : ArenaConfig} {past : List Books}

/-- No block that is out is larger than those that the arena gives. -/
def Bounded (b : Books) : Prop := ∀ x ∈ b.out, x.2 ≤ b.arena.config.ceiling

theorem Update.config (h : Update b b') : b'.arena.config = b.arena.config := by
  cases h with
  | reserve hres =>
    obtain ⟨⟨⟩, -, hres⟩ := ok_bind_iff.1 hres
    obtain ⟨-, rfl⟩ := Prod.mk.inj (Except.ok.inj hres)
    rfl
  | extend _ hext => exact Arena.config_extend hext
  | reduce => exact Arena.config_reduce ..
  | release => rfl

theorem le_ceiling_of_check {size : Nat} (h : c.check size = .ok ()) : size ≤ c.ceiling := by
  rw [ArenaConfig.check] at h
  split at h
  · assumption
  · cases h

theorem Bounded.update (hb : b.Bounded) (h : Update b b') : b'.Bounded := by
  rw [Bounded, h.config]
  cases h with
  | reserve hres =>
    obtain ⟨⟨⟩, hcheck, -⟩ := ok_bind_iff.1 hres
    exact Multiset.forall_mem_cons.2 ⟨le_ceiling_of_check hcheck, hb⟩
  | extend hlt hext =>
    rw [Arena.extend, if_neg (Nat.not_le.2 hlt)] at hext
    obtain ⟨⟨⟩, hcheck, -⟩ := ok_bind_iff.1 hext
    exact Multiset.forall_mem_cons.2 ⟨le_ceiling_of_check hcheck, (Multiset.forall_mem_cons.1 hb).2⟩
  | reduce hlt =>
    obtain ⟨hold, hout⟩ := Multiset.forall_mem_cons.1 hb
    exact Multiset.forall_mem_cons.2 ⟨hlt.le.trans hold, hout⟩
  | release => exact (Multiset.forall_mem_cons.1 hb).2

theorem Bounded.updates (hb : b.Bounded) (h : Updates b b') : b'.Bounded := by
  induction h with
  | refl => exact hb
  | tail _ hupdate ih => exact ih.update hupdate

theorem History.config (h : History c b past) : b.arena.config = c := by
  induction h with
  | opened => rfl
  | updated _ hupdate ih => exact hupdate.config.trans ih

theorem History.bounded (h : History c b past) : b.Bounded := by
  induction h with
  | opened => exact nofun
  | updated _ hupdate ih => exact ih.update hupdate

end Books

variable {w : Width}

/-- A place in order, whose buffer lies in a block that the arena could give. -/
structure Place.Settled (p : Place w) : Prop extends p.Good where
  bounded : Books.Bounded ⟨p.arena, p.buffer.out⟩

theorem Place.Settles.settled {p q : Place w} (h : p.Settles q) (hp : p.Settled) : q.Settled where
  toGood := h.good hp.toGood
  bounded := by
    have hupdates := h.updates 0
    rw [add_zero, add_zero] at hupdates
    exact hp.bounded.updates hupdates

theorem Custody.Run.settled {c : ArenaConfig} {s : Custody} {past : List Custody}
    (h : Custody.Run c s past) (hc : c.Stated) {b : Buffer w} (hb : .buffer b ∈ s.held) :
    Place.Settled ⟨s.arena, b⟩ := by
  obtain ⟨hfitted, ⟨books, hhistory, -⟩, -⟩ := h.keeps
  refine ⟨⟨hfitted _ hb, hhistory.config.symm ▸ hc⟩, fun x hx => hhistory.bounded x ?_⟩
  exact Multiset.mem_bind.2 ⟨_, hb, hx⟩

theorem Buffer.Within.twins_snapshot {b c : Buffer w} {a a' : Arena} (hb : b.Within)
    (h : b.snapshot a = .ok (c, a')) : b.Twins c := by
  have hsame := hb.matches_snapshot h
  obtain ⟨rfl, rfl⟩ | ⟨s, rfl, rfl⟩ := snapshot_eq_ok h
  · exact .null
  · cases hsame with
    | allocated hsame =>
      refine .allocated ⟨hsame, ?_, rfl⟩
      have hle : s.live.length ≤ s.body.length := List.length_take_le' ..
      rw [List.length_append, Bytes.length_zeros]
      omega

theorem Place.Settled.snapshot {p : Place w} (hp : p.Settled) :
    ∃ b a, p.buffer.snapshot p.arena = .ok (b, a) ∧ Place.Twins ⟨a, b⟩ p := by
  have hgranted : ∃ b a, p.buffer.snapshot p.arena = .ok (b, a) := by
    cases hb : p.buffer with
    | null => exact ⟨_, _, rfl⟩
    | allocated s =>
      have hceiling : s.capacity ≤ p.arena.config.ceiling := by
        refine hp.bounded (s.handle, s.capacity) ?_
        rw [hb]
        exact Multiset.mem_singleton_self _
      simp only [Buffer.snapshot, Arena.reserve, ArenaConfig.check, if_pos hceiling]
      exact ⟨_, _, rfl⟩
  obtain ⟨b, a, h⟩ := hgranted
  have hwithin : p.buffer.Within := fun s hs => (hp.fitted s hs).used_le
  exact ⟨b, a, h, (hwithin.twins_snapshot h).symm, Dump.snapshot_config h⟩

namespace Dump

variable {config : ArenaConfig} {files : Files}

/-- Goes through the blocks of a dump, with nothing to go back to when one of them fails. -/
def readBlocks (config : ArenaConfig) (files : Files) (dump : Bytes) : Reading w Unit := do
  let lines ← Reading.edit (Edit.ofExcept (linesFrom 1 (Text.linesBy 0x0A 0x0D dump)))
  forM (blocks lines) (readBlock config files)

theorem blocks_abreast (lines : List Line) : Abreast Progress.Twins
    (forM (blocks lines) (readBlock config files) : Reading w Unit) := by
  rw [← level_blocks]
  exact (level_abreast w 0 lines).bind fun _ => .pure _

theorem blocks_renumbered {lines lines' : List Line} (h : SameText lines lines') (p : Progress w) :
    Concurs Eq Eq ((forM (blocks lines) (readBlock config files) : Reading w Unit) p)
      ((forM (blocks lines') (readBlock config files) : Reading w Unit) p) := by
  rw [← level_blocks, ← level_blocks]
  refine (level_renumbered w 0 lines lines' h p).bind ?_
  rintro _ _ p _ - - rfl
  exact .ok rfl rfl

/-- Reading a dump comes to going through its blocks. -/
theorem read_concurs {p : Progress w} (hp : p.place.Settled) (dump : Bytes) :
    Concurs Eq Progress.Twins (read config files dump p) (readBlocks config files dump p) := by
  rw [read, readBlocks]
  cases linesFrom 1 (Text.linesBy 0x0A 0x0D dump) with
  | error e => exact .error
  | ok lines =>
    -- the copy is a twin of the buffer, so its lines do what the blocks do to the buffer
    obtain ⟨b, a, hcopy, htwins⟩ := hp.snapshot
    have hblocks : Concurs Eq Progress.Twins
        ((do let _ ← level config files w 0 lines : Reading w Unit) ⟨⟨a, b⟩, p.catalogs⟩)
        ((forM (blocks lines) (readBlock config files) : Reading w Unit) p) := by
      rw [level_blocks]
      exact blocks_abreast lines _ p ⟨htwins, rfl⟩
    change Concurs _ _ _ ((forM (blocks lines) (readBlock config files) : Reading w Unit) p)
    rw [level, bind_assoc] at hblocks
    generalize (forM (blocks lines) (readBlock config files) : Reading w Unit) p = x at hblocks ⊢
    dsimp only
    rw [hcopy]
    dsimp only
    cases hlevel : readLevel config files w 0 lines ⟨⟨a, b⟩, p.catalogs⟩ with
    | error e q =>
      rw [bind_of_error hlevel] at hblocks
      cases hblocks with
      | error => exact .error
    | ok r q =>
      rw [bind_of_ok hlevel] at hblocks
      change Concurs Eq Progress.Twins (.ok () q) x at hblocks
      cases hblocks with
      | ok hu htwins =>
        refine .ok hu ⟨⟨htwins.place.buffer, ?_⟩, htwins.catalogs⟩
        exact (Buffer.config_released q.place.arena p.place.buffer).trans htwins.place.config

theorem readBlocks_abreast (dump : Bytes) :
    Abreast Progress.Twins (readBlocks config files dump : Reading w Unit) :=
  (edit_abreast (Edit.ofExcept_abreast _)).bind fun _ => blocks_abreast _

theorem edit_ofExcept_bind {α β : Type} (r : Except Error α) (f : α → Reading w β) :
    (Reading.edit (Edit.ofExcept r) >>= f) = match r with
      | .ok a => f a
      | .error e => throw e := by
  cases r <;> rfl

/-- The blocks of a text are those of its parts, where the second part starts with a line that is
not indented. -/
theorem readBlocks_append {first : List Bytes} {second : Bytes} (hfirst : ∀ l ∈ first, IsLine l)
    (hsecond : second.head? ≠ some 0x09) (p : Progress w) :
    Concurs Eq Eq (readBlocks config files (ended first ++ second) p)
      ((do
        readBlocks config files (ended first)
        readBlocks config files second) p) := by
  have hsingle : ∀ l ∈ first, 0x0A ∉ l := fun l hl => (hfirst l hl).single
  have hall : Text.linesBy 0x0A 0x0D (ended first ++ second) = _ :=
    Text.linesBy_append hsingle second
  simp only [readBlocks, linesBy_ended hsingle, hall,
    linesFrom_append fun l hl => (hfirst l hl).notBlank, edit_ofExcept_bind]
  have htext := linesFrom_renumbered (1 + first.length) 1 (Text.linesBy 0x0A 0x0D second)
  cases linesFrom 1 (first.map (Text.chomp 0x0D)) with
  | error e => exact .error
  | ok xs =>
    cases hys : linesFrom (1 + first.length) (Text.linesBy 0x0A 0x0D second) with
    | error e =>
      -- the whole fails before the first block, the parts between the first and the second
      rw [hys] at htext
      rw [error_map_iff.1 htext.symm]
      change Concurs _ _ (.error e p)
        ((forM (blocks xs) (readBlock config files) >>= fun _ => throw e) p)
      cases hxs : (forM (blocks xs) (readBlock config files) : Reading w Unit) p with
      | error e q =>
        rw [bind_of_error hxs]
        exact .error
      | ok u q =>
        rw [bind_of_ok hxs]
        exact .error
    | ok ys =>
      rw [hys] at htext
      obtain ⟨zs, hzs, hsame⟩ := ok_map_iff.1 htext.symm
      rw [hzs]
      have hout : Outside 1 ys := outside_of_linesFrom hsecond hys
      change Concurs _ _ ((forM (blocks (xs ++ ys)) (readBlock config files) : Reading w Unit) p)
        ((forM (blocks xs) (readBlock config files) >>= fun _ =>
          forM (blocks zs) (readBlock config files) : Reading w Unit) p)
      rw [blocks_append hout, List.forM_append]
      refine (Concurs.refl (fun _ => rfl) _).bind ?_
      rintro u _ q _ - rfl rfl
      exact blocks_renumbered hsame.symm q

/-- Reading two parts of a text, the second of which starts with a line that is not indented, comes
to reading the whole. -/
theorem read_append {p : Progress w} (hp : p.place.Settled) {first : List Bytes} {second : Bytes}
    (hfirst : ∀ l ∈ first, IsLine l) (hsecond : second.head? ≠ some 0x09) :
    Concurs Eq Progress.Twins (read config files (ended first ++ second) p)
      ((do
        read config files (ended first)
        read config files second) p) := by
  have hparts : Concurs Eq Progress.Twins
      ((do
        read config files (ended first)
        read config files second) p)
      ((do
        readBlocks config files (ended first)
        readBlocks config files second) p) := by
    refine (read_concurs hp _).bind ?_
    rintro _ _ q r hread - htwins
    have hsettles : p.place.Settles q.place :=
      (ends_of_ok hread).1 (read_settling config files (ended first) p hp.toGood)
    exact (read_concurs (hsettles.settled hp) second).trans (readBlocks_abreast second q r htwins)
      (fun _ _ _ => Eq.trans) fun _ _ _ => Progress.Twins.trans
  have hwhole : Concurs Eq Progress.Twins (read config files (ended first ++ second) p)
      ((do
        readBlocks config files (ended first)
        readBlocks config files second) p) :=
    (read_concurs hp _).trans (readBlocks_append hfirst hsecond p) (fun _ _ _ => Eq.trans)
      fun _ _ _ h heq => heq ▸ h
  exact hwhole.trans (hparts.symm (fun _ _ => Eq.symm) fun _ _ => Progress.Twins.symm)
    (fun _ _ _ => Eq.trans) fun _ _ _ => Progress.Twins.trans

/-- Lines after a blank one are not read. -/
theorem read_blank {ls : List Bytes} {blank : Bytes} (hls : ∀ l ∈ ls, 0x0A ∉ l)
    (hsingle : 0x0A ∉ blank) (hblank : Blank blank) (rest : Bytes) :
    (read config files (ended (ls ++ [blank]) ++ rest) : Reading w Unit)
      = read config files (ended ls) := by
  have hall : ∀ l ∈ ls ++ [blank], 0x0A ∉ l := by
    intro l hl
    rcases List.mem_append.1 hl with hl | hl
    · exact hls l hl
    · exact List.mem_singleton.1 hl ▸ hsingle
  have hlines : linesFrom 1 (Text.linesBy 0x0A 0x0D (ended (ls ++ [blank]) ++ rest))
      = linesFrom 1 (Text.linesBy 0x0A 0x0D (ended ls)) := by
    have happend : Text.linesBy 0x0A 0x0D (ended (ls ++ [blank]) ++ rest) = _ :=
      Text.linesBy_append hall rest
    rw [happend, linesBy_ended hls, List.map_append, List.append_assoc]
    exact linesFrom_blank hblank 1 _ _
  funext p
  rw [read, hlines, read]

end Dump

theorem Buffer.Twins.shown {b c : Buffer w} (h : b.Twins c) : b.isNull = c.isNull ∧
    b.entries = c.entries ∧ b.index? = c.index? ∧ b.capacity = c.capacity := by
  refine ⟨h.toMatches.isNull, ?_, h.toMatches.index?, ?_⟩
  · cases h with
    | null => rfl
    | allocated h => exact h.entries
  · cases h with
    | null => rfl
    | allocated h => exact h.capacity

namespace Dump

/-- Reading is going through the blocks of a dump one after the other, up to the first blank line,
and can be taken up again at any line that is not indented. This is so for every buffer that an
arena came to hold. -/
theorem folds_of_run {c : ArenaConfig} {s : Custody} {past : List Custody}
    (h : Custody.Run c s past) (hc : c.Stated) {p : Progress w} (harena : p.place.arena = s.arena)
    (hb : .buffer p.place.buffer ∈ s.held) (config : ArenaConfig) (files : Files) :
    (∀ (first : List Bytes) (second : Bytes),
      (∀ l ∈ first, IsLine l) → second.head? ≠ some 0x09 →
      Concurs Eq Progress.Twins (read config files (ended first ++ second) p)
        ((do
          read config files (ended first)
          read config files second) p)) ∧
    (∀ dump : Bytes,
      Concurs Eq Progress.Twins (read config files dump p) (readBlocks config files dump p)) ∧
    (∀ (ls : List Bytes) (blank rest : Bytes), (∀ l ∈ ls, 0x0A ∉ l) → 0x0A ∉ blank → Blank blank →
      read config files (ended (ls ++ [blank]) ++ rest) p = read config files (ended ls) p) ∧
    ∀ q r : Progress w, q.Twins r →
      q.place.buffer.isNull = r.place.buffer.isNull ∧
      q.place.buffer.entries = r.place.buffer.entries ∧
      q.place.buffer.index? = r.place.buffer.index? ∧
      q.place.buffer.capacity = r.place.buffer.capacity := by
  have hp : p.place.Settled := by
    have hsettled := h.settled hc hb
    rw [← harena] at hsettled
    exact hsettled
  refine ⟨fun first second hfirst hsecond => read_append hp hfirst hsecond, read_concurs hp,
    fun ls blank rest hls hsingle hblank => ?_, fun q r hqr => hqr.place.buffer.shown⟩
  exact congrFun (read_blank hls hsingle hblank rest) p

/-- A field added to a null buffer and then set to something else, in one dump and in two. -/
theorem folds_of_null_buffer :
    ∃ q r : Progress .wide,
      read {} (fun _ => .error "") (ended [Bytes.ofText "(carray:5)\tab"] ++
        Bytes.ofText "=(carray:5)\tcd\n") ⟨⟨{ config := ⟨32, 128⟩ }, .null⟩, {}⟩ = .ok () q ∧
      (do
        read {} (fun _ => .error "") (ended [Bytes.ofText "(carray:5)\tab"])
        read {} (fun _ => .error "") (Bytes.ofText "=(carray:5)\tcd\n"))
        ⟨⟨{ config := ⟨32, 128⟩ }, .null⟩, {}⟩ = .ok () r ∧
      q.place.buffer.entries = r.place.buffer.entries ∧ r.place.buffer.entries.length = 1 := by
  let c : ArenaConfig := ⟨32, 128⟩
  let p : Progress .wide := ⟨⟨{ config := c }, .null⟩, {}⟩
  let one : Line := ⟨1, "(carray:5)\tab".toList⟩
  let two : Line := ⟨2, "=(carray:5)\tcd".toList⟩
  have hrun : Custody.Run c ⟨{ config := c }, .buffer (.null : Buffer .wide) ::ₘ 0⟩ _ :=
    .step .opened (.get .null)
  have hc : c.Stated := show 128 < 2 ^ 32 by decide
  have hheld : .buffer p.place.buffer ∈ (.buffer (.null : Buffer .wide) ::ₘ 0 : Multiset Holding) :=
    Multiset.mem_cons_self ..
  obtain ⟨happend, hread, -, hshown⟩ := folds_of_run hrun hc rfl hheld {} fun _ => .error ""
  have hline : ∀ l ∈ [Bytes.ofText "(carray:5)\tab"], IsLine l := by
    rw [List.forall_mem_singleton]
    refine ⟨by decide +kernel, ?_⟩
    rintro ⟨s, hs, hnil⟩
    obtain rfl := Option.some.inj ((Bytes.toText?_ofText "(carray:5)\tab").symm.trans hs)
    revert hnil
    decide
  have happend := happend [Bytes.ofText "(carray:5)\tab"] (Bytes.ofText "=(carray:5)\tcd\n") hline
    (by decide +kernel)
  have hread := hread (ended [Bytes.ofText "(carray:5)\tab"] ++ Bytes.ofText "=(carray:5)\tcd\n")
  have hlines : linesFrom 1 (Text.linesBy 0x0A 0x0D (ended [Bytes.ofText "(carray:5)\tab"] ++
      Bytes.ofText "=(carray:5)\tcd\n")) = .ok [one, two] := rfl
  have hcut : blocks [one, two] = [(one, []), (two, [])] := by
    simp [blocks, one, two, Line.tabs]
  have hblocks : EStateM.run' (do
      forM [(one, []), (two, [])] (readBlock {} fun _ => .error "")
      return (← get).place.buffer.entries.length : Reading .wide Nat) p = some 1 := by
    decide +kernel
  rw [readBlocks, hlines, edit_ofExcept_bind] at hread
  dsimp only at hread
  rw [hcut] at hread
  generalize (forM [(one, []), (two, [])] (readBlock {} fun _ => .error "") :
    Reading .wide Unit) = m at hread hblocks
  delta EStateM.run' EStateM.run at hblocks
  cases hm : m p with
  | error e x =>
    rw [bind_of_error hm] at hblocks
    cases hblocks
  | ok u x =>
    rw [bind_of_ok hm] at hblocks
    have hlength : x.place.buffer.entries.length = 1 := Option.some.inj hblocks
    have hback := hread.symm (fun _ _ => Eq.symm) fun _ _ => Progress.Twins.symm
    obtain ⟨_, q, hq, -, hxq⟩ := hback.of_ok hm
    obtain ⟨⟨⟩, r, hr, -, hqr⟩ := happend.of_ok hq
    refine ⟨q, r, hq, hr, (hshown q r hqr).2.1, ?_⟩
    rw [← (hshown q r hqr).2.1, ← (hshown x q hxq).2.1]
    exact hlength

end Dump

end FieldBuffers
