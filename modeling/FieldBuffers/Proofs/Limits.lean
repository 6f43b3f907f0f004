import FieldBuffers.Proofs.Nested
import FieldBuffers.Proofs.Outline

/-! One limit on nesting, counted in two ways. Encoding and import count the nested buffers that
hold something; the reader of dumps counts null ones too. They part only where a null buffer stands
one level past the limit. -/

namespace FieldBuffers

open Item

variable {w : Width} {c : ArenaConfig}

/-! Buffers. -/

theorem Storage.nestsBelow_of_region {s : Storage w} {n : Nat}
    (h : Region.NestsWithin n w s.region) : ∀ e ∈ s.entries, e.item.NestsBelow n := by
  intro e he
  refine (nestsWithin_iff_items n s.region).1 h _ ?_
  rw [Region.items, s.ofRegion_region]
  exact List.mem_map_of_mem he

namespace Buffer

theorem nestsBelow_of_reachable {b : Buffer w} (h : Reachable ArenaConfig.Stated b) :
    ∀ e ∈ b.entries, e.item.NestsBelow maxNesting := by
  intro e he
  cases hb : b with
  | null =>
    rw [hb] at he
    cases he
  | allocated s =>
    obtain ⟨xs, indexed, t, ht, hx, -⟩ := holds_of_reachable h (by rw [hb]; rfl)
    rw [ht] at he
    change e ∈ t.entries at he
    rw [hx.entries_eq] at he
    exact nestsBelow_of_sound (hx.sound _ (mem_of_mem_layout he))

theorem Nests.lt_of_encodeEntry {b : Buffer .wide} {f : FieldId w} {entry bs : Bytes} {n : Nat}
    (h : (Value.fml b).encodeEntry f = .ok entry) (hn : b.Nests c n bs) (hne : bs ≠ []) :
    n < maxNesting := by
  obtain ⟨-, hshallow, -⟩ := (Value.encodeEntry_eq_ok_iff f _ entry).1 h
  cases b with
  | null => cases hn with
    | one he => cases he
    | into he => cases he
  | allocated s =>
    have hwithin := (nestingDepth_lt_iff s.region).1 hshallow
    exact Nat.lt_succ_of_le (hn.le hne (Storage.nestsBelow_of_region hwithin))

end Buffer

namespace Dump

variable {files : Files} {cs : Catalogs} {lines : List Line}

/-- What goes past the limit describes as many buffers as the limit allows, none of them null, and
one more in the innermost. -/
theorem describes_of_descends (h : ∃ inner, Descends files cs w 0 (maxNesting + 1) lines inner) :
    Describes files cs w maxNesting lines ∧ (Describes files cs w (maxNesting + 1) lines ∨
      DescribesNull files cs w (maxNesting + 1) lines) := by
  obtain ⟨inner, h⟩ := h
  constructor
  · obtain ⟨mid, hmid, hstores⟩ := Descends.exists_outer (n := 63) h
    exact ⟨mid, hmid, hstores⟩
  · by_cases hstores : Stores files cs .wide (maxNesting + 1) inner
    · exact .inl ⟨inner, h, hstores⟩
    · exact .inr ⟨inner, h, hstores⟩

/-- The printed text of a buffer is refused for its depth only where a null buffer is nested in it
one level past the limit. -/
theorem read_text_at_depth {b : Buffer w} {loaded : Catalogs} {dump : String}
    (hb : Reachable ArenaConfig.Stated b) (hcs : cs.Plain files)
    (htext : text c files cs b = (.ok dump, loaded)) (config : ArenaConfig) {p : Progress w}
    (hp : p.catalogs = loaded) : Ends (read config files (Bytes.ofText dump)) p (fun _ _ => True)
      fun e _ => e.IsTooDeep → b.Nests c (maxNesting + 1) [] := by
  have hplain : loaded.Plain files ∧
      dump = entryLines c (labelsOf loaded) maxNesting 0 b ++ "\n" := by
    rw [text] at htext
    cases hr : b.require "print" with
    | error e =>
      rw [hr] at htext
      cases htext
    | ok s =>
      rw [hr] at htext
      obtain ⟨hdump, rfl⟩ := Prod.mk.inj htext
      exact ⟨hcs.foldl_loaded _, (Except.ok.inj hdump).symm⟩
  obtain ⟨hplain, rfl⟩ := hplain
  apply (read_ends_at_depth config files _ p).mono (fun _ _ _ => trivial)
  intro e q h hdeep
  obtain ⟨lines, hlines, inner, hdescends⟩ := h hdeep
  obtain ⟨bs, hbs⟩ := nests_of_descends hplain b maxNesting hlines (hp ▸ hdescends)
  obtain rfl : bs = [] := by
    by_contra hne
    exact absurd (hbs.le hne (Buffer.nestsBelow_of_reachable hb)) (Nat.not_succ_le_self _)
  exact hbs

/-- The lines of a buffer in which so many others are nested, the innermost null. -/
def stairs (f : FieldId .wide) : Nat → Nat → List (List Char)
  | 0, _ => []
  | n + 1, depth => lineChars depth f.label.toList [] :: stairs f n (depth + 1)

def stairsDump (f : FieldId .wide) (n : Nat) : String :=
  String.ofList ((stairs f n 0).flatMap (· ++ ['\n']) ++ ['\n'])

section Stairs

variable {f : FieldId .wide} {n depth : Nat}

theorem shown_stairs (f : FieldId .wide) (n depth : Nat) : ∀ l ∈ stairs f n depth, Shown l := by
  induction n generalizing depth with
  | zero => exact nofun
  | succ n ih =>
    exact List.forall_mem_cons.2 ⟨shown_lineChars (isLabel_label f) depth nofun, ih (depth + 1)⟩

theorem exists_stairs (f : FieldId .wide) (n : Nat) : ∃ lines : List Line,
    linesFrom 1 (Text.linesBy 0x0A 0x0D (Bytes.ofText (stairsDump f n))) = .ok lines ∧
      lines.map Line.text = stairs f n 0 :=
  linesFrom_shown (shown_stairs f n 0) String.toList_ofList

theorem length_stairs (f : FieldId .wide) (n depth : Nat) : (stairs f n depth).length = n := by
  induction n generalizing depth with
  | zero => rfl
  | succ n ih => exact congrArg (· + 1) (ih (depth + 1))

theorem reads_stairs (config : ArenaConfig) {files : Files} {cs : Catalogs} (hf : f.type = .fml)
    (hcs : cs.Plain files) (hlabel : labelsOf cs .wide f = f.label) (hn : depth + n = maxNesting)
    {lines : List Line} (hlines : lines.map Line.text = stairs f (n + 1) depth)
    {p : Progress .wide} (hp : p.catalogs = cs) :
    Reads config files .wide depth lines p (fun _ _ => False) fun e _ => e.IsTooDeep := by
  induction n generalizing depth lines p with
  | zero =>
    obtain ⟨⟨number, _⟩, lines, rfl, rfl, -⟩ := List.map_eq_cons_iff.1 hlines
    have hfield := hlabel ▸ field_label hcs number f hp
    rw [reads_line (isLabel_label f) hfield, if_pos hf, if_pos (by omega)]
    exact ⟨number, rfl⟩
  | succ n ih =>
    obtain ⟨⟨number, _⟩, lines, rfl, rfl, hmore⟩ := List.map_eq_cons_iff.1 hlines
    have hfield := hlabel ▸ field_label hcs number f hp
    rw [reads_nested (isLabel_label f) hfield hf (by omega)]
    exact (ih (by omega) hmore (p := ⟨⟨{ config }, .null⟩, p.catalogs⟩) hp).mono
      (fun _ _ h => h.elim) fun _ _ h => h

theorem Descends.length_le {files : Files} {cs : Catalogs} {w : Width} {lines inner : List Line}
    (h : Descends files cs w depth n lines inner) : n + inner.length ≤ lines.length := by
  induction h with
  | one =>
    rw [List.length_cons]
    omega
  | into _ _ _ _ ih =>
    rw [List.length_cons]
    omega
  | skip _ _ ih =>
    rw [List.length_cons]
    omega

/-- So many lines describe fewer buffers that hold something. -/
theorem not_describes_of_length {files : Files} {cs : Catalogs} {w : Width} {lines : List Line}
    (h : lines.length ≤ n) : ¬ Describes files cs w n lines := by
  rintro ⟨inner, hd, hstores⟩
  have hlength := hd.length_le
  obtain rfl : inner = [] := List.length_eq_zero_iff.1 (by omega)
  cases hstores

theorem plain_empty (files : Files) : ({} : Catalogs).Plain files where
  built w t h := by cases w <;> cases h
  names w t c h := by
    cases w <;> cases h <;> exact nofun

theorem read_stairs (hf : f.type = .fml) (files : Files) : ∃ lines e q,
    linesFrom 1 (Text.linesBy 0x0A 0x0D (Bytes.ofText (stairsDump f (maxNesting + 1))))
        = .ok lines ∧
      lines.length = maxNesting + 1 ∧ Error.IsTooDeep e ∧
      read {} files (Bytes.ofText (stairsDump f (maxNesting + 1)))
        (⟨⟨{}, .null⟩, {}⟩ : Progress .wide) = .error e q := by
  obtain ⟨lines, hlines, htext⟩ := exists_stairs f (maxNesting + 1)
  have hlength : lines.length = maxNesting + 1 := by
    rw [← List.length_map Line.text, htext, length_stairs]
  have hreads := reads_stairs {} hf (plain_empty files) rfl (Nat.zero_add _) htext
    (p := ⟨⟨{}, .null⟩, {}⟩) rfl
  rw [Reads, Ends] at hreads
  simp only [read, hlines, Buffer.snapshot]
  cases hq : readLevel {} files .wide 0 lines ⟨⟨{}, .null⟩, {}⟩ with
  | ok left q =>
    rw [hq] at hreads
    exact hreads.elim
  | error e q =>
    rw [hq] at hreads
    exact ⟨lines, e, _, rfl, hlength, hreads, rfl⟩

end Stairs

/-- One limit, but for a null buffer one level past it. A dump is refused for its depth only if it
describes more buffers nested one in another than the limit allows, none of them null, or just as
many and a null one in the innermost; no dump that does is read. No value that nests more buffers
than the limit is encoded, and no region that does is imported. So the printed text of a buffer is
refused for its depth only where a null buffer is nested in it one level past the limit. -/
theorem nesting_limit (c config : ArenaConfig) (files : Files) (w : Width) :
    (∀ (dump : Bytes) (p : Progress w), Ends (read config files dump) p
      (fun _ _ => ∃ lines, linesFrom 1 (Text.linesBy 0x0A 0x0D dump) = .ok lines ∧
        ¬ Describes files p.catalogs w (maxNesting + 1) lines ∧
        ¬ DescribesNull files p.catalogs w (maxNesting + 1) lines)
      fun e _ => e.IsTooDeep → ∃ lines, linesFrom 1 (Text.linesBy 0x0A 0x0D dump) = .ok lines ∧
        Describes files p.catalogs w maxNesting lines ∧
        (Describes files p.catalogs w (maxNesting + 1) lines ∨
          DescribesNull files p.catalogs w (maxNesting + 1) lines)) ∧
    (∀ (f : FieldId w) (b : Buffer .wide) (entry : Bytes),
      (Value.fml b).encodeEntry f = .ok entry →
        ∀ n bs, b.Nests c n bs → bs ≠ [] → n < maxNesting) ∧
    (∀ (m : ExportMode) (frame : Bytes) (a a' : Arena) (b : Buffer w),
      Buffer.imported w m frame a = .ok (b, a') →
        ∀ n bs, b.Nests c n bs → bs ≠ [] → n ≤ maxNesting) ∧
    ∀ (b : Buffer w) (cs loaded : Catalogs) (dump : String) (p : Progress w),
      Reachable ArenaConfig.Stated b → cs.Plain files → text c files cs b = (.ok dump, loaded) →
        p.catalogs = loaded → Ends (read config files (Bytes.ofText dump)) p (fun _ _ => True)
          fun e _ => e.IsTooDeep → b.Nests c (maxNesting + 1) [] := by
  refine ⟨fun dump p => ?_, fun f b entry h n bs hn hne => hn.lt_of_encodeEntry h hne,
    fun m frame a a' b h n bs hn hne => hn.le hne (Buffer.nestsBelow_of_reachable (.imported h)),
    fun b cs loaded dump p hb hcs htext hp => read_text_at_depth hb hcs htext config hp⟩
  apply (read_ends_at_depth config files dump p).mono
  · rintro _ _ ⟨lines, hlines, h⟩
    exact ⟨lines, hlines, fun ⟨inner, hd, _⟩ => h inner hd, fun ⟨inner, hd, _⟩ => h inner hd⟩
  · rintro e _ h hdeep
    obtain ⟨lines, hlines, hd⟩ := h hdeep
    exact ⟨lines, hlines, describes_of_descends hd⟩

/-- A dump that is refused although no more buffers in it hold something than the limit allows: the
theorem finds the null one. -/
theorem describesNull_of_stairs :
    let f : FieldId .wide := ⟨.fml, 1, by decide, by decide, by decide⟩
    let files : Files := fun _ => .error ""
    let dump := Bytes.ofText (stairsDump f (maxNesting + 1))
    ∃ lines, linesFrom 1 (Text.linesBy 0x0A 0x0D dump) = .ok lines ∧
      Describes files {} .wide maxNesting lines ∧
      DescribesNull files {} .wide (maxNesting + 1) lines := by
  intro f files dump
  obtain ⟨lines, e, q, hlines, hlength, hdeep, hread⟩ := read_stairs (f := f) rfl files
  change linesFrom 1 (Text.linesBy 0x0A 0x0D dump) = _ at hlines
  change read {} files dump _ = _ at hread
  clear_value dump
  have h := (nesting_limit {} {} files .wide).1 dump ⟨⟨{}, .null⟩, {}⟩
  obtain ⟨lines', hlines', hdescribes, hpast⟩ := (ends_of_error hread).1 h hdeep
  obtain rfl := Except.ok.inj (hlines.symm.trans hlines')
  exact ⟨lines, hlines, hdescribes,
    hpast.resolve_left (not_describes_of_length hlength.le)⟩

/-- The reader counts a null buffer that encoding and import do not count. -/
theorem refused_below_limit :
    let f : FieldId .wide := ⟨.fml, 1, by decide, by decide, by decide⟩
    let files : Files := fun _ => .error ""
    let dump := Bytes.ofText (stairsDump f (maxNesting + 1))
    ∃ lines e q, linesFrom 1 (Text.linesBy 0x0A 0x0D dump) = .ok lines ∧
      read {} files dump (⟨⟨{}, .null⟩, {}⟩ : Progress .wide) = .error e q ∧
      e.IsTooDeep ∧ ¬ Describes files {} .wide (maxNesting + 1) lines := by
  intro f files dump
  obtain ⟨lines, e, q, hlines, hlength, hdeep, hread⟩ := read_stairs (f := f) rfl files
  exact ⟨lines, e, q, hlines, hread, hdeep, not_describes_of_length hlength.le⟩

end Dump

end FieldBuffers
