import FieldBuffers.Proofs.Alike
import FieldBuffers.Proofs.Assembled
import FieldBuffers.Proofs.Labels
import FieldBuffers.Proofs.Lines
import FieldBuffers.Proofs.Multimap

/-! What a dump tells of a buffer, line by line (`exists_tells`). -/

namespace FieldBuffers

open Item

variable {w : Width} {c : ArenaConfig}

/-- The buffer and those nested in it all hold something, and a dump can tell their values. -/
inductive Buffer.Tellable (c : ArenaConfig) : {w : Width} → Buffer w → Prop
  | intro {w : Width} {b : Buffer w} : b.entries ≠ [] →
      (∀ e ∈ b.entries, ∀ v, e.decode c = .ok v → v.Tellable) →
      (∀ e ∈ b.entries, ∀ n, e.decode c = .ok (.fml n) → Tellable c n) → Tellable c b

theorem Buffer.Tellable.entries_ne_nil {b : Buffer w} (h : b.Tellable c) : b.entries ≠ [] := by
  obtain ⟨hne, -⟩ := h
  exact hne

/-- The same as a test, for buffers that nest less deep than some limit. -/
def Buffer.isTellable (c : ArenaConfig) : Nat → {w : Width} → Buffer w → Bool
  | 0, _, _ => false
  | levels + 1, _, b => !b.entries.isEmpty && b.entries.all fun e =>
    match e.decode c with
    | .ok (.fml n) => isTellable c levels n
    | .ok v => decide v.Tellable
    | .error _ => true

theorem Buffer.tellable_of_isTellable {levels : Nat} {b : Buffer w}
    (h : b.isTellable c levels = true) : b.Tellable c := by
  induction levels generalizing w with
  | zero => cases h
  | succ levels ih =>
    rw [isTellable, Bool.and_eq_true, List.all_eq_true] at h
    obtain ⟨hne, hall⟩ := h
    refine .intro (by simpa using hne) (fun e he v hv => ?_) fun e he n hn => ?_
    · have hone := hall e he
      rw [hv] at hone
      cases v <;> first | trivial | exact of_decide_eq_true hone
    · have hone := hall e he
      rw [hn] at hone
      exact ih hone

/-- What a dump needs of an entry that is nested so many levels deep at most. -/
structure Entry.Telling (c : ArenaConfig) (levels : Nat) (e : Entry w) : Prop where
  written : e.item.Written
  shallow : e.item.NestsBelow levels
  decodes : ∃ v, e.decode c = .ok v
  value : ∀ v, e.decode c = .ok v → v.Tellable
  nested : ∀ n, e.decode c = .ok (.fml n) → n.Tellable c

theorem Storage.Holds.telling {s : Storage w} {xs : List (Item w)} {levels : Nat} (h : s.Holds xs)
    (hw : ∀ x ∈ xs, x.Written) (hn : ∀ x ∈ xs, x.NestsBelow levels)
    (ht : Buffer.Tellable c (.allocated s)) (hroom : Region.Room c s.used) :
    ∀ e ∈ s.entries, e.Telling c levels := by
  intro e he
  obtain ⟨-, hvalue, hnested⟩ := ht
  have hx : e.item ∈ xs := mem_of_mem_layout (h.entries_eq ▸ he)
  have hlt : e.value.length < (encodeAll xs).length := length_value_lt_encodeAll hx
  have hfit : Region.Room c e.value.length := by
    refine hroom.mono ?_
    rw [h.used, regionSize]
    omega
  exact ⟨hw _ hx, hn _ hx, (h.sound _ hx).value.decode_eq_ok hfit _, hvalue e he, hnested e he⟩

/-- A nested buffer is read as a block of the same items, and what it nests is told in turn. -/
theorem Entry.Telling.exists_nested {e : Entry w} {levels : Nat} {s : Storage .wide}
    {ys : List (Item .wide)} (he : e.Telling c levels) (ht : e.id.type = .fml) (hs : s.Holds ys)
    (hv : e.value = s.standalone) (hys : ∀ y ∈ ys, y.Written) : ∃ m t, levels = m + 1 ∧
      e.decode c = .ok (.fml (.allocated t)) ∧ t.Holds (sort ys) ∧ ys ≠ [] ∧
        ∀ d ∈ t.entries, d.Telling c m := by
  obtain ⟨v, hdecode⟩ := he.decodes
  have hread := hdecode
  rw [Entry.decode, ht, hv] at hread
  obtain ⟨t, rfl, hsorted⟩ := Value.decode_standalone hs hread
  have hvne : e.value ≠ [] := hv ▸ hs.standalone_ne_nil
  obtain ⟨m, rfl, hm⟩ := he.shallow ht hvne
  change Region.NestsWithin m .wide e.value at hm
  rw [hv, nestsWithin_iff hs.entries_standalone] at hm
  have htell := he.nested _ hdecode
  have hroom : Region.Room c t.used := by
    obtain ⟨-, -, -, -, hroom, -⟩ := (Value.decode_fml_eq_ok_iff hs.standalone_ne_nil).1 hread
    rwa [hs.length_standalone, hs.used, ← regionSize_perm (sort_perm ys), ← hsorted.used] at hroom
  refine ⟨m, t, rfl, hdecode, hsorted, ?_, ?_⟩
  · rintro rfl
    refine htell.entries_ne_nil (hsorted.entries_eq.trans ?_)
    rw [sort_eq_self List.Pairwise.nil]
    rfl
  · exact hsorted.telling (fun y hy => hys y ((sort_perm ys).mem_iff.1 hy))
      (fun y hy => hm y ((sort_perm ys).mem_iff.1 hy)) htell hroom

namespace Dump

def lineChars (depth : Nat) (label text : List Char) : List Char :=
  List.replicate depth '\t' ++ label ++ '\t' :: text

theorem toList_lineText (depth : Nat) (label text : String) :
    (lineText depth label text).toList = lineChars depth label.toList text.toList ++ ['\n'] := by
  simp [lineText, lineChars, String.toList_append]

/-- The lines that tell items one after another, those of a nested buffer in the order in which it
is read. -/
inductive Tells (labels : Labels) :
    {w : Width} → Nat → List (Item w) → List (List Char) → Prop
  | nil {w : Width} {depth : Nat} : Tells labels depth ([] : List (Item w)) []
  | flat {w : Width} {depth : Nat} {x : Item w} {v : Value} {xs : List (Item w)}
      {ls : List (List Char)} : v.type = x.id.type → v.type ≠ .fml → v.Named → v.Tellable →
      x.value = v.encode → Tells labels depth xs ls →
      Tells labels depth (x :: xs)
        (lineChars depth (labels w x.id).toList (valueText v).toList :: ls)
  | nested {w : Width} {depth : Nat} {x : Item w} {s : Storage .wide} {ys : List (Item .wide)}
      {xs : List (Item w)} {inner ls : List (List Char)} : x.id.type = .fml → s.Holds ys →
      x.value = s.standalone → ys ≠ [] → depth < maxNesting →
      Tells labels (depth + 1) (sort ys) inner → Tells labels depth xs ls →
      Tells labels depth (x :: xs) (lineChars depth (labels w x.id).toList [] :: inner ++ ls)

/-- The lines of one value. -/
def valueLines (c : ArenaConfig) (labels : Labels) (levels : Nat) (depth : Nat) (f : FieldId w)
    (v : Value) : String :=
  match v with
  | .fml nested =>
    lineText depth (labels w f) "" ++
      match levels with
      | 0 => ""
      | levels + 1 => entryLines c labels levels (depth + 1) nested
  | v => lineText depth (labels w f) (valueText v)

theorem toList_entryLines (labels : Labels) (levels depth : Nat) (b : Buffer w) :
    (entryLines c labels levels depth b).toList = b.entries.flatMap fun e =>
      (valueLines c labels levels depth e.id
        ((e.decode c).toOption.getD (.carray e.value))).toList := by
  have hmap : (b.toList c).map (fun r => valueLines c labels levels depth r.1 r.2.2)
      = b.entries.map fun e => valueLines c labels levels depth e.id
          ((e.decode c).toOption.getD (.carray e.value)) := by
    rw [← Buffer.map_zip_positionsAfter [] b.entries fun f e => valueLines c labels levels depth f
      ((e.decode c).toOption.getD (.carray e.value)), Buffer.toList, List.map_map]
    rfl
  have hjoin : entryLines c labels levels depth b
      = String.join ((b.toList c).map fun r => valueLines c labels levels depth r.1 r.2.2) := by
    rw [entryLines]
    rfl
  rw [hjoin, hmap, String.toList_join, List.flatMap_map]

/-- The lines of an entry are put in front of those of the entries after it. -/
theorem exists_tells_cons (labels : Labels) {levels depth : Nat}
    (hdepth : depth + levels = maxNesting) {e : Entry w} (he : e.Telling c levels)
    {xs : List (Item w)} {ls : List (List Char)} (hls : Tells labels depth xs ls)
    (ih : ∀ {m : Nat} {t : Storage .wide} {ys : List (Item .wide)}, levels = m + 1 → t.Holds ys →
      (∀ d ∈ t.entries, d.Telling c m) → ∃ inner, Tells labels (depth + 1) ys inner ∧
        (entryLines c labels m (depth + 1) (.allocated t)).toList = inner.flatMap (· ++ ['\n'])) :
    ∃ block, Tells labels depth (e.item :: xs) (block ++ ls) ∧
      (valueLines c labels levels depth e.id
        ((e.decode c).toOption.getD (.carray e.value))).toList = block.flatMap (· ++ ['\n']) := by
  obtain ⟨v, hv⟩ := he.decodes
  rw [hv]
  change ∃ block, _ ∧ (valueLines c labels levels depth e.id v).toList = _
  generalize hx : e.item = x
  have hid : e.id = x.id := congrArg Item.id hx
  have hvalue : e.value = x.value := congrArg Item.value hx
  have hwritten := hx ▸ he.written
  have hdecode : Value.decode c x.id.type e.valueOffset x.value = .ok v := by
    rw [← hid, ← hvalue]
    exact hv
  cases hwritten with
  | @flat _ _ u ht hne hnamed hencode =>
    rw [hencode, ← ht, Value.decode_of_ne_fml hne, Value.decodeFlat_encode hnamed hne] at hdecode
    obtain rfl := Except.ok.inj hdecode
    refine ⟨[lineChars depth (labels w x.id).toList (valueText u).toList],
      .flat ht hne hnamed (he.value u hv) hencode hls, ?_⟩
    have hlines : valueLines c labels levels depth e.id u
        = lineText depth (labels w e.id) (valueText u) := by
      cases u <;> first | rfl | exact absurd rfl hne
    rw [hlines, toList_lineText, hid]
    simp
  | null ht hnil =>
    rw [ht, hnil, Value.decode_fml_nil] at hdecode
    obtain rfl := Except.ok.inj hdecode
    exact absurd rfl (he.nested _ hv).entries_ne_nil
  | @nested _ _ s ys ht hs hstandalone hys =>
    obtain ⟨m, t, rfl, hread, hsorted, hne, hall⟩ :=
      he.exists_nested (hid ▸ ht) hs (hvalue.trans hstandalone) hys
    obtain rfl := Except.ok.inj (hv.symm.trans hread)
    obtain ⟨inner, hinner, hlines⟩ := ih rfl hsorted hall
    refine ⟨lineChars depth (labels w x.id).toList [] :: inner,
      .nested ht hs hstandalone hne (by omega) hinner hls, ?_⟩
    change (lineText depth (labels w e.id) "" ++ entryLines c labels m (depth + 1) _).toList = _
    rw [String.toList_append, toList_lineText, hlines, hid]
    rfl

/-- A dump is the lines that tell the items, each ended by a newline. -/
theorem exists_tells (labels : Labels) {levels depth : Nat} (hdepth : depth + levels = maxNesting)
    {s : Storage w} {xs : List (Item w)} (h : s.Holds xs)
    (hall : ∀ e ∈ s.entries, e.Telling c levels) : ∃ ls, Tells labels depth xs ls ∧
      (entryLines c labels levels depth (.allocated s)).toList = ls.flatMap (· ++ ['\n']) := by
  induction levels using Nat.strongRecOn generalizing w depth with
  | ind levels ih =>
    have hentries : ∀ es : List (Entry w), (∀ e ∈ es, e.Telling c levels) →
        ∃ ls, Tells labels depth (es.map Entry.item) ls ∧
          (es.flatMap fun e => (valueLines c labels levels depth e.id
            ((e.decode c).toOption.getD (.carray e.value))).toList) = ls.flatMap (· ++ ['\n']) := by
      intro es hes
      induction es with
      | nil => exact ⟨[], .nil, rfl⟩
      | cons e es ihes =>
        obtain ⟨he, hes⟩ := List.forall_mem_cons.1 hes
        obtain ⟨ls, hls, hrest⟩ := ihes hes
        obtain ⟨block, htells, hblock⟩ := exists_tells_cons labels hdepth he hls
          fun hm ht hall => ih _ (by omega) (by omega) ht hall
        refine ⟨block ++ ls, htells, ?_⟩
        rw [List.flatMap_cons, hblock, hrest, List.flatMap_append]
    obtain ⟨ls, htells, hlines⟩ := hentries s.entries hall
    rw [h.entries_eq, map_item_layout] at htells
    exact ⟨ls, htells, (toList_entryLines ..).trans hlines⟩

/-! The text of a dump as lines. -/

/-- A line that ends neither itself nor the dump that it stands in. -/
structure Shown (l : List Char) : Prop where
  printable : ∀ c ∈ l, Printable c ∨ c = '\t'
  solid : ∃ c ∈ l, Text.isBlank c = false

theorem shown_lineChars {label text : List Char} (hl : IsLabel label) (depth : Nat)
    (htext : ∀ c ∈ text, Printable c) : Shown (lineChars depth label text) where
  printable := by
    intro c hc
    rw [lineChars, List.mem_append, List.mem_append, List.mem_cons] at hc
    rcases hc with (hc | hc) | rfl | hc
    · exact .inr (List.eq_of_mem_replicate hc)
    · exact .inl (hl.graphic c hc).printable
    · exact .inr rfl
    · exact .inl (htext c hc)
  solid := by
    obtain ⟨c, rest, rfl, -⟩ := hl.head
    refine ⟨c, ?_, (hl.graphic c (List.mem_cons_self ..)).not_blank⟩
    rw [lineChars]
    exact List.mem_append_left _ (List.mem_append_right _ (List.mem_cons_self ..))

theorem shown_of_tells {labels : Labels}
    (hlabels : ∀ (v : Width) (f : FieldId v), IsLabel (labels v f).toList) {depth : Nat}
    {xs : List (Item w)} {ls : List (List Char)} (h : Tells labels depth xs ls) :
    ∀ l ∈ ls, Shown l := by
  induction h with
  | nil => simp
  | flat _ hne _ _ _ _ ih =>
    exact List.forall_mem_cons.2
      ⟨shown_lineChars (hlabels _ _) _ fun _ hc => printable_valueText hne hc, ih⟩
  | nested _ _ _ _ _ _ _ ihinner ih =>
    rw [List.cons_append, List.forall_mem_cons, List.forall_mem_append]
    exact ⟨shown_lineChars (hlabels _ _) _ (by simp), ihinner, ih⟩

theorem linesFrom_shown {ls : List (List Char)} (h : ∀ l ∈ ls, Shown l) {dump : String}
    (hdump : dump.toList = ls.flatMap (· ++ ['\n']) ++ ['\n']) : ∃ lines : List Line,
      linesFrom 1 (Text.linesBy 0x0A 0x0D (Bytes.ofText dump)) = .ok lines ∧
        lines.map Line.text = ls := by
  have hbytes : Bytes.ofText dump
      = ((ls ++ [[]]).map fun l => Bytes.ofText (String.ofList l)).flatMap (· ++ [0x0A]) := by
    rw [← Bytes.ofText_lines, List.flatMap_append, ← String.ofList_toList (s := dump), hdump]
    rfl
  have hmark : ∀ l ∈ ls ++ [[]], ∀ x : UInt8, x.toNat < 0x20 → x.toNat ≠ 9 →
      x ∉ Bytes.ofText (String.ofList l) := by
    intro l hl x hlow htab hx
    obtain ⟨c, hc, hcx⟩ := Bytes.exists_of_mem_ofText (by omega) hx
    rcases List.mem_append.1 hl with hl | hl
    · rcases (h l hl).printable c hc with hc | rfl
      · exact absurd hc.1 (by omega)
      · exact htab hcx.symm
    · rw [List.mem_singleton.1 hl] at hc
      cases hc
  have hcut : ∀ l ∈ (ls ++ [[]]).map fun l => Bytes.ofText (String.ofList l),
      (0x0A : UInt8) ∉ l ∧ (0x0D : UInt8) ∉ l := by
    intro l hl
    obtain ⟨cs, hcs, rfl⟩ := List.mem_map.1 hl
    exact ⟨hmark cs hcs _ (by decide) (by decide), hmark cs hcs _ (by decide) (by decide)⟩
  rw [hbytes, Text.linesBy_lines hcut, List.map_append]
  exact linesFrom_lines 1 (fun l hl => (h l hl).solid) []

/-- The lines of a dump tell the items of the buffer. -/
theorem exists_lines (labels : Labels)
    (hlabels : ∀ (v : Width) (f : FieldId v), IsLabel (labels v f).toList) {s : Storage w}
    {xs : List (Item w)} (hs : s.Holds xs) (hw : ∀ x ∈ xs, x.Written)
    (htell : Buffer.Tellable c (.allocated s)) (hroom : s.used ≤ c.ceiling) :
    ∃ lines : List Line,
      linesFrom 1 (Text.linesBy 0x0A 0x0D
        (Bytes.ofText (entryLines c labels maxNesting 0 (.allocated s) ++ "\n"))) = .ok lines ∧
      Tells labels 0 xs (lines.map Line.text) := by
  have htelling := hs.telling hw (fun x hx => nestsBelow_of_sound (hs.sound x hx)) htell
    ⟨s.header.used.toNat_lt, hroom⟩
  obtain ⟨ls, htells, hlines⟩ := exists_tells labels (Nat.zero_add _) hs htelling
  have hdump : (entryLines c labels maxNesting 0 (.allocated s) ++ "\n").toList
      = ls.flatMap (· ++ ['\n']) ++ ['\n'] := by
    rw [String.toList_append, hlines]
    rfl
  obtain ⟨lines, hfrom, rfl⟩ := linesFrom_shown (shown_of_tells hlabels htells) hdump
  exact ⟨lines, hfrom, htells⟩

end Dump

end FieldBuffers
