import FieldBuffers.Proofs.Depth
import FieldBuffers.Proofs.Rereading

/-! The lines that a buffer is printed as, of whatever values. They nest buffers no deeper than the
buffer does, null ones included (`nests_of_descends`). -/

namespace FieldBuffers

open Item

variable {w : Width} {c : ArenaConfig}

/-- A nested buffer stands so many of them in, itself counted; the bytes are its own. -/
inductive Buffer.Nests (c : ArenaConfig) : {w : Width} → Buffer w → Nat → Bytes → Prop
  | one {w : Width} {b : Buffer w} {e : Entry w} : e ∈ b.entries → e.id.type = .fml →
      Nests c b 1 e.value
  | into {w : Width} {b : Buffer w} {e : Entry w} {m : Buffer .wide} {n : Nat} {bs : Bytes} :
      e ∈ b.entries → e.decode c = .ok (.fml m) → Nests c m n bs → Nests c b (n + 1) bs

/-- Only null buffers stand deeper than the entries of a buffer nest others. -/
theorem Buffer.Nests.le {b : Buffer w} {n : Nat} {bs : Bytes} (h : b.Nests c n bs) (hne : bs ≠ [])
    {k : Nat} (hb : ∀ e ∈ b.entries, e.item.NestsBelow k) : n ≤ k := by
  induction h generalizing k with
  | one he ht =>
    obtain ⟨m, rfl, -⟩ := hb _ he ht hne
    exact Nat.succ_le_succ (Nat.zero_le m)
  | @into w b e m n bs he hd h ih =>
    have ht : e.id.type = .fml := (Value.type_decode hd).symm
    rw [Entry.decode, ht] at hd
    by_cases hvalue : e.value = []
    · rw [hvalue, Value.decode_fml_nil] at hd
      obtain rfl := Value.fml.inj (Except.ok.inj hd)
      cases h with
      | one he => cases he
      | into he => cases he
    · obtain ⟨k, rfl, hk⟩ := hb e he ht hvalue
      obtain ⟨g, hg, hsound, hdepth, -, hm⟩ := (Value.decode_fml_eq_ok_iff hvalue).1 hd
      obtain rfl := Value.fml.inj hm
      obtain ⟨xs, hholds, -, -, hitems⟩ := hsound.exists_holds hdepth hg 0
      change Region.NestsWithin k .wide e.value at hk
      rw [nestsWithin_iff hitems] at hk
      refine Nat.succ_le_succ (ih hne fun d hmem => hk _ ((sort_perm xs).mem_iff.1 ?_))
      change d ∈ Storage.entries _ at hmem
      rw [hholds.entries_eq] at hmem
      exact mem_of_mem_layout hmem

namespace Dump

/-- The lines of some entries, one after another, those of a nested buffer after its own. -/
inductive Outlines (c : ArenaConfig) (labels : Labels) :
    {w : Width} → Nat → List (Entry w) → List (List Char) → Prop
  | nil {w : Width} {depth : Nat} : Outlines c labels depth ([] : List (Entry w)) []
  | flat {w : Width} {depth : Nat} {e : Entry w} {text : List Char} {es : List (Entry w)}
      {ls : List (List Char)} : (∀ ch ∈ text, Printable ch) → Outlines c labels depth es ls →
      Outlines c labels depth (e :: es) (lineChars depth (labels w e.id).toList text :: ls)
  | nested {w : Width} {depth : Nat} {e : Entry w} {b : Buffer .wide} {es : List (Entry w)}
      {inner ls : List (List Char)} : e.decode c = .ok (.fml b) →
      Outlines c labels (depth + 1) b.entries inner → Outlines c labels depth es ls →
      Outlines c labels depth (e :: es)
        (lineChars depth (labels w e.id).toList [] :: (inner ++ ls))

theorem valueLines_of_ne_fml (labels : Labels) (levels depth : Nat) (f : FieldId w) {v : Value}
    (ht : v.type ≠ .fml) : valueLines c labels levels depth f v = lineText depth (labels w f)
      (valueText v) := by
  cases v <;> first | rfl | exact absurd rfl ht

theorem exists_outlines_cons (labels : Labels) (levels : Nat) {depth : Nat} (e : Entry w)
    {es : List (Entry w)} {ls : List (List Char)} (h : Outlines c labels depth es ls)
    (ih : ∀ m, levels = m + 1 → ∀ b : Buffer .wide, ∃ inner,
      Outlines c labels (depth + 1) b.entries inner ∧
        (entryLines c labels m (depth + 1) b).toList = inner.flatMap (· ++ ['\n'])) :
    ∃ block, Outlines c labels depth (e :: es) (block ++ ls) ∧
      (valueLines c labels levels depth e.id
        ((e.decode c).toOption.getD (.carray e.value))).toList = block.flatMap (· ++ ['\n']) := by
  have hflat : ∀ v : Value, v.type ≠ .fml → ∃ block,
      Outlines c labels depth (e :: es) (block ++ ls) ∧
        (valueLines c labels levels depth e.id v).toList = block.flatMap (· ++ ['\n']) := by
    intro v ht
    refine ⟨[lineChars depth (labels w e.id).toList (valueText v).toList],
      .flat (fun _ hc => printable_valueText ht hc) h, ?_⟩
    rw [valueLines_of_ne_fml labels levels depth e.id ht, toList_lineText]
    simp
  cases hd : e.decode c with
  | error x => exact hflat (.carray e.value) (by simp [Value.type])
  | ok v =>
    by_cases ht : v.type = .fml
    · obtain ⟨b, rfl⟩ : ∃ b, v = .fml b := by cases v <;> first | exact ⟨_, rfl⟩ | cases ht
      change ∃ block, _ ∧ (lineText depth (labels w e.id) "" ++ _).toList = _
      rw [String.toList_append, toList_lineText]
      cases levels with
      | zero =>
        refine ⟨[lineChars depth (labels w e.id).toList []], .flat (List.forall_mem_nil _) h, ?_⟩
        simp
      | succ m =>
        obtain ⟨inner, hinner, hlines⟩ := ih m rfl b
        refine ⟨lineChars depth (labels w e.id).toList [] :: inner, .nested hd hinner h, ?_⟩
        dsimp only
        rw [hlines]
        rfl
    · exact hflat v ht

/-- A buffer is printed as the lines of its entries. -/
theorem exists_outlines (labels : Labels) (levels depth : Nat) (b : Buffer w) :
    ∃ ls, Outlines c labels depth b.entries ls ∧
      (entryLines c labels levels depth b).toList = ls.flatMap (· ++ ['\n']) := by
  induction levels using Nat.strongRecOn generalizing w depth with
  | ind levels ih =>
    rw [toList_entryLines]
    generalize b.entries = es
    induction es with
    | nil => exact ⟨[], .nil, rfl⟩
    | cons e es ihes =>
      obtain ⟨ls, hls, hrest⟩ := ihes
      obtain ⟨block, houtlines, hblock⟩ := exists_outlines_cons labels levels e hls
        fun m hm b => ih m (by omega) (depth + 1) b
      refine ⟨block ++ ls, houtlines, ?_⟩
      rw [List.flatMap_cons, hblock, hrest, List.flatMap_append]

section Outlines

variable {labels : Labels} {depth : Nat} {es : List (Entry w)} {ls : List (List Char)}

theorem shown_of_outlines (hlabels : ∀ (v : Width) (f : FieldId v), IsLabel (labels v f).toList)
    (h : Outlines c labels depth es ls) : ∀ l ∈ ls, Shown l := by
  induction h with
  | nil => simp
  | flat htext _ ih => exact List.forall_mem_cons.2 ⟨shown_lineChars (hlabels _ _) _ htext, ih⟩
  | nested _ _ _ ihinner ih =>
    rw [List.forall_mem_cons, List.forall_mem_append]
    exact ⟨shown_lineChars (hlabels _ _) _ (by simp), ihinner, ih⟩

theorem le_tabs_of_outlines (hlabels : ∀ (v : Width) (f : FieldId v), IsLabel (labels v f).toList)
    (h : Outlines c labels depth es ls) :
    ∀ text ∈ ls, ∀ number, depth ≤ Line.tabs ⟨number, text⟩ := by
  induction h with
  | nil => simp
  | flat _ _ ih => exact List.forall_mem_cons.2 ⟨fun _ => (tabs_lineChars (hlabels _ _) _).ge, ih⟩
  | nested _ _ _ ihinner ih =>
    rw [List.forall_mem_cons, List.forall_mem_append]
    exact ⟨fun _ => (tabs_lineChars (hlabels _ _) _).ge,
      fun text ht number => Nat.le_of_succ_le (ihinner text ht number), ih⟩

theorem outside_of_outlines (hlabels : ∀ (v : Width) (f : FieldId v), IsLabel (labels v f).toList)
    (h : Outlines c labels depth es ls) {lines rest : List Line} (hlines : lines.map Line.text = ls)
    (hrest : Outside depth rest) : Outside (depth + 1) (lines ++ rest) := by
  have hfirst : ∀ text ∈ ls.head?, ∀ number, Line.tabs ⟨number, text⟩ = depth := by
    intro text htext number
    cases h with
    | nil => cases htext
    | flat => exact Option.some.inj htext ▸ tabs_lineChars (hlabels _ _) _
    | nested => exact Option.some.inj htext ▸ tabs_lineChars (hlabels _ _) _
  exact outside_append hfirst hlines hrest

end Outlines

section Plain

variable {files : Files} {cs : Catalogs}

theorem field?_lineChars (hcs : cs.Plain files) (number depth : Nat) (f : FieldId w)
    (text : List Char) :
    Line.field? files cs w depth ⟨number, lineChars depth (labelsOf cs w f).toList text⟩
      = some f := by
  have hl := isLabel_labelsOf hcs f
  refine field?_of_ok (q := ⟨⟨{}, .null⟩, cs⟩) ?_ ?_ ?_
  all_goals rw [drop_lineChars]
  · exact hl.head?_append _
  · rw [hl.splitFlag_append]
    exact nofun
  · rw [hl.splitFlag_append]
    dsimp only
    rw [hl.splitLine_append]
    dsimp only
    rw [Text.trim_graphic hl.graphic]
    exact field_label hcs number f rfl

theorem Descends.not_outside {depth n : Nat} {lines inner : List Line}
    (h : Descends files cs w depth n lines inner) : ¬ Outside depth lines := by
  intro hout
  cases lines with
  | nil => cases h
  | cons l lines => exact absurd h.le_tabs (Nat.not_le.2 (hout l rfl))

/-- A descent through the lines of some entries is one through nested buffers of theirs. -/
theorem nests_of_outlines (hcs : cs.Plain files) {depth : Nat} {es : List (Entry w)}
    {ls : List (List Char)} (h : Outlines c (labelsOf cs) depth es ls) {lines rest : List Line}
    (hlines : lines.map Line.text = ls) (hrest : Outside depth rest) {b : Buffer w}
    (hb : ∀ e ∈ es, e ∈ b.entries) {n : Nat} {inner : List Line}
    (hd : Descends files cs w depth n (lines ++ rest) inner) : ∃ bs, b.Nests c n bs := by
  have hlabels : ∀ (v : Width) (f : FieldId v), IsLabel (labelsOf cs v f).toList :=
    fun _ => isLabel_labelsOf hcs
  induction h generalizing lines rest n inner with
  | nil =>
    obtain rfl := List.map_eq_nil_iff.1 hlines
    exact absurd hrest hd.not_outside
  | @flat w depth e text es ls _ htail ih =>
    obtain ⟨⟨number, _⟩, lines, rfl, rfl, hmore⟩ := List.map_eq_cons_iff.1 hlines
    obtain ⟨he, hes⟩ := List.forall_mem_cons.1 hb
    cases hd with
    | one _ hf ht =>
      obtain rfl := Option.some.inj ((field?_lineChars hcs ..).symm.trans hf)
      exact ⟨_, .one he ht⟩
    | into _ _ _ hd =>
      exact absurd (outside_of_outlines hlabels htail hmore hrest) hd.not_outside
    | skip _ hd => exact ih hmore hrest hes hd
  | @nested w depth e m es inner' ls hdecode hinner htail ihinner ih =>
    obtain ⟨⟨number, _⟩, more, rfl, rfl, hmore⟩ := List.map_eq_cons_iff.1 hlines
    obtain ⟨block, tail, rfl, hblock, htail'⟩ := List.map_eq_append_iff.1 hmore
    obtain ⟨he, hes⟩ := List.forall_mem_cons.1 hb
    rw [List.cons_append, List.append_assoc] at hd
    have hout := outside_of_outlines hlabels htail htail' hrest
    cases hd with
    | one _ hf ht =>
      obtain rfl := Option.some.inj ((field?_lineChars hcs ..).symm.trans hf)
      exact ⟨_, .one he ht⟩
    | into _ _ _ hd =>
      obtain ⟨bs, hbs⟩ := ihinner hblock hout (fun _ h => h) hd
      exact ⟨bs, .into he hdecode hbs⟩
    | skip _ hd =>
      refine ih htail' hrest hes (hd.of_append fun l hl => ?_)
      exact le_tabs_of_outlines hlabels hinner l.text
        (hblock ▸ List.mem_map_of_mem hl) l.number

theorem nests_of_descends (hcs : cs.Plain files) (b : Buffer w) (levels : Nat) {n : Nat}
    {lines inner : List Line}
    (hlines : linesFrom 1 (Text.linesBy 0x0A 0x0D
      (Bytes.ofText (entryLines c (labelsOf cs) levels 0 b ++ "\n"))) = .ok lines)
    (hd : Descends files cs w 0 n lines inner) : ∃ bs, b.Nests c n bs := by
  obtain ⟨ls, houtlines, htext⟩ := exists_outlines (c := c) (labelsOf cs) levels 0 b
  have hdump : (entryLines c (labelsOf cs) levels 0 b ++ "\n").toList
      = ls.flatMap (· ++ ['\n']) ++ ['\n'] := by
    rw [String.toList_append, htext]
    rfl
  obtain ⟨lines', hfrom, hls⟩ :=
    linesFrom_shown (shown_of_outlines (fun _ => isLabel_labelsOf hcs) houtlines) hdump
  obtain rfl := Except.ok.inj (hlines.symm.trans hfrom)
  rw [← List.append_nil lines] at hd
  exact nests_of_outlines hcs houtlines hls (by simp [Outside]) (fun _ h => h) hd

end Plain

end Dump

end FieldBuffers
