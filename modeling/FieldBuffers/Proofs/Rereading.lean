import FieldBuffers.Proofs.Ample
import FieldBuffers.Proofs.Telling

/-! Dumps read back. What the lines of a dump add to a null buffer is like what they tell of, item
by item (`reads_tells`), so the buffer that is read equals the one that was printed. -/

namespace FieldBuffers

open Item

variable {w : Width} {config : ArenaConfig} {files : Files}

namespace Dump

/-- Reading one level of lines succeeds with what is left of them, or fails. -/
def Reads (config : ArenaConfig) (files : Files) (w : Width) (depth : Nat) (lines : List Line)
    (p : Progress w) (Q : List Line → Progress w → Prop) (E : Error → Progress w → Prop) : Prop :=
  Ends (readLevel config files w depth lines) p (fun left q => Q left.1 q) E

section Label

variable {depth number : Nat} {label : List Char}

theorem tabs_lineChars (h : IsLabel label) (text : List Char) :
    Line.tabs ⟨number, lineChars depth label text⟩ = depth := by
  obtain ⟨c, rest, rfl, -⟩ := h.head
  have hc : (c == '\t') = false := by
    rw [beq_eq_false_iff_ne]
    rintro rfl
    exact absurd (h.graphic _ (List.mem_cons_self ..)) (by decide)
  have htabs : ∀ d ∈ List.replicate depth '\t', (d == '\t') = true := fun d hd => by
    rw [List.eq_of_mem_replicate hd]
    rfl
  rw [Line.tabs, lineChars, List.append_assoc, List.takeWhile_append_of_pos htabs, List.cons_append,
    List.takeWhile_cons, hc]
  simp

theorem drop_lineChars (depth : Nat) (label text : List Char) :
    (lineChars depth label text).drop depth = label ++ '\t' :: text := by
  rw [lineChars, List.append_assoc, List.drop_left' List.length_replicate]

theorem IsLabel.head?_append (h : IsLabel label) (cs : List Char) :
    (label ++ cs).head? ≠ some '#' := by
  obtain ⟨c, rest, rfl, hc⟩ := h.head
  exact fun hmark => hc (Option.some.inj hmark ▸ by simp)

theorem IsLabel.splitFlag_append (h : IsLabel label) (cs : List Char) :
    splitFlag (label ++ cs) = (.add, label ++ cs) := by
  obtain ⟨c, rest, rfl, hc⟩ := h.head
  simp only [List.mem_cons, List.not_mem_nil, or_false, not_or] at hc
  simp [splitFlag, hc]

theorem IsLabel.splitLine_append (h : IsLabel label) (text : List Char) :
    splitLine (label ++ '\t' :: text) = (label, text) := by
  have htab : '\t' ∉ label := fun hmem => absurd (h.graphic _ hmem) (by decide)
  rw [splitLine, Text.splitOnce_append htab]
  rfl

end Label

section Line

variable {depth number : Nat} {label text : List Char} {f : FieldId w} {p : Progress w}
  {rest : List Line} {Q : List Line → Progress w → Prop} {E : Error → Progress w → Prop}

/-- What is left to do of a line whose label is resolved. -/
theorem reads_line (hl : IsLabel label) (hf : field files number label p = .ok f p) :
    Reads config files w depth (⟨number, lineChars depth label text⟩ :: rest) p Q E ↔
      if f.type = .fml then
        if maxNesting ≤ depth then
          E (.textParse number s!"buffers nested more than {maxNesting} levels deep") p
        else
          Ends (Reading.nested config (readLevel config files .wide (depth + 1) rest)) p
            (fun r q => Ends (store .add f (.fml r.2)) q
              (fun _ q => Reads config files w depth r.1.1 q Q E) E) E
      else
        Ends (Reading.edit (Edit.ofExcept (value number f.type text))) p
          (fun v q => Ends (store .add f v) q
            (fun _ q => Reads config files w depth rest q Q E) E) E := by
  rw [Reads, readLevel, tabs_lineChars hl, if_neg (Nat.lt_irrefl _), if_neg (Nat.lt_irrefl _)]
  dsimp only
  rw [drop_lineChars, if_neg (hl.head?_append _), hl.splitFlag_append]
  dsimp only
  rw [hl.splitLine_append]
  dsimp only
  rw [Text.trim_graphic hl.graphic]
  rw [ends_bind, ends_of_ok hf, if_neg (show ¬ Flag.add = .erase by decide)]
  split
  · split
    · exact Iff.rfl
    · simp only [ends_bind, ends_pure]
      exact Iff.rfl
  · rw [if_neg (show ¬ Flag.add = .set by decide)]
    simp only [ends_bind, ends_pure]
    exact Iff.rfl

theorem reads_flat {v : Value} (hl : IsLabel label) (hf : field files number label p = .ok f p)
    (ht : f.type ≠ .fml) (hv : value number f.type text = .ok v) :
    Reads config files w depth (⟨number, lineChars depth label text⟩ :: rest) p Q E ↔
      Ends (Edit.add f v) p.place
        (fun _ place => Reads config files w depth rest { p with place } Q E)
        fun e place => E e { p with place } := by
  rw [reads_line hl hf, if_neg ht, hv, Reading.ends_edit, Edit.ends_ok]
  exact Reading.ends_edit

theorem reads_nested (hl : IsLabel label) (hf : field files number label p = .ok f p)
    (ht : f.type = .fml) (hdepth : depth < maxNesting) :
    Reads config files w depth (⟨number, lineChars depth label text⟩ :: rest) p Q E ↔
      Reads config files .wide (depth + 1) rest ⟨⟨{ config }, .null⟩, p.catalogs⟩
        (fun left q => Ends (Edit.add f (.fml q.place.buffer)) p.place
          (fun _ place => Reads config files w depth left ⟨place, q.catalogs⟩ Q E)
          fun e place => E e ⟨place, q.catalogs⟩)
        fun e q => E e { p with catalogs := q.catalogs } := by
  rw [reads_line hl hf, if_pos ht, if_neg (Nat.not_le.2 hdepth)]
  simp only [Reads, Ends, Reading.nested]
  cases readLevel config files .wide (depth + 1) rest ⟨⟨{ config }, .null⟩, p.catalogs⟩ with
  | ok left q =>
    dsimp only
    exact Reading.ends_edit
  | error e q => exact Iff.rfl

end Line

theorem reads_outside {depth : Nat} {rest : List Line} (h : Outside depth rest) {p : Progress w}
    {Q : List Line → Progress w → Prop} {E : Error → Progress w → Prop} :
    Reads config files w depth rest p Q E ↔ Q rest p := by
  cases rest with
  | nil =>
    rw [Reads, readLevel]
    exact Iff.rfl
  | cons line rest =>
    rw [Reads, readLevel, if_pos (h line rfl)]
    exact Iff.rfl

/-- The lines of a level start as far out as it stands. -/
theorem outside_append {depth : Nat} {ls : List (List Char)}
    (hfirst : ∀ text ∈ ls.head?, ∀ number, Line.tabs ⟨number, text⟩ = depth)
    {lines rest : List Line} (hlines : lines.map Line.text = ls) (hrest : Outside depth rest) :
    Outside (depth + 1) (lines ++ rest) := by
  intro l hl
  cases lines with
  | nil => exact Nat.lt_succ_of_lt (hrest l hl)
  | cons line lines =>
    obtain rfl : line = l := Option.some.inj hl
    rw [hfirst line.text (hlines ▸ rfl) line.number]
    exact Nat.lt_succ_self depth

theorem outside_of_tells {labels : Labels}
    (hlabels : ∀ (v : Width) (f : FieldId v), IsLabel (labels v f).toList)
    {depth : Nat} {xs : List (Item w)} {ls : List (List Char)} (h : Tells labels depth xs ls)
    {lines rest : List Line} (hlines : lines.map Line.text = ls) (hrest : Outside depth rest) :
    Outside (depth + 1) (lines ++ rest) := by
  refine outside_append (fun text htext number => ?_) hlines hrest
  cases h with
  | nil => cases htext
  | flat => exact Option.some.inj htext ▸ tabs_lineChars (hlabels _ _) _
  | nested => exact Option.some.inj htext ▸ tabs_lineChars (hlabels _ _) _

/-- A nested buffer that is read back is taken in where the one that was printed stood. -/
theorem shallow_of_alike {x : Item w} {t : Storage .wide} (hx : x.Sound) (ht : x.id.type = .fml)
    (h : Alike x ⟨x.id, t.standalone⟩) (hne : t.standalone ≠ []) :
    (Value.fml (.allocated t)).Shallow := by
  obtain ⟨m, hm, hwithin⟩ := h.nestsBelow (nestsBelow_of_sound hx) ht hne
  obtain rfl : m = maxNesting - 1 := by omega
  change nestingDepth .wide t.region < maxNesting
  rw [← t.nestingDepth_standalone]
  exact (nestingDepth_lt_iff _).2 hwithin

/-- The lines add items that are like some others to the sorted ones that there are, unless the
arena is not ample. -/
def Adds (config : ArenaConfig) (files : Files) (size depth : Nat) (xs zs : List (Item w))
    (lines rest : List Line) (p : Progress w) : Prop :=
  Reads config files w depth lines p
    (fun left q => left = rest ∧ q.catalogs = p.catalogs ∧ ∃ ys, List.Forall₂ Alike xs ys ∧
      q.place.buffer.Offers (sort (zs ++ ys)) true)
    fun e _ => config.Refuses e ∧ ¬ config.Ample size

theorem regionSize_cons_alike {xs zs : List (Item w)} {x y : Item w} (h : Alike x y) :
    regionSize (sort (zs ++ [y]) ++ xs) = regionSize (zs ++ x :: xs) := by
  rw [regionSize_perm ((sort_perm (zs ++ [y])).append_right xs), List.append_assoc,
    List.singleton_append]
  exact (regionSize_eq (List.rel_append (List.forall₂_same.2 fun _ _ => .refl _)
    (.cons h (List.forall₂_same.2 fun _ _ => .refl _)))).symm

theorem regionSize_le_append (xs ys : List (Item w)) :
    regionSize xs ≤ regionSize (sort xs ++ ys) := by
  rw [← regionSize_perm (sort_perm xs), regionSize, regionSize, encodeAll_append,
    List.length_append]
  exact Nat.add_le_add_left (Nat.le_add_right ..) _

/-- Something was read, so there is a block. -/
theorem exists_holds {xs ys : List (Item w)} {b : Buffer w} (hne : xs ≠ [])
    (h : List.Forall₂ Alike xs ys) (hb : b.Offers (sort ys) true) :
    ∃ t, b = .allocated t ∧ t.Holds (sort ys) := by
  obtain ⟨t, rfl, ht, -⟩ | ⟨-, hnil, -⟩ := hb
  · exact ⟨t, rfl, ht⟩
  · have hlen := h.length_eq
    rw [← (sort_perm ys).length_eq, hnil] at hlen
    exact absurd (List.length_eq_zero_iff.1 hlen) hne

/-- The nested buffer that lines are read into, and the item that it becomes. -/
theorem exists_alike {x : Item w} {s : Storage .wide} {ys zs : List (Item .wide)}
    {b : Buffer .wide} (ht : x.id.type = .fml) (hs : s.Holds ys) (hx : x.value = s.standalone)
    (hne : ys ≠ []) (h : List.Forall₂ Alike (sort ys) zs) (hb : b.Offers (sort zs) true) :
    ∃ t, b = .allocated t ∧ t.Holds (sort zs) ∧ Alike x ⟨x.id, t.standalone⟩ := by
  have hsort : sort ys ≠ [] := fun hnil => hne ((hnil ▸ sort_perm ys).nil_eq).symm
  obtain ⟨t, rfl, hholds⟩ := exists_holds hsort h hb
  have hsorted := forall₂_sort h
  rw [sort_eq_self (sorted_sort ys), ← sort_eq_self (sorted_sort zs)] at hsorted
  obtain ⟨hlen, hzip⟩ := List.forall₂_iff_zip.1 hsorted
  exact ⟨t, rfl, hholds, .nested rfl ht hs hholds hx rfl hlen fun _ _ hab => hzip hab⟩

/-- An item is added that is like the one that a line tells of, and reading goes on. -/
theorem adds_cons {size depth : Nat} {x y : Item w} {v : Value} {xs zs : List (Item w)}
    {lines rest : List Line} {p : Progress w} {cs : Catalogs} (hxy : Alike x y)
    (hz : p.place.buffer.Offers zs true) (hc : config.Stated) (ha : p.place.arena.config = config)
    (hv : v.Built) (ht : v.type = y.id.type) (hn : v.Named) (hs : v.Shallow) (hst : x.Stated)
    (hy : y.value = v.encode) (hcs : cs = p.catalogs) (hsize : regionSize (zs ++ x :: xs) ≤ size)
    (h : ∀ q : Place w, q.arena.config = config → q.buffer.Offers (sort (zs ++ [y])) true →
      regionSize (sort (zs ++ [y]) ++ xs) ≤ size →
      Adds config files size depth xs (sort (zs ++ [y])) lines rest ⟨q, cs⟩) :
    Ends (Edit.add y.id v) p.place
      (fun _ q => Reads config files w depth lines ⟨q, cs⟩
        (fun left r => left = rest ∧ r.catalogs = p.catalogs ∧
          ∃ ys, List.Forall₂ Alike (x :: xs) ys ∧ r.place.buffer.Offers (sort (zs ++ ys)) true)
        fun e _ => config.Refuses e ∧ ¬ config.Ample size)
      fun e _ => config.Refuses e ∧ ¬ config.Ample size := by
  have hfit : regionSize (sort (zs ++ [y]) ++ xs) ≤ size :=
    (regionSize_cons_alike hxy).trans_le hsize
  have hstated : y.Stated := by
    have hlen := hxy.length_value
    rw [Stated] at hst ⊢
    omega
  have hadd := Edit.add_ends hz (ha ▸ hc) hv ht hn hs hstated hy
  rw [ha] at hadd
  apply hadd.mono
  · rintro _ q ⟨hq, hconfig⟩
    apply (h q hconfig (.inl hq) hfit).mono
    · rintro left r ⟨hleft, hr, ys, hys, hoffers⟩
      refine ⟨hleft, hr.trans hcs, y :: ys, .cons hxy hys, ?_⟩
      rwa [sort_append_sort, List.append_assoc, List.singleton_append] at hoffers
    · exact fun _ _ h => h
  · rintro e q ⟨he, hample⟩
    exact ⟨he, fun h => hample (h.mono ((regionSize_le_append ..).trans hfit))⟩

/-- Reading the lines that tell some items adds items that are like them, one by one. -/
theorem reads_tells {cs : Catalogs} (hcs : cs.Plain files) (hc : config.Stated) {size : Nat}
    {depth : Nat} {xs : List (Item w)} {ls : List (List Char)}
    (h : Tells (labelsOf cs) depth xs ls) {lines rest : List Line}
    (hlines : lines.map Line.text = ls) (hrest : Outside depth rest) {p : Progress w}
    (hp : p.catalogs = cs) (ha : p.place.arena.config = config) {zs : List (Item w)}
    (hz : p.place.buffer.Offers zs true) (hx : ∀ x ∈ xs, x.Sound)
    (hsize : regionSize (zs ++ xs) ≤ size) :
    Adds config files size depth xs zs (lines ++ rest) rest p := by
  -- the items already there, `zs`, grow from line to line; a nested buffer starts with none
  induction h generalizing lines rest with
  | nil =>
    obtain rfl := List.map_eq_nil_iff.1 hlines
    refine (reads_outside hrest).2 ⟨rfl, rfl, [], .nil, ?_⟩
    rwa [List.append_nil, sort_eq_self (hz.sorted rfl)]
  | @flat w depth x v xs ls ht hne hnamed htell hvalue _ ih =>
    obtain ⟨⟨number, text⟩, lines, rfl, rfl, htail⟩ := List.map_eq_cons_iff.1 hlines
    obtain ⟨hsound, hx⟩ := List.forall_mem_cons.1 hx
    have hread : value number x.id.type (valueText v).toList = .ok v :=
      ht ▸ value_valueText number htell hne
    have hshallow : v.Shallow := by cases v <;> trivial
    apply (reads_flat (isLabel_labelsOf hcs x.id) (field_label hcs number x.id hp) (ht ▸ hne)
      hread).2
    exact adds_cons (.refl x) hz hc ha (Value.built_of_ne_fml hne) ht hnamed hshallow hsound.stated
      hvalue rfl hsize fun q hconfig hq hfit =>
        ih htail hrest (p := ⟨q, p.catalogs⟩) hp hconfig hq hx hfit
  | @nested w depth x s ys xs inner ls ht hs hvalue hne hdepth _ htells ihinner ih =>
    rw [List.cons_append] at hlines
    obtain ⟨⟨number, text⟩, more, rfl, rfl, hmore⟩ := List.map_eq_cons_iff.1 hlines
    obtain ⟨block, tail, rfl, hblock, htail⟩ := List.map_eq_append_iff.1 hmore
    obtain ⟨hsound, hx⟩ := List.forall_mem_cons.1 hx
    have hnested : regionSize (sort ys) ≤ size := by
      have hlt : x.value.length < (encodeAll (zs ++ x :: xs)).length :=
        length_value_lt_encodeAll (by simp)
      rw [hvalue, hs.length_standalone, hs.used, ← regionSize_perm (sort_perm ys)] at hlt
      exact (Nat.le_of_lt hlt).trans ((Nat.le_add_left ..).trans hsize)
    have hinner : Adds config files size (depth + 1) (sort ys) [] (block ++ (tail ++ rest))
        (tail ++ rest) ⟨⟨{ config }, .null⟩, p.catalogs⟩ :=
      ihinner hblock (outside_of_tells (fun _ => isLabel_labelsOf hcs) htells htail hrest) hp rfl
        (.inr ⟨rfl, rfl, rfl⟩) (fun y hy => hs.sound y ((sort_perm ys).mem_iff.1 hy)) hnested
    rw [List.cons_append, List.append_assoc]
    apply (reads_nested (isLabel_labelsOf hcs x.id) (field_label hcs number x.id hp) ht hdepth).2
    apply hinner.mono
    · rintro left q ⟨hleft, hcatalogs, ys', halike, hoffers⟩
      obtain ⟨t, hb, hholds, hxy⟩ := exists_alike ht hs hvalue hne halike hoffers
      have hbuilt : (Value.fml (.allocated t)).Built := fun b hbt =>
        ⟨_, _, Value.fml.inj hbt ▸ hb ▸ hoffers⟩
      rw [hb, hleft]
      exact adds_cons (y := ⟨x.id, t.standalone⟩) hxy hz hc ha hbuilt ht.symm trivial
        (shallow_of_alike hsound ht hxy hholds.standalone_ne_nil) hsound.stated rfl hcatalogs hsize
        fun r hconfig hr hfit =>
          ih htail hrest (p := ⟨r, q.catalogs⟩) (hcatalogs.trans hp) hconfig hr hx hfit
    · exact fun _ _ h => h

theorem same_of_alike_items {s : Storage w} {xs ys : List (Item w)} {b : Buffer w}
    (hs : s.Holds xs) (hne : xs ≠ []) (h : List.Forall₂ Alike xs ys) (hb : b.Offers (sort ys) true)
    (d : ArenaConfig) : Buffer.same d (.allocated s) b = true := by
  obtain ⟨t, rfl, ht⟩ := exists_holds hne h hb
  have hsort := forall₂_sort h
  rw [← sort_eq_self (sorted_sort ys)] at hsort
  exact Region.same_of_alike d ((Storage.ofRegion_region s).trans hs.entries_eq)
    ((Storage.ofRegion_region t).trans ht.entries_eq) hsort

/-- The dump of a buffer that holds something on every level, read into a null buffer, gives an
equal one; only an arena with too little room refuses it. -/
theorem read_text {b : Buffer w} {c : ArenaConfig} {cs : Catalogs} {a : Arena}
    (hb : Assembled ArenaConfig.Stated b) (hroom : b.used ≤ c.ceiling) (htell : b.Tellable c)
    (hcs : cs.Plain files) (ha : a.config.Stated) :
    ∃ dump loaded, text c files cs b = (.ok dump, loaded) ∧
      Ends (read a.config files (Bytes.ofText dump) : Reading w Unit) ⟨⟨a, .null⟩, loaded⟩
        (fun _ q => ∀ d, b.same d q.place.buffer = true)
        fun e _ => a.config.Refuses e ∧ ¬ a.config.Ample b.used := by
  obtain ⟨xs, r, hoffers, hwritten⟩ := consists_of_assembled hb
  obtain ⟨s, rfl, hs, -⟩ | ⟨rfl, -⟩ := hoffers
  · have hplain := hcs.foldl_loaded (families c (.allocated s))
    generalize hloaded : (families c (.allocated s)).foldl (loaded files) cs = cs' at hplain
    obtain ⟨lines, hlines, htells⟩ :=
      exists_lines (labelsOf cs') (fun _ => isLabel_labelsOf hplain) hs hwritten htell hroom
    refine ⟨entryLines c (labelsOf cs') maxNesting 0 (.allocated s) ++ "\n", cs', ?_, ?_⟩
    · rw [← hloaded]
      rfl
    have hreads : Adds a.config files s.used 0 xs [] (lines ++ []) [] ⟨⟨a, .null⟩, cs'⟩ :=
      reads_tells hplain ha htells rfl (by simp [Outside]) rfl rfl (.inr ⟨rfl, rfl, rfl⟩) hs.sound
        hs.used.ge
    rw [List.append_nil, Adds, Reads, Ends] at hreads
    simp only [Ends, read, hlines, Buffer.snapshot]
    cases hq : readLevel a.config files w 0 lines ⟨⟨a, .null⟩, cs'⟩ with
    | error e q =>
      rw [hq] at hreads
      exact hreads
    | ok left q =>
      rw [hq] at hreads
      obtain ⟨-, -, ys, halike, hoffers⟩ := hreads
      refine same_of_alike_items hs ?_ halike hoffers
      rintro rfl
      exact htell.entries_ne_nil hs.entries_eq
  · exact absurd rfl htell.entries_ne_nil

theorem nested_text_comes_back :
    let age : FieldId .wide := ⟨.short, 1, by decide, by decide, by decide⟩
    let inner : FieldId .wide := ⟨.fml, 2, by decide, by decide, by decide⟩
    let note : FieldId .wide := ⟨.string, 3, by decide, by decide, by decide⟩
    let files : Files := fun _ => .error ""
    let cs : Catalogs := { wide := { registered := [⟨0, [⟨"AGE", 1, .short, none⟩]⟩] } }
    let a : Arena := { config := ⟨32, 256⟩ }
    let n := ((Change.append note (.string "a\tb")).after ⟨a, .null⟩).buffer
    let b := ((Change.append age (.short 7)).after
      ((Change.append inner (.fml n)).after ⟨a, .null⟩)).buffer
    ∃ dump loaded, text a.config files cs b = (.ok dump, loaded) ∧
      dump = "(fml32:2)\t\n\t(string:3)\ta\\09b\nAGE\t7\n\n" ∧
      ∃ q : Progress .wide,
        read a.config files (Bytes.ofText dump) ⟨⟨a, .null⟩, loaded⟩ = .ok () q ∧
          ∀ d, b.same d q.place.buffer = true := by
  intro age inner note files cs a n b
  have hstated : ArenaConfig.Stated a.config := show 256 < 2 ^ 32 by decide
  have hn : Assembled ArenaConfig.Stated n :=
    .changed hstated .null (by simp [Change.value?]) (by simp [Change.other?])
  have hb : Assembled ArenaConfig.Stated b := by
    refine .changed (show ArenaConfig.Stated (Place.arena _).config from ?_)
      (.changed hstated .null (fun m hm => ?_) (by simp [Change.other?]))
      (by simp [Change.value?]) (by simp [Change.other?])
    · have hconfig : ((Change.append inner (.fml n)).after ⟨a, .null⟩).arena.config = a.config := by
        decide +kernel
      rw [hconfig]
      exact hstated
    · obtain rfl := Value.fml.inj (Option.some.inj hm)
      exact hn
  have hroom : b.used ≤ a.config.ceiling := by decide +kernel
  have hplain : cs.Plain files := by
    refine ⟨fun w t ht => ?_, fun w t c ht => ?_⟩
    · cases w <;> cases ht
    cases w with
    | narrow =>
      obtain rfl : t = {} := by cases ht; rfl
      intro d hd
      cases hd
    | wide =>
      obtain rfl : t = ⟨[("AGE", age)]⟩ := by cases ht; rfl
      simp only [List.forall_mem_singleton]
      exact ⟨by decide, by decide +kernel⟩
  have htell : b.Tellable a.config :=
    Buffer.tellable_of_isTellable (show b.isTellable a.config 2 = true by decide +kernel)
  have hample : a.config.Ample b.used := ⟨by decide, by decide +kernel⟩
  obtain ⟨dump, loaded, htext, hends⟩ := read_text hb hroom htell hplain hstated
  have hdump : dump = "(fml32:2)\t\n\t(string:3)\ta\\09b\nAGE\t7\n\n" := by
    have hsome : (text a.config files cs b).1.toOption
        = some "(fml32:2)\t\n\t(string:3)\ta\\09b\nAGE\t7\n\n" := by decide +kernel
    rw [htext] at hsome
    exact Option.some.inj hsome
  refine ⟨dump, loaded, htext, hdump, ?_⟩
  rw [Ends] at hends
  generalize read a.config files (Bytes.ofText dump) _ = r at hends ⊢
  cases r with
  | ok u q => exact ⟨q, rfl, hends⟩
  | error e q => exact absurd hample hends.2

end Dump

end FieldBuffers
