import FieldBuffers.Dump.Reader
import FieldBuffers.Proofs.ValueText

/-! Text as lines. Lines that are each ended by a newline are cut into the same lines
(`linesBy_lines`), and a dump is read up to the first that is empty (`linesFrom_lines`). -/

namespace FieldBuffers

namespace Bytes

theorem ofText_append (cs ds : List Char) :
    ofText (String.ofList (cs ++ ds)) = ofText (String.ofList cs) ++ ofText (String.ofList ds) := by
  rw [ofText_eq_flatMap, ofText_eq_flatMap, ofText_eq_flatMap, List.flatMap_append]

/-- A plain byte of a text is one of its characters. -/
theorem exists_of_mem_ofText {cs : List Char} {x : UInt8} (hx : x.toNat < 128)
    (h : x ∈ ofText (String.ofList cs)) : ∃ c ∈ cs, c.toNat = x.toNat := by
  rw [ofText_eq_flatMap] at h
  obtain ⟨c, hc, hmem⟩ := List.mem_flatMap.1 h
  exact ⟨c, hc, Dump.toNat_of_mem_utf8EncodeChar hmem hx⟩

theorem ofText_lines (ls : List (List Char)) :
    ofText (String.ofList (ls.flatMap (· ++ ['\n'])))
      = (ls.map fun l => ofText (String.ofList l)).flatMap (· ++ [0x0A]) := by
  induction ls with
  | nil => rfl
  | cons l ls ih =>
    rw [List.flatMap_cons, ofText_append, ofText_append, ih]
    rfl

end Bytes

namespace Text

variable {α : Type}

theorem pieces_cons_of_pos {p : α → Bool} {a : α} (h : p a = true) (as : List α) :
    pieces p (a :: as) = [] :: pieces p as := by
  simp [pieces, h]

theorem pieces_append {p : α → Bool} {a : α} (h : p a = true) {l : List α}
    (hl : ∀ b ∈ l, p b = false) (rest : List α) :
    pieces p (l ++ a :: rest) = l :: pieces p rest := by
  induction l with
  | nil => exact pieces_cons_of_pos h rest
  | cons b l ih =>
    obtain ⟨hb, hl⟩ := List.forall_mem_cons.1 hl
    have hcons := ih hl
    rw [pieces] at hcons
    obtain ⟨hlast, hdone⟩ := List.cons.inj hcons
    rw [List.cons_append, pieces, List.foldr_cons]
    simp only [hb, Bool.false_eq_true, if_false, hlast, hdone]

theorem pieces_append_lines {p : α → Bool} {a : α} (h : p a = true) {ls : List (List α)}
    (hls : ∀ l ∈ ls, ∀ b ∈ l, p b = false) (rest : List α) :
    pieces p (ls.flatMap (· ++ [a]) ++ rest) = ls ++ pieces p rest := by
  induction ls with
  | nil => rfl
  | cons l ls ih =>
    obtain ⟨hl, hls⟩ := List.forall_mem_cons.1 hls
    rw [List.flatMap_cons, List.append_assoc, List.append_assoc, List.singleton_append,
      pieces_append h hl, ih hls]
    rfl

theorem exists_head_pieces (p : α → Bool) (cs : List α) :
    ∃ l, (pieces p cs).head? = some l ∧ l <+: cs := by
  induction cs with
  | nil => exact ⟨[], rfl, List.prefix_refl _⟩
  | cons c cs ih =>
    obtain ⟨l, hl, hprefix⟩ := ih
    cases hc : p c with
    | true => exact ⟨[], by rw [pieces_cons_of_pos hc]; rfl, List.nil_prefix⟩
    | false =>
      refine ⟨c :: l, ?_, List.cons_prefix_cons.2 ⟨rfl, hprefix⟩⟩
      obtain rfl := Option.some.inj hl
      simp [pieces, hc]

variable [BEq α] {newline cr : α}

theorem isPrefix_chomp (l : List α) : chomp cr l <+: l := by
  rw [chomp]
  split
  · split
    · exact List.dropLast_prefix l
    · exact List.prefix_refl l
  · exact List.prefix_refl l

/-- The first line is the front of the text. -/
theorem prefix_of_head_linesBy {cs l : List α} (h : (linesBy newline cr cs).head? = some l) :
    l <+: cs := by
  obtain ⟨m, hm, hprefix⟩ := exists_head_pieces (· == newline) cs
  simp only [linesBy, List.head?_mapIdx, Option.map_eq_some_iff] at h
  obtain ⟨k, hk, rfl⟩ := h
  have hmk : m = k := by
    split at hk
    · rw [List.head?_dropLast] at hk
      split at hk
      · exact Option.some.inj (hm.symm.trans hk)
      · cases hk
    · exact Option.some.inj (hm.symm.trans hk)
  subst hmk
  split
  · exact (isPrefix_chomp m).trans hprefix
  · exact hprefix

variable [LawfulBEq α]

theorem chomp_eq_self {l : List α} (h : cr ∉ l) : chomp cr l = l := by
  rw [chomp]
  split
  · rename_i c hlast
    have hc : c ≠ cr := fun hc => h (hc ▸ List.mem_of_getLast? hlast)
    rw [if_neg (by simpa using hc)]
  · rfl

/-- Lines that are each ended by a newline, and whatever comes after them. -/
theorem linesBy_append {ls : List (List α)} (hls : ∀ l ∈ ls, newline ∉ l) (rest : List α) :
    linesBy newline cr (ls.flatMap (· ++ [newline]) ++ rest)
      = ls.map (chomp cr) ++ linesBy newline cr rest := by
  have hpieces : pieces (· == newline) (ls.flatMap (· ++ [newline]) ++ rest)
      = ls ++ pieces (· == newline) rest := by
    refine pieces_append_lines (p := (· == newline)) (beq_self_eq_true newline) ?_ rest
    intro l hl b hb
    rw [beq_eq_false_iff_ne]
    rintro rfl
    exact hls l hl hb
  have hne : pieces (· == newline) rest ≠ [] := List.cons_ne_nil _ _
  have hlength : 0 < (pieces (· == newline) rest).length := List.length_pos_iff.2 hne
  have hended : (if ((ls ++ pieces (· == newline) rest).getLast?.getD []).isEmpty
        then (ls ++ pieces (· == newline) rest).dropLast else ls ++ pieces (· == newline) rest)
      = ls ++ if ((pieces (· == newline) rest).getLast?.getD []).isEmpty
        then (pieces (· == newline) rest).dropLast else pieces (· == newline) rest := by
    rw [List.getLast?_append_of_ne_nil _ hne, List.dropLast_append_of_ne_nil hne]
    split <;> rfl
  simp only [linesBy, hpieces, hended, List.mapIdx_append, List.length_append]
  congr 1
  · refine List.ext_getElem (by simp) fun i hi hi' => ?_
    rw [List.length_mapIdx] at hi
    rw [List.getElem_mapIdx, List.getElem_map, if_pos (by omega)]
  · congr 1
    funext i l
    exact if_congr (by omega) rfl rfl

theorem linesBy_lines {ls : List (List α)} (h : ∀ l ∈ ls, newline ∉ l ∧ cr ∉ l) :
    linesBy newline cr (ls.flatMap (· ++ [newline])) = ls := by
  have hchomp : ls.map (chomp cr) = ls :=
    (List.map_congr_left fun l hl => chomp_eq_self (h l hl).2).trans (List.map_id ls)
  calc linesBy newline cr (ls.flatMap (· ++ [newline]))
      = linesBy newline cr (ls.flatMap (· ++ [newline]) ++ []) := by rw [List.append_nil]
    _ = ls.map (chomp cr) ++ linesBy newline cr [] := linesBy_append (fun l hl => (h l hl).1) []
    _ = ls := by rw [hchomp]; exact List.append_nil ls

end Text

namespace Dump

/-- The lines after those of a level stand further out. -/
def Outside (depth : Nat) (rest : List Line) : Prop := ∀ l ∈ rest.head?, l.tabs < depth

/-- The lines before the first empty one, as long as none of them is blank. -/
theorem linesFrom_lines (number : Nat) {ls : List (List Char)}
    (h : ∀ l ∈ ls, ∃ c ∈ l, Text.isBlank c = false) (rest : List Bytes) :
    ∃ lines : List Line,
      linesFrom number (ls.map (fun l => Bytes.ofText (String.ofList l)) ++ [] :: rest) = .ok lines ∧
        lines.map Line.text = ls := by
  induction ls generalizing number with
  | nil => exact ⟨[], rfl, rfl⟩
  | cons l ls ih =>
    obtain ⟨⟨c, hc, hgraphic⟩, hls⟩ := List.forall_mem_cons.1 h
    obtain ⟨lines, hlines, htext⟩ := ih (number + 1) hls
    have hne : (Text.trim l).isEmpty = false := by
      rw [List.isEmpty_eq_false_iff]
      intro hnil
      obtain ⟨before, after, hblank, hl⟩ := Text.exists_trim l
      rw [hnil, List.append_nil] at hl
      rw [hblank c (hl ▸ hc)] at hgraphic
      cases hgraphic
    refine ⟨⟨number, l⟩ :: lines, ?_, by rw [List.map_cons, htext]⟩
    rw [List.map_cons, List.cons_append, linesFrom, Bytes.toText?_ofText]
    simp only [String.toList_ofList, hne, Bool.false_eq_true, if_false, hlines]
    rfl

end Dump

end FieldBuffers
