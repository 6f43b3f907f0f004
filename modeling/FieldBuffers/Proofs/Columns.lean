import FieldBuffers.Proofs.Base64
import FieldBuffers.Proofs.Lines

/-! The columns of a line are its runs of characters that are not blank. A text between blanks has
the columns of what stands around them, and what a line starts with is its first column. -/

namespace FieldBuffers.Text

variable {α : Type} {c : Char} {cs u v word rest run : List Char} {columns : List (List Char)}

theorem pieces_cons_of_neg {p : α → Bool} {a : α} (h : p a = false) (as : List α) :
    pieces p (a :: as) = (pieces p as).modifyHead (a :: ·) := by
  simp [pieces, h]

theorem pieces_split {p : α → Bool} {a : α} (h : p a = true) (as bs : List α) :
    pieces p (as ++ a :: bs) = pieces p as ++ pieces p bs := by
  induction as with
  | nil => exact pieces_cons_of_pos h bs
  | cons b as ih =>
    cases hb : p b with
    | true =>
      rw [List.cons_append, pieces_cons_of_pos hb, pieces_cons_of_pos hb, ih]
      rfl
    | false =>
      rw [List.cons_append, pieces_cons_of_neg hb, pieces_cons_of_neg hb, ih]
      rfl

theorem words_split (h : isBlank c = true) (u v : List Char) :
    words (u ++ c :: v) = words u ++ words v := by
  rw [words, pieces_split h, List.filter_append]
  rfl

theorem words_cons_blank (h : isBlank c = true) (cs : List Char) : words (c :: cs) = words cs :=
  words_split h [] cs

theorem words_blanks_append (hrun : ∀ c ∈ run, isBlank c = true) (v : List Char) :
    words (run ++ v) = words v := by
  induction run with
  | nil => rfl
  | cons c run ih =>
    obtain ⟨hc, hrun⟩ := List.forall_mem_cons.1 hrun
    rw [List.cons_append, words_cons_blank hc, ih hrun]

theorem words_append_blanks (hrun : ∀ c ∈ run, isBlank c = true) (u : List Char) :
    words (u ++ run) = words u := by
  cases run with
  | nil => rw [List.append_nil]
  | cons c run =>
    obtain ⟨hc, hrun⟩ := List.forall_mem_cons.1 hrun
    have hnone : words run = [] := by
      have hblank := words_blanks_append hrun []
      rwa [List.append_nil] at hblank
    rw [words_split hc, hnone, List.append_nil]

theorem words_around (hrun : ∀ c ∈ run, isBlank c = true) (hne : run ≠ []) (u v : List Char) :
    words (u ++ run ++ v) = words u ++ words v := by
  obtain ⟨c, run, rfl⟩ := List.exists_cons_of_ne_nil hne
  obtain ⟨hc, hrun⟩ := List.forall_mem_cons.1 hrun
  rw [List.append_assoc, List.cons_append, words_split hc, words_blanks_append hrun]

theorem words_trim (cs : List Char) : words (trim cs) = words cs := by
  obtain ⟨before, after, hblank, hcs⟩ := exists_trim cs
  obtain ⟨hbefore, hafter⟩ := List.forall_mem_append.1 hblank
  conv => rhs; rw [hcs, List.append_assoc, words_blanks_append hbefore, words_append_blanks hafter]

theorem words_word (hword : ∀ c ∈ word, isBlank c = false) (hne : word ≠ [])
    (hrest : ∀ c ∈ rest.head?, isBlank c = true) : words (word ++ rest) = word :: words rest := by
  have hempty : word.isEmpty = false := List.isEmpty_eq_false_iff.2 hne
  cases rest with
  | nil =>
    have hpieces : pieces isBlank word = [word] := by
      clear hne hempty
      induction word with
      | nil => rfl
      | cons c word ih =>
        obtain ⟨hc, hword⟩ := List.forall_mem_cons.1 hword
        rw [pieces_cons_of_neg hc, ih hword]
        rfl
    rw [List.append_nil, words, hpieces, List.filter_cons_of_pos (by simp [hempty])]
    rfl
  | cons c rest =>
    have hc : isBlank c = true := hrest c rfl
    rw [words_cons_blank hc, words, pieces_append hc hword,
      List.filter_cons_of_pos (by simp [hempty])]
    rfl

theorem head_trim (cs : List Char) : ∀ c ∈ (trim cs).head?, isBlank c = false := by
  intro c hc
  have hprefix : trim cs <+: cs.dropWhile isBlank := by
    rw [trim, dropEndWhile, ← List.reverse_suffix, List.reverse_reverse]
    exact List.dropWhile_suffix _
  obtain ⟨more, hmore⟩ := hprefix
  obtain ⟨t, ht⟩ := List.head?_eq_some_iff.1 hc
  rw [ht, List.cons_append] at hmore
  have hne : cs.dropWhile isBlank ≠ [] := by simp [← hmore]
  have hfirst := List.head_dropWhile_not isBlank hne
  simpa only [← hmore, List.head_cons] using hfirst

/-- A line is blank, or it starts with its first column, which is followed by the others. -/
theorem trim_cases (cs : List Char) : trim cs = [] ∧ words cs = [] ∨
    ∃ word rest, trim cs = word ++ rest ∧ word ≠ [] ∧ (∀ c ∈ word, isBlank c = false) ∧
      (∀ c ∈ rest.head?, isBlank c = true) ∧ words cs = word :: words rest := by
  have hfirst := head_trim cs
  cases htrim : trim cs with
  | nil => exact .inl ⟨rfl, by rw [← words_trim, htrim]; rfl⟩
  | cons c t =>
    rw [htrim] at hfirst
    have hsplit : (c :: t).takeWhile (!isBlank ·) ++ (c :: t).dropWhile (!isBlank ·) = c :: t :=
      List.takeWhile_append_dropWhile
    have hne : (c :: t).takeWhile (!isBlank ·) ≠ [] := by simp [hfirst c rfl]
    have hword : ∀ d ∈ (c :: t).takeWhile (!isBlank ·), isBlank d = false := fun d hd => by
      simpa using List.all_eq_true.1 List.all_takeWhile d hd
    have hrest : ∀ d ∈ ((c :: t).dropWhile (!isBlank ·)).head?, isBlank d = true := by
      intro d hd
      obtain ⟨more, hmore⟩ := List.head?_eq_some_iff.1 hd
      have hstop := List.head_dropWhile_not (!isBlank ·) (List.ne_nil_of_mem (hmore ▸ List.mem_cons_self ..))
      simpa only [hmore, List.head_cons, Bool.not_eq_false'] using hstop
    refine .inr ⟨_, _, hsplit.symm, hne, hword, hrest, ?_⟩
    rw [← words_word hword hne hrest, hsplit, ← htrim, words_trim]

theorem isBlank_of_words (h : words cs = []) : ∀ c ∈ cs, isBlank c = true := by
  obtain ⟨htrim, -⟩ | ⟨word, rest, -, -, -, -, hwords⟩ := trim_cases cs
  · obtain ⟨before, after, hblank, hcs⟩ := exists_trim cs
    rw [htrim, List.append_nil] at hcs
    exact hcs ▸ hblank
  · simp [hwords] at h

theorem trim_of_words (h : words cs = [word]) : trim cs = word := by
  obtain ⟨-, hnil⟩ | ⟨first, rest, htrim, -, hfirst, -, hwords⟩ := trim_cases cs
  · simp [hnil] at h
  · obtain ⟨rfl, hrest⟩ := List.cons.inj (hwords.symm.trans h)
    obtain ⟨before, after, hblank, hcs⟩ := exists_trim cs
    obtain ⟨hbefore, hafter⟩ := List.forall_mem_append.1 hblank
    have hend : ∀ c ∈ rest ++ after, isBlank c = true :=
      List.forall_mem_append.2 ⟨isBlank_of_words hrest, hafter⟩
    rw [hcs, htrim, ← List.append_assoc, List.append_assoc (before ++ first)]
    exact trim_append hbefore hfirst hend

end FieldBuffers.Text
