import FieldBuffers.Proofs.Levels

/-! A dump in pieces. The parts of a text that is cut between two lines give their lines one after
the other (`linesFrom_append`), and what the lines do is done block by block, with each line those
indented under it (`level_blocks`). -/

namespace FieldBuffers.Dump

variable {w : Width} {config : ArenaConfig} {files : Files} {line : Line} {lines more : List Line}

/-! Text. -/

/-- Lines, each ended by a newline. -/
def ended (ls : List Bytes) : Bytes := ls.flatMap (· ++ [0x0A])

/-- A line with nothing on it. A carriage return that stands before the newline is not part of the
line. -/
def Blank (l : Bytes) : Prop :=
  ∃ s, Bytes.toText? (Text.chomp 0x0D l) = some s ∧ Text.trim s.toList = []

/-- One line that is not blank. -/
structure IsLine (l : Bytes) : Prop where
  single : 0x0A ∉ l
  notBlank : ¬ Blank l

theorem linesBy_ended {ls : List Bytes} (h : ∀ l ∈ ls, 0x0A ∉ l) :
    Text.linesBy 0x0A 0x0D (ended ls) = ls.map (Text.chomp 0x0D) := by
  have happend : Text.linesBy 0x0A 0x0D (ended ls ++ []) = _ := Text.linesBy_append h []
  rw [List.append_nil] at happend
  exact happend.trans (List.append_nil _)

theorem linesFrom_append {ls : List Bytes} (h : ∀ l ∈ ls, ¬ Blank l) (n : Nat) (rest : List Bytes) :
    linesFrom n (ls.map (Text.chomp 0x0D) ++ rest) = (do
      let lines ← linesFrom n (ls.map (Text.chomp 0x0D))
      return lines ++ (← linesFrom (n + ls.length) rest)) := by
  induction ls generalizing n with
  | nil =>
    change linesFrom n rest = linesFrom n rest >>= fun lines => pure ([] ++ lines)
    cases linesFrom n rest <;> rfl
  | cons l ls ih =>
    obtain ⟨hl, hls⟩ := List.forall_mem_cons.1 h
    rw [List.map_cons, List.cons_append, linesFrom, linesFrom]
    cases hs : Bytes.toText? (Text.chomp 0x0D l) with
    | none => rfl
    | some s =>
      have hne : (Text.trim s.toList).isEmpty = false := by
        rw [List.isEmpty_eq_false_iff]
        exact fun hnil => hl ⟨s, hs, hnil⟩
      simp only [hne, Bool.false_eq_true, if_false, ih hls (n + 1)]
      rw [List.length_cons, Nat.add_comm ls.length, ← Nat.add_assoc]
      cases linesFrom (n + 1) (ls.map (Text.chomp 0x0D)) with
      | error e => rfl
      | ok lines => cases linesFrom (n + 1 + ls.length) rest <;> rfl

theorem linesFrom_blank {blank : Bytes} (h : Blank blank) (n : Nat) (ls rest : List Bytes) :
    linesFrom n (ls ++ Text.chomp 0x0D blank :: rest) = linesFrom n ls := by
  obtain ⟨s, hs, hnil⟩ := h
  induction ls generalizing n with
  | nil => simp only [List.nil_append, linesFrom, hs, hnil, List.isEmpty_nil, if_true]
  | cons l ls ih => rw [List.cons_append, linesFrom, linesFrom, ih]

/-- The number of the first line shows in the numbers of the lines only. -/
theorem linesFrom_renumbered (n n' : Nat) (ls : List Bytes) :
    (linesFrom n ls).map (·.map Line.text) = (linesFrom n' ls).map (·.map Line.text) := by
  induction ls generalizing n n' with
  | nil => rfl
  | cons l ls ih =>
    rw [linesFrom, linesFrom]
    split
    · rfl
    split
    · rfl
    · rename_i s _ _
      have hcons : ∀ n m, ((linesFrom n ls).map (⟨m, s.toList⟩ :: ·)).map (·.map Line.text)
          = ((linesFrom n ls).map (·.map Line.text)).map (s.toList :: ·) := by
        intro n m
        cases linesFrom n ls <;> rfl
      rw [hcons, hcons, ih]

theorem outside_of_linesFrom {dump : Bytes} (h : dump.head? ≠ some 0x09) {n : Nat}
    (hlines : linesFrom n (Text.linesBy 0x0A 0x0D dump) = .ok lines) : Outside 1 lines := by
  cases hls : Text.linesBy 0x0A 0x0D dump with
  | nil =>
    rw [hls, linesFrom] at hlines
    exact Except.ok.inj hlines ▸ outside_nil 1
  | cons l ls =>
    rw [hls, linesFrom] at hlines
    split at hlines
    · cases hlines
    rename_i s hs
    split at hlines
    · exact Except.ok.inj hlines ▸ outside_nil 1
    obtain ⟨rest, -, rfl⟩ := ok_map_iff.1 hlines
    rintro _ ⟨⟩
    have hl : l <+: dump := Text.prefix_of_head_linesBy (congrArg List.head? hls)
    rw [Bytes.toText?_eq_some_iff.1 hs, ← String.ofList_toList (s := s)] at hl
    cases hc : s.toList with
    | nil => simp [Line.tabs]
    | cons c cs =>
      have htab : c ≠ '\t' := by
        rintro rfl
        rw [hc, Bytes.ofText_eq_flatMap] at hl
        obtain ⟨tail, rfl⟩ := hl
        exact h rfl
      simp [Line.tabs, htab]

/-! Blocks. -/

/-- The first line and all others that are not indented, each with the indented lines under it. -/
def blocks : List Line → List (Line × List Line)
  | [] => []
  | line :: rest =>
    (line, rest.takeWhile (0 < ·.tabs)) :: blocks (rest.dropWhile (0 < ·.tabs))
termination_by lines => lines.length
decreasing_by exact Nat.lt_succ_of_le (List.length_dropWhile_le _ _)

/-- What a line asks for is done. Of the lines indented under it, it has to take all. -/
def readBlock (config : ArenaConfig) (files : Files) (block : Line × List Line) :
    Reading w Unit := do
  if 0 < block.1.tabs then throw (.textParse block.1.number "unexpected indentation")
  let (deed, left) ← asked config files 0 block.1 block.2
  Reading.edit (deed.perform config)
  match left with
  | [] => pure ()
  | line :: _ => throw (.textParse line.number "unexpected indentation")

theorem takeWhile_of_outside (h : Outside 1 more) : more.takeWhile (0 < ·.tabs) = [] := by
  cases more with
  | nil => rfl
  | cons line more => exact List.takeWhile_cons_of_neg (by simpa using h line rfl)

theorem dropWhile_of_outside (h : Outside 1 more) : more.dropWhile (0 < ·.tabs) = more := by
  cases more with
  | nil => rfl
  | cons line more => exact List.dropWhile_cons_of_neg (by simpa using h line rfl)

theorem blocks_append (h : Outside 1 more) (lines : List Line) :
    blocks (lines ++ more) = blocks lines ++ blocks more := by
  fun_induction blocks lines with
  | case1 => rfl
  | case2 line rest ih =>
    have htake : (rest ++ more).takeWhile (0 < ·.tabs) = rest.takeWhile (0 < ·.tabs) := by
      rw [List.takeWhile_append, takeWhile_of_outside h, List.append_nil]
      split
      · rename_i hall
        exact ((List.takeWhile_prefix _).eq_of_length hall).symm
      · rfl
    have hdrop : (rest ++ more).dropWhile (0 < ·.tabs) = rest.dropWhile (0 < ·.tabs) ++ more := by
      rw [List.dropWhile_append, dropWhile_of_outside h]
      split
      · rename_i hnil
        rw [List.isEmpty_iff.1 hnil, List.nil_append]
      · rfl
    rw [List.cons_append, blocks, htake, hdrop, ih, List.cons_append]

theorem outside_dropWhile (lines : List Line) : Outside 1 (lines.dropWhile (0 < ·.tabs)) := by
  intro line hline
  have hout := List.head?_dropWhile_not (fun line : Line => decide (0 < line.tabs)) lines
  rw [Option.mem_def.1 hline] at hout
  simpa using hout

/-- Reading the lines of a buffer is going through its blocks. -/
theorem level_blocks (lines : List Line) :
    (do let _ ← level config files w 0 lines : Reading w Unit)
      = forM (blocks lines) (readBlock config files) := by
  fun_induction blocks lines with
  | case1 =>
    rw [level_nil]
    rfl
  | case2 line rest ih =>
    rw [List.forM_cons, ← ih]
    rcases Nat.eq_zero_or_pos line.tabs with heq | hin
    · have hrest : rest.takeWhile (0 < ·.tabs) ++ rest.dropWhile (0 < ·.tabs) = rest :=
        List.takeWhile_append_dropWhile
      have happend : (asked config files 0 line rest : Reading w _) = (do
          let (deed, left) ← asked config files 0 line (rest.takeWhile (0 < ·.tabs))
          return (deed, left ++ rest.dropWhile (0 < ·.tabs))) := by
        rw [← asked_append (outside_dropWhile rest), hrest]
      rw [level_cons heq, happend, readBlock, if_neg heq.not_gt]
      simp only [bind_assoc, pure_bind]
      funext p
      refine bind_congr_of fun r q hr => congrFun ?_ q
      refine bind_congr fun _ => ?_
      -- a line that is left stands under this one, too far in for the level
      cases hleft : r.2 with
      | nil => rw [List.nil_append, pure_bind]
      | cons l left =>
        have hsuffix : r.2 <:+ rest.takeWhile (0 < ·.tabs) := asked_suffix.of_ok hr
        have hmem : l ∈ rest.takeWhile (0 < ·.tabs) :=
          hsuffix.subset (hleft ▸ List.mem_cons_self)
        have hin : 0 < l.tabs := by simpa using List.mem_takeWhile_imp hmem
        rw [List.cons_append, level_inside hin]
        rfl
    · rw [level_inside hin, readBlock, if_pos hin]
      rfl

end FieldBuffers.Dump
