import FieldBuffers.Proofs.Deeds

/-! The same lines on another buffer, and with other numbers. On twins they do the same
(`level_abreast`), and their numbers stand in nothing but errors (`level_renumbered`). -/

namespace FieldBuffers.Dump

variable {w : Width} {α β : Type} {config : ArenaConfig} {files : Files} {depth : Nat} {line : Line}
  {rest : List Line}

/-- Twin places, with the same catalogs. -/
structure Progress.Twins (p q : Progress w) : Prop where
  place : p.place.Twins q.place
  catalogs : p.catalogs = q.catalogs

namespace Progress.Twins

variable {p q r : Progress w}

theorem symm (h : p.Twins q) : q.Twins p := ⟨h.place.symm, h.catalogs.symm⟩

theorem trans (h : p.Twins q) (h' : q.Twins r) : p.Twins r :=
  ⟨h.place.trans h'.place, h.catalogs.trans h'.catalogs⟩

end Progress.Twins

/-! Twins. -/

theorem edit_abreast {e : Edit w α} (h : Abreast Place.Twins e) :
    Abreast Progress.Twins (Reading.edit e) := by
  intro p q hpq
  have he := h p.place q.place hpq.place
  rw [Reading.edit, Reading.edit]
  generalize e p.place = x at he ⊢
  generalize e q.place = y at he ⊢
  cases he with
  | ok ha hplace => exact .ok ha ⟨hplace, hpq.catalogs⟩
  | error => exact .error

theorem resolve_abreast (r : Resolving w α) : Abreast Progress.Twins (Reading.resolve r) := by
  intro p q hpq
  rw [Reading.resolve, Reading.resolve, hpq.catalogs]
  cases r (q.catalogs.get w) with
  | ok a c => exact .ok rfl ⟨hpq.place, rfl⟩
  | error e c => exact .error

theorem attempt_abreast (r : Resolving w α) : Abreast Progress.Twins (Reading.attempt r) := by
  intro p q hpq
  rw [Reading.attempt, Reading.attempt, hpq.catalogs]
  cases r (q.catalogs.get w) with
  | ok a c => exact .ok rfl ⟨hpq.place, rfl⟩
  | error e c => exact .ok rfl ⟨hpq.place, rfl⟩

/-- A nested buffer starts from nothing, whatever the buffer around it is. -/
theorem nested_abreast (r : Reading .wide α) :
    Abreast Progress.Twins (Reading.nested config r : Reading w (α × Buffer .wide)) := by
  intro p q hpq
  rw [Reading.nested, Reading.nested, hpq.catalogs]
  cases r ⟨⟨{ config }, .null⟩, q.catalogs⟩ with
  | ok a q => exact .ok rfl ⟨hpq.place, rfl⟩
  | error e q => exact .error

theorem field_abreast (n : Nat) (name : List Char) :
    Abreast Progress.Twins (field files n name : Reading w _) := by
  rw [field]
  split
  · exact edit_abreast (Edit.ofExcept_abreast _)
  · exact resolve_abreast _

theorem told_abreast (n : Nat) (flag : Flag) (f : FieldId w) (raw : List Char) :
    Abreast Progress.Twins (told files n flag f raw) := by
  have hvalue : Abreast Progress.Twins (do
      let v ← Reading.edit (Edit.ofExcept (value n f.type raw))
      return Deed.stored flag f v : Reading w _) :=
    (edit_abreast (Edit.ofExcept_abreast _)).bind fun _ => .pure _
  rw [told]
  split
  · refine (attempt_abreast _).bind fun source => ?_
    cases source with
    | some source => exact .pure _
    | none => exact hvalue
  · exact hvalue

theorem asked_abreast : Abreast Progress.Twins
    (asked config files depth line rest : Reading w _) := by
  rw [asked]
  dsimp only
  split
  · exact .pure _
  refine (field_abreast _ _).bind fun f => ?_
  split
  · exact .pure _
  split
  · split
    · exact (Abreast.throw _).bind fun _ => (nested_abreast _).bind fun _ => .pure _
    · exact (nested_abreast _).bind fun _ => .pure _
  · exact (told_abreast _ _ _ _).bind fun _ => .pure _

theorem perform_abreast (deed : Deed w) : Abreast Place.Twins (deed.perform config) := by
  cases deed with
  | nothing => exact .pure _
  | add f v => exact Edit.add_abreast f v
  | set f v => exact Edit.set_abreast f 0 v
  | erase f =>
    intro p q h
    change Concurs _ _ ((if _ then _ else _ : Edit w Unit) p) ((if _ then _ else _ : Edit w Unit) q)
    rw [h.buffer.toMatches.isNull]
    split
    · exact (Edit.retain_abreast _ _).bind (fun _ => .pure _) p q h
    · exact .ok rfl h
  | copy f source name =>
    intro p q h
    have hget : ∀ (x : Place w → Edit w Unit) (p : Place w), (get >>= x) p = x p p :=
      fun _ _ => rfl
    -- the value is looked up once and the same for both, so that only the write is left
    rw [Deed.perform, hget, hget, h.buffer.toMatches.value?]
    refine (Edit.ofExcept_abreast _ p q h).bind ?_
    rintro v _ p q - rfl h
    cases v with
    | some v => exact Edit.set_abreast f 0 v p q h
    | none => exact .error

theorem level_abreast (w : Width) (depth : Nat) (lines : List Line) :
    Abreast Progress.Twins (level config files w depth lines) := by
  induction w, depth, lines using level_induction with
  | outside w depth lines h =>
    rw [level_of_outside h]
    exact .pure _
  | inside w depth line rest h =>
    rw [level_inside h]
    exact .throw _
  | same w depth line rest heq _ hleft =>
    rw [level_cons heq]
    intro p q h
    refine (asked_abreast p q h).bind ?_
    rintro ⟨deed, left⟩ _ p q hasked rfl hpq
    have hsuffix : left <:+ rest := asked_suffix.of_ok hasked
    exact ((edit_abreast (perform_abreast deed)).bind fun _ => hleft left hsuffix) p q hpq

/-! Numbers. Those of the lines stand in errors only. -/

/-- The same for all numbers, or an error for each. -/
def Unnumbered (r : Nat → Except Error α) : Prop :=
  (∃ a, ∀ n, r n = .ok a) ∨ ∀ n, ∃ e, r n = .error e

namespace Unnumbered

variable {r : Nat → Except Error α} {f : Nat → α → Except Error β}

theorem ok (a : α) : Unnumbered fun _ => .ok a := .inl ⟨a, fun _ => rfl⟩

theorem error (e : Nat → Error) : Unnumbered fun n => (.error (e n) : Except Error α) :=
  .inr fun n => ⟨e n, rfl⟩

theorem bind (h : Unnumbered r) (hf : ∀ a, Unnumbered fun n => f n a) :
    Unnumbered fun n => r n >>= f n := by
  rcases h with ⟨a, ha⟩ | h
  · simp only [ha]
    exact hf a
  · refine .inr fun n => ?_
    obtain ⟨e, he⟩ := h n
    exact ⟨e, by simp only [he]; rfl⟩

theorem map (h : Unnumbered r) (g : α → β) : Unnumbered fun n => (r n).map g := by
  rcases h with ⟨a, ha⟩ | h
  · exact .inl ⟨g a, fun n => by simp only [ha]; rfl⟩
  · refine .inr fun n => ?_
    obtain ⟨e, he⟩ := h n
    exact ⟨e, by simp only [he]; rfl⟩

theorem edit (h : Unnumbered r) (n n' : Nat) (p : Progress w) :
    Concurs Eq Eq (Reading.edit (Edit.ofExcept (r n)) p)
      (Reading.edit (Edit.ofExcept (r n')) p) := by
  rcases h with ⟨a, ha⟩ | h
  · rw [ha, ha]
    exact .refl (fun _ => rfl) _
  · obtain ⟨e, he⟩ := h n
    obtain ⟨e', he'⟩ := h n'
    rw [he, he']
    exact .error

end Unnumbered

theorem unescaped_unnumbered (cs : List Char) : Unnumbered fun n => unescaped n cs := by
  simp only [unescaped]
  cases unescape (Bytes.ofText (String.ofList cs)) with
  | ok bs => exact .ok bs
  | error column => exact .error fun n => _

theorem named_unnumbered (t : FieldType) (cs : List Char) : Unnumbered fun n => named n t cs := by
  simp only [named]
  cases Text.splitOnce ':' cs with
  | none => exact .error fun n => _
  | some r =>
    refine (unescaped_unnumbered _).bind fun name => ?_
    cases Bytes.toText? name with
    | none => exact .error fun n => _
    | some s => exact (unescaped_unnumbered _).bind fun data => .ok _

theorem value_unnumbered (t : FieldType) (cs : List Char) : Unnumbered fun n => value n t cs := by
  cases t with
  | short | long | int | float | double =>
    simp only [value]
    split
    · exact .ok _
    · exact .error fun n => _
  | char =>
    refine (unescaped_unnumbered cs).bind fun bs => ?_
    split
    · exact .ok _
    · exact .error fun n => _
  | string =>
    refine (unescaped_unnumbered cs).bind fun bs => ?_
    split
    · exact .ok _
    · exact .error fun n => _
  | carray => exact (unescaped_unnumbered cs).map _
  | mbstring => exact (named_unnumbered _ cs).map _
  | view => exact (named_unnumbered _ cs).map _
  | ptr =>
    simp only [value]
    split
    · exact .ok _
    · exact .error fun n => _
  | fml => exact .error fun n => _

theorem referred_unnumbered (name inner : List Char) :
    Unnumbered fun n => referred w n name inner := by
  simp only [referred]
  split
  · exact .error fun n => _
  · cases FieldId.new w _ _ with
    | ok f => exact .ok f
    | error e => exact .error fun _ => e

theorem field_renumbered (n n' : Nat) (name : List Char) (p : Progress w) :
    Concurs Eq Eq (field files n name p) (field files n' name p) := by
  rw [field, field]
  cases reference? name with
  | some inner => exact (referred_unnumbered name inner).edit n n' p
  | none => exact .refl (fun _ => rfl) _

theorem told_renumbered (n n' : Nat) (flag : Flag) (f : FieldId w) (raw : List Char)
    (p : Progress w) : Concurs Eq Eq (told files n flag f raw p) (told files n' flag f raw p) := by
  have hvalue : ∀ p : Progress w, Concurs Eq Eq
      ((do
        let v ← Reading.edit (Edit.ofExcept (value n f.type raw))
        return Deed.stored flag f v) p)
      ((do
        let v ← Reading.edit (Edit.ofExcept (value n' f.type raw))
        return Deed.stored flag f v) p) := by
    intro p
    refine ((value_unnumbered f.type raw).edit n n' p).bind ?_
    rintro v _ p _ - rfl rfl
    exact .refl (fun _ => rfl) _
  rw [told, told]
  split
  · refine (Concurs.refl (fun _ => rfl) _).bind ?_
    rintro source _ p _ - rfl rfl
    cases source with
    | some source => exact .refl (fun _ => rfl) _
    | none => exact hvalue p
  · exact hvalue p

theorem nested_concurs {V : α → α → Prop} {r r' : Reading .wide α} {p : Progress w}
    (h : Concurs V Eq (r ⟨⟨{ config }, .null⟩, p.catalogs⟩)
      (r' ⟨⟨{ config }, .null⟩, p.catalogs⟩)) :
    Concurs (fun a b => V a.1 b.1 ∧ a.2 = b.2) Eq (Reading.nested config r p)
      (Reading.nested config r' p) := by
  rw [Reading.nested, Reading.nested]
  generalize r ⟨⟨{ config }, .null⟩, p.catalogs⟩ = x at h ⊢
  generalize r' ⟨⟨{ config }, .null⟩, p.catalogs⟩ = y at h ⊢
  cases h with
  | ok hab hpq =>
    subst hpq
    exact .ok ⟨hab, rfl⟩ rfl
  | error => exact .error

theorem Line.tabs_congr {line' : Line} (h : line.text = line'.text) : line.tabs = line'.tabs := by
  rw [Line.tabs, h, Line.tabs]

/-- The same lines, with other numbers. -/
def SameText (lines lines' : List Line) : Prop := lines.map Line.text = lines'.map Line.text

theorem SameText.exists_cons {lines' : List Line} (h : SameText (line :: rest) lines') :
    ∃ line' rest', line.text = line'.text ∧ SameText rest rest' ∧ lines' = line' :: rest' := by
  cases lines' with
  | nil => exact absurd h (List.cons_ne_nil _ _)
  | cons line' rest' => exact ⟨line', rest', (List.cons.inj h).1, (List.cons.inj h).2, rfl⟩

theorem asked_renumbered {line line' : Line} {rest rest' : List Line}
    (hline : line.text = line'.text) (hrest : SameText rest rest')
    (h : ∀ p, Concurs SameText Eq (level config files .wide (depth + 1) rest p)
      (level config files .wide (depth + 1) rest' p)) (p : Progress w) :
    Concurs (fun a b => a.1 = b.1 ∧ SameText a.2 b.2) Eq (asked config files depth line rest p)
      (asked config files depth line' rest' p) := by
  rw [asked, asked, hline]
  dsimp only
  split
  · exact .ok ⟨rfl, hrest⟩ rfl
  refine (field_renumbered line.number line'.number _ p).bind ?_
  rintro f _ p _ - rfl rfl
  split
  · exact .ok ⟨rfl, hrest⟩ rfl
  split
  · split
    · exact .error
    · refine (nested_concurs (h _)).bind ?_
      rintro ⟨left, b⟩ ⟨left', _⟩ p _ - ⟨hleft, rfl⟩ rfl
      exact .ok ⟨rfl, hleft⟩ rfl
  · refine (told_renumbered line.number line'.number _ f _ p).bind ?_
    rintro deed _ p _ - rfl rfl
    exact .ok ⟨rfl, hrest⟩ rfl

theorem Outside.renumbered {lines lines' : List Line} (h : Outside depth lines)
    (hsame : SameText lines lines') : Outside depth lines' := by
  intro line' hline'
  have hhead : lines.head?.map Line.text = lines'.head?.map Line.text := by
    rw [← List.head?_map, ← List.head?_map, hsame]
  rw [Option.mem_def.1 hline'] at hhead
  obtain ⟨line, hline, htext⟩ := Option.map_eq_some_iff.1 hhead
  exact Line.tabs_congr htext ▸ h line hline

theorem level_renumbered (w : Width) (depth : Nat) (lines lines' : List Line)
    (hsame : SameText lines lines') (p : Progress w) :
    Concurs SameText Eq (level config files w depth lines p)
      (level config files w depth lines' p) := by
  induction w, depth, lines using level_induction generalizing lines' with
  | outside w depth lines h =>
    rw [level_of_outside h, level_of_outside (h.renumbered hsame)]
    exact .ok hsame rfl
  | inside w depth line rest h =>
    obtain ⟨line', rest', hline, -, rfl⟩ := hsame.exists_cons
    have htabs := Line.tabs_congr hline
    rw [level_inside h, level_inside (htabs ▸ h)]
    exact .error
  | same w depth line rest heq hnested hleft =>
    obtain ⟨line', rest', hline, hrest, rfl⟩ := hsame.exists_cons
    have htabs := Line.tabs_congr hline
    rw [level_cons heq, level_cons (htabs ▸ heq)]
    refine (asked_renumbered hline hrest (fun p => hnested (depth + 1) rest' hrest p) p).bind ?_
    rintro ⟨deed, left⟩ ⟨_, left'⟩ p _ hasked ⟨rfl, hsame⟩ rfl
    refine (Concurs.refl (fun _ => rfl) _).bind ?_
    rintro ⟨⟩ _ p _ - rfl rfl
    have hsuffix : left <:+ rest := asked_suffix.of_ok hasked
    exact hleft left hsuffix left' hsame p

end FieldBuffers.Dump
