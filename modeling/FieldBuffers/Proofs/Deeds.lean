import FieldBuffers.Proofs.Lines
import FieldBuffers.Proofs.Twins

/-! What the lines of a dump do, one by one. A line asks for one change of its buffer and takes the
lines that stand further in (`level_cons`), and lines that are not indented leave those before them
as they are (`level_append`). -/

namespace FieldBuffers.Dump

variable {w : Width} {α β : Type} {config : ArenaConfig} {files : Files}

/-- What a line asks for. -/
inductive Deed (w : Width) where
  | nothing
  | erase (f : FieldId w)
  | add (f : FieldId w) (v : Value)
  | set (f : FieldId w) (v : Value)
  /-- The first occurrence of the field set to that of another one, which the line names. -/
  | copy (f source : FieldId w) (name : String)

namespace Deed

def stored (flag : Flag) (f : FieldId w) (v : Value) : Deed w :=
  match flag with
  | .set => .set f v
  | _ => .add f v

def perform (config : ArenaConfig) : Deed w → Edit w Unit
  | nothing => pure ()
  | erase f => do
    if !(← get).buffer.isNull then
      let _ ← Edit.eraseAll f
  | add f v => Edit.add f v
  | set f v => Edit.set f 0 v
  | copy f source name => do
    match ← Edit.ofExcept ((← get).buffer.value? config source 0) with
    | some v => Edit.set f 0 v
    | none => throw (.notPresent (.named name) 0)

end Deed

/-- The lines of one buffer, up to the first that stands further out. -/
def level (config : ArenaConfig) (files : Files) (w : Width) (depth : Nat) (lines : List Line) :
    Reading w (List Line) := do return (← readLevel config files w depth lines).1

/-- What a line asks of a field that is no nested buffer. A value can name another field. -/
def told (files : Files) (number : Nat) (flag : Flag) (f : FieldId w) (raw : List Char) :
    Reading w (Deed w) := do
  let name := String.ofList (Text.trim raw)
  match ← if flag = .set then Reading.attempt (Catalog.identFor files name) else pure none with
  | some source => return .copy f source name
  | none => return .stored flag f (← Reading.edit (Edit.ofExcept (value number f.type raw)))

/-- What a line of some depth asks for, and the lines after it that it does not take. A nested
buffer takes those that stand further in, which are read into a buffer by itself. -/
def asked (config : ArenaConfig) (files : Files) (depth : Nat) (line : Line) (rest : List Line) :
    Reading w (Deed w × List Line) := do
  let content := line.text.drop depth
  if content.head? = some '#' then return (.nothing, rest)
  let (flag, content) := splitFlag content
  let (name, raw) := splitLine content
  let f ← field files line.number (Text.trim name)
  if flag = .erase then return (.erase f, rest)
  if f.type = .fml then
    if maxNesting ≤ depth then
      throw (.textParse line.number s!"buffers nested more than {maxNesting} levels deep")
    let (left, b) ← Reading.nested config (level config files .wide (depth + 1) rest)
    return (.stored flag f (.fml b), left)
  return (← told files line.number flag f raw, rest)

variable {depth : Nat} {line : Line} {rest lines : List Line}

theorem level_nil : level config files w depth [] = pure [] := by
  rw [level, readLevel]
  rfl

theorem level_outside (h : line.tabs < depth) :
    level config files w depth (line :: rest) = pure (line :: rest) := by
  rw [level, readLevel, if_pos h]
  rfl

theorem level_inside (h : depth < line.tabs) : level config files w depth (line :: rest)
    = throw (.textParse line.number "unexpected indentation") := by
  rw [level, readLevel, if_neg (Nat.lt_asymm h), if_pos h]
  rfl

namespace Reading

theorem edit_bind (x : Edit w α) (f : α → Edit w β) :
    edit (x >>= f) = (do edit (f (← edit x))) := by
  funext p
  cases hx : x p.place with
  | ok a q =>
    have hedit : edit x p = .ok a { p with place := q } := by rw [edit, hx]
    rw [bind_of_ok hedit, edit, bind_of_ok hx]
    rfl
  | error e q =>
    have hedit : edit x p = .error e { p with place := q } := by rw [edit, hx]
    rw [bind_of_error hedit, edit, bind_of_error hx]

theorem edit_get (f : Place w → Edit w α) :
    edit (do f (← get)) = (do edit (f (← get).place)) := rfl

end Reading

theorem edit_erase (f : FieldId w) : Reading.edit ((Deed.erase f).perform config) = (do
    if !(← get).place.buffer.isNull then
      let _ ← Reading.edit (Edit.eraseAll f)) := by
  rw [Deed.perform, Reading.edit_get]
  refine bind_congr fun p => ?_
  split
  · exact Reading.edit_bind _ _
  · rfl

theorem edit_copy (f source : FieldId w) (name : String) :
    Reading.edit ((Deed.copy f source name).perform config) = (do
      match ← Reading.edit (Edit.ofExcept ((← get).place.buffer.value? config source 0)) with
      | some v => Reading.edit (Edit.set f 0 v)
      | none => throw (.notPresent (.named name) 0)) := by
  rw [Deed.perform, Reading.edit_get]
  refine bind_congr fun p => ?_
  rw [Reading.edit_bind]
  refine bind_congr fun v => ?_
  cases v <;> rfl

theorem edit_stored (flag : Flag) (f : FieldId w) (v : Value) :
    Reading.edit ((Deed.stored flag f v).perform config) = store flag f v := by
  cases flag <;> rfl

theorem nested_map (r : Reading .wide α) (g : α → β) :
    (Reading.nested config (do return g (← r)) : Reading w _) = (do
      let (a, b) ← Reading.nested config r
      return (g a, b)) := by
  funext p
  cases hr : r ⟨⟨{ config }, .null⟩, p.catalogs⟩ with
  | ok a q =>
    have hnested : Reading.nested config r p
        = .ok (a, q.place.buffer) { p with catalogs := q.catalogs } := by
      rw [Reading.nested, hr]
    rw [bind_of_ok hnested, Reading.nested, bind_of_ok hr]
    rfl
  | error e q =>
    have hnested : (Reading.nested config r : Reading w _) p
        = .error e { p with catalogs := q.catalogs } := by
      rw [Reading.nested, hr]
    rw [bind_of_error hnested, Reading.nested, bind_of_error hr]

theorem level_cons (h : line.tabs = depth) : level config files w depth (line :: rest) =
    (do
      let (deed, left) ← asked config files depth line rest
      Reading.edit (deed.perform config)
      level config files w depth left) := by
  rw [level, readLevel, if_neg (Nat.not_lt.2 h.ge), if_neg (Nat.not_lt.2 h.le), asked]
  dsimp only
  -- a remark, a field to erase, a nested buffer, then any other value
  by_cases hremark : (line.text.drop depth).head? = some '#'
  · simp only [if_pos hremark, pure_bind, bind_assoc, level]
    rfl
  simp only [if_neg hremark, bind_assoc]
  refine bind_congr fun f => ?_
  by_cases herase : (splitFlag (line.text.drop depth)).1 = .erase
  · simp only [if_pos herase, pure_bind, edit_erase, bind_assoc, level]
    refine bind_congr fun p => ?_
    split <;> simp only [pure_bind, bind_assoc]
  simp only [if_neg herase]
  by_cases hnested : f.type = .fml
  · simp only [if_pos hnested, level, nested_map]
    split <;> simp only [pure_bind, bind_assoc, edit_stored]
  simp only [if_neg hnested]
  rw [told]
  by_cases hset : (splitFlag (line.text.drop depth)).1 = .set
  · simp only [if_pos hset, copied, bind_assoc]
    refine bind_congr fun source => ?_
    cases source with
    | none => simp only [pure_bind, bind_assoc, edit_stored, hset, level]
    | some source =>
      simp only [pure_bind, bind_assoc, edit_copy, level]
      refine bind_congr fun p => bind_congr fun v => ?_
      cases v with
      | some v => simp only [pure_bind, bind_assoc, hset, store]
      | none => rfl
  · simp only [if_neg hset, pure_bind, bind_assoc, edit_stored, level]

theorem outside_nil (depth : Nat) : Outside depth [] := by simp [Outside]

theorem level_of_outside (h : Outside depth lines) :
    level config files w depth lines = pure lines := by
  cases lines with
  | nil => exact level_nil
  | cons line rest => exact level_outside (h line rfl)

/-- A line that belongs to a level is done with by way of the lines under it, which are those of a
nested buffer, and of the lines that are left after it. -/
@[elab_as_elim]
theorem level_induction {P : Width → Nat → List Line → Prop}
    (outside : ∀ w depth lines, Outside depth lines → P w depth lines)
    (inside : ∀ w depth line rest, depth < line.tabs → P w depth (line :: rest))
    (same : ∀ w depth line rest, line.tabs = depth → (∀ depth, P .wide depth rest) →
      (∀ left, left <:+ rest → P w depth left) → P w depth (line :: rest))
    (w : Width) (depth : Nat) (lines : List Line) : P w depth lines := by
  induction hn : lines.length using Nat.strong_induction_on generalizing w depth lines with
  | _ n ih =>
    cases lines with
    | nil => exact outside w depth [] (outside_nil depth)
    | cons line rest =>
      subst hn
      have hrest : rest.length < (line :: rest).length := Nat.lt_succ_self _
      rcases Nat.lt_trichotomy line.tabs depth with hout | heq | hin
      · refine outside w depth _ ?_
        rintro _ ⟨⟩
        exact hout
      · refine same w depth line rest heq (fun depth => ih _ hrest .wide depth rest rfl) ?_
        exact fun left hleft => ih _ (hleft.length_le.trans_lt hrest) w depth left rfl
      · exact inside w depth line rest hin

/-! What is left of the lines. -/

/-- All that a run can give has some property. -/
def Yields (x : Reading w α) (Q : α → Prop) : Prop :=
  ∀ p, Ends x p (fun a _ => Q a) fun _ _ => True

namespace Yields

variable {Q : α → Prop} {R : β → Prop} {x : Reading w α} {f : α → Reading w β}

theorem pure {a : α} (h : Q a) : Yields (pure a : Reading w α) Q := fun _ => h

theorem throw (e : Error) : Yields (throw e : Reading w α) Q := fun _ => trivial

theorem mono (h : Yields x Q) {Q' : α → Prop} (hQ : ∀ a, Q a → Q' a) : Yields x Q' :=
  fun p => (h p).mono (fun a _ => hQ a) fun _ _ _ => trivial

theorem any (x : Reading w α) : Yields x fun _ => True := by
  intro p
  rw [Ends]
  split <;> trivial

theorem bind (hx : Yields x Q) (hf : ∀ a, Q a → Yields (f a) R) : Yields (x >>= f) R := by
  intro p
  rw [ends_bind]
  exact (hx p).mono (fun a q ha => hf a ha q) fun _ _ _ => trivial

theorem nested {r : Reading .wide α} (h : Yields r Q) :
    Yields (Reading.nested config r : Reading w (α × Buffer .wide)) fun a => Q a.1 := by
  intro p
  have hr := h ⟨⟨{ config }, .null⟩, p.catalogs⟩
  simp only [Ends, Reading.nested] at hr ⊢
  cases hq : r ⟨⟨{ config }, .null⟩, p.catalogs⟩ with
  | ok a q =>
    rw [hq] at hr
    exact hr
  | error e q => trivial

theorem of_ok (h : Yields x Q) {p q : Progress w} {a : α} (hx : x p = .ok a q) : Q a :=
  (ends_of_ok hx).1 (h p)

end Yields

theorem asked_yields (h : Yields (level config files .wide (depth + 1) rest) (· <:+ rest)) :
    Yields (asked config files depth line rest : Reading w _) fun r => r.2 <:+ rest := by
  have hall : ∀ deed : Deed w, Yields (pure (deed, rest) : Reading w _) fun r => r.2 <:+ rest :=
    fun deed => .pure (List.suffix_refl rest)
  rw [asked]
  dsimp only
  split
  · exact hall _
  refine (Yields.any _).bind fun f _ => ?_
  split
  · exact hall _
  split
  · have hnested : Yields (do
        let (left, b) ← Reading.nested config (level config files .wide (depth + 1) rest)
        return (Deed.stored (splitFlag (line.text.drop depth)).1 f (.fml b), left) : Reading w _)
        fun r => r.2 <:+ rest := h.nested.bind fun _ hr => .pure hr
    split
    · exact (Yields.any _).bind fun _ _ => hnested
    · exact hnested
  · exact (Yields.any _).bind fun _ _ => hall _

theorem level_yields (w : Width) (depth : Nat) (lines : List Line) :
    Yields (level config files w depth lines) fun left => left <:+ lines ∧ Outside depth left := by
  induction w, depth, lines using level_induction with
  | outside w depth lines h =>
    rw [level_of_outside h]
    exact .pure ⟨List.suffix_refl _, h⟩
  | inside w depth line rest h =>
    rw [level_inside h]
    exact .throw _
  | same w depth line rest heq hnested hleft =>
    rw [level_cons heq]
    have hasked : Yields (asked config files depth line rest : Reading w _)
        fun r => r.2 <:+ rest := asked_yields ((hnested (depth + 1)).mono fun _ h => h.1)
    refine hasked.bind fun r hr => (Yields.any _).bind fun _ _ => (hleft r.2 hr).mono ?_
    rintro left ⟨hsuffix, hout⟩
    exact ⟨(hsuffix.trans hr).trans (List.suffix_cons _ _), hout⟩

theorem asked_suffix :
    Yields (asked config files depth line rest : Reading w _) fun r => r.2 <:+ rest :=
  asked_yields ((level_yields _ _ _).mono fun _ h => h.1)

/-! Lines that follow. -/

theorem bind_congr_of {σ : Type} {x : EStateM Error σ α} {f g : α → EStateM Error σ β} {p : σ}
    (h : ∀ a q, x p = .ok a q → f a q = g a q) : (x >>= f) p = (x >>= g) p := by
  cases hx : x p with
  | ok a q => rw [bind_of_ok hx, bind_of_ok hx, h a q hx]
  | error e q => rw [bind_of_error hx, bind_of_error hx]

theorem Outside.append {left more : List Line} (h : Outside depth left) (hdepth : 0 < depth)
    (hmore : Outside 1 more) : Outside depth (left ++ more) := by
  cases left with
  | nil => exact fun line hline => Nat.lt_of_lt_of_le (hmore line hline) hdepth
  | cons line left => exact h

theorem asked_append_of {more : List Line} (hmore : Outside 1 more)
    (h : ∀ depth, level config files .wide depth (rest ++ more) = (do
      level config files .wide depth ((← level config files .wide depth rest) ++ more))) :
    (asked config files depth line (rest ++ more) : Reading w _) = (do
      let (deed, left) ← asked config files depth line rest
      return (deed, left ++ more)) := by
  have hlevel : level config files .wide (depth + 1) (rest ++ more) = (do
      return (← level config files .wide (depth + 1) rest) ++ more) := by
    rw [h]
    funext p
    refine bind_congr_of fun left q hleft => ?_
    have hout := ((level_yields _ _ _).of_ok hleft).2
    rw [level_of_outside (hout.append (Nat.succ_pos _) hmore)]
  -- only a nested buffer takes lines, and leaves off where those that are not indented begin
  rw [asked, asked]
  dsimp only
  split
  · rfl
  simp only [bind_assoc]
  refine bind_congr fun f => ?_
  split
  · rfl
  split
  · rw [hlevel, nested_map]
    split <;> simp only [bind_assoc, pure_bind]
  · simp only [bind_assoc, pure_bind]

/-- Lines that are not indented come after all that those before them do. -/
theorem level_append {more : List Line} (hmore : Outside 1 more) (w : Width) (depth : Nat)
    (lines : List Line) : level config files w depth (lines ++ more) = (do
      level config files w depth ((← level config files w depth lines) ++ more)) := by
  induction w, depth, lines using level_induction with
  | outside w depth lines h => rw [level_of_outside h, pure_bind]
  | inside w depth line rest h =>
    rw [List.cons_append, level_inside h, level_inside h]
    rfl
  | same w depth line rest heq hnested hleft =>
    rw [List.cons_append, level_cons heq, level_cons heq, asked_append_of hmore hnested]
    simp only [bind_assoc, pure_bind]
    funext p
    refine bind_congr_of fun r q hr => congrFun ?_ q
    have hsuffix : r.2 <:+ rest := asked_suffix.of_ok hr
    exact bind_congr fun _ => hleft r.2 hsuffix

theorem asked_append {more : List Line} (hmore : Outside 1 more) :
    (asked config files depth line (rest ++ more) : Reading w _) = (do
      let (deed, left) ← asked config files depth line rest
      return (deed, left ++ more)) :=
  asked_append_of hmore fun depth => level_append hmore .wide depth rest

end FieldBuffers.Dump
