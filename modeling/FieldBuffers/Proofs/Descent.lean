import FieldBuffers.Proofs.Labels

/-! How deep the lines of a text nest buffers, with the names as the catalogs have them. All but the
innermost of the buffers that are nested in one another hold something (`Descends.exists_outer`). -/

namespace FieldBuffers

variable {w : Width} {files : Files} {cs : Catalogs}

namespace Dump

/-! The lines of a text. -/

/-- The field that a line of some level puts a value into. -/
def Line.field? (files : Files) (cs : Catalogs) (w : Width) (depth : Nat) (l : Line) :
    Option (FieldId w) :=
  let content := l.text.drop depth
  if content.head? = some '#' then none
  else
    let (flag, content) := splitFlag content
    if flag = .erase then none
    else
      match field files l.number (Text.trim (splitLine content).1)
        (⟨⟨{}, .null⟩, cs⟩ : Progress w) with
      | .ok f _ => some f
      | .error _ _ => none

section Line

variable {depth : Nat} {l : Line}

theorem field?_of_mark (h : (l.text.drop depth).head? = some '#') :
    l.field? files cs w depth = none := by
  rw [Line.field?, if_pos h]

theorem field?_of_erase (hmark : (l.text.drop depth).head? ≠ some '#')
    (h : (splitFlag (l.text.drop depth)).1 = .erase) : l.field? files cs w depth = none := by
  simp only [Line.field?, if_neg hmark, if_pos h]

theorem field?_of_ok {f : FieldId w} {q : Progress w}
    (hmark : (l.text.drop depth).head? ≠ some '#')
    (hflag : (splitFlag (l.text.drop depth)).1 ≠ .erase)
    (hf : field files l.number
      (Text.trim (splitLine (splitFlag (l.text.drop depth)).2).1) ⟨⟨{}, .null⟩, cs⟩ = .ok f q) :
    l.field? files cs w depth = some f := by
  simp only [Line.field?, if_neg hmark, if_neg hflag, hf]

end Line

/-- Buffers are nested in a level of lines, so many of them one in another; the last lines start
with those of the innermost. -/
inductive Descends (files : Files) (cs : Catalogs) :
    (w : Width) → Nat → Nat → List Line → List Line → Prop
  | one {w : Width} {depth : Nat} {l : Line} {f : FieldId w} {lines : List Line} :
      l.tabs = depth → l.field? files cs w depth = some f → f.type = .fml →
      Descends files cs w depth 1 (l :: lines) lines
  | into {w : Width} {depth n : Nat} {l : Line} {f : FieldId w} {lines inner : List Line} :
      l.tabs = depth → l.field? files cs w depth = some f → f.type = .fml →
      Descends files cs .wide (depth + 1) n lines inner →
      Descends files cs w depth (n + 1) (l :: lines) inner
  | skip {w : Width} {depth n : Nat} {l : Line} {lines inner : List Line} :
      depth ≤ l.tabs → Descends files cs w depth n lines inner →
      Descends files cs w depth n (l :: lines) inner

/-- A level of lines puts some value into its buffer, which is not null then. -/
inductive Stores (files : Files) (cs : Catalogs) (w : Width) (depth : Nat) : List Line → Prop
  | here {l : Line} {lines : List Line} : l.tabs = depth →
      (l.field? files cs w depth).isSome → Stores files cs w depth (l :: lines)
  | skip {l : Line} {lines : List Line} : depth ≤ l.tabs → Stores files cs w depth lines →
      Stores files cs w depth (l :: lines)

namespace Descends

variable {depth n : Nat} {l : Line} {lines block rest inner : List Line}

theorem ne_nil (h : Descends files cs w depth n lines inner) : lines ≠ [] := by
  rintro rfl
  cases h

theorem append (hb : ∀ l ∈ block, depth ≤ l.tabs) (h : Descends files cs w depth n rest inner) :
    Descends files cs w depth n (block ++ rest) inner := by
  induction block with
  | nil => exact h
  | cons l block ih =>
    obtain ⟨hl, hb⟩ := List.forall_mem_cons.1 hb
    exact .skip hl (ih hb)

/-- What stands further in than a level is passed over. -/
theorem of_append (hb : ∀ l ∈ block, depth < l.tabs)
    (h : Descends files cs w depth n (block ++ rest) inner) :
    Descends files cs w depth n rest inner := by
  induction block with
  | nil => exact h
  | cons l block ih =>
    obtain ⟨hl, hb⟩ := List.forall_mem_cons.1 hb
    rw [List.cons_append] at h
    cases h with
    | one ht => exact absurd ht (Nat.ne_of_gt hl)
    | into ht => exact absurd ht (Nat.ne_of_gt hl)
    | skip _ h => exact ih hb h

/-- A line that nests nothing leads no deeper. -/
theorem of_cons (h : Descends files cs w depth n (l :: rest) inner)
    (hl : ∀ f, l.field? files cs w depth = some f → f.type ≠ .fml) :
    Descends files cs w depth n rest inner := by
  cases h with
  | one _ hf ht => exact absurd ht (hl _ hf)
  | into _ hf ht => exact absurd ht (hl _ hf)
  | skip _ h => exact h

theorem le_tabs (h : Descends files cs w depth n (l :: lines) inner) : depth ≤ l.tabs := by
  cases h with
  | one ht => exact ht.ge
  | into ht => exact ht.ge
  | skip ht => exact ht

theorem stores (h : Descends files cs w depth n lines inner) : Stores files cs w depth lines := by
  induction h with
  | one ht hf => exact .here ht (hf ▸ rfl)
  | into ht hf => exact .here ht (hf ▸ rfl)
  | skip ht _ ih => exact .skip ht ih

/-- All the nested buffers but the innermost hold something. -/
theorem exists_outer (h : Descends files cs w depth (n + 2) lines inner) :
    ∃ mid, Descends files cs w depth (n + 1) lines mid ∧
      Stores files cs .wide (depth + n + 1) mid := by
  generalize hm : n + 2 = m at h
  induction h generalizing n with
  | one => omega
  | @into w depth m l f lines inner ht hf htype h ih =>
    obtain rfl : m = n + 1 := by omega
    cases n with
    | zero => exact ⟨lines, .one ht hf htype, h.stores⟩
    | succ n =>
      obtain ⟨mid, hmid, hstores⟩ := ih rfl
      refine ⟨mid, .into ht hf htype hmid, ?_⟩
      rwa [show depth + (n + 1) + 1 = depth + 1 + n + 1 by omega]
  | skip ht _ ih =>
    obtain ⟨mid, hmid, hstores⟩ := ih hm
    exact ⟨mid, .skip ht hmid, hstores⟩

end Descends

/-- The lines describe a buffer in which so many others are nested, one in another, none of them
null. -/
def Describes (files : Files) (cs : Catalogs) (w : Width) (n : Nat) (lines : List Line) : Prop :=
  ∃ inner, Descends files cs w 0 n lines inner ∧ Stores files cs .wide n inner

/-- The lines describe a null buffer that stands so many nested buffers in, itself counted. -/
def DescribesNull (files : Files) (cs : Catalogs) (w : Width) (n : Nat) (lines : List Line) :
    Prop :=
  ∃ inner, Descends files cs w 0 n lines inner ∧ ¬ Stores files cs .wide n inner

end Dump

end FieldBuffers
