import FieldBuffers.Proofs.Growth
import FieldBuffers.Proofs.Packing
import FieldBuffers.Proofs.ValueText

/-! How a dump tells fields. In catalogs whose names are plain, the label of every field is graphic,
starts with no flag, and is resolved to the field (`field_label`). -/

namespace FieldBuffers

variable {w : Width}

/-! Tables in which a name stands for one field. -/

namespace NameTable

/-- Looking a name up gives the field that it was defined for. -/
def Unique (t : NameTable w) : Prop := ∀ d ∈ t.entries, t.ident? d.1 = some d.2

theorem unique_define {origin : String} {t t' : NameTable w} {d : String × Nat × FieldType}
    (ht : t.Unique) (h : define origin t d = .ok t') : t'.Unique := by
  obtain ⟨name, number, type⟩ := d
  simp only [define] at h
  split at h
  · cases h
  rename_i f _
  split at h
  · rename_i hnew
    obtain rfl := Except.ok.inj h
    rw [ident?, Option.map_eq_none_iff] at hnew
    intro d hd
    rcases List.mem_append.1 hd with hd | hd
    · obtain ⟨g, hg, hgd⟩ := Option.map_eq_some_iff.1 (ht d hd)
      rw [ident?, List.find?_append, hg]
      exact congrArg some hgd
    · obtain rfl := List.mem_singleton.1 hd
      rw [ident?, List.find?_append, hnew]
      simp
  · split at h
    · exact Except.ok.inj h ▸ ht
    · cases h

theorem foldlM_invariant {α β : Type} {I : β → Prop} {f : β → α → Except Error β}
    (hf : ∀ b a b', I b → f b a = .ok b' → I b') {as : List α} {b b' : β} (hb : I b)
    (h : as.foldlM f b = .ok b') : I b' := by
  induction as generalizing b with
  | nil => exact Except.ok.inj h ▸ hb
  | cons a as ih =>
    rw [List.foldlM_cons] at h
    obtain ⟨c, hc, h⟩ := ok_bind_iff.1 h
    exact ih (hf b a c hb hc) h

theorem unique_build {sources : List (String × FieldTable)} {t : NameTable w}
    (h : build sources = .ok t) : t.Unique := by
  refine foldlM_invariant (fun t' d t'' ht' hd => ?_) (show ({} : NameTable w).Unique from nofun) h
  exact foldlM_invariant (fun _ _ _ => unique_define) ht' hd

theorem ident?_of_name? {t : NameTable w} (ht : t.Unique) {f : FieldId w} {name : String}
    (h : t.name? f = some name) : (name, f) ∈ t.entries ∧ t.ident? name = some f := by
  obtain ⟨⟨n, g⟩, hfind, rfl⟩ := Option.map_eq_some_iff.1 h
  have hmem := List.mem_of_find?_eq_some hfind
  have hg : g = f := by simpa using List.find?_some hfind
  subst hg
  exact ⟨hmem, ht _ hmem⟩

end NameTable

/-- Letters, digits and underscores of ASCII, and at least one of them. -/
def IsPlainName (name : String) : Prop :=
  name ≠ "" ∧ ∀ c ∈ name.toList, c.isAlphanum = true ∨ c = '_'

/-- What is kept of a catalog was built from tables, and all of its names are plain. -/
structure Catalogs.Plain (files : Files) (cs : Catalogs) : Prop where
  built : ∀ (w : Width) (t : NameTable w), (cs.get w).cache = some t →
    ∃ sources, NameTable.build sources = .ok t
  names : ∀ (w : Width) (t : NameTable w) (c : Catalog w),
    Catalog.table files (cs.get w) = .ok t c → ∀ d ∈ t.entries, IsPlainName d.1

namespace Catalogs

variable {files : Files} {cs : Catalogs}

theorem get_set_self (c : Catalog w) : (cs.set w c).get w = c := by cases w <;> rfl

theorem get_set_ne {v : Width} (h : v ≠ w) (c : Catalog w) : (cs.set w c).get v = cs.get v := by
  cases v <;> cases w <;> first | rfl | exact absurd rfl h

theorem set_get (cs : Catalogs) (w : Width) : cs.set w (cs.get w) = cs := by cases w <;> rfl

theorem table_eq_ok {t : NameTable w} {c c' : Catalog w} (h : Catalog.table files c = .ok t c') :
    c'.cache = some t ∧ (c.cache = some t ∨ ∃ sources, NameTable.build sources = .ok t) := by
  rw [Catalog.table] at h
  split at h
  · rename_i t' hcache
    cases h
    exact ⟨hcache, .inl hcache⟩
  · split at h
    · cases h
    · rename_i t' hread
      cases h
      obtain ⟨found, -, hbuild⟩ := ok_bind_iff.1 hread
      exact ⟨rfl, .inr ⟨_, hbuild⟩⟩

theorem Plain.set (h : cs.Plain files) {c : Catalog w}
    (hbuilt : ∀ t, c.cache = some t → ∃ sources, NameTable.build sources = .ok t)
    (hnames : ∀ t c', Catalog.table files c = .ok t c' → ∀ d ∈ t.entries, IsPlainName d.1) :
    (cs.set w c).Plain files where
  built v t ht := by
    by_cases hv : v = w
    · subst hv
      exact hbuilt t (get_set_self c ▸ ht)
    · exact h.built v t (get_set_ne hv c ▸ ht)
  names v t c' ht := by
    by_cases hv : v = w
    · subst hv
      exact hnames t c' (get_set_self c ▸ ht)
    · exact h.names v t c' (get_set_ne hv c ▸ ht)

theorem Plain.loaded (h : cs.Plain files) (w : Width) : (Dump.loaded files cs w).Plain files := by
  rw [Dump.loaded]
  cases htable : Catalog.table files (cs.get w) with
  | ok t c =>
    obtain ⟨hcache, hfrom⟩ := table_eq_ok htable
    have hbuild : ∃ sources, NameTable.build sources = .ok t := hfrom.elim (h.built w t) fun h => h
    refine h.set (fun t' ht' => ?_) fun t' c' ht' => ?_
    · exact Option.some.inj (hcache.symm.trans ht') ▸ hbuild
    · rw [Catalog.table, hcache] at ht'
      cases ht'
      exact h.names w t c htable
  | error e c =>
    have hc : c = cs.get w := by
      rw [Catalog.table] at htable
      split at htable
      · cases htable
      · split at htable <;> cases htable
        rfl
    rw [hc]
    exact h.set (h.built w) (h.names w)

theorem Plain.foldl_loaded (h : cs.Plain files) (ws : List Width) :
    (ws.foldl (Dump.loaded files) cs).Plain files := by
  induction ws generalizing cs with
  | nil => exact h
  | cons w ws ih => exact ih (h.loaded w)

/-- A name that is at hand is resolved to its field, and nothing is read for it. -/
theorem Plain.identFor (h : cs.Plain files) {f : FieldId w} {name : String}
    (hname : (cs.get w).cachedName f = some name) :
    IsPlainName name ∧ Catalog.identFor files name (cs.get w) = .ok f (cs.get w) := by
  obtain ⟨t, hcache, hfirst⟩ := Option.bind_eq_some_iff.1 hname
  obtain ⟨sources, hbuild⟩ := h.built w t hcache
  obtain ⟨hmem, hident⟩ := NameTable.ident?_of_name? (NameTable.unique_build hbuild) hfirst
  have htable : Catalog.table files (cs.get w) = .ok t (cs.get w) := by rw [Catalog.table, hcache]
  refine ⟨h.names w t _ htable _ hmem, ?_⟩
  exact (bind_of_ok htable).trans (by rw [hident]; rfl)

end Catalogs

namespace FieldId

theorem toList_label (f : FieldId w) : f.label.toList
    = '(' :: (f.type.keyword.toList ++ ':' :: Decimal.digits f.number) ++ [')'] := by
  change ("(" ++ f.type.keyword ++ ":" ++ f.number.repr ++ ")").toList = _
  have hnumber : f.number.repr.toList = Decimal.digits f.number := String.toList_ofList
  simp only [String.toList_append, hnumber, List.append_assoc, List.cons_append]
  rfl

end FieldId

namespace Dump

variable {files : Files} {cs : Catalogs}

/-- How the names at hand tell the fields. -/
def labelsOf (cs : Catalogs) : Labels := fun w f => ((cs.get w).cachedName f).getD f.label

/-- What stands in front of the first tab of a line. -/
structure IsLabel (cs : List Char) : Prop where
  graphic : ∀ c ∈ cs, Graphic c
  head : ∃ c rest, cs = c :: rest ∧ c ∉ ['+', '=', '-', '#']

theorem keyword_read : ∀ t : FieldType, (∀ c ∈ t.keyword.toList, Graphic c) ∧
    ':' ∉ t.keyword.toList ∧ FieldType.ofKeyword? t.keyword = some t := by
  intro t
  cases t <;> decide +kernel

theorem isLabel_label (f : FieldId w) : IsLabel f.label.toList where
  graphic := by
    rw [f.toList_label]
    intro c hc
    simp only [List.cons_append, List.append_assoc, List.mem_cons, List.mem_append,
      List.not_mem_nil, or_false] at hc
    rcases hc with rfl | hc | rfl | hc | rfl
    · decide
    · exact (keyword_read f.type).1 c hc
    · decide
    · exact graphic_of_isDigit (Decimal.isDigit_of_mem_digits hc)
    · decide
  head := ⟨'(', _, f.toList_label, by decide⟩

theorem graphic_of_plain {c : Char} (h : c.isAlphanum = true ∨ c = '_') :
    Graphic c ∧ c ∉ ['+', '=', '-', '#', '('] := by
  have hmarks : ∀ d ∈ ['+', '=', '-', '#', '('], ¬ (d.isAlphanum = true ∨ d = '_') := by decide
  refine ⟨?_, fun hmem => hmarks c hmem h⟩
  rcases h with h | rfl
  · rcases Bool.or_eq_true_iff.1 h with h | h
    · have hbounds := bounds_of_isAlpha h
      rw [Graphic]
      omega
    · exact graphic_of_isDigit h
  · decide

theorem isLabel_name {name : String} (h : IsPlainName name) : IsLabel name.toList where
  graphic c hc := (graphic_of_plain (h.2 c hc)).1
  head := by
    have hne : name.toList ≠ [] := fun hnil => h.1 (String.toList_eq_nil_iff.1 hnil)
    obtain ⟨c, rest, hcs⟩ := List.exists_cons_of_ne_nil hne
    have hc := (graphic_of_plain (h.2 c (hcs ▸ List.mem_cons_self ..))).2
    simp only [List.mem_cons, List.not_mem_nil, or_false, not_or] at hc ⊢
    exact ⟨c, rest, hcs, hc.1, hc.2.1, hc.2.2.1, hc.2.2.2.1⟩

theorem isLabel_labelsOf (h : cs.Plain files) (f : FieldId w) :
    IsLabel (labelsOf cs w f).toList := by
  rw [labelsOf]
  cases hname : (cs.get w).cachedName f with
  | none => exact isLabel_label f
  | some name => exact isLabel_name (h.identFor hname).1

theorem referred_label (line : Nat) (name : List Char) (f : FieldId w) :
    referred w line name (f.type.keyword.toList ++ ':' :: Decimal.digits f.number) = .ok f := by
  obtain ⟨-, hcolon, hkeyword⟩ := keyword_read f.type
  have hmax : (f.number : Int) ≤ FieldTable.maxNumber := by
    have h := f.number_le
    have hw : w.maxNumber ≤ FieldTable.maxNumber := by cases w <;> decide
    omega
  have hnumber : FieldTable.natural? (Decimal.digits f.number) = some f.number := by
    rw [FieldTable.natural?, Decimal.integer?_digits (Int.natCast_nonneg _) hmax]
    rfl
  simp only [referred, Text.splitOnce_append hcolon, String.ofList_toList, hkeyword, hnumber,
    Option.bind_eq_bind, Option.bind_some, pure, FieldId.new_eq_ok_iff.2 ⟨rfl, rfl⟩]

/-- Every label is resolved to its field. -/
theorem field_label (h : cs.Plain files) (line : Nat) (f : FieldId w) {p : Progress w}
    (hp : p.catalogs = cs) : field files line (labelsOf cs w f).toList p = .ok f p := by
  rw [labelsOf]
  cases hname : (cs.get w).cachedName f with
  | none =>
    have href : reference? f.label.toList
        = some (f.type.keyword.toList ++ ':' :: Decimal.digits f.number) := by
      rw [f.toList_label, List.cons_append]
      simp only [reference?, List.getLast?_concat, List.dropLast_concat, if_true]
    rw [Option.getD_none, field, href]
    simp only [referred_label]
    rfl
  | some name =>
    obtain ⟨hplain, hident⟩ := h.identFor hname
    have href : reference? name.toList = none := by
      unfold reference?
      split
      · rename_i rest hcs
        have hparen := hplain.2 '(' (hcs ▸ List.mem_cons_self ..)
        exact absurd hparen (by decide)
      · rfl
    subst hp
    rw [Option.getD_some, field, href]
    simp only [Reading.resolve, String.ofList_toList, hident, Catalogs.set_get]

end Dump

end FieldBuffers
