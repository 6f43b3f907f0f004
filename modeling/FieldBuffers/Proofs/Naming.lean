import FieldBuffers.Proofs.Labels

/-! What a catalog makes of field tables. Whether they load, and what their names then stand for,
depends on what they define and not on the order of it (`names_of_tables`). -/

namespace FieldBuffers

variable {w : Width} {α : Type}

/-- A name with the number from zero and the kind that a table gives it. -/
abbrev Definition := String × Nat × FieldType

/-- The definitions of some tables, in their order. -/
def FieldTable.definitions (tables : List FieldTable) : List Definition :=
  tables.flatMap FieldTable.resolved

/-- The same tables in another order, with their definitions in another order. -/
def FieldTable.Rearranged (ts us : List FieldTable) : Prop :=
  ∃ vs, ts.Perm vs ∧
    List.Forall₂ (fun t u => t.base = u.base ∧ t.fields.Perm u.fields) vs us

theorem FieldTable.Rearranged.definitions_perm {ts us : List FieldTable}
    (h : Rearranged ts us) : (definitions ts).Perm (definitions us) := by
  obtain ⟨vs, hperm, hinside⟩ := h
  refine (hperm.flatMap_right _).trans ?_
  clear hperm
  induction hinside with
  | nil => exact .nil
  | @cons t u _ _ htu _ ih =>
    have hresolved : t.resolved.Perm u.resolved := by
      rw [resolved, resolved, htu.1]
      exact htu.2.map _
    exact hresolved.append ih

/-- The number and the kind that make an identifier. -/
def FieldId.meaning (f : FieldId w) : Nat × FieldType := (f.number, f.type)

/-- Some definition gives a name to an identifier. -/
def Defines (ds : List Definition) (name : String) (f : FieldId w) : Prop :=
  (name, f.meaning) ∈ ds

instance (ds : List Definition) (name : String) (f : FieldId w) : Decidable (Defines ds name f) :=
  inferInstanceAs (Decidable (_ ∈ _))

/-- The first name that is given to an identifier. -/
def firstName? (ds : List Definition) (f : FieldId w) : Option String :=
  (ds.find? (·.2 == f.meaning)).map (·.1)

/-- Definitions that a family can have, with one meaning for each name. -/
structure Consistent (w : Width) (ds : List Definition) : Prop where
  supported : ∀ d ∈ ds, w.supports d.2.2 = true
  number : ∀ d ∈ ds, 1 ≤ d.2.1 ∧ d.2.1 ≤ w.maxNumber
  single : ∀ d ∈ ds, ∀ e ∈ ds, d.1 = e.1 → d.2 = e.2

theorem exists_firstName?_iff (f : FieldId w) :
    (∃ name, firstName? ds f = some name) ↔ ∃ name, Defines ds name f := by
  rw [← Option.isSome_iff_exists, firstName?, Option.isSome_map, List.find?_isSome]
  constructor
  · rintro ⟨⟨name, m⟩, hd, hm⟩
    obtain rfl : m = f.meaning := by simpa using hm
    exact ⟨name, hd⟩
  · rintro ⟨name, hd⟩
    exact ⟨_, hd, by simp⟩

namespace FieldId

variable {f g : FieldId w} {t : FieldType} {n : Nat}

theorem meaning_inj : f.meaning = g.meaning ↔ f = g := by
  refine ⟨fun h => ?_, fun h => h ▸ rfl⟩
  obtain ⟨hn, ht⟩ := Prod.mk.inj h
  exact raw_injective (by rw [raw, raw, hn, ht])

theorem exists_meaning_iff :
    (∃ f : FieldId w, (n, t) = f.meaning) ↔ w.supports t = true ∧ 1 ≤ n ∧ n ≤ w.maxNumber := by
  constructor
  · rintro ⟨f, hf⟩
    obtain ⟨rfl, rfl⟩ := Prod.mk.inj hf
    exact ⟨f.supported, f.number_pos, f.number_le⟩
  · rintro ⟨ht, hpos, hle⟩
    exact ⟨⟨t, n, hpos, hle, ht⟩, rfl⟩

theorem make?_eq_some_iff : make? w t n = some f ↔ (n, t) = f.meaning := by
  constructor
  · intro h
    obtain ⟨rfl, rfl⟩ := make?_eq_some h
    rfl
  · intro h
    obtain ⟨rfl, rfl⟩ := Prod.mk.inj h
    exact make?_self f

/-- Numbers past 32 bits are cut off only where no family has any. -/
theorem make?_min (t : FieldType) (n : Nat) :
    make? w t (min n FieldTable.maxNumber) = make? w t n := by
  have hmax : w.maxNumber < FieldTable.maxNumber := by cases w <;> decide
  rcases Nat.le_total n FieldTable.maxNumber with h | h
  · rw [Nat.min_eq_left h]
  · have hnone : ∀ m, FieldTable.maxNumber ≤ m → make? w t m = none := by
      intro m hm
      rw [Option.eq_none_iff_forall_ne_some]
      intro f hf
      obtain ⟨-, rfl⟩ := make?_eq_some hf
      exact absurd f.number_le (by omega)
    rw [hnone n h, Nat.min_eq_right h, hnone _ (Nat.le_refl _)]

end FieldId

namespace Consistent

variable {ds es : List Definition} {d : Definition}

theorem nil : Consistent w [] := ⟨nofun, nofun, nofun⟩

theorem perm (h : Consistent w ds) (hp : ds.Perm es) : Consistent w es where
  supported d hd := h.supported d (hp.mem_iff.2 hd)
  number d hd := h.number d (hp.mem_iff.2 hd)
  single d hd e he := h.single d (hp.mem_iff.2 hd) e (hp.mem_iff.2 he)

theorem exists_meaning (h : Consistent w ds) (hd : d ∈ ds) : ∃ f : FieldId w, d.2 = f.meaning :=
  FieldId.exists_meaning_iff.2 ⟨h.supported d hd, h.number d hd⟩

theorem of_append (h : Consistent w (ds ++ es)) : Consistent w ds where
  supported d hd := h.supported d (List.mem_append_left es hd)
  number d hd := h.number d (List.mem_append_left es hd)
  single d hd e he := h.single d (List.mem_append_left es hd) e (List.mem_append_left es he)

/-- One more definition has to be valid, and to agree with those of its name. -/
theorem snoc_iff (h : Consistent w ds) : Consistent w (ds ++ [d]) ↔
    (∃ f : FieldId w, d.2 = f.meaning) ∧ ∀ e ∈ ds, e.1 = d.1 → e.2 = d.2 := by
  constructor
  · intro hc
    have hd : d ∈ ds ++ [d] := List.mem_append_right ds List.mem_cons_self
    exact ⟨hc.exists_meaning hd, fun e he => hc.single e (List.mem_append_left [d] he) d hd⟩
  · rintro ⟨hvalid, hagree⟩
    obtain ⟨hs, hn⟩ := FieldId.exists_meaning_iff.1 hvalid
    constructor
    case supported => simpa [or_imp, forall_and, hs] using h.supported
    case number => simpa [or_imp, forall_and, hn] using h.number
    case single =>
      intro e he e' he' hname
      rcases List.mem_append.1 he with hin | hin <;>
        rcases List.mem_append.1 he' with hin' | hin'
      · exact h.single e hin e' hin' hname
      · obtain rfl := List.mem_singleton.1 hin'
        exact hagree e hin hname
      · obtain rfl := List.mem_singleton.1 hin
        exact (hagree e' hin' hname.symm).symm
      · rw [List.mem_singleton.1 hin, List.mem_singleton.1 hin']

end Consistent

namespace NameTable

variable {t t' : NameTable w} {ds : List Definition} {d : Definition} {origin name : String}

theorem ident?_snoc (es : List (String × FieldId w)) (n : String) (f : FieldId w) :
    ident? ⟨es ++ [(n, f)]⟩ name
      = (ident? ⟨es⟩ name).or (if n = name then some f else none) := by
  rw [ident?, ident?, List.find?_append]
  by_cases h : n = name <;> cases es.find? (·.1 == name) <;> simp [h]

theorem name?_snoc (es : List (String × FieldId w)) (n : String) (f g : FieldId w) :
    name? ⟨es ++ [(n, f)]⟩ g = (name? ⟨es⟩ g).or (if f = g then some n else none) := by
  rw [name?, name?, List.find?_append]
  by_cases h : f = g <;> cases es.find? (·.2 == g) <;> simp [h]

theorem firstName?_snoc (ds : List Definition) (n : String) (f g : FieldId w) :
    firstName? (ds ++ [(n, f.meaning)]) g
      = (firstName? ds g).or (if f = g then some n else none) := by
  rw [firstName?, firstName?, List.find?_append]
  by_cases h : f = g <;> cases ds.find? (·.2 == g.meaning) <;> simp [h, FieldId.meaning_inj]

/-- A definition is taken if its name is new or already means the same. -/
theorem define_eq_ok_iff : define origin t d = .ok t' ↔
    ∃ f : FieldId w, d.2 = f.meaning ∧
      (t.ident? d.1 = none ∧ t' = ⟨t.entries ++ [(d.1, f)]⟩ ∨ t.ident? d.1 = some f ∧ t' = t) := by
  obtain ⟨name, number, type⟩ := d
  simp only [← FieldId.make?_eq_some_iff]
  rw [← FieldId.make?_min type number]
  simp only [define, FieldId.new, FieldId.make?]
  cases FieldId.make w type (min number FieldTable.maxNumber) with
  | error fault => simp [Except.mapError, Except.toOption]
  | ok f =>
    simp only [Except.mapError, Except.toOption, Option.some.injEq, exists_eq_left']
    cases t.ident? name with
    | none => simp [eq_comm]
    | some g =>
      by_cases hg : g = f
      · simp [hg, eq_comm]
      · simp [hg]

/-- What a table of names is after some definitions. -/
structure Records (t : NameTable w) (ds : List Definition) : Prop where
  consistent : Consistent w ds
  ident (name : String) (f : FieldId w) : t.ident? name = some f ↔ Defines ds name f
  name (f : FieldId w) : t.name? f = firstName? ds f
  nodup : (t.entries.map (·.1)).Nodup

theorem records_nil : ({} : NameTable w).Records [] where
  consistent := .nil
  ident name f := by simp [ident?, Defines]
  name f := rfl
  nodup := .nil

theorem isSome_name?_of_ident? {f : FieldId w} (h : t.ident? name = some f) :
    (t.name? f).isSome := by
  obtain ⟨e, he, rfl⟩ := Option.map_eq_some_iff.1 h
  simp only [name?, Option.isSome_map, List.find?_isSome, beq_iff_eq]
  exact ⟨e, List.mem_of_find?_eq_some he, rfl⟩

namespace Records

variable (h : t.Records ds)

include h

theorem agrees_iff {f : FieldId w} {n : String} :
    (∀ e ∈ ds, e.1 = n → e.2 = f.meaning) ↔ t.ident? n = none ∨ t.ident? n = some f := by
  constructor
  · intro hagree
    cases hg : t.ident? n with
    | none => exact .inl rfl
    | some g =>
      have hsame := hagree _ ((h.ident n g).1 hg) rfl
      exact .inr (congrArg some (FieldId.meaning_inj.1 hsame))
  · rintro hn e he rfl
    obtain ⟨g, hg⟩ := h.consistent.exists_meaning he
    have hid : t.ident? e.1 = some g := by
      rw [h.ident, Defines, ← hg]
      exact he
    rcases hn with hn | hn
    · rw [hid] at hn
      cases hn
    · rw [hg, Option.some.inj (hid.symm.trans hn)]

theorem exists_define_iff (origin : String) :
    (∃ t', NameTable.define origin t d = .ok t') ↔ Consistent w (ds ++ [d]) := by
  rw [h.consistent.snoc_iff]
  constructor
  · rintro ⟨t', ht'⟩
    obtain ⟨f, hf, hcase⟩ := define_eq_ok_iff.1 ht'
    refine ⟨⟨f, hf⟩, ?_⟩
    rw [hf]
    exact h.agrees_iff.2 (hcase.imp And.left And.left)
  · rintro ⟨⟨f, hf⟩, hagree⟩
    rw [hf] at hagree
    rcases h.agrees_iff.1 hagree with hnew | hold
    · exact ⟨_, define_eq_ok_iff.2 ⟨f, hf, .inl ⟨hnew, rfl⟩⟩⟩
    · exact ⟨t, define_eq_ok_iff.2 ⟨f, hf, .inr ⟨hold, rfl⟩⟩⟩

theorem define (hd : NameTable.define origin t d = .ok t') : t'.Records (ds ++ [d]) := by
  have hc := (h.exists_define_iff origin).1 ⟨t', hd⟩
  obtain ⟨f, hf, hcase⟩ := define_eq_ok_iff.1 hd
  obtain ⟨n, m⟩ := d
  obtain rfl : m = f.meaning := hf
  have hmem : ∀ (name : String) (g : FieldId w),
      Defines (ds ++ [(n, f.meaning)]) name g ↔ Defines ds name g ∨ n = name ∧ f = g := by
    intro name g
    simp [Defines, FieldId.meaning_inj, eq_comm]
  rcases hcase with ⟨hnew, rfl⟩ | ⟨hold, rfl⟩
  · refine ⟨hc, fun name g => ?_, fun g => ?_, ?_⟩
    · rw [hmem, ← h.ident, ident?_snoc]
      by_cases hn : n = name
      · subst hn
        simp [hnew]
      · simp [hn]
    · rw [name?_snoc, firstName?_snoc, h.name]
    · have hfresh : n ∉ t.entries.map (·.1) := by
        simp only [ident?, Option.map_eq_none_iff, List.find?_eq_none, beq_iff_eq] at hnew
        rintro hn
        obtain ⟨e, he, rfl⟩ := List.mem_map.1 hn
        exact hnew e he rfl
      rw [List.map_append]
      exact List.nodup_append_comm.1 (List.nodup_cons.2 ⟨hfresh, h.nodup⟩)
  · refine ⟨hc, fun name g => ?_, fun g => ?_, h.nodup⟩
    · rw [hmem, ← h.ident]
      refine ⟨Or.inl, ?_⟩
      rintro (hg | ⟨rfl, rfl⟩)
      · exact hg
      · exact hold
    · rw [firstName?_snoc, ← h.name]
      by_cases hfg : f = g
      · subst hfg
        rw [Option.or_of_isSome (isSome_name?_of_ident? hold)]
      · simp [hfg]

end Records

/-- A step takes the definitions that `g` says, if they are consistent with those before. -/
def Takes {β : Type} (step : NameTable w → β → Except Error (NameTable w))
    (g : β → List Definition) : Prop :=
  ∀ (t : NameTable w) (ds : List Definition) (b : β), t.Records ds →
    ((∃ t', step t b = .ok t') ↔ Consistent w (ds ++ g b)) ∧
      ∀ t', step t b = .ok t' → t'.Records (ds ++ g b)

theorem takes_define (origin : String) : Takes (w := w) (define origin) fun d => [d] :=
  fun _ _ _ h => ⟨h.exists_define_iff origin, fun _ => h.define⟩

theorem Takes.foldlM {β : Type} {step : NameTable w → β → Except Error (NameTable w)}
    {g : β → List Definition} (hstep : Takes step g) :
    Takes (fun t bs => bs.foldlM step t) fun bs : List β => bs.flatMap g := by
  intro t ds bs h
  dsimp only
  induction bs generalizing t ds with
  | nil =>
    rw [List.flatMap_nil, List.append_nil]
    exact ⟨⟨fun _ => h.consistent, fun _ => ⟨t, rfl⟩⟩, fun t' ht' => Except.ok.inj ht' ▸ h⟩
  | cons b bs ih =>
    obtain ⟨hok, hrec⟩ := hstep t ds b h
    simp only [List.foldlM_cons, List.flatMap_cons, ← List.append_assoc]
    constructor
    · constructor
      · rintro ⟨t', ht'⟩
        obtain ⟨u, hu, ht'⟩ := ok_bind_iff.1 ht'
        exact (ih u _ (hrec u hu)).1.1 ⟨t', ht'⟩
      · intro hc
        obtain ⟨u, hu⟩ := hok.2 hc.of_append
        obtain ⟨t', ht'⟩ := (ih u _ (hrec u hu)).1.2 hc
        exact ⟨t', ok_bind_iff.2 ⟨u, hu, ht'⟩⟩
    · intro t' ht'
      obtain ⟨u, hu, ht'⟩ := ok_bind_iff.1 ht'
      exact (ih u _ (hrec u hu)).2 t' ht'

theorem takes_build (sources : List (String × FieldTable)) :
    ((∃ t : NameTable w, build sources = .ok t) ↔
        Consistent w (FieldTable.definitions (sources.map (·.2)))) ∧
      ∀ t : NameTable w, build sources = .ok t →
        t.Records (FieldTable.definitions (sources.map (·.2))) := by
  have htable : Takes (w := w) (fun t s => s.2.resolved.foldlM (define s.1) t)
      fun s : String × FieldTable => s.2.resolved := by
    intro t ds s h
    simpa using (takes_define s.1).foldlM t ds s.2.resolved h
  rw [FieldTable.definitions, List.flatMap_map]
  exact htable.foldlM {} [] sources records_nil

namespace Records

variable {u : NameTable w} {es : List Definition}

theorem mem_entries_iff (h : t.Records ds) {f : FieldId w} :
    (name, f) ∈ t.entries ↔ Defines ds name f := by
  rw [← h.ident, ident?]
  constructor
  · intro hmem
    cases hfind : t.entries.find? (·.1 == name) with
    | none => exact absurd (List.find?_eq_none.1 hfind _ hmem) (by simp)
    | some e =>
      have hname : e.1 = name := by simpa using List.find?_some hfind
      have he := List.mem_of_find?_eq_some hfind
      rw [List.inj_on_of_nodup_map h.nodup he hmem hname]
      rfl
  · intro hfind
    obtain ⟨e, he, rfl⟩ := Option.map_eq_some_iff.1 hfind
    have hname : e.1 = name := by simpa using List.find?_some he
    exact hname ▸ List.mem_of_find?_eq_some he

theorem unique (h : t.Records ds) : t.Unique := fun d hd => by
  rw [h.ident, ← h.mem_entries_iff]
  exact hd

theorem ident?_congr (h : t.Records ds) (hu : u.Records es) (hp : ds.Perm es) (name : String) :
    t.ident? name = u.ident? name := by
  apply Option.ext
  intro f
  rw [h.ident, hu.ident, Defines, Defines, hp.mem_iff]

/-- Names are listed in their own order, whatever that of the definitions. -/
theorem sorted_congr (h : t.Records ds) (hu : u.Records es) (hp : ds.Perm es) :
    t.sorted = u.sorted := by
  have hperm : t.entries.Perm u.entries := by
    rw [List.perm_ext_iff_of_nodup (h.nodup.of_map _) (hu.nodup.of_map _)]
    rintro ⟨n, f⟩
    rw [h.mem_entries_iff, hu.mem_entries_iff, Defines, Defines, hp.mem_iff]
  have hpair : ∀ v : NameTable w, v.sorted.Pairwise fun a b => a.1 ≤ b.1 := by
    intro v
    have hs : v.sorted.Pairwise fun a b => decide (a.1 ≤ b.1) = true := List.pairwise_mergeSort
      (fun a b c hab hbc => by simpa using String.le_trans (by simpa using hab) (by simpa using hbc))
      (fun a b => by simpa using String.le_total a.1 b.1) v.entries
    simp only [decide_eq_true_eq] at hs
    exact hs
  have hsort : t.sorted.Perm u.sorted :=
    ((List.mergeSort_perm ..).trans hperm).trans (List.mergeSort_perm ..).symm
  refine hsort.eq_of_pairwise (fun a b ha hb hab hba => ?_) (hpair t) (hpair u)
  have ha := (List.mergeSort_perm ..).mem_iff.1 ha
  have hb := hperm.mem_iff.2 ((List.mergeSort_perm ..).mem_iff.1 hb)
  exact List.inj_on_of_nodup_map h.nodup ha hb (String.le_antisymm hab hba)

end Records

end NameTable

namespace Catalog

/-- The tables of the files, and then those that were given. -/
def tables (files : Files) (c : Catalog w) : Except Error (List FieldTable) := do
  return (← c.sources.mapM (FieldTable.ofFile files)) ++ c.registered

/-- What a catalog answers. -/
def asked (r : Resolving w α) (c : Catalog w) : Except Error α :=
  match r c with
  | .ok a _ => .ok a
  | .error e _ => .error e

/-- What a catalog with some definitions answers, whatever has become of its files. -/
structure Answers (c : Catalog w) (ds : List Definition) : Prop where
  ident (files : Files) (name : String) (f : FieldId w) :
    c.asked (identFor files name) = .ok f ↔ Defines ds name f
  name (files : Files) (f : FieldId w) (name : String) :
    c.asked (nameFor files f) = .ok name ↔ firstName? ds f = some name
  named (files : Files) (f : FieldId w) :
    (∃ name, c.asked (nameFor files f) = .ok name) ↔ ∃ name, Defines ds name f
  back (files : Files) (name : String) (f : FieldId w) :
    c.asked (nameFor files f) = .ok name → c.asked (identFor files name) = .ok f

section

variable {files : Files} {c c' : Catalog w} {t : NameTable w} {ts : List FieldTable}
  {ds : List Definition}

theorem mapM_pair {β γ ε : Type} {f : β → Except ε γ} {xs : List β} {ys : List γ}
    (h : xs.mapM f = .ok ys) :
    (xs.mapM fun x => do return (x, ← f x)) = .ok (xs.zip ys) ∧ ys.length = xs.length := by
  induction xs generalizing ys with
  | nil => exact Except.ok.inj h ▸ ⟨rfl, rfl⟩
  | cons x xs ih =>
    rw [List.mapM_cons] at h ⊢
    obtain ⟨y, hy, h⟩ := ok_bind_iff.1 h
    obtain ⟨zs, hzs, h⟩ := ok_bind_iff.1 h
    obtain rfl := Except.ok.inj h
    obtain ⟨hpairs, hlength⟩ := ih hzs
    rw [hy, hpairs]
    exact ⟨rfl, congrArg (· + 1) hlength⟩

theorem exists_read_eq (h : c.tables files = .ok ts) :
    ∃ sources, c.read files = NameTable.build sources ∧ sources.map (·.2) = ts := by
  obtain ⟨found, hfound, h⟩ := ok_bind_iff.1 h
  obtain rfl := Except.ok.inj h
  obtain ⟨hpairs, hlength⟩ := mapM_pair hfound
  refine ⟨_, by rw [read, hpairs]; rfl, ?_⟩
  rw [List.map_append, List.map_snd_zip (Nat.le_of_eq hlength), List.map_map]
  simp [Function.comp_def]

theorem table_eq_ok_iff (hcold : c.cache = none) :
    Catalog.table files c = .ok t c' ↔ c.read files = .ok t ∧ c' = { c with cache := some t } := by
  rw [Catalog.table, hcold]
  cases c.read files with
  | error e => simp
  | ok u =>
    simp only [EStateM.Result.ok.injEq, Except.ok.injEq]
    constructor
    all_goals
      rintro ⟨rfl, rfl⟩
      exact ⟨rfl, rfl⟩

/-- Reading the tables takes their definitions. -/
theorem loads (hcold : c.cache = none) (hts : c.tables files = .ok ts) :
    ((∃ t c', Catalog.table files c = .ok t c') ↔ Consistent w (FieldTable.definitions ts)) ∧
      ∀ t c', Catalog.table files c = .ok t c' →
        t.Records (FieldTable.definitions ts) ∧ c'.cache = some t := by
  obtain ⟨sources, hread, rfl⟩ := exists_read_eq hts
  obtain ⟨hok, hrec⟩ := NameTable.takes_build (w := w) sources
  simp only [table_eq_ok_iff hcold, hread]
  constructor
  · rw [← hok]
    exact ⟨fun ⟨t, _, ht, _⟩ => ⟨t, ht⟩, fun ⟨t, ht⟩ => ⟨t, _, ht, rfl⟩⟩
  · rintro t c' ⟨ht, rfl⟩
    exact ⟨hrec t ht, rfl⟩

theorem asked_identFor (hc : c.cache = some t) (files : Files) (name : String) :
    c.asked (identFor files name)
      = (t.ident? name).elim (.error (.unknownName name)) .ok := by
  have htable : Catalog.table files c = .ok t c := by rw [Catalog.table, hc]
  rw [asked, identFor, bind_of_ok htable]
  cases t.ident? name <;> rfl

theorem asked_nameFor (hc : c.cache = some t) (files : Files) (f : FieldId w) :
    c.asked (nameFor files f) = (t.name? f).elim (.error (.unknownIdentifier f.raw)) .ok := by
  have htable : Catalog.table files c = .ok t c := by rw [Catalog.table, hc]
  rw [asked, nameFor, bind_of_ok htable]
  cases t.name? f <;> rfl

theorem asked_fields (hc : c.cache = some t) (files : Files) :
    c.asked (fields files) = .ok t.sorted := by
  have htable : Catalog.table files c = .ok t c := by rw [Catalog.table, hc]
  rw [asked, fields, bind_of_ok htable]
  rfl

theorem answers (ht : t.Records ds) (hc : c.cache = some t) : c.Answers ds := by
  have hident : ∀ files name f, c.asked (identFor files name) = .ok f ↔ Defines ds name f := by
    intro files name f
    rw [asked_identFor hc, ← ht.ident]
    cases t.ident? name <;> simp
  have hname : ∀ files f name, c.asked (nameFor files f) = .ok name ↔ t.name? f = some name := by
    intro files f name
    rw [asked_nameFor hc]
    cases t.name? f <;> simp
  refine ⟨hident, fun files f name => ht.name f ▸ hname files f name, fun files f => ?_, ?_⟩
  · simp only [hname, ht.name, exists_firstName?_iff]
  · intro files name f h
    have hfirst := (hname files f name).1 h
    rw [asked_identFor hc, (NameTable.ident?_of_name? ht.unique hfirst).2]
    rfl

end

end Catalog

/-- Tables load exactly when their definitions are consistent. Names then stand for what they were
defined as, each identifier goes by the first name that it was given, and the same definitions in
another order, among the tables or inside them, give the same names. -/
theorem names_of_tables {files : Files} {c : Catalog w} {ts : List FieldTable}
    (hcold : c.cache = none) (hts : c.tables files = .ok ts) :
    ((∃ t c', Catalog.table files c = .ok t c') ↔ Consistent w (FieldTable.definitions ts)) ∧
      (∀ t c', Catalog.table files c = .ok t c' → c'.Answers (FieldTable.definitions ts)) ∧
      ∀ (files₂ : Files) (c₂ : Catalog w) (ts₂ : List FieldTable), c₂.cache = none →
        c₂.tables files₂ = .ok ts₂ →
        (FieldTable.definitions ts).Perm (FieldTable.definitions ts₂) →
        ((∃ t c', Catalog.table files c = .ok t c') ↔
            ∃ t c', Catalog.table files₂ c₂ = .ok t c') ∧
          ∀ t c' t₂ c₂', Catalog.table files c = .ok t c' →
            Catalog.table files₂ c₂ = .ok t₂ c₂' → ∀ later : Files,
              (∀ name, c'.asked (Catalog.identFor later name)
                = c₂'.asked (Catalog.identFor later name)) ∧
              c'.asked (Catalog.fields later) = c₂'.asked (Catalog.fields later) := by
  obtain ⟨hiff, hafter⟩ := Catalog.loads hcold hts
  refine ⟨hiff, fun t c' h => ?_, fun files₂ c₂ ts₂ hcold₂ hts₂ hperm => ?_⟩
  · obtain ⟨hrec, hkeeps⟩ := hafter t c' h
    exact Catalog.answers hrec hkeeps
  · obtain ⟨hiff₂, hafter₂⟩ := Catalog.loads hcold₂ hts₂
    refine ⟨?_, fun t c' t₂ c₂' h h₂ later => ?_⟩
    · rw [hiff, hiff₂]
      exact ⟨fun hc => hc.perm hperm, fun hc => hc.perm hperm.symm⟩
    · obtain ⟨hrec, hkeeps⟩ := hafter t c' h
      obtain ⟨hrec₂, hkeeps₂⟩ := hafter₂ t₂ c₂' h₂
      refine ⟨fun name => ?_, ?_⟩
      · rw [Catalog.asked_identFor hkeeps, Catalog.asked_identFor hkeeps₂,
          hrec.ident?_congr hrec₂ hperm]
      · rw [Catalog.asked_fields hkeeps, Catalog.asked_fields hkeeps₂,
          hrec.sorted_congr hrec₂ hperm]

theorem names_of_shuffled_tables :
    let files : Files := fun _ =>
      .ok (Bytes.ofText "*base 100\nNAME 1 string\nALIAS 1 string\n")
    let count : FieldDef := ⟨"COUNT", 2, .long, none⟩
    let name : FieldDef := ⟨"NAME", 1, .string, none⟩
    let c : Catalog .wide := { sources := ["a.fd"], registered := [⟨100, [count, name]⟩] }
    let c₂ : Catalog .wide :=
      { registered := [⟨100, [name, count]⟩, ⟨0, [⟨"ALIAS", 101, .string, none⟩,
          ⟨"NAME", 101, .string, none⟩]⟩] }
    let f : FieldId .wide := ⟨.string, 101, by decide, by decide, by decide⟩
    ∃ t c' t₂ c₂', Catalog.table files c = .ok t c' ∧ Catalog.table files c₂ = .ok t₂ c₂' ∧
      c'.asked (Catalog.nameFor files f) = .ok "NAME" ∧
      c₂'.asked (Catalog.identFor files "ALIAS") = .ok f := by
  intro files count name c c₂ f
  let file : FieldTable := ⟨0, [⟨"NAME", 101, .string, none⟩, ⟨"ALIAS", 101, .string, none⟩]⟩
  have hts : c.tables files = .ok [file, ⟨100, [count, name]⟩] := rfl
  have hperm : FieldTable.Rearranged [file, ⟨100, [count, name]⟩] c₂.registered := by
    refine ⟨_, .swap .., .cons ⟨rfl, .swap ..⟩ (.cons ⟨rfl, .swap ..⟩ .nil)⟩
  obtain ⟨hiff, hanswers, hsame⟩ := names_of_tables (c := c) rfl hts
  obtain ⟨hboth, hequal⟩ := hsame files c₂ c₂.registered rfl rfl hperm.definitions_perm
  obtain ⟨t, c', h⟩ := hiff.2 ⟨by decide, by decide, by decide⟩
  obtain ⟨t₂, c₂', h₂⟩ := hboth.1 ⟨t, c', h⟩
  refine ⟨t, c', t₂, c₂', h, h₂, ?_, ?_⟩
  · exact ((hanswers t c' h).name files f "NAME").2 (by decide)
  · rw [← (hequal t c' t₂ c₂' h h₂ files).1, (hanswers t c' h).ident]
    decide

end FieldBuffers
