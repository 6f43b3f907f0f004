import FieldBuffers.Catalog.Table
import FieldBuffers.Proofs.Columns
import FieldBuffers.Proofs.Outcome
import Mathlib.Logic.Relation

/-! Tables in the classic form: what a line says, by its columns and the base in force, and what a
text of such lines defines. A text is read if every line is regular, its definitions are those of
its lines in their order, and else the first line that is not regular is named (`table_of_text`). -/

namespace FieldBuffers

open Text

variable {cs ps rest : List Char} {n : Nat}

namespace FieldType

theorem ofKeyword?_eq_some_iff {t : FieldType} :
    ofKeyword? (String.ofList cs) = some t ↔ cs.map Char.toLower = t.keyword.toList := by
  rw [ofKeyword?, ofExactKeyword?, String.toList_ofList]
  constructor
  · intro h
    have hkey : t.keyword = String.ofList (cs.map Char.toLower) := by
      simpa using List.find?_some h
    rw [hkey, String.toList_ofList]
  · intro h
    have hkey : String.ofList (cs.map Char.toLower) = t.keyword := by
      rw [h, String.ofList_toList]
    rw [hkey]
    cases t <;> rfl

end FieldType

namespace FieldTable

variable {base : Nat} {line line' : List Char} {lines lines' before tail tail' : List (List Char)}
  {d : FieldDef} {l : Line} {columns : List (List Char)}

/-- Digits of a number of 32 bits, with or without a plus sign before them. -/
def Writes (cs : List Char) (n : Nat) : Prop :=
  ∃ ds, (cs = ds ∨ cs = '+' :: ds) ∧ ds ≠ [] ∧ (∀ c ∈ ds, c.isDigit = true) ∧
    n = Decimal.value ds ∧ n < 2 ^ 32

def Skipped (line : List Char) : Prop :=
  trim line = [] ∨ ∃ rest, trim line = '#' :: rest ∨ trim line = '$' :: rest

/-- The line starts with `*base`, and just a number follows. -/
def GivesBase (line : List Char) (n : Nat) : Prop :=
  ∃ rest, trim line = "*base".toList ++ rest ∧ Writes (trim rest) n

/-- A name, a number that is relative to the base, and a kind; there may be a flag after them, and
a comment after the flag. -/
def Spell (base : Nat) (columns : List (List Char)) (d : FieldDef) : Prop :=
  ∃ name number keyword rest n, columns = name :: number :: keyword :: rest ∧
    Writes number n ∧ keyword.map Char.toLower = d.type.keyword.toList ∧ base + n < 2 ^ 32 ∧
    d.name = String.ofList name ∧ d.number = base + n ∧ d.comment = commentOf rest

structure Defines (base : Nat) (line : List Char) (d : FieldDef) : Prop where
  notSkipped : ¬ Skipped line
  noBase : ¬ "*base".toList <+: trim line
  columns : Spell base (words line) d

/-- What a line says where some base is in force. -/
inductive Says (base : Nat) (line : List Char) : Line → Prop
  | nothing : Skipped line → Says base line .nothing
  | base {n : Nat} : GivesBase line n → Says base line (.base n)
  | definition {d : FieldDef} : Defines base line d → Says base line (.definition d)

/-- The base that the last line with one gives, or zero. -/
def InForce (before : List (List Char)) (base : Nat) : Prop :=
  (base = 0 ∧ ∀ line ∈ before, ∀ n, ¬ GivesBase line n) ∨
    ∃ as line bs, before = as ++ line :: bs ∧ GivesBase line base ∧
      ∀ line' ∈ bs, ∀ n, ¬ GivesBase line' n

/-- Each line says something where the base before it is in force. -/
def Regular (lines : List (List Char)) : Prop :=
  ∀ before line after base, lines = before ++ line :: after → InForce before base →
    ∃ l, Says base line l

def Line.definitions : Line → List FieldDef
  | .definition d => [d]
  | _ => []

/-- The definitions of some lines in their order. -/
inductive Lists : List (List Char) → List FieldDef → Prop
  | nil : Lists [] []
  | concat {before ds line base l} : Lists before ds → InForce before base → Says base line l →
      Lists (before ++ [line]) (ds ++ l.definitions)

/-- A line that says nothing is put in, or blanks between the columns of a line are replaced by
others, spaces and tabs among them. -/
inductive Restyled : List (List Char) → List (List Char) → Prop
  | nothing (before after : List (List Char)) {line : List Char} : Skipped line →
      Restyled (before ++ after) (before ++ line :: after)
  | blanks (before after : List (List Char)) (u v : List Char) {run run' : List Char} :
      run ≠ [] → run' ≠ [] → (∀ c ∈ run, isBlank c = true) → (∀ c ∈ run', isBlank c = true) →
      Restyled (before ++ (u ++ run ++ v) :: after) (before ++ (u ++ run' ++ v) :: after)

/-! Reading one line. -/

theorem decimal_natural?_eq_some_iff {ds : List Char} : Decimal.natural? ds = some n ↔
    ds ≠ [] ∧ (∀ c ∈ ds, c.isDigit = true) ∧ Decimal.value ds = n := by
  simp [Decimal.natural?, and_assoc]

theorem natural?_of_unsigned {ds : List Char} (h : Decimal.splitSign cs = (false, ds)) :
    natural? cs = some n ↔ Decimal.natural? ds = some n ∧ n < 2 ^ 32 := by
  have hle (m : Nat) : (0 ≤ (m : Int) ∧ (m : Int) ≤ maxNumber) ↔ m < 2 ^ 32 := by
    rw [maxNumber]; omega
  simp only [natural?, Decimal.integer?, h, Bool.false_and, Bool.false_eq_true, if_false, hle,
    Option.map_eq_some_iff, Option.bind_eq_some_iff, Option.ite_none_right_eq_some,
    Option.some.injEq]
  constructor
  · rintro ⟨i, ⟨m, hm, hlt, rfl⟩, rfl⟩
    exact ⟨hm, hlt⟩
  · rintro ⟨hn, hlt⟩
    exact ⟨n, ⟨n, hn, hlt, rfl⟩, rfl⟩

theorem splitSign_digits_iff {ds : List Char} (hne : ds ≠ []) (h : ∀ c ∈ ds, c.isDigit = true) :
    Decimal.splitSign cs = (false, ds) ↔ cs = ds ∨ cs = '+' :: ds := by
  obtain ⟨d, ds, rfl⟩ := List.exists_cons_of_ne_nil hne
  have hd : d.isDigit = true := h d (List.mem_cons_self ..)
  constructor
  · intro hsplit
    rw [Decimal.splitSign.eq_def] at hsplit
    split at hsplit
    · cases hsplit
    · exact .inr (congrArg _ (Prod.mk.inj hsplit).2)
    · exact .inl (Prod.mk.inj hsplit).2
  · rintro (rfl | rfl)
    · exact Decimal.splitSign_sign (.inl hd) false
    · rfl

theorem natural?_eq_some_iff : natural? cs = some n ↔ Writes cs n := by
  constructor
  · intro h
    cases hsplit : Decimal.splitSign cs with
    | mk negative ds =>
      cases negative with
      | true => simp [natural?, Decimal.integer?, hsplit] at h
      | false =>
        obtain ⟨hds, hlt⟩ := (natural?_of_unsigned hsplit).1 h
        obtain ⟨hne, hdigits, hvalue⟩ := decimal_natural?_eq_some_iff.1 hds
        exact ⟨ds, (splitSign_digits_iff hne hdigits).1 hsplit, hne, hdigits, hvalue.symm, hlt⟩
  · rintro ⟨ds, hcs, hne, hdigits, hvalue, hlt⟩
    have hsplit := (splitSign_digits_iff hne hdigits).2 hcs
    exact (natural?_of_unsigned hsplit).2
      ⟨decimal_natural?_eq_some_iff.2 ⟨hne, hdigits, hvalue.symm⟩, hlt⟩

theorem after?_eq_some_iff : after? ps cs = some rest ↔ cs = ps ++ rest := by
  induction ps generalizing cs with
  | nil => simp [after?]
  | cons p ps ih =>
    cases cs with
    | nil => simp [after?]
    | cons c cs =>
      rw [after?]
      split
      · rename_i hp
        rw [ih, List.cons_append, List.cons.injEq, hp]
        simp
      · rename_i hp
        simp [Ne.symm hp]

theorem after?_eq_none_iff : after? ps cs = none ↔ ¬ ps <+: cs := by
  rw [← Option.not_isSome_iff_eq_none, Option.isSome_iff_exists, not_iff_not]
  exact exists_congr fun rest => after?_eq_some_iff.trans eq_comm

theorem parseDefinition_eq_ok_iff : parseDefinition base cs = .ok d ↔ Spell base (words cs) d := by
  rw [parseDefinition]
  constructor
  · intro h
    split at h
    · rename_i name number keyword rest hcs
      split at h
      · cases h
      · rename_i n hn
        split at h
        · cases h
        · rename_i type htype
          split at h
          · rename_i hle
            obtain rfl := Except.ok.inj h
            rw [maxNumber] at hle
            exact ⟨name, number, keyword, rest, n, hcs, natural?_eq_some_iff.1 hn,
              FieldType.ofKeyword?_eq_some_iff.1 htype, by omega, rfl, rfl, rfl⟩
          · cases h
    · cases h
  · rintro ⟨name, number, keyword, rest, n, hcs, hn, htype, hlt, hname, hnumber, hcomment⟩
    have hle : d.number ≤ maxNumber := by rw [maxNumber]; omega
    simp only [hcs, natural?_eq_some_iff.2 hn, FieldType.ofKeyword?_eq_some_iff.2 htype, ← hname,
      ← hnumber, ← hcomment, hle, if_true]

theorem parseLine_of_skipped (h : Skipped line) : parseLine base line = .ok .nothing := by
  obtain h | ⟨rest, h | h⟩ := h <;> simp [parseLine, h]

theorem parseLine_eq (h : ¬ Skipped line) : parseLine base line =
    match after? "*base".toList (trim line) with
    | some rest =>
      match natural? (trim rest) with
      | some n => .ok (.base n)
      | none => .error s!"invalid base '{String.ofList (trim rest)}'"
    | none => (parseDefinition base (trim line)).map .definition := by
  rw [parseLine]
  split
  · rename_i heq; exact absurd (.inl heq) h
  · rename_i rest heq; exact absurd (.inr ⟨rest, .inl heq⟩) h
  · rename_i rest heq; exact absurd (.inr ⟨rest, .inr heq⟩) h
  · rfl

theorem GivesBase.not_skipped (h : GivesBase line n) : ¬ Skipped line := by
  obtain ⟨rest, htrim, -⟩ := h
  simp [Skipped, htrim]

/-- A line is read as what it says, and refused if it says nothing that is regular. -/
theorem parseLine_eq_ok_iff : parseLine base line = .ok l ↔ Says base line l := by
  by_cases hskip : Skipped line
  · rw [parseLine_of_skipped hskip]
    constructor
    · intro h
      obtain rfl := Except.ok.inj h
      exact .nothing hskip
    · rintro (- | hbase | hdef)
      · rfl
      · exact absurd hskip hbase.not_skipped
      · exact absurd hskip hdef.notSkipped
  rw [parseLine_eq hskip]
  cases hafter : after? "*base".toList (trim line) with
  | some rest =>
    have htrim := after?_eq_some_iff.1 hafter
    have hprefix : "*base".toList <+: trim line := ⟨rest, htrim.symm⟩
    dsimp only
    constructor
    · intro h
      split at h
      · rename_i n hn
        obtain rfl := Except.ok.inj h
        exact .base ⟨rest, htrim, natural?_eq_some_iff.1 hn⟩
      · cases h
    · rintro (hs | ⟨more, hmore, hn⟩ | hdef)
      · exact absurd hs hskip
      · obtain rfl := List.append_cancel_left (hmore.symm.trans htrim)
        rw [natural?_eq_some_iff.2 hn]
      · exact absurd hprefix hdef.noBase
  | none =>
    have hprefix := after?_eq_none_iff.1 hafter
    dsimp only
    constructor
    · intro h
      obtain ⟨d, hd, rfl⟩ := ok_map_iff.1 h
      exact .definition ⟨hskip, hprefix, words_trim line ▸ parseDefinition_eq_ok_iff.1 hd⟩
    · rintro (hs | ⟨more, hmore, hn⟩ | hdef)
      · exact absurd hs hskip
      · exact absurd ⟨more, hmore.symm⟩ hprefix
      · have hspell := hdef.columns
        rw [← words_trim, ← parseDefinition_eq_ok_iff] at hspell
        rw [hspell]
        rfl

/-! The base in force. -/

theorem Writes.unique {m : Nat} (hm : Writes cs m) (hn : Writes cs n) : m = n :=
  Option.some.inj ((natural?_eq_some_iff.2 hm).symm.trans (natural?_eq_some_iff.2 hn))

theorem GivesBase.unique {m : Nat} (hm : GivesBase line m) (hn : GivesBase line n) : m = n := by
  obtain ⟨rest, hrest, hm⟩ := hm
  obtain ⟨more, hmore, hn⟩ := hn
  obtain rfl := List.append_cancel_left (hrest.symm.trans hmore)
  exact hm.unique hn

theorem inForce_nil : InForce [] 0 := .inl ⟨rfl, nofun⟩

theorem inForce_concat : InForce (before ++ [line]) base ↔
    GivesBase line base ∨ (∀ n, ¬ GivesBase line n) ∧ InForce before base := by
  constructor
  · rintro (⟨rfl, hnone⟩ | ⟨as, l, bs, heq, hl, hbs⟩)
    · obtain ⟨hnone, hline⟩ := List.forall_mem_append.1 hnone
      exact .inr ⟨hline line (List.mem_singleton_self _), .inl ⟨rfl, hnone⟩⟩
    · obtain rfl | ⟨bs, b, rfl⟩ := List.eq_nil_or_concat bs
      · obtain ⟨-, hlast⟩ := List.append_inj' heq rfl
        obtain rfl := List.singleton_inj.1 hlast
        exact .inl hl
      · rw [List.concat_eq_append, ← List.cons_append, ← List.append_assoc] at heq
        obtain ⟨rfl, hlast⟩ := List.append_inj' heq rfl
        obtain rfl := List.singleton_inj.1 hlast
        rw [List.concat_eq_append] at hbs
        obtain ⟨hbs, hline⟩ := List.forall_mem_append.1 hbs
        exact .inr ⟨hline line (List.mem_singleton_self _), .inr ⟨as, l, bs, rfl, hl, hbs⟩⟩
  · rintro (hline | ⟨hline, ⟨rfl, hnone⟩ | ⟨as, l, bs, rfl, hl, hbs⟩⟩)
    · exact .inr ⟨before, line, [], rfl, hline, nofun⟩
    · refine .inl ⟨rfl, List.forall_mem_append.2 ⟨hnone, ?_⟩⟩
      exact fun l hl => List.mem_singleton.1 hl ▸ hline
    · refine .inr ⟨as, l, bs ++ [line], by simp, hl, List.forall_mem_append.2 ⟨hbs, ?_⟩⟩
      exact fun l hl => List.mem_singleton.1 hl ▸ hline

theorem InForce.unique {a b : Nat} (ha : InForce before a) (hb : InForce before b) : a = b := by
  induction before using List.reverseRecOn with
  | nil =>
    obtain ⟨rfl, -⟩ | ⟨as, l, bs, heq, -⟩ := ha
    · obtain ⟨rfl, -⟩ | ⟨as, l, bs, heq, -⟩ := hb
      · rfl
      · simp at heq
    · simp at heq
  | append_singleton before line ih =>
    obtain ha | ⟨hnone, ha⟩ := inForce_concat.1 ha
    · obtain hb | ⟨hnone, -⟩ := inForce_concat.1 hb
      · exact ha.unique hb
      · exact absurd ha (hnone a)
    · obtain hb | ⟨-, hb⟩ := inForce_concat.1 hb
      · exact absurd hb (hnone b)
      · exact ih ha hb

theorem regular_nil : Regular [] := fun before line after base h => by simp at h

theorem Regular.concat (h : Regular before) (hbase : InForce before base)
    (hline : Says base line l) : Regular (before ++ [line]) := by
  intro as k bs b heq hb
  obtain rfl | ⟨bs, c, rfl⟩ := List.eq_nil_or_concat bs
  · obtain ⟨rfl, hlast⟩ := List.append_inj' heq rfl
    obtain rfl := List.singleton_inj.1 hlast
    exact ⟨l, hb.unique hbase ▸ hline⟩
  · rw [List.concat_eq_append, ← List.cons_append, ← List.append_assoc] at heq
    obtain ⟨rfl, -⟩ := List.append_inj' heq rfl
    exact h as k bs b rfl hb

def Line.baseAfter (base : Nat) : Line → Nat
  | .base n => n
  | _ => base

theorem Says.keeps_inForce (h : Says base line l) (hbase : InForce before base) :
    InForce (before ++ [line]) (l.baseAfter base) := by
  rw [inForce_concat]
  cases h with
  | base hn => exact .inl hn
  | nothing hs => exact .inr ⟨fun n hn => hn.not_skipped hs, hbase⟩
  | definition hd =>
    refine .inr ⟨fun n hn => ?_, hbase⟩
    obtain ⟨rest, hrest, -⟩ := hn
    exact hd.noBase ⟨rest, hrest.symm⟩

/-! Reading the lines after some others. -/

theorem parseLines_cons (number : Nat) (h : parseLine base line = .ok l) :
    parseLines number base (line :: tail) =
      (parseLines (number + 1) (l.baseAfter base) tail).map (l.definitions ++ ·) := by
  have hid (x : Except Error (List FieldDef)) : x = x.map ([] ++ ·) := by cases x <;> rfl
  rw [parseLines, h]
  cases l with
  | nothing => exact hid _
  | base n => exact hid _
  | definition d => rfl

/-- What the lines after some others give: their definitions, or the first that is not regular. -/
theorem parseLines_after (number : Nat) (tail : List (List Char)) (hbefore : Regular before)
    (hbase : InForce before base) :
    (∀ ds, parseLines number base tail = .ok ds → Regular (before ++ tail) ∧
      ∀ es, Lists before es → Lists (before ++ tail) (es ++ ds)) ∧
    ∀ e, parseLines number base tail = .error e → ∃ as line bs b cause,
      tail = as ++ line :: bs ∧ Regular (before ++ as) ∧ InForce (before ++ as) b ∧
      (¬ ∃ l, Says b line l) ∧ e = .textParse (number + as.length) cause := by
  induction tail generalizing number before base with
  | nil =>
    refine ⟨fun ds h => ?_, nofun⟩
    obtain rfl := Except.ok.inj h
    rw [List.append_nil]
    exact ⟨hbefore, fun es hes => by rwa [List.append_nil]⟩
  | cons line tail ih =>
    cases hline : parseLine base line with
    | error cause =>
      have hfirst : parseLines number base (line :: tail) = .error (.textParse number cause) := by
        rw [parseLines, hline]
      have hnot : ¬ ∃ l, Says base line l := by
        rintro ⟨l, hl⟩
        rw [← parseLine_eq_ok_iff, hline] at hl
        cases hl
      rw [hfirst]
      refine ⟨nofun, fun e he => ?_⟩
      obtain rfl := Except.error.inj he
      have hbefore' : Regular (before ++ []) := by rwa [List.append_nil]
      have hbase' : InForce (before ++ []) base := by rwa [List.append_nil]
      exact ⟨[], line, tail, base, cause, rfl, hbefore', hbase', hnot, rfl⟩
    | ok l =>
      have hmeans := parseLine_eq_ok_iff.1 hline
      obtain ⟨hok, herror⟩ := ih (number + 1) (hbefore.concat hbase hmeans) (hmeans.keeps_inForce hbase)
      rw [parseLines_cons number hline]
      constructor
      · intro ds h
        obtain ⟨ds, hds, rfl⟩ := ok_map_iff.1 h
        obtain ⟨hregular, hlists⟩ := hok ds hds
        rw [List.append_assoc, List.singleton_append] at hregular hlists
        refine ⟨hregular, fun es hes => ?_⟩
        rw [← List.append_assoc]
        exact hlists _ (hes.concat hbase hmeans)
      · intro e h
        obtain ⟨as, k, bs, b, cause, rfl, hregular, hb, hnot, rfl⟩ := herror e (error_map_iff.1 h)
        rw [List.append_assoc, List.singleton_append] at hregular hb
        refine ⟨line :: as, k, bs, b, cause, rfl, hregular, hb, hnot, ?_⟩
        rw [List.length_cons, Nat.add_right_comm, Nat.add_assoc]

/-! Lines with the same columns say the same. -/

theorem skipped_iff : Skipped line ↔
    ∀ word ∈ (words line).head?, ∃ rest, word = '#' :: rest ∨ word = '$' :: rest := by
  obtain ⟨htrim, hwords⟩ | ⟨word, rest, htrim, hne, -, -, hwords⟩ := trim_cases line
  · simp [Skipped, htrim, hwords]
  · obtain ⟨c, word, rfl⟩ := List.exists_cons_of_ne_nil hne
    simp [Skipped, htrim, hwords, exists_or]

theorem prefix_base_iff : "*base".toList <+: trim line ↔
    ∃ word ∈ (words line).head?, "*base".toList <+: word := by
  obtain ⟨htrim, hwords⟩ | ⟨word, rest, htrim, -, -, hrest, hwords⟩ := trim_cases line
  · simp [htrim, hwords]
  · rw [htrim, hwords]
    constructor
    · intro h
      refine ⟨word, rfl, ?_⟩
      obtain hword | ⟨more, hmore⟩ :=
        List.prefix_or_prefix_of_prefix h (List.prefix_append word rest)
      · exact hword
      -- what is left of the prefix would start with the blank after the column
      · cases more with
        | nil => exact ⟨[], by rw [← hmore, List.append_nil, List.append_nil]⟩
        | cons c more =>
          rw [← hmore, List.prefix_append_right_inj] at h
          obtain ⟨k, hk⟩ := h
          have hblank : isBlank c = true := hrest c (by rw [← hk]; rfl)
          have hmem : c ∈ "*base".toList := by rw [← hmore]; simp
          have hplain : ∀ c ∈ "*base".toList, isBlank c = false := by decide
          rw [hplain c hmem] at hblank
          cases hblank
    · rintro ⟨word', hword', hprefix⟩
      obtain rfl := Option.some.inj hword'
      exact hprefix.trans (List.prefix_append word rest)

theorem Writes.plain (h : Writes cs n) : ∀ c ∈ cs, isBlank c = false := by
  obtain ⟨ds, hcs, -, hdigits, -⟩ := h
  have hdigit : ∀ c ∈ ds, isBlank c = false :=
    fun c hc => (graphic_of_isDigit (hdigits c hc)).not_blank
  obtain rfl | rfl := hcs
  · exact hdigit
  · exact List.forall_mem_cons.2 ⟨by decide, hdigit⟩

theorem Writes.ne_nil (h : Writes cs n) : cs ≠ [] := by
  obtain ⟨ds, rfl | rfl, hne, -⟩ := h
  · exact hne
  · exact List.cons_ne_nil _ _

theorem givesBase_iff : GivesBase line n ↔ ∃ number, Writes number n ∧
    (words line = ["*base".toList, number] ∨ words line = ["*base".toList ++ number]) := by
  have hplain : ∀ c ∈ "*base".toList, isBlank c = false := by decide
  have hmark : "*base".toList ≠ [] := by decide
  constructor
  · rintro ⟨rest, htrim, hn⟩
    obtain ⟨before, after, hblank, hrest⟩ := exists_trim rest
    obtain ⟨hbefore, hafter⟩ := List.forall_mem_append.1 hblank
    generalize trim rest = number at hn hrest
    refine ⟨number, hn, ?_⟩
    rw [← words_trim, htrim, hrest, ← List.append_assoc, words_append_blanks hafter,
      ← List.append_assoc]
    have hnil : ∀ c ∈ ([] : List Char).head?, isBlank c = true := nofun
    have hword {word : List Char} (hword : ∀ c ∈ word, isBlank c = false) (hne : word ≠ []) :
        words word = [word] := by
      have h := words_word hword hne hnil
      rwa [List.append_nil] at h
    by_cases hb : before = []
    · subst hb
      rw [List.append_nil]
      exact .inr (hword (List.forall_mem_append.2 ⟨hplain, hn.plain⟩) (by simp))
    · rw [words_around hbefore hb, hword hplain hmark, hword hn.plain hn.ne_nil]
      exact .inl rfl
  · rintro ⟨number, hn, hline | hline⟩
    · obtain ⟨-, hnil⟩ | ⟨word, rest, htrim, -, -, -, hwords⟩ := trim_cases line
      · simp [hnil] at hline
      · obtain ⟨rfl, hrest⟩ := List.cons.inj (hwords.symm.trans hline)
        exact ⟨rest, htrim, (trim_of_words hrest).symm ▸ hn⟩
    · exact ⟨number, trim_of_words hline, (trim_eq_self hn.plain).symm ▸ hn⟩

theorem says_congr (h : words line = words line') : Says base line l ↔ Says base line' l := by
  have hskip : Skipped line ↔ Skipped line' := by rw [skipped_iff, skipped_iff, h]
  have hprefix : "*base".toList <+: trim line ↔ "*base".toList <+: trim line' := by
    rw [prefix_base_iff, prefix_base_iff, h]
  have hgives (n : Nat) : GivesBase line n ↔ GivesBase line' n := by
    rw [givesBase_iff, givesBase_iff, h]
  constructor
  · rintro (hs | hn | ⟨hs, hb, hc⟩)
    · exact .nothing (hskip.1 hs)
    · exact .base ((hgives _).1 hn)
    · exact .definition ⟨hskip.not.1 hs, hprefix.not.1 hb, h ▸ hc⟩
  · rintro (hs | hn | ⟨hs, hb, hc⟩)
    · exact .nothing (hskip.2 hs)
    · exact .base ((hgives _).2 hn)
    · exact .definition ⟨hskip.not.2 hs, hprefix.not.2 hb, h ▸ hc⟩

/-! Lines that change nothing. -/

theorem toOption_parseLines_cons (number : Nat) :
    (parseLines number base (line :: tail)).toOption = (parseLine base line).toOption.bind fun l =>
      (parseLines (number + 1) (l.baseAfter base) tail).toOption.map (l.definitions ++ ·) := by
  cases h : parseLine base line with
  | error cause =>
    rw [parseLines, h]
    rfl
  | ok l =>
    rw [parseLines_cons number h, toOption_map]
    rfl

/-- The definitions do not depend on where the lines stand, and lines may be replaced at the end. -/
theorem toOption_parseLines_append
    (h : ∀ number number' base, (parseLines number base tail).toOption
      = (parseLines number' base tail').toOption) (number number' base : Nat) :
    (parseLines number base (before ++ tail)).toOption
      = (parseLines number' base (before ++ tail')).toOption := by
  induction before generalizing number number' base with
  | nil => exact h number number' base
  | cons line before ih =>
    simp only [List.cons_append, toOption_parseLines_cons]
    exact congrArg _ (funext fun l => congrArg _ (ih ..))

theorem toOption_parseLines_number (number number' base : Nat) :
    (parseLines number base lines).toOption = (parseLines number' base lines).toOption := by
  have hnil (m m' b : Nat) : (parseLines m b []).toOption = (parseLines m' b []).toOption := rfl
  have h : (parseLines number base (lines ++ [])).toOption = _ :=
    toOption_parseLines_append hnil number number' base
  rwa [List.append_nil] at h

theorem Restyled.toOption_eq (h : Restyled lines lines') (number number' base : Nat) :
    (parseLines number base lines).toOption = (parseLines number' base lines').toOption := by
  cases h with
  | nothing before after hskip =>
    refine toOption_parseLines_append (fun m m' b => ?_) ..
    rw [toOption_parseLines_cons, parseLine_of_skipped hskip, toOption_parseLines_number m (m' + 1)]
    exact Option.map_id'.symm
  | @blanks before after u v run run' hne hne' hrun hrun' =>
    refine toOption_parseLines_append (fun m m' b => ?_) ..
    have hwords : words (u ++ run ++ v) = words (u ++ run' ++ v) :=
      (words_around hrun hne u v).trans (words_around hrun' hne' u v).symm
    have hline : (parseLine b (u ++ run ++ v)).toOption
        = (parseLine b (u ++ run' ++ v)).toOption := by
      refine Option.ext fun l => ?_
      rw [toOption_eq_some_iff, toOption_eq_some_iff, parseLine_eq_ok_iff, parseLine_eq_ok_iff]
      exact says_congr hwords
    rw [toOption_parseLines_cons, toOption_parseLines_cons, hline]
    exact congrArg _ (funext fun l => congrArg _ (toOption_parseLines_number ..))

/-- A text is read if each line is regular where the base before it is in force. The table lists
the definitions of the lines in their order; else the first line that is not regular is named.
Lines that say nothing and the blanks between columns make no difference to the definitions. -/
theorem table_of_text (text : String) :
    let lines := linesBy '\n' '\r' text.toList
    ((∃ t, ofText text = .ok t) ↔ Regular lines) ∧
      (∀ t, ofText text = .ok t → t.base = 0 ∧ Lists lines t.fields) ∧
      (∀ e, ofText text = .error e → ∃ before line after base cause,
        lines = before ++ line :: after ∧ Regular before ∧ InForce before base ∧
        (¬ ∃ l, Says base line l) ∧ e = .textParse (before.length + 1) cause) ∧
      ∀ text', Relation.EqvGen Restyled lines (linesBy '\n' '\r' text'.toList) →
        (ofText text').toOption = (ofText text).toOption := by
  intro lines
  obtain ⟨hok, herror⟩ := parseLines_after 1 lines regular_nil inForce_nil
  rw [List.nil_append] at hok
  simp only [List.nil_append] at herror
  refine ⟨⟨?_, ?_⟩, ?_, ?_, ?_⟩
  · rintro ⟨t, ht⟩
    obtain ⟨ds, hds, rfl⟩ := ok_map_iff.1 ht
    exact (hok ds hds).1
  · intro hregular
    cases hparse : parseLines 1 0 lines with
    | ok ds => exact ⟨{ fields := ds }, ok_map_iff.2 ⟨ds, hparse, rfl⟩⟩
    | error e =>
      obtain ⟨as, line, bs, b, cause, hlines, -, hb, hnot, -⟩ := herror e hparse
      exact absurd (hregular as line bs b hlines hb) hnot
  · intro t ht
    obtain ⟨ds, hds, rfl⟩ := ok_map_iff.1 ht
    exact ⟨rfl, (hok ds hds).2 [] .nil⟩
  · intro e he
    obtain ⟨as, line, bs, b, cause, hlines, hregular, hb, hnot, rfl⟩ :=
      herror e (error_map_iff.1 he)
    exact ⟨as, line, bs, b, cause, hlines, hregular, hb, hnot, by rw [Nat.add_comm]⟩
  · intro text' hstyle
    rw [ofText, ofText, toOption_map, toOption_map]
    refine congrArg _ (Eq.symm ?_)
    have hall : ∀ {ls ls' : List (List Char)}, Relation.EqvGen Restyled ls ls' →
        (parseLines 1 0 ls).toOption = (parseLines 1 0 ls').toOption := by
      intro ls ls' h
      induction h with
      | rel _ _ h => exact h.toOption_eq 1 1 0
      | refl => rfl
      | symm _ _ _ ih => exact ih.symm
      | trans _ _ _ _ _ ih ih' => exact ih.trans ih'
    exact hall hstyle

/-- The fields of a text with a base in it, with and without a comment line. -/
theorem table_of_bases :
    Lists ["A 1 long".toList, "*base 100".toList, "B +5 string - two words".toList]
        [{ name := "A", number := 1, type := .long },
          { name := "B", number := 105, type := .string, comment := some "two words" }] ∧
      (ofText "A\t 1 long\n*base 100\n# sample\nB +5 string - two words").toOption
        = (ofText "A 1 long\n*base 100\nB +5 string - two words").toOption ∧
      ∃ cause, ofText "*base 4294967295\n\nA 1 long" = .error (.textParse 3 cause) := by
  have hlines : linesBy '\n' '\r' "A 1 long\n*base 100\nB +5 string - two words".toList
      = [] ++ ("A".toList ++ " ".toList ++ "1 long".toList) ::
        ["*base 100".toList, "B +5 string - two words".toList] := by decide
  have hstyled : linesBy '\n' '\r'
        "A\t 1 long\n*base 100\n# sample\nB +5 string - two words".toList
      = ["A\t 1 long".toList, "*base 100".toList] ++ "# sample".toList ::
        ["B +5 string - two words".toList] := by decide
  obtain ⟨-, hlists, -, hstyles⟩ := table_of_text "A 1 long\n*base 100\nB +5 string - two words"
  rw [hlines] at hlists hstyles
  have hfields : ofText "A 1 long\n*base 100\nB +5 string - two words" = .ok
      { fields := [{ name := "A", number := 1, type := .long },
        { name := "B", number := 105, type := .string, comment := some "two words" }] } := by rfl
  refine ⟨(hlists _ hfields).2, hstyles _ ?_, _, by rfl⟩
  have hblanks := Restyled.blanks [] ["*base 100".toList, "B +5 string - two words".toList]
    "A".toList "1 long".toList (by decide : " ".toList ≠ []) (by decide : "\t ".toList ≠ [])
    (by decide) (by decide)
  have hskip : Skipped "# sample".toList := .inr ⟨" sample".toList, .inl rfl⟩
  have hnothing := Restyled.nothing ["A\t 1 long".toList, "*base 100".toList]
    ["B +5 string - two words".toList] hskip
  rw [hstyled]
  exact .trans _ _ _ (.rel _ _ hblanks) (.rel _ _ hnothing)

end FieldTable

end FieldBuffers
