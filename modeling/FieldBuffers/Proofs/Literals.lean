import FieldBuffers.Proofs.Canonical
import FieldBuffers.Proofs.Scanning

/-! Numbers in canonical texts. A numeral that is not too great is printed as a text with the same
number for its one token, and one that is too great as a name (`literals_scan_again`). -/

namespace FieldBuffers.Expr

open Binary (binary64)

variable {w : Width} {ls : List Lexeme} {word : Nat}

theorem finite_of_ne_infinity (hle : word ≤ binary64.infinity) (hne : word ≠ binary64.infinity) :
    ∃ s m k, binary64.decode word = .finite s m k := by
  have hlt : word < binary64.infinity := Nat.lt_of_le_of_ne hle hne
  have hmag : binary64.magnitude word = word :=
    Nat.mod_eq_of_lt (Nat.lt_trans hlt (by decide))
  simp only [Binary.Format.decode, hmag, if_neg hne, if_neg (Nat.not_lt.2 hle)]
  split
  · exact ⟨_, _, _, rfl⟩
  · exact ⟨_, _, _, rfl⟩

/-- A number below infinity is the one token of its text. -/
theorem scan_text (hle : word ≤ binary64.infinity) (hne : word ≠ binary64.infinity) :
    ∃ position, Lexeme.scan (Decimal.text binary64 word) = .ok [⟨.number word, position⟩] := by
  have hscans : Scans (Decimal.text binary64 word ++ []) [.number word] :=
    scans_number hle (finite_of_ne_infinity hle hne) (by simp [Breaks]) (.done rfl)
  rw [List.append_nil] at hscans
  obtain ⟨ls, hls, hmap⟩ := Lexeme.scan_iff.2 hscans
  obtain ⟨⟨t, position⟩, rfl, rfl⟩ := List.map_eq_singleton_iff.1 hmap
  exact ⟨position, hls⟩

theorem scan_text_infinity :
    Lexeme.scan (Decimal.text binary64 binary64.infinity) = .ok [⟨.name "inf", 0⟩] := by
  decide +kernel

theorem scan_text_iff (hle : word ≤ binary64.infinity) :
    (∃ position, Lexeme.scan (Decimal.text binary64 word) = .ok [⟨.number word, position⟩]) ↔
      word ≠ binary64.infinity := by
  refine ⟨?_, scan_text hle⟩
  rintro ⟨position, hscan⟩ rfl
  have hname := hscan.symm.trans scan_text_infinity
  simp at hname

/-- The numbers in the tree of a text are those of numerals in it, and so none of them is more than
infinite. -/
theorem Written.le_infinity {known : String → Option (FieldId w)} {e : Expr w}
    (h : e.Written known) : ∀ word ∈ e.literals, word ≤ binary64.infinity := by
  induction e with
  | number word => exact List.forall_mem_singleton.2 h
  | text s => simp [literals]
  | field r => simp [literals]
  | signed s e ih => exact ih h
  | binary o l r ihl ihr =>
    intro word hword
    exact (List.mem_append.1 hword).elim (ihl h.1 word) (ihr h.2 word)
  | like negated e source p ih => exact ih h.1

theorem finite_of_ofText {known : String → Option (FieldId w)} {source : String} {e : Expr w}
    (h : ofText known source = .ok e) (hne : binary64.infinity ∉ e.literals) : e.Finite := by
  obtain ⟨ts, hscan, hparse⟩ := ok_bind_iff.1 h
  obtain ⟨hwritten, -⟩ := Context.written_of_parse (Lexeme.written_of_scanFrom hscan) hparse
  intro word hword
  refine finite_of_ne_infinity (hwritten.le_infinity word hword) ?_
  rintro rfl
  exact hne hword

variable {files : Files} {source : String} {c c' : Catalog w} {e : Compiled w}

theorem compile_toText (h : compile files source c = .ok e c')
    (hne : binary64.infinity ∉ e.root.literals) :
    compile files e.root.toText c' = .ok ⟨e.root.toText, e.root⟩ c' := by
  obtain ⟨-, ⟨hroot, rfl⟩ | ⟨names, htable, hroot⟩⟩ := compile_eq_ok h
  · exact compile_of_ofText (ofText_toText hroot (finite_of_ofText hroot hne))
  · exact compile_of_names (table_again htable) (ofText_toText hroot (finite_of_ofText hroot hne))

/-- A numeral whose number is infinite is printed as a name. -/
theorem overflow_compiles_to_name :
    let c : Catalog .wide := { cache := some ⟨[]⟩ }
    let files : Files := fun _ => .error ""
    ∃ e : Compiled .wide, compile files "1e999" c = .ok e c ∧
      e.root.toText = "inf" ∧ compile files e.root.toText c = .error (.unknownName "inf") c := by
  intro c files
  have hread : ofText (w := .wide) (fun _ => none) "1e999" = .ok (.number binary64.infinity) := by
    decide +kernel
  have htext : (Expr.number (w := .wide) binary64.infinity).toText = "inf" := by decide +kernel
  refine ⟨_, compile_of_ofText hread, htext, ?_⟩
  rw [htext]
  rfl

/-- The number that the scanner finds for a numeral of a text is the one token of what is printed for
it, as long as it is finite, and a text all of whose numbers are finite compiles again from its
canonical form. -/
theorem literals_scan_again (hscan : Lexeme.scan source.toList = .ok ls) (files : Files) :
    (∀ word position, ⟨.number word, position⟩ ∈ ls →
      ((∃ again, Lexeme.scan (Decimal.text binary64 word) = .ok [⟨.number word, again⟩]) ↔
        word ≠ binary64.infinity)) ∧
    ∀ (c c' : Catalog w) (e : Compiled w), compile files source c = .ok e c' →
      binary64.infinity ∉ e.root.literals →
        ∃ again, compile files e.root.toText c' = .ok again c' ∧ again.root = e.root := by
  refine ⟨fun word position hmem => ?_, fun c c' e h hne => ?_⟩
  · exact scan_text_iff (Lexeme.written_of_scanFrom hscan _ hmem)
  · exact ⟨_, compile_toText h hne, rfl⟩

theorem literals_scan_again_decimal :
    let word : Nat := 0x3ff8000000000000
    let c : Catalog .wide := {}
    let files : Files := fun _ => .error ""
    Lexeme.scan "1.50".toList = .ok [⟨.number word, 0⟩] ∧
      Decimal.text binary64 word = "1.5".toList ∧
      (∃ again, Lexeme.scan "1.5".toList = .ok [⟨.number word, again⟩]) ∧
      ∃ again, compile files "1.5" c = .ok again c ∧ again.root = .number word := by
  intro word c files
  have hscan : Lexeme.scan "1.50".toList = .ok [⟨.number word, 0⟩] := by decide +kernel
  have htext : Decimal.text binary64 word = "1.5".toList := by decide +kernel
  have hread : ofText (w := .wide) (fun _ => none) "1.50" = .ok (.number word) := by decide +kernel
  have hcanonical : (Expr.number (w := .wide) word).toText = "1.5" := by decide +kernel
  obtain ⟨hagain, hcompile⟩ := literals_scan_again (w := .wide) hscan files
  have hagain := (hagain word 0 (List.mem_singleton_self _)).2 (by decide)
  have hcompile := hcompile c c ⟨"1.50", .number word⟩ (compile_of_ofText hread)
    fun h => absurd (List.mem_singleton.1 h) (by decide)
  rw [htext] at hagain
  rw [hcanonical] at hcompile
  exact ⟨hscan, htext, hagain, hcompile⟩

end FieldBuffers.Expr
