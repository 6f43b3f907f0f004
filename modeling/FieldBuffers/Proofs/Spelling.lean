import FieldBuffers.Expr.Parser
import FieldBuffers.Proofs.Numeral
import FieldBuffers.Proofs.Outcome

/-! The canonical text of a tree, token by token. Blanks, brackets and quotes keep the tokens
apart, so the scanner finds the tokens that were written (`scan_toText`). -/

namespace FieldBuffers.Expr

open Binary (binary64)

variable {w : Width} {cs rest : List Char} {ts : List Token} {s : String} {n : Nat}

/-! What the scanner gives. -/

def IsName (s : String) : Prop :=
  ∃ c cs, s = String.ofList (c :: cs) ∧ Token.isNameStart c = true ∧
    ∀ d ∈ cs, Token.isNameRest d = true

/-- A numeral has no sign, and a name is spelled with the characters of names. -/
def Token.Written : Token → Prop
  | number word => word ≤ binary64.infinity
  | name s => IsName s
  | _ => True

namespace Token

theorem written_of_pair {second : Char} {both t : Token} {alone : Except Cause Token}
    (hboth : both.Written) (halone : ∀ t, alone = .ok t → t.Written)
    (h : pair second both alone cs = .ok (t, rest)) : t.Written := by
  have hmap : alone.map (·, cs) = .ok (t, rest) → t.Written := by
    cases alone with
    | error e => simp [Except.map]
    | ok t' =>
      intro h
      obtain ⟨rfl, -⟩ := Prod.mk.inj (Except.ok.inj h)
      exact halone _ rfl
  cases cs with
  | nil => exact hmap h
  | cons d more =>
    rw [pair] at h
    split at h
    · obtain ⟨rfl, -⟩ := Prod.mk.inj (Except.ok.inj h)
      exact hboth
    · exact hmap h

theorem numeral_cons {c : Char} (hc : Decimal.Starts c) (cs : List Char) :
    ∃ more, numeral (c :: cs) = c :: more := by
  rcases hc with hc | rfl
  · simp [numeral, hc]
  · simp [numeral]

theorem written_of_read {c : Char} {t : Token} (h : read c cs = .ok (t, rest)) : t.Written := by
  unfold read at h
  split at h
  · split at h
    · obtain ⟨rfl, -⟩ := Prod.mk.inj (Except.ok.inj h)
      trivial
    · simp at h
  split at h
  · rename_i hc
    obtain ⟨more, hmore⟩ := numeral_cons hc cs
    simp only [hmore] at h
    split at h
    · rename_i hword
      obtain ⟨rfl, -⟩ := Prod.mk.inj (Except.ok.inj h)
      exact Decimal.word?_le hc hword
    · simp at h
  split at h
  · rename_i hc
    obtain ⟨rfl, -⟩ := Prod.mk.inj (Except.ok.inj h)
    exact ⟨c, _, rfl, hc, List.all_eq_true.1 List.all_takeWhile⟩
  -- what is left are symbols, and a symbol is no numeral and no name
  · split at h
    all_goals first
      | (obtain ⟨rfl, -⟩ := Prod.mk.inj (Except.ok.inj h); trivial)
      | (refine written_of_pair ?_ ?_ h <;> simp [Written])
      | simp at h
      | (split at h <;> obtain ⟨rfl, -⟩ := Prod.mk.inj (Except.ok.inj h) <;> trivial)

end Token

theorem Lexeme.written_of_scanFrom {finish fuel : Nat} {ls : List Lexeme}
    (h : scanFrom finish fuel cs = .ok ls) : ∀ l ∈ ls, l.token.Written := by
  induction fuel generalizing cs ls with
  | zero => simp [← Except.ok.inj h]
  | succ fuel ih =>
    rw [scanFrom] at h
    split at h
    · simp [← Except.ok.inj h]
    · split at h
      · simp at h
      · rename_i hread
        obtain ⟨more, hmore, rfl⟩ := ok_map_iff.1 h
        exact List.forall_mem_cons.2 ⟨Token.written_of_read hread, ih hmore⟩

/-! The tokens of a text, without their places. -/

inductive Scans : List Char → List Token → Prop
  | done {cs : List Char} : cs.dropWhile Token.isSpace = [] → Scans cs []
  | token {cs cs' rest : List Char} {c : Char} {t : Token} {ts : List Token} :
      cs.dropWhile Token.isSpace = c :: cs' → Token.read c cs' = .ok (t, rest) → Scans rest ts →
      Scans cs (t :: ts)

namespace Scans

theorem scanFrom (h : Scans cs ts) (finish fuel : Nat) (hfuel : ts.length ≤ fuel) :
    ∃ ls, Lexeme.scanFrom finish fuel cs = .ok ls ∧ ls.map (·.token) = ts := by
  induction h generalizing fuel with
  | done hcs =>
    refine ⟨[], ?_, rfl⟩
    cases fuel with
    | zero => rfl
    | succ fuel => rw [Lexeme.scanFrom, hcs]
  | token hcs hread _ ih =>
    cases fuel with
    | zero => simp at hfuel
    | succ fuel =>
      obtain ⟨ls, hls, hmap⟩ := ih fuel (by simpa using hfuel)
      rw [Lexeme.scanFrom, hcs]
      simp only [hread, hls]
      exact ⟨_, rfl, by rw [List.map_cons, hmap]⟩

theorem blank (h : Scans cs ts) : Scans (' ' :: cs) ts := by
  cases h with
  | done hcs => exact .done hcs
  | token hcs hread hrest => exact .token hcs hread hrest

/-- A token that starts with no blank. -/
theorem cons {c : Char} {t : Token} (hc : Token.isSpace c = false)
    (hread : Token.read c cs = .ok (t, rest)) (h : Scans rest ts) : Scans (c :: cs) (t :: ts) :=
  .token (by simp [hc]) hread h

end Scans

/-- What follows an operand in a canonical text: nothing, a blank or a bracket. -/
def Breaks (cs : List Char) : Prop := ∀ c ∈ cs.head?, c = ' ' ∨ c = ')' ∨ c = '[' ∨ c = ']'

theorem Breaks.head {p : Char → Bool} (h : Breaks cs)
    (hp : p ' ' = false ∧ p ')' = false ∧ p '[' = false ∧ p ']' = false) :
    ∀ c ∈ cs.head?, p c = false := by
  intro c hc
  rcases h c hc with rfl | rfl | rfl | rfl
  · exact hp.1
  · exact hp.2.1
  · exact hp.2.2.1
  · exact hp.2.2.2

theorem takeWhile_of_breaks {p : Char → Bool} {ds : List Char} (hds : ∀ c ∈ ds, p c = true)
    (h : Breaks cs) (hp : p ' ' = false ∧ p ')' = false ∧ p '[' = false ∧ p ']' = false) :
    (ds ++ cs).takeWhile p = ds ∧ (ds ++ cs).dropWhile p = cs :=
  Decimal.takeWhile_dropWhile hds cs (h.head hp)

/-! Numerals. -/

theorem numeral_of_breaks {ds : List Char} (hds : ∀ c ∈ ds, (c.isDigit || c == '.') = true)
    (h : Breaks rest) : Token.numeral (ds ++ rest) = ds := by
  obtain ⟨htake, -⟩ := takeWhile_of_breaks hds h (by decide)
  have hexp : Token.exponent rest = [] := by
    match rest, h with
    | [], _ | [_], _ => rfl
    | e :: s :: more, h =>
      have he := h.head (p := fun e => e == 'e' || e == 'E') (by decide) e rfl
      simp only [Token.exponent, he, Bool.false_eq_true, if_false]
  rw [Token.numeral, htake, List.drop_left, hexp, List.append_nil]

theorem isSpace_eq_false {c : Char} (h : c.isDigit = true ∨ Token.isNameStart c = true) :
    Token.isSpace c = false := by
  simp only [Token.isSpace, Bool.or_eq_false_iff, beq_eq_false_iff_ne]
  refine ⟨⟨⟨⟨?_, ?_⟩, ?_⟩, ?_⟩, ?_⟩ <;> rintro rfl <;> simp [Token.isNameStart] at h

theorem scans_numeral {c : Char} {ds : List Char} {word : Nat} (hc : c.isDigit = true)
    (hds : ∀ c ∈ ds, (c.isDigit || c == '.') = true)
    (hword : Decimal.word? binary64 (c :: ds) = some word) (hb : Breaks rest)
    (h : Scans rest ts) : Scans (c :: ds ++ rest) (.number word :: ts) := by
  have hall : ∀ d ∈ c :: ds, (d.isDigit || d == '.') = true :=
    List.forall_mem_cons.2 ⟨by simp [hc], hds⟩
  have hquote : ¬ (c = '\'' ∨ c = '"') := by
    rintro (rfl | rfl) <;> simp at hc
  have hnum := numeral_of_breaks hall hb
  have hdrop : (c :: ds ++ rest).drop (c :: ds).length = rest := List.drop_left
  have hread : Token.read c (ds ++ rest) = .ok (.number word, rest) := by
    rw [List.cons_append] at hnum hdrop
    unfold Token.read
    rw [if_neg hquote, if_pos (.inl hc)]
    simp only [hnum, hword, hdrop]
  exact .cons (isSpace_eq_false (.inl hc)) hread h

theorem text_of_finite {word : Nat} (hle : word ≤ binary64.infinity)
    (hfin : ∃ s m e, binary64.decode word = .finite s m e) :
    ∃ c cs, Decimal.text binary64 word = c :: cs ∧ c.isDigit = true ∧
      (∀ d ∈ cs, (d.isDigit || d == '.') = true) ∧
      Decimal.word? binary64 (c :: cs) = some word := by
  obtain ⟨s, m, e, hdata⟩ := hfin
  have hlt : word < binary64.signWeight := Nat.lt_of_le_of_lt hle (by decide)
  have hread := Decimal.word?_text Binary.Format.moderate_binary64
    (Nat.lt_of_lt_of_le hlt (Nat.le_mul_of_pos_left _ (by decide))) (by simp [hdata])
  obtain ⟨rfl, -⟩ := Binary.Format.decode_eq_finite hdata
  rw [Binary.Format.isNegative_eq_false hlt] at hdata
  obtain ⟨c, cs, hcs, hc, hall⟩ := Decimal.text_digits hdata
  rw [hcs] at hread
  exact ⟨c, cs, hcs, hc, hall, hread⟩

theorem scans_number {word : Nat} (hle : word ≤ binary64.infinity)
    (hfin : ∃ s m e, binary64.decode word = .finite s m e) (hb : Breaks rest)
    (h : Scans rest ts) :
    Scans (Decimal.text binary64 word ++ rest) (.number word :: ts) := by
  obtain ⟨c, cs, hcs, hc, hall, hread⟩ := text_of_finite hle hfin
  rw [hcs]
  exact scans_numeral hc hall hread hb h

/-- The word that a whole number is read as. -/
def countWord (n : Nat) : Nat := (⟨n, 0⟩ : Decimal).round binary64

theorem scans_count (hb : Breaks rest) (h : Scans rest ts) :
    Scans (Nat.toDigits 10 n ++ rest) (.number (countWord n) :: ts) := by
  have hne : Decimal.digits n ≠ [] := Nat.toDigits_ne_nil
  have hall : ∀ c ∈ Decimal.digits n, c.isDigit = true := fun c => Decimal.isDigit_of_mem_digits
  have hread := Decimal.unsigned?_whole hall hne
  rw [Decimal.value_digits] at hread
  change Scans (Decimal.digits n ++ rest) _
  obtain ⟨c, ds, hcs⟩ := List.exists_cons_of_ne_nil hne
  rw [hcs] at hread hall ⊢
  obtain ⟨hc, hds⟩ := List.forall_mem_cons.1 hall
  have hword := Decimal.word?_unsigned binary64 (.inl hc) ds
  rw [hread, Option.map_some] at hword
  exact scans_numeral hc (fun d hd => by simp [hds d hd]) hword hb h

/-! Quoted text. -/

theorem quoted?_escaped {c : Char} {cs more : List Char}
    (h : Token.quoted? '\'' cs = some (more, rest)) (hcs : cs ≠ []) :
    Token.quoted? '\'' (escaped c ++ cs) = some (c :: more, rest) := by
  obtain ⟨d, ds, rfl⟩ := List.exists_cons_of_ne_nil hcs
  unfold escaped
  split
  case h_5 h1 h2 _ _ => simp [Token.quoted?, h, if_neg h1, if_neg h2]
  all_goals simp [Token.quoted?, h, Token.unescaped]

theorem quoted?_flatMap (body rest : List Char) :
    Token.quoted? '\'' (body.flatMap escaped ++ '\'' :: rest) = some (body, rest) := by
  induction body with
  | nil => cases rest <;> simp [Token.quoted?]
  | cons c body ih =>
    rw [List.flatMap_cons, List.append_assoc]
    exact quoted?_escaped ih (by simp)

theorem scans_quote (h : Scans rest ts) : Scans (quote s ++ rest) (.text s :: ts) := by
  have hread : Token.read '\'' (s.toList.flatMap escaped ++ '\'' :: rest)
      = .ok (.text s, rest) := by
    unfold Token.read
    rw [if_pos (.inl rfl), quoted?_flatMap]
    simp
  have hquote : quote s ++ rest = '\'' :: (s.toList.flatMap escaped ++ '\'' :: rest) := by
    simp [quote]
  rw [hquote]
  exact .cons (by decide) hread h

/-! Names and symbols. -/

theorem scans_name (hs : IsName s) (hb : Breaks rest) (h : Scans rest ts) :
    Scans (s.toList ++ rest) (.name s :: ts) := by
  obtain ⟨c, cs, rfl, hc, hcs⟩ := hs
  have hdigit : c.isDigit = false := by
    by_contra hd
    rw [Bool.not_eq_false] at hd
    have hbounds := bounds_of_isDigit hd
    simp only [Token.isNameStart, Bool.or_eq_true, beq_iff_eq] at hc
    rcases hc with hc | rfl
    · have := bounds_of_isAlpha hc
      omega
    · exact absurd hbounds.2 (by decide)
  have hnumeral : ¬ (c.isDigit = true ∨ c = '.') := by
    rintro (h | rfl)
    · simp [hdigit] at h
    · simp [Token.isNameStart] at hc
  have hquote : ¬ (c = '\'' ∨ c = '"') := by
    rintro (rfl | rfl) <;> simp [Token.isNameStart] at hc
  obtain ⟨htake, hdrop⟩ := takeWhile_of_breaks hcs hb (by decide)
  have hread : Token.read c (cs ++ rest) = .ok (.name (String.ofList (c :: cs)), rest) := by
    unfold Token.read
    rw [if_neg hquote, if_neg hnumeral, if_pos hc, htake, hdrop]
  rw [String.toList_ofList]
  exact .cons (isSpace_eq_false (.inr hc)) hread h

theorem scans_operator (o : Operator) (h : Scans rest ts) :
    Scans (o.symbol.toList ++ ' ' :: rest) (.operator o :: ts) := by
  have h' := h.blank
  rcases o with (_ | _ | _) | (_ | _ | _ | _ | _ | _) | (_ | _ | _ | _ | _) <;>
    exact .cons (by decide) rfl h'

theorem scans_like (negated : Bool) (h : Scans rest ts) :
    Scans ((likeSymbol negated).toList ++ ' ' :: rest) (.like negated :: ts) := by
  cases negated <;> exact .cons (by decide) rfl h.blank

/-- The token of a sign. -/
def Sign.token : Sign → Token
  | .not => .bang
  | .minus => .operator (.arithmetic .sub)
  | .plus => .operator (.arithmetic .add)

/-- A sign is a token of its own unless it makes a symbol of two characters. -/
theorem scans_sign (s : Sign) (hcs : ∀ c ∈ cs.head?, c ≠ '=' ∧ c ≠ '%') (h : Scans cs ts) :
    Scans (s.symbol.toList ++ cs) (s.token :: ts) := by
  cases s with
  | minus => exact .cons (by decide) rfl h
  | plus => exact .cons (by decide) rfl h
  | not =>
    have hread : Token.read '!' cs = .ok (.bang, cs) := by
      cases cs with
      | nil => rfl
      | cons c cs =>
        obtain ⟨h1, h2⟩ := hcs c rfl
        simp [Token.read, h1, h2, Token.isNameStart]
    exact .cons (by decide) hread h

/-! Trees. -/

def Reference.tokens (r : Reference w) : List Token :=
  .name r.name ::
    match r.occurrence with
    | .at 0 => []
    | .at n => [.openBracket, .number (countWord n), .closeBracket]
    | .any => [.openBracket, .question, .closeBracket]

/-- The tokens of the canonical text. -/
def tokens : Expr w → List Token
  | number word => [.number word]
  | text s => [.text s]
  | field r => r.tokens
  | signed s e => s.token :: e.tokens
  | binary o l r => .openParen :: (l.tokens ++ .operator o :: (r.tokens ++ [.closeParen]))
  | like negated e source _ =>
    .openParen :: (e.tokens ++ [.like negated, .text source, .closeParen])

/-- The words of the numbers in a tree. -/
def literals : Expr w → List Nat
  | number word => [word]
  | text _ | field _ => []
  | signed _ e => e.literals
  | binary _ l r => l.literals ++ r.literals
  | like _ e _ _ => e.literals

/-- Every number in the tree is finite. -/
def Finite (e : Expr w) : Prop := ∀ word ∈ e.literals, ∃ s m k, binary64.decode word = .finite s m k

/-- An occurrence is the first one or was written as a number. -/
def Occurrence.Counted : Occurrence → Prop
  | .at n => n = 0 ∨ ∃ word, Context.count? word = some n
  | .any => True

/-- What holds of the trees of texts: names stand for the fields they are written for, and patterns
are those of their texts. -/
def Written (known : String → Option (FieldId w)) : Expr w → Prop
  | number word => word ≤ binary64.infinity
  | text _ => True
  | field r => IsName r.name ∧ known r.name = some r.id ∧ r.occurrence.Counted
  | signed _ e => e.Written known
  | binary _ l r => l.Written known ∧ r.Written known
  | like _ e source p => e.Written known ∧ Pattern.anchored? source = some p

theorem Reference.scans (r : Reference w) (hr : IsName r.name) (hb : Breaks rest)
    (h : Scans rest ts) : Scans (r.canonical ++ rest) (r.tokens ++ ts) := by
  obtain ⟨id, name, occurrence⟩ := r
  have hbracket : ∀ cs, Breaks ('[' :: cs) := fun cs => by simp [Breaks]
  match occurrence with
  | .at 0 =>
    simpa [Reference.canonical, Reference.tokens] using scans_name hr hb h
  | .at (n + 1) =>
    have hclose : Scans (']' :: rest) (.closeBracket :: ts) := .cons (by decide) rfl h
    have hopen : Scans ('[' :: (Nat.toDigits 10 (n + 1) ++ ']' :: rest))
        (.openBracket :: .number (countWord (n + 1)) :: .closeBracket :: ts) :=
      .cons (by decide) rfl (scans_count (by simp [Breaks]) hclose)
    simpa [Reference.canonical, Reference.tokens] using scans_name hr (hbracket _) hopen
  | .any =>
    have hclose : Scans (']' :: rest) (.closeBracket :: ts) := .cons (by decide) rfl h
    have hquestion : Scans ('?' :: ']' :: rest) (.question :: .closeBracket :: ts) :=
      .cons (by decide) rfl hclose
    have hopen : Scans ('[' :: '?' :: ']' :: rest)
        (.openBracket :: .question :: .closeBracket :: ts) := .cons (by decide) rfl hquestion
    simpa [Reference.canonical, Reference.tokens] using scans_name hr (hbracket _) hopen

variable {known : String → Option (FieldId w)} {e : Expr w}

/-- No canonical text starts with the second character of a symbol. -/
theorem head_canonical (hw : e.Written known) (hfin : e.Finite) :
    ∃ c cs, e.canonical = c :: cs ∧ c ≠ '=' ∧ c ≠ '%' := by
  cases e with
  | number word =>
    obtain ⟨c, cs, hcs, hc, -⟩ := text_of_finite hw (hfin word (by simp [literals]))
    exact ⟨c, cs, hcs, by rintro rfl; simp at hc, by rintro rfl; simp at hc⟩
  | text s => exact ⟨'\'', _, rfl, by decide, by decide⟩
  | field r =>
    obtain ⟨⟨c, cs, hname, hc, -⟩, -⟩ := hw
    refine ⟨c, _, by rw [canonical, Reference.canonical, hname, String.toList_ofList]; rfl, ?_, ?_⟩
    · rintro rfl
      simp [Token.isNameStart] at hc
    · rintro rfl
      simp [Token.isNameStart] at hc
  | signed s e => cases s <;> exact ⟨_, _, rfl, by decide, by decide⟩
  | binary o l r => exact ⟨'(', _, rfl, by decide, by decide⟩
  | like negated e source p => exact ⟨'(', _, rfl, by decide, by decide⟩

theorem scans_canonical (hw : e.Written known) (hfin : e.Finite) (hb : Breaks rest)
    (h : Scans rest ts) : Scans (e.canonical ++ rest) (e.tokens ++ ts) := by
  induction e generalizing rest ts with
  | number word => exact scans_number hw (hfin word (by simp [literals])) hb h
  | text s => exact scans_quote h
  | field r => exact r.scans hw.1 hb h
  | signed s e ih =>
    obtain ⟨c, cs, hcs, h1, h2⟩ := head_canonical (e := e) hw hfin
    have hsign := scans_sign s (by simp [hcs, h1, h2]) (ih hw hfin hb h)
    simpa [canonical, tokens] using hsign
  | binary o l r ihl ihr =>
    have hclose : Scans (')' :: rest) (.closeParen :: ts) := .cons (by decide) rfl h
    have hr := ihr hw.2 (fun x hx => hfin x (by simp [literals, hx])) (by simp [Breaks]) hclose
    have ho := (scans_operator o hr).blank
    have hl := ihl hw.1 (fun x hx => hfin x (by simp [literals, hx])) (by simp [Breaks]) ho
    have hopen := Scans.cons (c := '(') (by decide) rfl hl
    simpa [canonical, tokens] using hopen
  | like negated e source p ih =>
    have hclose : Scans (')' :: rest) (.closeParen :: ts) := .cons (by decide) rfl h
    have hlike := (scans_like negated (scans_quote (s := source) hclose)).blank
    have he := ih hw.1 hfin (by simp [Breaks]) hlike
    have hopen := Scans.cons (c := '(') (by decide) rfl he
    simpa [canonical, tokens] using hopen

theorem Reference.length_tokens (r : Reference w) (hr : IsName r.name) :
    r.tokens.length ≤ r.canonical.length := by
  obtain ⟨c, cs, hname, -⟩ := hr
  have hlen : r.name.toList.length = cs.length + 1 := by rw [hname, String.toList_ofList]; rfl
  obtain ⟨id, name, occurrence⟩ := r
  match occurrence with
  | .at 0 =>
    simp only [tokens, canonical, List.length_append, hlen, List.length_cons, List.length_nil]
    omega
  | .at (n + 1) =>
    have hdigits : 0 < (Nat.toDigits 10 (n + 1)).length := Nat.length_toDigits_pos
    simp only [tokens, canonical, List.length_append, hlen, List.length_cons, List.length_nil]
    omega
  | .any =>
    have hany : "[?]".toList.length = 3 := rfl
    simp only [tokens, canonical, List.length_append, hlen, List.length_cons, List.length_nil, hany]
    omega

/-- Every token takes up a character. -/
theorem length_tokens (hw : e.Written known) (hfin : e.Finite) :
    e.tokens.length ≤ e.canonical.length := by
  induction e with
  | number word =>
    obtain ⟨c, cs, hcs, -⟩ := text_of_finite hw (hfin word (by simp [literals]))
    simp [tokens, canonical, hcs]
  | text s => simp [tokens, canonical, quote]
  | field r => exact r.length_tokens hw.1
  | signed s e ih =>
    have hlen := ih hw hfin
    have hs : s.symbol.toList.length = 1 := by cases s <;> rfl
    simp only [tokens, canonical, List.length_append, List.length_cons, hs]
    omega
  | binary o l r ihl ihr =>
    have hl := ihl hw.1 (fun x hx => hfin x (by simp [literals, hx]))
    have hr := ihr hw.2 (fun x hx => hfin x (by simp [literals, hx]))
    simp only [tokens, canonical, List.length_append, List.length_cons, List.length_nil]
    omega
  | like negated e source p ih =>
    have hlen := ih hw.1 hfin
    have hquote : 2 ≤ (quote source).length := by simp [quote]
    simp only [tokens, canonical, List.length_append, List.length_cons, List.length_nil]
    omega

theorem scan_toText (hw : e.Written known) (hfin : e.Finite) :
    ∃ ls, Lexeme.scan e.toText.toList = .ok ls ∧ ls.map (·.token) = e.tokens := by
  have hscan : Scans (e.canonical ++ []) (e.tokens ++ []) :=
    scans_canonical hw hfin (by simp [Breaks]) (.done rfl)
  rw [List.append_nil, List.append_nil] at hscan
  rw [toText, String.toList_ofList]
  exact hscan.scanFrom _ _ (length_tokens hw hfin)

end FieldBuffers.Expr
