import FieldBuffers.Pattern.Cursor
import Mathlib.Tactic

/-! Steps of a reading in a text that goes on with what closes a group around it. A step reads there
what it reads in the text alone, unless it goes into what closes the group (`Parsing.Local`). -/

namespace FieldBuffers.Pattern

/-- What closes the group around a pattern, and ties it to the end of a text. -/
def closing : List Char := [')', '$']

namespace Cursor

/-- The same place in a text that goes on with what closes a group. -/
def closed (c : Cursor) : Cursor := { c with rest := c.rest ++ closing }

end Cursor

namespace Parsing

variable {α β : Type} {f : Parsing α} {g : α → Parsing β} {c d : Cursor} {a : α} {b : β}
variable {tail : List Char}

theorem bind_eq_some :
    (f >>= g) c = some (b, d) ↔ ∃ a e, f c = some (a, e) ∧ g a e = some (b, d) := by
  change (f c).bind (fun r => g r.1 r.2) = _ ↔ _
  rw [Option.bind_eq_some_iff]
  exact Prod.exists

theorem get_bind {k : Cursor → Parsing α} : (get >>= k) c = k c c := rfl

/-- A step takes characters off the front of the text, or none. -/
def Advances (f : Parsing α) : Prop :=
  ∀ ⦃c a d⦄, f c = some (a, d) → d.rest <:+ c.rest

/-- A step takes at least one character. -/
structure Takes (f : Parsing α) : Prop where
  advances : Advances f
  length_lt : ∀ ⦃c a d⦄, f c = some (a, d) → d.rest.length < c.rest.length

/-- What is read in the text that goes on, if anything, is what is read in the text alone, unless no
more than `tail` is left. -/
def Agrees (tail : List Char) (x y : Option (α × Cursor)) : Prop :=
  ∀ ⦃a d⦄, x = some (a, d) → (∃ e, y = some (a, e) ∧ d = e.closed) ∨ d.rest <:+ tail

/-- A step that reads what it reads in the text alone, or goes into what closes the group. -/
structure Local (f : Parsing α) : Prop where
  advances : Advances f
  agrees : ∀ c, Agrees closing.tail (f c.closed) (f c)

/-! Steps after one another. -/

theorem Advances.bind (hf : Advances f) (hg : ∀ a, Advances (g a)) : Advances (f >>= g) := by
  intro c b d h
  obtain ⟨a, e, hfe, hge⟩ := bind_eq_some.1 h
  exact (hg a hge).trans (hf hfe)

theorem Takes.bind (hf : Takes f) (hg : ∀ a, Advances (g a)) : Takes (f >>= g) where
  advances := hf.advances.bind hg
  length_lt c b d h := by
    obtain ⟨a, e, hfe, hge⟩ := bind_eq_some.1 h
    exact (hg a hge).length_le.trans_lt (hf.length_lt hfe)

theorem Agrees.bind {f f' : Parsing α} {g g' : α → Parsing β}
    (hf : Agrees tail (f c.closed) (f' c)) (hadvances : ∀ a, Advances (g a))
    (hg : ∀ a e, f' c = some (a, e) → Agrees tail (g a e.closed) (g' a e)) :
    Agrees tail ((f >>= g) c.closed) ((f' >>= g') c) := by
  intro b d h
  obtain ⟨a, e, hfe, hge⟩ := bind_eq_some.1 h
  rcases hf hfe with ⟨e', he', rfl⟩ | hpast
  · refine (hg a e' he' hge).imp_left ?_
    rintro ⟨d', hd', rfl⟩
    exact ⟨d', bind_eq_some.2 ⟨a, e', he', hd'⟩, rfl⟩
  · exact .inr ((hadvances a hge).trans hpast)

theorem Local.bind (hf : Local f) (hg : ∀ a, Local (g a)) : Local (f >>= g) where
  advances := hf.advances.bind fun a => (hg a).advances
  agrees c := (hf.agrees c).bind (fun a => (hg a).advances) fun a e _ => (hg a).agrees e

theorem Agrees.mono {tail' : List Char} {x y : Option (α × Cursor)} (h : Agrees tail x y)
    (htail : tail <:+ tail') : Agrees tail' x y :=
  fun _ _ hx => (h hx).imp_right (·.trans htail)

theorem Advances.get {k : Cursor → Parsing α} (hk : ∀ c, Advances (k c)) :
    Advances (get >>= k) := fun c _ _ h => hk c h

theorem Takes.get {k : Cursor → Parsing α} (hk : ∀ c, Takes (k c)) : Takes (get >>= k) :=
  ⟨.get fun c => (hk c).advances, fun c _ _ h => (hk c).length_lt h⟩

/-- A step that asks where the reading stands, but not for the text that is left. -/
theorem Local.get {k : Cursor → Parsing α} (hk : ∀ c, Local (k c))
    (hrest : ∀ c, k c.closed = k c) : Local (get >>= k) where
  advances := .get fun c => (hk c).advances
  agrees c := by
    rw [get_bind, get_bind, hrest]
    exact (hk c).agrees c

/-- What is read in the text alone is read in the text that goes on as well. -/
def Keeps (f : Parsing α) : Prop :=
  ∀ ⦃c a d⦄, f c = some (a, d) → f c.closed = some (a, d.closed)

theorem Keeps.bind (hf : Keeps f) (hg : ∀ a, Keeps (g a)) : Keeps (f >>= g) := by
  intro c b d h
  obtain ⟨a, e, hfe, hge⟩ := bind_eq_some.1 h
  exact bind_eq_some.2 ⟨a, e.closed, hf hfe, hg a hge⟩

end Parsing

end FieldBuffers.Pattern
