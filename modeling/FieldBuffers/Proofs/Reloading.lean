import FieldBuffers.Proofs.Naming

/-! When a catalog reads its tables. Whatever happened to a catalog and to its files, it answers from
the tables as they stood when it last had to read them (`tells_of_past`). Past happenings are
listed with the latest first. -/

namespace FieldBuffers

variable {w : Width} {files : Files} {sources : List String}

/-- A question for which a catalog needs its names. -/
inductive Query (w : Width) where
  | load
  | identFor (name : String)
  | nameFor (f : FieldId w)
  | fields
  | fieldNames

inductive Answer (w : Width) where
  | done
  | ident (f : FieldId w)
  | name (name : String)
  | fields (fs : List (String × FieldId w))
  | names (names : List String)

namespace Query

def run (files : Files) : Query w → Resolving w (Answer w)
  | load => do
    let _ ← Catalog.table files
    return .done
  | identFor name => do return .ident (← Catalog.identFor files name)
  | nameFor f => do return .name (← Catalog.nameFor files f)
  | fields => do return .fields (← Catalog.fields files)
  | fieldNames => do return .names ((← Catalog.fields files).map (·.1))

/-- The answer that a table of names has. -/
def answer (t : NameTable w) : Query w → Except Error (Answer w)
  | load => .ok .done
  | identFor name =>
    match t.ident? name with
    | some f => .ok (.ident f)
    | none => .error (.unknownName name)
  | nameFor f =>
    match t.name? f with
    | some name => .ok (.name name)
    | none => .error (.unknownIdentifier f.raw)
  | fields => .ok (.fields t.sorted)
  | fieldNames => .ok (.names (t.sorted.map (·.1)))

end Query

/-- What is done with a catalog, and to the files from outside. -/
inductive Happening (w : Width) where
  | ask (q : Query w)
  | cachedName (f : FieldId w)
  | isLoaded
  | register (t : FieldTable)
  | unload
  | write (path : String) (bytes : Bytes)
  | remove (path : String) (cause : String)

inductive Reply (w : Width) where
  | answered (r : Except Error (Answer w))
  | cached (name : Option String)
  | loaded (b : Bool)
  | nothing

/-- A catalog and the files that it can read. -/
structure Site (w : Width) where
  files : Files
  catalog : Catalog w

namespace Happening

def onFiles : Happening w → Files → Files
  | write path bytes, files => Function.update files path (.ok bytes)
  | remove path cause, files => Function.update files path (.error cause)
  | _, files => files

def run (h : Happening w) (s : Site w) : Reply w × Site w :=
  match h with
  | ask q =>
    match q.run s.files s.catalog with
    | .ok a catalog => (.answered (.ok a), { s with catalog })
    | .error e catalog => (.answered (.error e), { s with catalog })
  | cachedName f => (.cached (s.catalog.cachedName f), s)
  | isLoaded => (.loaded s.catalog.isLoaded, s)
  | register t => (.nothing, { s with catalog := s.catalog.register t })
  | unload => (.nothing, { s with catalog := s.catalog.unload })
  | write .. | remove .. => (.nothing, { s with files := h.onFiles s.files })

end Happening

abbrev Past (w : Width) := List (Happening w)

namespace Past

variable (files sources)

/-- A new catalog and its files after all that happened. -/
def site : Past w → Site w
  | [] => ⟨files, { sources }⟩
  | h :: past => (h.run (site past)).2

def filesNow (past : Past w) : Files := past.foldr Happening.onFiles files

/-- The tables that were given, in the order in which they were. -/
def registered : Past w → List FieldTable
  | [] => []
  | .register t :: past => registered past ++ [t]
  | _ :: past => registered past

/-- The names in the files and the tables as they stand. -/
def contents (past : Past w) : Except Error (NameTable w) :=
  Catalog.read (filesNow files past) { sources, registered := registered past }

/-- Whether the next question makes the catalog read: at first, once it was told to forget or was
given another table, and as long as reading fails. -/
def due : Past w → Bool
  | [] | .register _ :: _ | .unload :: _ => true
  | .ask _ :: past => due past && !(contents files sources past).isOk
  | _ :: past => due past

/-- What had happened when the catalog last read. -/
def lastReading : Past w → Past w
  | [] => []
  | .ask _ :: past => if due files sources past then past else lastReading past
  | _ :: past => lastReading past

end Past

namespace Query

variable {c c' : Catalog w} {t : NameTable w} {e : Error}

/-- A question is answered from the table, and what the catalog keeps is the table's doing. -/
theorem run_of_ok (h : Catalog.table files c = .ok t c') (q : Query w) :
    q.run files c = match q.answer t with
      | .ok a => .ok a c'
      | .error e => .error e c' := by
  cases q with
  | load => exact bind_of_ok h
  | identFor name =>
    have hask : Catalog.identFor files name c = match t.ident? name with
        | some f => .ok f c'
        | none => .error (.unknownName name) c' := by
      rw [Catalog.identFor, bind_of_ok h]
      cases t.ident? name <;> rfl
    cases hf : t.ident? name with
    | none =>
      rw [hf] at hask
      rw [run, bind_of_error hask, answer, hf]
    | some f =>
      rw [hf] at hask
      rw [run, bind_of_ok hask, answer, hf]
      rfl
  | nameFor f =>
    have hask : Catalog.nameFor files f c = match t.name? f with
        | some name => .ok name c'
        | none => .error (.unknownIdentifier f.raw) c' := by
      rw [Catalog.nameFor, bind_of_ok h]
      cases t.name? f <;> rfl
    cases hname : t.name? f with
    | none =>
      rw [hname] at hask
      rw [run, bind_of_error hask, answer, hname]
    | some name =>
      rw [hname] at hask
      rw [run, bind_of_ok hask, answer, hname]
      rfl
  | fields =>
    have hask : Catalog.fields files c = .ok t.sorted c' := bind_of_ok h
    exact bind_of_ok hask
  | fieldNames =>
    have hask : Catalog.fields files c = .ok t.sorted c' := bind_of_ok h
    exact bind_of_ok hask

theorem run_of_error (h : Catalog.table files c = .error e c') (q : Query w) :
    q.run files c = .error e c' := by
  have hident (name : String) : Catalog.identFor files name c = .error e c' := bind_of_error h
  have hname (f : FieldId w) : Catalog.nameFor files f c = .error e c' := bind_of_error h
  have hfields : Catalog.fields files c = .error e c' := bind_of_error h
  cases q with
  | load => exact bind_of_error h
  | identFor name => exact bind_of_error (hident name)
  | nameFor f => exact bind_of_error (hname f)
  | fields => exact bind_of_error hfields
  | fieldNames => exact bind_of_error hfields

end Query

namespace Happening

variable {s : Site w} {t : NameTable w} {e : Error}

theorem run_ask_of_cached (h : s.catalog.cache = some t) (q : Query w) :
    (ask q).run s = (.answered (q.answer t), s) := by
  have htable : Catalog.table s.files s.catalog = .ok t s.catalog := by rw [Catalog.table, h]
  simp only [run, Query.run_of_ok htable]
  cases q.answer t <;> rfl

theorem run_ask_of_read (hcold : s.catalog.cache = none) (h : s.catalog.read s.files = .ok t)
    (q : Query w) : (ask q).run s
      = (.answered (q.answer t), { s with catalog := { s.catalog with cache := some t } }) := by
  have htable := (Catalog.table_eq_ok_iff hcold).2 ⟨h, rfl⟩
  simp only [run, Query.run_of_ok htable]
  cases q.answer t <;> rfl

theorem run_ask_of_unread (hcold : s.catalog.cache = none) (h : s.catalog.read s.files = .error e)
    (q : Query w) : (ask q).run s = (.answered (.error e), s) := by
  have htable : Catalog.table s.files s.catalog = .error e s.catalog := by
    rw [Catalog.table, hcold, h]
  simp only [run, Query.run_of_error htable]

end Happening

namespace Past

/-- A catalog and its files are as their past says. -/
structure Remembers (files : Files) (sources : List String) (past : Past w) (s : Site w) :
    Prop where
  files_eq : s.files = filesNow files past
  sources_eq : s.catalog.sources = sources
  registered_eq : s.catalog.registered = registered past
  cold : due files sources past = true → s.catalog.cache = none
  warm : due files sources past = false →
    ∃ t, s.catalog.cache = some t ∧ contents files sources (lastReading files sources past) = .ok t

namespace Remembers

variable {past : Past w} {s : Site w}

theorem read_eq (h : Remembers files sources past s) :
    s.catalog.read s.files = contents files sources past := by
  rw [Catalog.read, contents, Catalog.read, h.files_eq, h.sources_eq, h.registered_eq]

/-- What one more happening does to a catalog and its files, its past tells. -/
theorem step (h : Remembers files sources past s) (a : Happening w) :
    Remembers files sources (a :: past) (a.run s).2 := by
  obtain ⟨hfiles, hsources, hregistered, hcold, hwarm⟩ := h
  cases a with
  | cachedName | isLoaded => exact ⟨hfiles, hsources, hregistered, hcold, hwarm⟩
  | register t =>
    exact ⟨hfiles, hsources, congrArg (· ++ [t]) hregistered, fun _ => rfl, nofun⟩
  | unload => exact ⟨hfiles, hsources, hregistered, fun _ => rfl, nofun⟩
  | write path bytes =>
    have hwritten := congrArg (Function.update · path (Except.ok bytes)) hfiles
    exact ⟨hwritten, hsources, hregistered, hcold, hwarm⟩
  | remove path cause =>
    have hremoved := congrArg (Function.update · path (Except.error cause)) hfiles
    exact ⟨hremoved, hsources, hregistered, hcold, hwarm⟩
  | ask q =>
    have hread := read_eq ⟨hfiles, hsources, hregistered, hcold, hwarm⟩
    cases hdue : due files sources past with
    | false =>
      obtain ⟨t, ht, hlast⟩ := hwarm hdue
      rw [Happening.run_ask_of_cached ht]
      refine ⟨hfiles, hsources, hregistered, ?_, fun _ => ⟨t, ht, ?_⟩⟩
      · simp [due, hdue]
      · simpa [lastReading, hdue] using hlast
    | true =>
      cases hnow : contents files sources past with
      | error e =>
        rw [Happening.run_ask_of_unread (hcold hdue) (hread.trans hnow)]
        refine ⟨hfiles, hsources, hregistered, fun _ => hcold hdue, ?_⟩
        simp [due, hdue, hnow, Except.isOk, Except.toBool]
      | ok t =>
        rw [Happening.run_ask_of_read (hcold hdue) (hread.trans hnow)]
        refine ⟨hfiles, hsources, hregistered, ?_, fun _ => ⟨t, rfl, ?_⟩⟩
        · simp [due, hdue, hnow, Except.isOk, Except.toBool]
        · simpa [lastReading, hdue] using hnow

theorem site (past : Past w) : Remembers files sources past (site files sources past) := by
  induction past with
  | nil => exact ⟨rfl, rfl, rfl, fun _ => rfl, nofun⟩
  | cons a past ih => exact ih.step a

theorem cache_eq (h : Remembers files sources past s) : s.catalog.cache
    = if due files sources past then none
      else (contents files sources (lastReading files sources past)).toOption := by
  cases hdue : due files sources past with
  | true => exact h.cold hdue
  | false =>
    obtain ⟨t, ht, hlast⟩ := h.warm hdue
    rw [ht, hlast]
    rfl

theorem asked (h : Remembers files sources past s) (q : Query w) :
    ((Happening.ask q).run s).1
      = .answered (contents files sources
          (if due files sources past then past else lastReading files sources past)
            >>= q.answer) := by
  cases hdue : due files sources past with
  | false =>
    obtain ⟨t, ht, hlast⟩ := h.warm hdue
    rw [Happening.run_ask_of_cached ht, if_neg Bool.false_ne_true, hlast]
    rfl
  | true =>
    rw [if_pos rfl]
    cases hnow : contents files sources past with
    | error e =>
      rw [Happening.run_ask_of_unread (h.cold hdue) (h.read_eq.trans hnow)]
      rfl
    | ok t =>
      rw [Happening.run_ask_of_read (h.cold hdue) (h.read_eq.trans hnow)]
      rfl

end Remembers

/-- A past tells all that a catalog does next. -/
structure Tells (files : Files) (sources : List String) (past : Past w) : Prop where
  /-- A question is answered from the files and the tables as they stand where reading is due, and
  otherwise from them as they stood at the last reading. -/
  asked (q : Query w) : ((Happening.ask q).run (site files sources past)).1
    = .answered (contents files sources
        (if due files sources past then past else lastReading files sources past) >>= q.answer)
  /-- Where reading is not due, the files might as well be others. -/
  blind (hdue : due files sources past = false) (others : Files) (q : Query w) :
    ((Happening.ask q).run { site files sources past with files := others }).1
      = ((Happening.ask q).run (site files sources past)).1
  /-- A reading that fails leaves nothing, and the next question reads again. -/
  failed (hdue : due files sources past = true) {e : Error}
    (hnow : contents files sources past = .error e) (q : Query w) :
    (Happening.ask q).run (site files sources past)
      = (.answered (.error e), site files sources past)
  loaded : Happening.isLoaded.run (site files sources past)
    = (.loaded (!due files sources past), site files sources past)
  cached (f : FieldId w) : (Happening.cachedName f).run (site files sources past)
    = (.cached (if due files sources past then none
        else (contents files sources (lastReading files sources past)).toOption.bind (·.name? f)),
        site files sources past)

end Past

/-- Whatever has happened to a catalog and to its files, the past tells how it goes on. -/
theorem tells_of_past (files : Files) (sources : List String) (past : Past w) :
    past.Tells files sources := by
  have h : Past.Remembers files sources past (Past.site files sources past) := .site past
  constructor
  case asked => exact h.asked
  case blind =>
    intro hdue others q
    obtain ⟨t, ht, -⟩ := h.warm hdue
    have hothers : { Past.site files sources past with files := others }.catalog.cache = some t := ht
    rw [Happening.run_ask_of_cached ht, Happening.run_ask_of_cached hothers]
  case failed =>
    intro hdue e hnow q
    exact Happening.run_ask_of_unread (h.cold hdue) (h.read_eq.trans hnow) q
  case loaded =>
    rw [Happening.run, Catalog.isLoaded]
    cases hdue : Past.due files sources past with
    | true => rw [h.cold hdue]; rfl
    | false =>
      obtain ⟨t, ht, -⟩ := h.warm hdue
      rw [ht]
      rfl
  case cached =>
    intro f
    rw [Happening.run, Catalog.cachedName, h.cache_eq]
    cases Past.due files sources past <;> rfl

end FieldBuffers
