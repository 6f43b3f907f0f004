import FieldBuffers.Frame
import FieldBuffers.Proofs.Region

/-! Import with every byte read at its position. A read outside of the bytes at hand gives nothing
at all; import gives what it gives without positions (`importedAt_gives`), so it makes no such
read. -/

namespace FieldBuffers

/-- A computation that may fail, and that gives nothing if it reads outside of some bytes. -/
abbrev Positional := ExceptT Error Option

namespace Positional

variable {α β : Type}

/-- The computation reads inside of its bytes, and gives this. -/
def Gives (x : Positional α) (y : Except Error α) : Prop := x.run = some y

theorem gives_pure (a : α) : Gives (pure a) (.ok a) := rfl

theorem gives_throw (e : Error) : Gives (throw e : Positional α) (.error e) := rfl

theorem Gives.bind {x : Positional α} {y : Except Error α} {f : α → Positional β}
    {g : α → Except Error β} (h : Gives x y) (hf : ∀ a, y = .ok a → Gives (f a) (g a)) :
    Gives (x >>= f) (y >>= g) := by
  rw [Gives, ExceptT.run_bind, h]
  cases y with
  | error e => rfl
  | ok a => exact hf a rfl

/-- A first step that cannot fail. -/
theorem Gives.bind_ok {x : Positional α} {a : α} {f : α → Positional β} {y : Except Error β}
    (h : Gives x (.ok a)) (hf : Gives (f a) y) : Gives (x >>= f) y := by
  rw [Gives, ExceptT.run_bind, h]
  exact hf

theorem Gives.map_ok {x : Positional α} {y : Except Error α} (f : α → β) (h : Gives x y) :
    Gives (x >>= fun a => pure (f a)) (y.map f) := by
  rw [Gives, ExceptT.run_bind, h]
  cases y with
  | error e => rfl
  | ok a => rfl

/-- A step whose result does not matter. -/
theorem Gives.bind_map {γ : Type} {x : Positional α} {y : Except Error α} {f : α → Positional β}
    {c : α → γ} {g : γ → Except Error β} (h : Gives x y) (hf : ∀ a, Gives (f a) (g (c a))) :
    Gives (x >>= f) (y.map c >>= g) := by
  rw [Gives, ExceptT.run_bind, h]
  cases y with
  | error e => rfl
  | ok a => exact hf a

theorem Gives.adapt {x : Positional α} {y : Except Error α} (f : Error → Error) (h : Gives x y) :
    Gives (ExceptT.adapt f x) (y.mapError f) := congrArg (Option.map (Except.mapError f)) h

/-- A step that reads nothing. -/
def pureStep (y : Except Error α) : Positional α := ExceptT.mk (some y)

theorem gives_pureStep (y : Except Error α) : Gives (pureStep y) y := rfl

/-- The bytes from one position up to another. -/
def slice (bs : Bytes) (start stop : Nat) : Positional { s : Bytes // s.length = stop - start } :=
  if h : start ≤ stop ∧ stop ≤ bs.length then
    pure ⟨(bs.drop start).take (stop - start), by rw [List.length_take, List.length_drop]; omega⟩
  else ExceptT.mk none

def byte (bs : Bytes) (i : Nat) : Positional UInt8 :=
  match bs[i]? with
  | some b => pure b
  | none => ExceptT.mk none

/-- The number in some bytes from a position on. -/
def number (bs : Bytes) (i size : Nat) : Positional Nat := do
  return Bytes.ofLittle (← slice bs i (i + size)).val

variable {w : Width} {bs : Bytes} {i j size : Nat} {y : Except Error β}

theorem slice_bind {f : { s : Bytes // s.length = j - i } → Positional β} (h : i ≤ j)
    (hj : j ≤ bs.length)
    (hf : ∀ hs, Gives (f ⟨(bs.drop i).take (j - i), hs⟩) y) : Gives (slice bs i j >>= f) y := by
  rw [slice, dif_pos ⟨h, hj⟩]
  exact (gives_pure _).bind_ok (hf _)

theorem byte_bind {f : UInt8 → Positional β} (h : i < bs.length) (hf : Gives (f bs[i]) y) :
    Gives (byte bs i >>= f) y := by
  rw [byte, List.getElem?_eq_getElem h]
  exact (gives_pure _).bind_ok hf

theorem number_bind {f : Nat → Positional β} (h : i + size ≤ bs.length)
    (hf : Gives (f (Bytes.ofLittle ((bs.drop i).take size))) y) :
    Gives (number bs i size >>= f) y := by
  rw [number, bind_assoc]
  refine slice_bind (Nat.le_add_right ..) h fun hs => ?_
  rw [pure_bind]
  simpa only [Nat.add_sub_cancel_left] using hf

/-! Entries. -/

/-- The entries of a region from a position on. -/
def walk (w : Width) (region : Bytes) (position : Nat) : Positional (List (Entry w)) :=
  if _ : region.length < position + w.overhead then pure []
  else do
    match FieldId.ofRaw? w (← number region position w.wordBytes) with
    | none => return []
    | some id =>
      let length ← number region (position + w.wordBytes) w.wordBytes
      if region.length < position + w.overhead + length then return []
      else
        let value ← slice region (position + w.overhead) (position + w.overhead + length)
        return ⟨id, position, value⟩ :: (← walk w region (position + w.overhead + length))
termination_by region.length - position
decreasing_by
  have := w.wordBytes_pos
  have : w.overhead = 2 * w.wordBytes := rfl
  omega

/-- The first entry header of what is left of a region. -/
theorem parts?_drop (region : Bytes) (position : Nat) : Entry.parts? w (region.drop position) =
    if region.length < position + w.overhead then none
    else some
      { raw := Bytes.ofLittle ((region.drop position).take w.wordBytes)
        length := Bytes.ofLittle ((region.drop (position + w.wordBytes)).take w.wordBytes)
        value := (region.drop (position + w.overhead)).take
          (Bytes.ofLittle ((region.drop (position + w.wordBytes)).take w.wordBytes))
        rest := (region.drop (position + w.overhead)).drop
          (Bytes.ofLittle ((region.drop (position + w.wordBytes)).take w.wordBytes)) } := by
  have hpos := w.wordBytes_pos
  have hoverhead : position + w.wordBytes + w.wordBytes = position + w.overhead := by
    rw [Width.overhead]
    omega
  simp only [Entry.parts?, List.drop_drop, hoverhead]
  by_cases h : region.length < position + w.overhead
  · rw [if_pos h, if_pos]
    rw [List.length_take, List.length_drop]
    omega
  · rw [if_neg h, if_neg]
    rw [List.length_take, List.length_drop]
    omega

theorem walk_gives (region : Bytes) (position : Nat) :
    Gives (walk w region position) (.ok (Entry.scan w position (region.drop position))) := by
  induction hn : region.length - position using Nat.strongRecOn generalizing position with
  | ind n ih =>
    have hpos := w.wordBytes_pos
    have hoverhead : w.overhead = 2 * w.wordBytes := rfl
    have hparts := parts?_drop (w := w) region position
    rw [walk]
    split
    · rename_i hshort
      rw [if_pos hshort] at hparts
      rw [Entry.scan_of_next?_eq_none (by rw [Entry.next?, hparts])]
      exact gives_pure _
    rename_i hlong
    rw [if_neg hlong] at hparts
    refine number_bind (by omega) ?_
    split
    · rename_i hid
      rw [Entry.scan_of_next?_eq_none (by rw [Entry.next?, hparts]; simp [hid])]
      exact gives_pure _
    rename_i id hid
    refine number_bind (by omega) ?_
    generalize hlen : Bytes.ofLittle ((region.drop (position + w.wordBytes)).take w.wordBytes) = len
    rw [hlen] at hparts
    split
    · rename_i hover
      have hvalue : ((region.drop (position + w.overhead)).take len).length < len := by
        rw [List.length_take, List.length_drop]
        omega
      rw [Entry.scan_of_next?_eq_none (by rw [Entry.next?, hparts]; exact if_pos hvalue)]
      exact gives_pure _
    rename_i hfits
    refine slice_bind (Nat.le_add_right ..) (Nat.le_of_not_lt hfits) fun hvalue => ?_
    simp only [Nat.add_sub_cancel_left] at hvalue ⊢
    have hnext : Entry.next? w position (region.drop position) = some
        (⟨id, position, (region.drop (position + w.overhead)).take len⟩,
          region.drop (position + w.overhead + len)) := by
      rw [Entry.next?, hparts]
      simp only [hvalue, Nat.lt_irrefl, if_false, hid, List.drop_drop]
      rfl
    refine (ih _ (by omega) _ rfl).bind_ok ?_
    rw [Entry.scan_of_next?_eq_some hnext]
    simp only [Entry.stop, Entry.size, hvalue, ← Nat.add_assoc]
    exact gives_pure _

/-- The longest chain of nested buffers below a region, as far as `limit` levels. -/
def nestingAt : Nat → (w : Width) → Bytes → Positional Nat
  | 0, _, _ => pure 0
  | limit + 1, w, region => do
    let es ← walk w region Header.size
    let depths ← (Entry.nestedRegions es).mapM fun r => nestingAt limit .wide r
    return (depths.map (· + 1)).foldl max 0

theorem mapM_gives {f : α → Positional β} {g : α → β} {as : List α}
    (h : ∀ a ∈ as, Gives (f a) (.ok (g a))) : Gives (as.mapM f) (.ok (as.map g)) := by
  induction as with
  | nil => exact gives_pure _
  | cons a as ih =>
    rw [List.mapM_cons]
    refine (h a (List.mem_cons_self ..)).bind_ok ?_
    exact (ih fun b hb => h b (List.mem_cons_of_mem _ hb)).bind_ok (gives_pure _)

theorem nestingAt_gives (limit : Nat) (w : Width) (region : Bytes) :
    Gives (nestingAt limit w region) (.ok (nesting limit w region)) := by
  induction limit generalizing w region with
  | zero => exact gives_pure _
  | succ limit ih =>
    refine (walk_gives region Header.size).bind_ok ((mapM_gives fun r _ => ih .wide r).bind_ok ?_)
    rw [nesting, ← Entry.ofRegion, List.map_map]
    exact gives_pure _

/-! Values. -/

def splitNameAt (offset : Nat) (bs : Bytes) : Positional (String × Bytes) :=
  if bs.length = 0 then throw (.corrupt offset "missing name length")
  else do
    let n ← byte bs 0
    if bs.length < 1 + n.toNat then throw (.corrupt offset "name overruns value")
    else
      match Bytes.toText? (← slice bs 1 (1 + n.toNat)).val with
      | none => throw (.corrupt (offset + 1) "name is not valid UTF-8")
      | some s => return (s, ← slice bs (1 + n.toNat) bs.length)

theorem splitNameAt_gives (offset : Nat) (bs : Bytes) :
    Gives (splitNameAt offset bs) (Value.splitName offset bs) := by
  cases bs with
  | nil => exact gives_throw _
  | cons n rest =>
    rw [splitNameAt, if_neg (by simp), Value.splitName]
    refine byte_bind (by simp) ?_
    simp only [List.getElem_cons_zero, List.length_cons, List.length_take]
    by_cases hover : rest.length < n.toNat
    · rw [if_pos (by omega), if_pos (by omega)]
      exact gives_throw _
    rw [if_neg (by omega), if_neg (by omega)]
    refine slice_bind (by omega) (by simp; omega) fun hs => ?_
    simp only [Nat.add_sub_cancel_left, List.drop_succ_cons, List.drop_zero]
    cases Bytes.toText? (rest.take n.toNat) with
    | none => exact gives_throw _
    | some s =>
      refine slice_bind (by omega) (by simp) fun hs => ?_
      have hrest : ((n :: rest).drop (1 + n.toNat)).take ((n :: rest).length - (1 + n.toNat)) =
          rest.drop n.toNat := by
        rw [List.take_of_length_le (Nat.le_of_eq List.length_drop), Nat.add_comm 1,
          List.drop_succ_cons]
      exact (congrArg (fun data => some (Except.ok (s, data))) hrest)

/-- The value that bytes stand for, where they are no nested buffer. -/
def decodeAt (t : FieldType) (offset : Nat) (bs : Bytes) : Positional Value :=
  match t with
  | .short => do return .short (UInt16.ofNat (← sized 2 2)).toInt16
  | .long => do return .long (UInt64.ofNat (← sized 8 8)).toInt64
  | .char => do return .char (UInt8.ofNat (← sized 1 1))
  | .float => do return .float (UInt32.ofNat (← sized 4 4))
  | .double => do return .double (UInt64.ofNat (← sized 8 8))
  | .int => do return .int (UInt32.ofNat (← sized 4 4)).toInt32
  | .ptr => do
    let address ← sized 9 8
    match Ownership.ofByte? (← byte bs 8) with
    | some ownership => return .ptr (UInt64.ofNat address) ownership
    | none => throw (.corrupt (offset + 8) "invalid pointer ownership")
  | .string =>
    match Bytes.toText? (Value.dropTerminator bs) with
    | some s => pure (.string s)
    | none => throw (.corrupt offset "string is not valid UTF-8")
  | .carray => pure (.carray bs)
  | .mbstring => do
    let (encoding, data) ← splitNameAt offset bs
    return .mbstring encoding data
  | .view => do
    let (name, data) ← splitNameAt offset bs
    return .view name data
  | .fml => pure (.fml .null)
where
  /-- The number in the first bytes of a value, which has to be of some size. -/
  sized (n read : Nat) : Positional Nat :=
    if bs.length = n then number bs 0 read
    else throw (.corrupt offset s!"{t.keyword} value must be {n} bytes, found {bs.length}")

theorem sized_bind {t : FieldType} {offset n read : Nat} {f : Nat → Positional β} (hread : read ≤ n)
    (a : α) (g : α → Except Error β)
    (h : bs.length = n → Gives (f (Bytes.ofLittle (bs.take read))) (g a)) :
    Gives (decodeAt.sized t offset bs n read >>= f)
      (Value.decodeFlat.sized t offset bs n a >>= g) := by
  rw [decodeAt.sized, Value.decodeFlat.sized]
  by_cases hn : bs.length = n
  · rw [if_pos hn, if_pos (by rw [List.length_take]; omega)]
    exact number_bind (by omega) (h hn)
  · rw [if_neg hn, if_neg (by rw [List.length_take]; omega)]
    exact gives_throw _

theorem decodeAt_gives (t : FieldType) (offset : Nat) (bs : Bytes) :
    Gives (decodeAt t offset bs) (Value.decodeFlat t offset bs) := by
  have hsized (n : Nat) (f : Nat → Value) :
      Gives (decodeAt.sized t offset bs n n >>= fun v => pure (f v))
        (Value.decodeFlat.sized t offset bs n (f (Bytes.ofLittle bs))) := by
    rw [← bind_pure (Value.decodeFlat.sized t offset bs n _)]
    refine sized_bind (Nat.le_refl n) _ pure fun hn => ?_
    rw [List.take_of_length_le (Nat.le_of_eq hn)]
    exact gives_pure _
  cases t with
  | short | long | char | float | double | int => exact hsized ..
  | string =>
    rw [decodeAt, Value.decodeFlat]
    cases Bytes.toText? (Value.dropTerminator bs) with
    | none => exact gives_throw _
    | some s => exact gives_pure _
  | carray | fml => exact gives_pure _
  | mbstring | view => exact (splitNameAt_gives offset bs).map_ok _
  | ptr =>
    refine sized_bind (by decide) _ _ fun hn => byte_bind (by omega) ?_
    rw [List.getElem?_eq_getElem (by omega), Option.bind_some]
    cases hbyte : Ownership.ofByte? bs[8] with
    | none => exact gives_throw _
    | some ownership => exact gives_pure _

/-! Regions. -/

def decodeHeaderAt (region : Bytes) : Positional Header :=
  if region.length < Header.size then throw (.corrupt 0 "buffer too small for header")
  else do
    return {
      magic := UInt32.ofNat (← number region 0 4)
      word := ← byte region 4
      flags := ← byte region 5
      reserved := UInt16.ofNat (← number region 6 2)
      capacity := UInt32.ofNat (← number region 8 4)
      used := UInt32.ofNat (← number region 12 4) }

/-- The header of a region, if it is one of the family's and speaks of just these bytes. -/
def headerAt (w : Width) (region : Bytes) : Positional Header := do
  let h ← decodeHeaderAt region
  pureStep (h.check w.wordBytes)
  if h.used.toNat = region.length then return h
  else throw (.corrupt 12 s!"header records {h.used} bytes used, region has {region.length}")

theorem decodeHeaderAt_gives (region : Bytes) :
    Gives (decodeHeaderAt region) (Header.decode region) := by
  match region with
  | a :: b :: c :: d :: word :: flags :: e :: f :: g :: h :: i :: j :: k :: l :: m :: n :: rest =>
    rw [decodeHeaderAt, if_neg (by simp [Header.size])]
    refine number_bind (by simp) (byte_bind (by simp) (byte_bind (by simp) ?_))
    refine number_bind (by simp) (number_bind (by simp) (number_bind (by simp) ?_))
    exact gives_pure _
  | [] | [_] | [_, _] | [_, _, _] | [_, _, _, _] | [_, _, _, _, _] | [_, _, _, _, _, _]
  | [_, _, _, _, _, _, _] | [_, _, _, _, _, _, _, _] | [_, _, _, _, _, _, _, _, _]
  | [_, _, _, _, _, _, _, _, _, _] | [_, _, _, _, _, _, _, _, _, _, _]
  | [_, _, _, _, _, _, _, _, _, _, _, _] | [_, _, _, _, _, _, _, _, _, _, _, _, _]
  | [_, _, _, _, _, _, _, _, _, _, _, _, _, _] | [_, _, _, _, _, _, _, _, _, _, _, _, _, _, _] =>
    exact gives_throw _

theorem headerAt_gives (w : Width) (region : Bytes) :
    Gives (headerAt w region) (Region.header w region) := by
  refine (decodeHeaderAt_gives region).bind fun h _ => (gives_pureStep _).bind fun _ _ => ?_
  split
  · exact gives_pure _
  · exact gives_throw _

/-- Looks at every entry of a region, and of the regions nested in it, from a position on. -/
def checkEntriesAt (c : ArenaConfig) (w : Width) (region : Bytes) (position : Nat) :
    Positional Unit :=
  if region.length ≤ position then pure ()
  else if region.length < position + w.overhead then
    throw (.corrupt position "truncated entry header")
  else do
    let raw ← number region position w.wordBytes
    match FieldId.ofRaw? w raw with
    | none => throw (.corrupt position s!"invalid field identifier {raw}")
    | some id =>
      let length ← number region (position + w.wordBytes) w.wordBytes
      let start := position + w.overhead
      if _ : region.length < start + length then
        throw (.corrupt position s!"value of {length} bytes overruns region")
      else
        let ⟨value, _⟩ ← slice region start (start + length)
        if id.type = .fml ∧ value ≠ [] then
          ExceptT.adapt (Region.fromOutside start) do
            let _ ← headerAt .wide value
            checkEntriesAt c .wide value Header.size
            pureStep (Region.checkRoom c value.length)
        else
          let _ ← decodeAt id.type start value
        checkEntriesAt c w region (start + length)
termination_by (region.length, region.length - position)
decreasing_by
  all_goals
    have := w.wordBytes_pos
    have : w.overhead = 2 * w.wordBytes := rfl
    omega

/-- What is left of a region that starts with no entry header. -/
theorem checkEntries_of_parts?_eq_none {c : ArenaConfig} {offset : Nat} (hne : bs ≠ [])
    (hp : Entry.parts? w bs = none) :
    Region.checkEntries c w offset bs = .error (.corrupt offset "truncated entry header") := by
  rw [Region.checkEntries, if_neg (by simpa using hne)]
  split
  · rfl
  · rename_i p hp'
    simp [hp] at hp'

/-- What a value has to be inside of its region. -/
def checkBytes (c : ArenaConfig) (t : FieldType) (start : Nat) (value : Bytes) :
    Except Error Unit :=
  if t = .fml ∧ value ≠ [] then
    (do
      let _ ← Region.header .wide value
      Region.checkEntries c .wide Header.size (value.drop Header.size)
      Region.checkRoom c value.length).mapError (Region.fromOutside start)
  else (Value.decodeFlat t start value).map fun _ => ()

/-- One entry looked at, and then the ones after it. -/
theorem checkEntries_of_parts? {c : ArenaConfig} {offset : Nat} {p : Entry.Parts}
    (hp : Entry.parts? w bs = some p) : Region.checkEntries c w offset bs =
      match FieldId.ofRaw? w p.raw with
      | none => .error (.corrupt offset s!"invalid field identifier {p.raw}")
      | some id =>
        if p.value.length < p.length then
          .error (.corrupt offset s!"value of {p.length} bytes overruns region")
        else
          checkBytes c id.type (offset + w.overhead) p.value >>= fun _ =>
            Region.checkEntries c w (offset + w.overhead + p.length) p.rest := by
  have hne : bs ≠ [] := List.ne_nil_of_length_pos (Nat.zero_lt_of_lt (Entry.length_rest_lt hp))
  rw [Region.checkEntries, if_neg (by simpa using hne)]
  split
  · rename_i hp'
    simp [hp] at hp'
  rename_i p' hp'
  have hp : p = p' := Option.some.inj (hp.symm.trans hp')
  subst hp
  cases FieldId.ofRaw? w p.raw with
  | none => rfl
  | some id =>
    by_cases hover : p.value.length < p.length
    · simp only [hover, if_true]
    · simp only [hover, if_false]
      split
      · rename_i e he
        have he : checkBytes c id.type (offset + w.overhead) p.value = .error e := he
        rw [he]
        rfl
      · rename_i hok
        have hok : checkBytes c id.type (offset + w.overhead) p.value = .ok () := hok
        rw [hok]
        rfl

theorem checkEntriesAt_gives (c : ArenaConfig) (w : Width) (region : Bytes) (position : Nat) :
    Gives (checkEntriesAt c w region position)
      (Region.checkEntries c w position (region.drop position)) := by
  induction hn : region.length using Nat.strongRecOn generalizing w region position with
  | ind n ihn =>
  induction hk : region.length - position using Nat.strongRecOn generalizing position with
  | ind k ihk =>
    have hpos := w.wordBytes_pos
    have hoverhead : w.overhead = 2 * w.wordBytes := rfl
    have hparts := parts?_drop (w := w) region position
    rw [checkEntriesAt]
    split
    · rename_i hend
      rw [List.drop_eq_nil_of_le hend, Region.checkEntries_nil]
      exact gives_pure _
    rename_i hmore
    split
    · rename_i hshort
      rw [if_pos hshort] at hparts
      have hne : region.drop position ≠ [] := by
        rw [ne_eq, List.drop_eq_nil_iff]
        exact hmore
      rw [checkEntries_of_parts?_eq_none hne hparts]
      exact gives_throw _
    rename_i hlong
    rw [if_neg hlong] at hparts
    rw [checkEntries_of_parts? hparts]
    refine number_bind (by omega) ?_
    cases hid : FieldId.ofRaw? w (Bytes.ofLittle ((region.drop position).take w.wordBytes)) with
    | none => exact gives_throw _
    | some id =>
      refine number_bind (by omega) ?_
      generalize Bytes.ofLittle ((region.drop (position + w.wordBytes)).take w.wordBytes) = len
      simp only [List.length_take, List.length_drop]
      split
      · rename_i hover
        rw [if_pos (by omega)]
        exact gives_throw _
      rename_i hfits
      rw [if_neg (by omega)]
      refine slice_bind (by omega) (by omega) fun hvalue => ?_
      simp only [Nat.add_sub_cancel_left, List.drop_drop] at hvalue ⊢
      have hrest := ihk (region.length - (position + w.overhead + len)) (by omega) _ rfl
      generalize (region.drop (position + w.overhead)).take len = value at hvalue ⊢
      rw [checkBytes]
      split
      · refine Gives.bind (Gives.adapt _ ?_) fun _ _ => hrest
        refine (headerAt_gives .wide value).bind fun _ _ => ?_
        exact (ihn _ (by omega) .wide value Header.size rfl).bind fun _ _ => gives_pureStep _
      · exact (decodeAt_gives ..).bind_map fun _ => hrest

end Positional

end FieldBuffers
