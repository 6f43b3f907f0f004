import FieldBuffers.Proofs.Growth
import FieldBuffers.Proofs.Positions
import FieldBuffers.Proofs.Stacking

/-! A region taken for a buffer, with the nesting of every region looked at anew where the check of
its entries goes into one. The outcome is that of looking once (`fromRegion_follows`), and all the
regions gone into are among those that a walk sees beforehand (`nestingWalk_bounds_entering`). -/

namespace FieldBuffers

variable {w : Width} {region bs : Bytes} {c : ArenaConfig} {n m : Nested} {offset : Nat}

/-- A run that notes the regions it goes into, the last one first. -/
abbrev Entering := EStateM Error (List Nested)

namespace Entering

def ofExcept {α : Type} (r : Except Error α) : Entering α := fun seen =>
  match r with
  | .ok a => .ok a seen
  | .error e => .error e seen

/-- Goes into a region. What is wrong inside it is told from outside. -/
def into (n : Nested) (offset : Nat) (x : Entering Unit) : Entering Unit := fun seen =>
  match x (n :: seen) with
  | .ok () seen => .ok () seen
  | .error e seen => .error (Region.fromOutside offset e) seen

/-- What the run comes to, and the regions it went into. -/
def outcome (x : Entering Unit) : Except Error Unit × List Nested :=
  match x [] with
  | .ok () seen => (.ok (), seen)
  | .error e seen => (.error e, seen)

mutual

/-- A region that is to be a buffer of the family. -/
def fromRegion (c : ArenaConfig) (w : Width) (n : Nested) : Entering Unit := do
  let _ ← ofExcept (Region.header w n.bytes)
  if maxNesting < nestingDepth w n.bytes then
    throw (.corrupt Header.size s!"buffers nested more than {maxNesting} levels deep")
  validateRegion c w n Header.size (n.bytes.drop Header.size)
  ofExcept (Region.checkRoom c n.bytes.length)
termination_by 3 * n.bytes.length + 1

/-- The entries of a region from an offset on. -/
def validateRegion (c : ArenaConfig) (w : Width) (n : Nested) (offset : Nat) (bs : Bytes) :
    Entering Unit :=
  if bs.isEmpty then pure ()
  else
    match hp : Entry.parts? w bs with
    | none => throw (.corrupt offset "truncated entry header")
    | some p =>
      match FieldId.ofRaw? w p.raw with
      | none => throw (.corrupt offset s!"invalid field identifier {p.raw}")
      | some id =>
        if p.value.length < p.length then
          throw (.corrupt offset s!"value of {p.length} bytes overruns region")
        else do
          let start := offset + w.overhead
          have := Entry.length_value_lt hp
          have := Entry.length_rest_lt hp
          decodeValue c id.type start ⟨n.start + start, p.value, n.level + 1⟩
          validateRegion c w n (start + p.length) p.rest
termination_by 3 * bs.length

/-- The value of an entry, which may be a region of its own. -/
def decodeValue (c : ArenaConfig) (t : FieldType) (offset : Nat) (n : Nested) : Entering Unit :=
  if t = .fml ∧ n.bytes ≠ [] then into n offset (fromRegion c .wide n)
  else ofExcept ((Value.decodeFlat t offset n.bytes).map fun _ => ())
termination_by 3 * n.bytes.length + 2

end

open Item

theorem validateRegion_nil : validateRegion c w n offset [] = pure () := by
  rw [validateRegion]
  rfl

theorem validateRegion_encode {x : Item w} (hx : x.Stated) (rest : Bytes) :
    validateRegion c w n offset (x.encode ++ rest) = (do
      decodeValue c x.id.type (offset + w.overhead)
        ⟨n.start + (offset + w.overhead), x.value, n.level + 1⟩
      validateRegion c w n (offset + x.size) rest) := by
  have hp := x.parts?_encode hx rest
  rw [validateRegion, x.isEmpty_encode_append]
  simp only [Bool.false_eq_true, if_false]
  split
  · simp_all
  · rename_i p hp'
    obtain rfl := Option.some.inj (hp'.symm.trans hp)
    simp only [FieldId.ofRaw?_raw, Nat.lt_irrefl, if_false]
    have hs : offset + w.overhead + x.value.length = offset + x.size := Nat.add_assoc ..
    rw [hs]

/-- Bytes that no entry is at the front of are refused alike. -/
theorem validateRegion_of_malformed (hne : bs ≠ [])
    (h : ¬ ∃ (x : Item w) (rest : Bytes), bs = x.encode ++ rest ∧ x.Stated) :
    ∃ e, validateRegion c w n offset bs = throw e ∧
      Region.checkEntries c w offset bs = .error e := by
  rw [validateRegion, if_neg (by simpa using hne)]
  split
  · rename_i hp
    exact ⟨_, rfl, Positional.checkEntries_of_parts?_eq_none hne hp⟩
  rename_i p hp
  rw [Positional.checkEntries_of_parts? hp]
  cases hid : FieldId.ofRaw? w p.raw with
  | none => exact ⟨_, rfl, rfl⟩
  | some id =>
    by_cases hover : p.value.length < p.length
    · exact ⟨_, if_pos hover, if_pos hover⟩
    · obtain ⟨hbs, hstated⟩ := Entry.parts?_eq_some hp hover hid
      exact absurd ⟨_, _, hbs, hstated⟩ h

/-- The run comes to this, and the regions that it goes into are all of one sort. -/
def Yields {α : Type} (P : Nested → Prop) (x : Entering α) (r : Except Error α) : Prop :=
  ∀ seen, (∀ m ∈ seen, P m) → Ends x seen (fun a after => r = .ok a ∧ ∀ m ∈ after, P m)
    fun e after => r = .error e ∧ ∀ m ∈ after, P m

section Yields

variable {α β : Type} {P : Nested → Prop} {x : Entering α} {r : Except Error α}

theorem yields_ofExcept (r : Except Error α) : Yields P (ofExcept r) r := by
  intro seen hseen
  cases r with
  | ok a => exact ⟨rfl, hseen⟩
  | error e => exact ⟨rfl, hseen⟩

theorem yields_throw (e : Error) : Yields P (throw e : Entering α) (.error e) :=
  fun _ hseen => ⟨rfl, hseen⟩

theorem Yields.bind {f : α → Entering β} {g : α → Except Error β} (hx : Yields P x r)
    (hf : ∀ a, r = .ok a → Yields P (f a) (g a)) : Yields P (x >>= f) (r >>= g) := by
  intro seen hseen
  rw [ends_bind]
  refine (hx seen hseen).mono ?_ ?_
  · rintro a after ⟨rfl, hafter⟩
    exact hf a rfl after hafter
  · rintro e after ⟨rfl, hafter⟩
    exact ⟨rfl, hafter⟩

theorem Yields.into {x : Entering Unit} {r : Except Error Unit} (h : Yields P x r) (hn : P n)
    (offset : Nat) : Yields P (into n offset x) (r.mapError (Region.fromOutside offset)) := by
  intro seen hseen
  have hrun := h (n :: seen) (List.forall_mem_cons.2 ⟨hn, hseen⟩)
  rw [Ends] at hrun ⊢
  rw [Entering.into]
  cases hx : x (n :: seen) with
  | ok a after =>
    rw [hx] at hrun
    obtain ⟨rfl, hafter⟩ := hrun
    exact ⟨rfl, hafter⟩
  | error e after =>
    rw [hx] at hrun
    obtain ⟨rfl, hafter⟩ := hrun
    exact ⟨rfl, hafter⟩

theorem Yields.outcome {x : Entering Unit} {r : Except Error Unit} (h : Yields P x r) :
    x.outcome.1 = r ∧ ∀ m ∈ x.outcome.2, P m := by
  have hrun := h [] nofun
  rw [Ends] at hrun
  rw [Entering.outcome]
  cases hx : x [] with
  | ok a after =>
    rw [hx] at hrun
    exact ⟨hrun.1.symm, hrun.2⟩
  | error e after =>
    rw [hx] at hrun
    exact ⟨hrun.1.symm, hrun.2⟩

end Yields

theorem fromRegion_yields {P : Nested → Prop} (h : nestingDepth w n.bytes ≤ maxNesting →
      Yields P (validateRegion c w n Header.size (n.bytes.drop Header.size))
        (Region.checkEntries c w Header.size (n.bytes.drop Header.size))) :
    Yields P (fromRegion c w n) (do
      let _ ← Region.check c w n.bytes
      Region.checkRoom c n.bytes.length) := by
  rw [fromRegion, Region.check]
  simp only [bind_assoc]
  refine (yields_ofExcept _).bind fun g _ => ?_
  by_cases hdeep : maxNesting < nestingDepth w n.bytes
  · rw [if_pos hdeep, if_pos hdeep]
    exact yields_throw _
  · rw [if_neg hdeep, if_neg hdeep]
    simp only [bind_assoc, pure_bind]
    exact (h (Nat.not_lt.1 hdeep)).bind fun _ _ => yields_ofExcept _

/-- Where the nesting is not too deep, looking at it adds nothing. -/
theorem check_bind_of_le (hd : nestingDepth w region ≤ maxNesting) (c : ArenaConfig)
    (f : Except Error Unit) : (do let _ ← Region.check c w region; f) = (do
      let _ ← Region.header w region
      Region.checkEntries c w Header.size (region.drop Header.size)
      f) := by
  rw [Region.check]
  simp only [bind_assoc, if_neg (Nat.not_lt.2 hd), pure_bind]

end Entering

/-- Each level that is gone down takes one off the depth. -/
theorem nestingDepth_lt_of_mem (h : nestingDepth w region ≤ maxNesting) {e : Entry w}
    (he : e ∈ Entry.ofRegion w region) (ht : e.id.type = .fml) (hne : e.value ≠ []) :
    nestingDepth .wide e.value < nestingDepth w region :=
  nesting_succ_lt h ((nesting_succ_le_iff _ _ region).1 (Nat.le_refl _) e he ht hne)

namespace Nested

/-- A region nested in the outermost one, with no chain through it that is too long. -/
structure Admitted (w : Width) (region : Bytes) (m : Nested) : Prop where
  inside : m.Inside w region
  depth : m.level + nestingDepth .wide m.bytes ≤ maxNesting

theorem admitted_of_depth {v : Width} (hn : n.level + nestingDepth v n.bytes ≤ maxNesting)
    (hin : ∀ m ∈ n.inside v, m.Inside w region) : ∀ m ∈ n.inside v, m.Admitted w region := by
  rw [forall_mem_inside] at hin ⊢
  intro e he ht hne
  have hlt := nestingDepth_lt_of_mem (Nat.le_trans (Nat.le_add_left ..) hn) he ht hne
  refine ⟨hin e he ht hne, ?_⟩
  change n.level + 1 + nestingDepth .wide e.value ≤ maxNesting
  omega

theorem Admitted.level_le (h : n.Admitted w region) : n.level ≤ maxNesting :=
  Nat.le_trans (Nat.le_add_right ..) h.depth

theorem Admitted.of_mem_inside (h : n.Admitted w region) :
    ∀ m ∈ n.inside .wide, m.Admitted w region :=
  admitted_of_depth h.depth fun _ hm => .inner h.inside h.level_le hm

theorem admitted_of_mem_root (h : nestingDepth w region ≤ maxNesting) :
    ∀ m ∈ (root region).inside w, m.Admitted w region :=
  admitted_of_depth ((Nat.zero_add _).trans_le h) fun _ hm => .outer hm

end Nested

namespace Entering

open Item

theorem decodeValue_yields {v : Width} (x : Item v) (offset start level : Nat)
    (hadmitted : x.id.type = .fml → x.value ≠ [] →
      Nested.Admitted w region ⟨start, x.value, level⟩)
    (hinside : x.id.type = .fml → x.value ≠ [] → Yields (Nested.Admitted w region)
      (validateRegion c .wide ⟨start, x.value, level⟩ Header.size (x.value.drop Header.size))
      (Region.checkEntries c .wide Header.size (x.value.drop Header.size))) :
    Yields (Nested.Admitted w region) (decodeValue c x.id.type offset ⟨start, x.value, level⟩)
      (Region.checkValue c offset x) := by
  rw [decodeValue, Region.checkValue]
  split
  · rename_i hfml
    have hm := hadmitted hfml.1 hfml.2
    have hd : nestingDepth .wide x.value ≤ maxNesting :=
      Nat.le_trans (Nat.le_add_left ..) hm.depth
    refine Yields.into ?_ hm offset
    rw [← check_bind_of_le hd]
    exact fromRegion_yields fun _ => hinside hfml.1 hfml.2
  · exact yields_ofExcept _

/-- The check of the entries comes to what it comes to when no nesting is looked at, and goes into
admitted regions only. -/
theorem validateRegion_yields {v : Width} (c : ArenaConfig)
    (h : ∀ m ∈ (Entry.scan v offset bs).filterMap n.held, m.Admitted w region) :
    Yields (Nested.Admitted w region) (validateRegion c v n offset bs)
      (Region.checkEntries c v offset bs) := by
  -- The value of the entry in front and what follows it are both shorter than the whole.
  induction hlen : bs.length using Nat.strongRecOn generalizing v n offset bs with
  | ind len ih =>
    by_cases hne : bs = []
    · rw [hne, validateRegion_nil, Region.checkEntries_nil]
      exact yields_ofExcept (.ok ())
    by_cases hentry : ∃ (x : Item v) (rest : Bytes), bs = x.encode ++ rest ∧ x.Stated
    case neg =>
      obtain ⟨e, hrun, hcheck⟩ := validateRegion_of_malformed hne hentry
      rw [hrun, hcheck]
      exact yields_throw e
    obtain ⟨x, rest, rfl, hx⟩ := hentry
    have hoverhead : 0 < v.overhead := Nat.mul_pos (by decide) v.wordBytes_pos
    have hsize : x.size = v.overhead + x.value.length := rfl
    have hscan : Entry.scan v offset (x.encode ++ rest)
        = x.entry offset :: Entry.scan v (offset + x.size) rest :=
      Entry.scan_of_next?_eq_some (x.next?_encode hx offset rest)
    rw [List.length_append, length_encode] at hlen
    rw [hscan] at h
    have hvalue : x.id.type = .fml → x.value ≠ [] → Nested.Admitted w region
        ⟨n.start + (offset + v.overhead), x.value, n.level + 1⟩ := fun ht hne =>
      h _ (List.mem_filterMap.2 ⟨_, List.mem_cons_self .., if_pos ⟨ht, hne⟩⟩)
    have hrest : ∀ m ∈ (Entry.scan v (offset + x.size) rest).filterMap n.held,
        m.Admitted w region := by
      intro m hm
      obtain ⟨e, he, hheld⟩ := List.mem_filterMap.1 hm
      exact h m (List.mem_filterMap.2 ⟨e, List.mem_cons_of_mem _ he, hheld⟩)
    rw [validateRegion_encode hx, Region.checkEntries_encode c offset x hx]
    refine (decodeValue_yields x _ _ _ hvalue fun ht hne => ?_).bind fun _ _ => ?_
    · refine ih _ ?_ (hvalue ht hne).of_mem_inside rfl
      rw [List.length_drop]
      omega
    · exact ih rest.length (by omega) hrest rfl

end Entering

/-- The walk that looks at the nesting of a region beforehand bounds the check of it. On any bytes
it ends, after no more steps than there are bytes, with the depth; on a sound region that is the
length of the longest chain of nested buffers, or one more than is allowed if that is too long. And
of any bytes the check, which looks at the nesting anew in each region that it goes into, goes into
none that the walk has not seen, and so into none that is further down than is allowed. -/
theorem nestingWalk_bounds_entering (w : Width) (region : Bytes) :
    ∃ steps ≤ region.length,
      let k := NestingWalk.step^[steps] (.start w region)
      k.pending = [] ∧ k.deepest = nestingDepth w region ∧
      (Region.Sound w region → ∃ levels, Region.Chain w region levels ∧
        (∀ n, Region.Chain w region n → n ≤ levels) ∧
        k.deepest = if levels ≤ maxNesting then levels else maxNesting + 1) ∧
      ∀ c : ArenaConfig,
        let run := (Entering.fromRegion c w (.root region)).outcome
        (run.1 = do
          let _ ← Region.check c w region
          Region.checkRoom c region.length) ∧
        ∀ m ∈ run.2, m ∈ k.seen ∧ m.level ≤ maxNesting := by
  obtain ⟨steps, hle, hk, hdone⟩ := (NestingWalk.follows_start w region).exists_finished
  refine ⟨steps, ?_, hdone, hk.deepest_eq hdone, fun hs => ?_, fun c => ?_⟩
  · have htotal := Nested.total_inside_le w (.root region)
    rw [NestingWalk.start, Nested.total_reverse] at hle
    exact hle.trans (htotal.trans (Nat.sub_le ..))
  · rw [hk.deepest_eq hdone]
    exact hs.exists_deepest
  · have hrun : Entering.Yields (Nested.Admitted w region)
        (Entering.fromRegion c w (.root region)) _ :=
      Entering.fromRegion_yields fun hd =>
        Entering.validateRegion_yields c (Nested.admitted_of_mem_root hd)
    obtain ⟨houtcome, hentered⟩ := hrun.outcome
    refine ⟨houtcome, fun m hm => ?_⟩
    exact ⟨hk.mem_seen hdone (hentered m hm).inside, (hentered m hm).level_le⟩

theorem nestingWalk_of_one :
    let inner := (Header.empty .wide 16).encode
    let f : FieldId .wide := ⟨.fml, 1, by decide, by decide, by decide⟩
    let region := { Header.empty .wide 40 with used := 40 }.encode ++ (Item.mk f inner).encode
    ∃ steps ≤ 40,
      let k := NestingWalk.step^[steps] (.start .wide region)
      let run := (Entering.fromRegion ⟨64, 64⟩ .wide (.root region)).outcome
      k.pending = [] ∧ k.deepest = 1 ∧ Region.Chain .wide region 1 ∧
        run.2 = [⟨24, inner, 1⟩] ∧ ⟨24, inner, 1⟩ ∈ k.seen := by
  intro inner f region
  have hdepth : nestingDepth .wide region = 1 := by decide +kernel
  have hentered : (Entering.fromRegion ⟨64, 64⟩ .wide (.root region)).outcome.2
      = [⟨24, inner, 1⟩] := by decide +kernel
  obtain ⟨h, hcheck⟩ : ∃ h, Region.check ⟨64, 64⟩ .wide region = .ok h := by
    have hsome : (Region.check ⟨64, 64⟩ .wide region).toOption.isSome = true := by decide +kernel
    obtain ⟨h, hh⟩ := Option.isSome_iff_exists.1 hsome
    exact ⟨h, toOption_eq_some_iff.1 hh⟩
  obtain ⟨steps, hle, hdone, hdeepest, hsound, hrun⟩ := nestingWalk_bounds_entering .wide region
  obtain ⟨levels, hchain, -, hlevels⟩ := hsound (Region.of_check_eq_ok hcheck).2.1
  have hone : levels = 1 := by
    rw [hdeepest, hdepth] at hlevels
    split at hlevels
    · exact hlevels.symm
    · cases hlevels
  have hseen := (hrun ⟨64, 64⟩).2 _ (by rw [hentered]; exact List.mem_singleton.2 rfl)
  exact ⟨steps, hle, hdone, hdeepest.trans hdepth, hone ▸ hchain, hentered, hseen.1⟩

end FieldBuffers
