import FieldBuffers.Proofs.Deriving
import FieldBuffers.Proofs.Layers

/-! How deep a parse and an evaluation go. A parse that keeps the nesting in a counter, which is
raised around what stands in parentheses or after a sign, reads what the bounded readers read, and
it needs no more levels than these (`follows_parse`). Counter, calls and trees stay within the
limit whatever the text is (`depth_bounded`). -/

namespace FieldBuffers.Expr

variable {w : Width} {α β : Type}

/-- A call of a level that has returned: the nesting when it started and when it returned, and how
many such calls were active, itself among them. -/
structure Call where
  before : Nat
  after : Nat
  active : Nat

/-- What a parse keeps besides its tokens, and what has been so far: the nesting at every time, the
calls, and the trees with the depths that came with them. -/
structure Tally (w : Width) where
  nesting : Nat := 0
  active : Nat := 0
  nestings : List Nat := [0]
  calls : List Call := []
  trees : List (Sized w) := []

abbrev Counted (w : Width) (α : Type) := ExceptT Fault (StateM (Tally w)) α

abbrev Counting (w : Width) := List Lexeme → Counted w (Sized w × List Lexeme)

namespace Counting

def lifted (x : Except Fault α) : Counted w α := ExceptT.mk fun t => (x, t)

def built (x : Except Fault (Sized w × List Lexeme)) : Counted w (Sized w × List Lexeme) :=
  ExceptT.mk fun t =>
    match x with
    | .ok (s, rest) => (.ok (s, rest), { t with trees := s :: t.trees })
    | .error fault => (.error fault, t)

/-- A level as a call that is noted when it returns, normally or with an error. -/
def called (R : Counting w) : Counting w := fun ts => ExceptT.mk fun t =>
  let (given, u) := (R ts).run.run { t with active := t.active + 1 }
  (given, { u with active := u.active - 1, calls := ⟨t.nesting, u.nesting, t.active + 1⟩ :: u.calls })

variable (cx : Context w)

/-- A level one step down, if there is one. -/
def nested (R : Counting w) : Counting w := fun ts => ExceptT.mk fun t =>
  if maxDepth ≤ t.nesting then (cx.fail ts .tooDeep, t)
  else
    let (given, u) := (R ts).run.run
      { t with nesting := t.nesting + 1, nestings := (t.nesting + 1) :: t.nestings }
    (given, { u with nesting := u.nesting - 1, nestings := (u.nesting - 1) :: u.nestings })

def chainFrom (level : Nat) (operand : Counting w) : Nat → Sized w → Counting w
  | 0, l, ts => return (l, ts)
  | fuel + 1, l, ts =>
    match ts with
    | ⟨.operator o, _⟩ :: rest =>
      if o.level = level then do
        let (r, rest) ← operand rest
        let (e, rest) ← built (cx.binary o l r rest)
        chainFrom level operand fuel e rest
      else return (l, ts)
    | _ => return (l, ts)

def chain (level : Nat) (operand : Counting w) : Counting w := called fun ts => do
  let (l, rest) ← operand ts
  chainFrom cx level operand rest.length l rest

def comparison (operand : Counting w) : Counting w := called fun ts => do
  let (l, rest) ← operand ts
  match rest with
  | ⟨.operator (.relation r), _⟩ :: rest => do
    let (e, rest) ← operand rest
    built (cx.binary (.relation r) l e rest)
  | ⟨.like negated, _⟩ :: rest => built (cx.like negated l rest)
  | _ => return (l, rest)

def signed (deeper : Counting w) (s : Sign) : Counting w := fun ts => do
  let (e, rest) ← deeper ts
  built (cx.sized (.signed s e.expr) (e.depth + 1) rest)

def unaryOver (deeper inner : Counting w) : Counting w := called fun ts =>
  match ts with
  | ⟨.bang, _⟩ :: rest => signed cx deeper .not rest
  | ⟨.operator (.arithmetic .sub), _⟩ :: rest => signed cx deeper .minus rest
  | ⟨.operator (.arithmetic .add), _⟩ :: rest => signed cx deeper .plus rest
  | ⟨.number word, _⟩ :: rest => built (.ok (⟨.number word, 1⟩, rest))
  | ⟨.text s, _⟩ :: rest => built (.ok (⟨.text s, 1⟩, rest))
  | ⟨.openParen, _⟩ :: rest => do
    let (e, rest) ← inner rest
    return (e, ← lifted (cx.close .closeParen ")" rest))
  | ⟨.name s, _⟩ :: rest => built (cx.field s rest)
  | _ => lifted (cx.fail ts .noOperand)

def levels (operand : Counting w) : Counting w :=
  chain cx 0 (chain cx 1 (chain cx 2 (comparison cx (chain cx 4 (chain cx 5 operand)))))

/-- An operand, with room for so many levels; `beyond` stands for the levels after them. -/
def unary (beyond : Counting w) : Nat → Counting w
  | 0 => beyond
  | room + 1 => unaryOver cx (nested cx (unary beyond room)) (nested cx (levels cx (unary beyond room)))

def parse (beyond : Counting w) (room : Nat) (ts : List Lexeme) : Counted w (Expr w) := do
  let (e, rest) ← levels cx (unary cx beyond room) ts
  match rest with
  | [] => return e.expr
  | _ => lifted (cx.fail rest .trailing)

def ofText (known : String → Option (FieldId w)) (beyond : Counting w) (room : Nat)
    (text : String) : Counted w (Expr w) := do
  parse ⟨byteLength text.toList, known⟩ beyond room (← lifted (Lexeme.scan text.toList))

end Counting

/-- So many calls of levels are active at one nesting. -/
def levelsPerNesting : Nat := 7

structure Tally.Within (t : Tally w) : Prop where
  nestings : ∀ n ∈ t.nestings, n ≤ maxDepth
  calls : ∀ call ∈ t.calls, call.after = call.before ∧
    call.active ≤ levelsPerNesting * (maxDepth + 1)
  trees : ∀ s ∈ t.trees, s.depth = s.expr.height

/-- At some nesting and with some calls active, a counted computation gives what another gives, and
leaves nesting and active calls as they were, whatever it gives. -/
def Follows (n k : Nat) (x : Counted w α) (y : Except Fault α) : Prop :=
  ∀ t, t.nesting = n → t.active = k → t.Within →
    ∃ u, x.run.run t = (y, u) ∧ u.nesting = n ∧ u.active = k ∧ u.Within

namespace Counting

open Context (sound_of_sized sound_of_binary sound_of_like sound_chain sound_comparison sound_levels
  sound_unary sound_tooDeep sound_field)

variable {cx : Context w} {n k level room : Nat} {C D I : Counting w}
  {operand deeper inner R : Reader w} {x : Counted w α} {y : Except Fault α} {l : Sized w}
  {ts rest : List Lexeme}

theorem follows_lifted (y : Except Fault α) : Follows n k (lifted y : Counted w α) y :=
  fun t hn hk ht => ⟨t, rfl, hn, hk, ht⟩

theorem follows_pure (a : α) : Follows n k (pure a : Counted w α) (.ok a) := follows_lifted (.ok a)

theorem follows_built {y : Except Fault (Sized w × List Lexeme)}
    (h : ∀ s rest, y = .ok (s, rest) → s.depth = s.expr.height) : Follows n k (built y) y := by
  intro t hn hk ht
  match y with
  | .error fault => exact ⟨t, rfl, hn, hk, ht⟩
  | .ok (s, rest) =>
    exact ⟨_, rfl, hn, hk, ht.nestings, ht.calls, List.forall_mem_cons.2 ⟨h s rest rfl, ht.trees⟩⟩

theorem follows_bind {f : α → Counted w β} {g : α → Except Fault β} (hx : Follows n k x y)
    (hf : ∀ a, y = .ok a → Follows n k (f a) (g a)) : Follows n k (x >>= f) (y >>= g) := by
  intro t hn hk ht
  obtain ⟨u, hu, hn', hk', ht'⟩ := hx t hn hk ht
  rw [ExceptT.run_bind, StateT.run_bind, hu]
  cases y with
  | error fault => exact ⟨u, rfl, hn', hk', ht'⟩
  | ok a => exact hf a rfl u hn' hk' ht'

theorem run_called (R : Counting w) (ts : List Lexeme) (t : Tally w) : (called R ts).run.run t =
    let (given, u) := (R ts).run.run { t with active := t.active + 1 }
    (given, { u with
      active := u.active - 1, calls := ⟨t.nesting, u.nesting, t.active + 1⟩ :: u.calls }) :=
  rfl

theorem run_nested (cx : Context w) (R : Counting w) (ts : List Lexeme) {t : Tally w}
    (h : t.nesting < maxDepth) : (nested cx R ts).run.run t =
      let (given, u) := (R ts).run.run
        { t with nesting := t.nesting + 1, nestings := (t.nesting + 1) :: t.nestings }
      (given, { u with
        nesting := u.nesting - 1, nestings := (u.nesting - 1) :: u.nestings }) :=
  if_neg (Nat.not_le_of_lt h)

theorem follows_called (hk : k < levelsPerNesting * (maxDepth + 1))
    (h : Follows n (k + 1) (C ts) (R ts)) : Follows n k (called C ts) (R ts) := by
  intro t hn ha ht
  obtain ⟨u, hu, hn', ha', ht'⟩ := h { t with active := t.active + 1 } hn (congrArg (· + 1) ha)
    ⟨ht.nestings, ht.calls, ht.trees⟩
  have hcall : u.nesting = t.nesting ∧ t.active + 1 ≤ levelsPerNesting * (maxDepth + 1) :=
    ⟨hn'.trans hn.symm, ha ▸ hk⟩
  have hrun : (called C ts).run.run t = (R ts, { u with
      active := u.active - 1, calls := ⟨t.nesting, u.nesting, t.active + 1⟩ :: u.calls }) := by
    rw [run_called, hu]
  exact ⟨_, hrun, hn', by simp [ha'], ht'.nestings, List.forall_mem_cons.2 ⟨hcall, ht'.calls⟩,
    ht'.trees⟩

theorem follows_nested (hn : n < maxDepth) (h : Follows (n + 1) k (C ts) (R ts)) :
    Follows n k (nested cx C ts) (R ts) := by
  intro t ht hk hw
  have hraised : ∀ m ∈ (t.nesting + 1) :: t.nestings, m ≤ maxDepth :=
    List.forall_mem_cons.2 ⟨ht.symm ▸ hn, hw.nestings⟩
  obtain ⟨u, hu, hn', ha', hw'⟩ := h
    { t with nesting := t.nesting + 1, nestings := (t.nesting + 1) :: t.nestings }
    (congrArg (· + 1) ht) hk ⟨hraised, hw.calls, hw.trees⟩
  have hback : u.nesting - 1 = n := by rw [hn']; rfl
  have hrun : (nested cx C ts).run.run t = (R ts, { u with
      nesting := u.nesting - 1, nestings := (u.nesting - 1) :: u.nestings }) := by
    rw [run_nested cx C ts (ht.symm ▸ hn), hu]
  exact ⟨_, hrun, hback, ha', List.forall_mem_cons.2 ⟨hback ▸ Nat.le_of_lt hn, hw'.nestings⟩,
    hw'.calls, hw'.trees⟩

theorem follows_nested_tooDeep (hn : maxDepth ≤ n) :
    Follows n k (nested cx C ts) (cx.tooDeep ts) := by
  intro t ht hk hw
  have hrun : (nested cx C ts).run.run t = (cx.fail ts .tooDeep, t) := if_pos (ht.symm ▸ hn)
  exact ⟨t, hrun, ht, hk, hw⟩

/-! Readers. -/

def FollowsAt (n k : Nat) (C : Counting w) (R : Reader w) : Prop :=
  ∀ ts, Scanned ts → Follows n k (C ts) (R ts)

theorem follows_chainFrom (hop : FollowsAt n k C operand) (hsound : cx.Sound operand)
    (hl : l.Sound cx.known) (fuel : Nat) (hts : Scanned ts) :
    Follows n k (chainFrom cx level C fuel l ts) (cx.chainFrom level operand fuel l ts) := by
  induction fuel generalizing l ts with
  | zero => exact follows_pure _
  | succ fuel ih =>
    match ts, hts with
    | [], _ => exact follows_pure _
    | ⟨t, position⟩ :: rest, hts =>
      cases t with
      | operator o =>
        by_cases ho : o.level = level
        · simp only [chainFrom, Context.chainFrom, if_pos ho]
          apply follows_bind (hop rest (List.forall_mem_cons.1 hts).2)
          rintro ⟨r, rest'⟩ hr
          obtain ⟨hr, hrest'⟩ := hsound (List.forall_mem_cons.1 hts).2 hr
          apply follows_bind (follows_built fun s more hs =>
            (sound_of_binary hl hr hrest' hs).1.depth_eq)
          rintro ⟨e, more⟩ he
          obtain ⟨he, hmore⟩ := sound_of_binary hl hr hrest' he
          exact ih he hmore
        · simp only [chainFrom, Context.chainFrom, if_neg ho]
          exact follows_pure _
      | _ => exact follows_pure _

theorem follows_chain (hk : k < levelsPerNesting * (maxDepth + 1))
    (hop : FollowsAt n (k + 1) C operand) (hsound : cx.Sound operand) :
    FollowsAt n k (chain cx level C) (cx.chain level operand) := by
  intro ts hts
  apply follows_called hk
  apply follows_bind (hop ts hts)
  rintro ⟨l, rest⟩ hl
  obtain ⟨hl, hrest⟩ := hsound hts hl
  exact follows_chainFrom hop hsound hl _ hrest

theorem follows_comparison (hk : k < levelsPerNesting * (maxDepth + 1))
    (hop : FollowsAt n (k + 1) C operand) (hsound : cx.Sound operand) :
    FollowsAt n k (comparison cx C) (cx.comparison operand) := by
  intro ts hts
  apply follows_called hk
  apply follows_bind (hop ts hts)
  rintro ⟨l, rest⟩ hread
  obtain ⟨hl, hrest⟩ := hsound hts hread
  clear hread
  match rest, hrest with
  | [], _ => exact follows_pure _
  | ⟨t, position⟩ :: rest, hrest =>
    obtain ⟨-, hmore⟩ := List.forall_mem_cons.1 hrest
    cases t with
    | operator o =>
      cases o with
      | relation o =>
        apply follows_bind (hop rest hmore)
        rintro ⟨r, rest'⟩ hr
        obtain ⟨hr, hrest'⟩ := hsound hmore hr
        exact follows_built fun s more hs => (sound_of_binary hl hr hrest' hs).1.depth_eq
      | _ => exact follows_pure _
    | like negated => exact follows_built fun s more hs => (sound_of_like hl hmore hs).1.depth_eq
    | _ => exact follows_pure _

/-- The levels of operators are calls around one another, and around that of the operand. -/
theorem follows_levels (hk : k + 6 ≤ levelsPerNesting * (maxDepth + 1))
    (hop : FollowsAt n (k + 6) C operand) (hsound : cx.Sound operand) :
    FollowsAt n k (levels cx C) (cx.levels operand) := by
  have hs4 : cx.Sound (cx.chain 4 (cx.chain 5 operand)) := sound_chain (sound_chain hsound)
  have hs2 : cx.Sound (cx.chain 2 (cx.comparison (cx.chain 4 (cx.chain 5 operand)))) :=
    sound_chain (sound_comparison hs4)
  have h4 : FollowsAt n (k + 4) (chain cx 4 (chain cx 5 C)) (cx.chain 4 (cx.chain 5 operand)) :=
    follows_chain (by omega) (follows_chain (by omega) hop hsound) (sound_chain hsound)
  have h2 : FollowsAt n (k + 2) (chain cx 2 (comparison cx (chain cx 4 (chain cx 5 C))))
      (cx.chain 2 (cx.comparison (cx.chain 4 (cx.chain 5 operand)))) :=
    follows_chain (by omega) (follows_comparison (by omega) h4 hs4) (sound_comparison hs4)
  exact follows_chain (by omega) (follows_chain (by omega) h2 hs2) (sound_chain hs2)

theorem follows_signed (hdeeper : FollowsAt n k D deeper) (hsound : cx.Sound deeper) (s : Sign) :
    FollowsAt n k (signed cx D s) (Context.unaryOver.signed cx deeper s) := by
  intro ts hts
  apply follows_bind (hdeeper ts hts)
  rintro ⟨e, rest⟩ he
  obtain ⟨he, hrest⟩ := hsound hts he
  have hwritten : (Expr.signed s e.expr).Written cx.known := he.written
  apply follows_built
  intro s' more hs
  exact (sound_of_sized hwritten (by rw [he.depth_eq]; rfl) hrest hs).1.depth_eq

theorem follows_unaryOver (hk : k < levelsPerNesting * (maxDepth + 1))
    (hdeeper : FollowsAt n (k + 1) D deeper) (hinner : FollowsAt n (k + 1) I inner)
    (hds : cx.Sound deeper) :
    FollowsAt n k (unaryOver cx D I) (cx.unaryOver deeper inner) := by
  intro ts hts
  apply follows_called hk
  match ts, hts with
  | [], _ => exact follows_lifted _
  | ⟨t, position⟩ :: rest, hts =>
    obtain ⟨ht, hrest⟩ := List.forall_mem_cons.1 hts
    cases t with
    | bang => exact follows_signed hdeeper hds .not rest hrest
    | number word =>
      apply follows_built
      intro s more hs
      obtain ⟨rfl, -⟩ := Prod.mk.inj (Except.ok.inj hs)
      rfl
    | text s =>
      apply follows_built
      intro s more hs
      obtain ⟨rfl, -⟩ := Prod.mk.inj (Except.ok.inj hs)
      rfl
    | name s => exact follows_built fun s' more hs => (sound_field ht hrest hs).1.depth_eq
    | openParen =>
      apply follows_bind (hinner rest hrest)
      rintro ⟨e, more⟩ he
      apply follows_bind (follows_lifted _)
      exact fun more' _ => follows_pure _
    | operator o =>
      rcases o with o | o | (_ | _ | _ | _ | _)
      · exact follows_lifted _
      · exact follows_lifted _
      · exact follows_signed hdeeper hds .plus rest hrest
      · exact follows_signed hdeeper hds .minus rest hrest
      · exact follows_lifted _
      · exact follows_lifted _
      · exact follows_lifted _
    | _ => exact follows_lifted _

/-- There is no call beyond the room, if there is more than the nesting needs. -/
theorem follows_unary (beyond : Counting w) {m : Nat} (hm : n + m = maxDepth) (hroom : m < room)
    (hk : k ≤ levelsPerNesting * n + 6) :
    FollowsAt n k (unary cx beyond room) (cx.unary m) := by
  induction m generalizing n room k with
  | zero =>
    obtain ⟨room, rfl⟩ := Nat.exists_eq_succ_of_ne_zero (Nat.ne_of_gt hroom)
    have hdeep (R : Counting w) : FollowsAt n (k + 1) (nested cx R) cx.tooDeep :=
      fun ts _ => follows_nested_tooDeep (Nat.le_of_eq hm.symm)
    exact follows_unaryOver (by rw [levelsPerNesting] at *; omega) (hdeep _) (hdeep _) sound_tooDeep
  | succ m ih =>
    obtain ⟨room, rfl⟩ := Nat.exists_eq_succ_of_ne_zero (Nat.ne_of_gt (Nat.zero_lt_of_lt hroom))
    rw [levelsPerNesting] at hk
    have hn : n < maxDepth := by omega
    have hdeeper : FollowsAt n (k + 1) (nested cx (unary cx beyond room)) (cx.unary m) :=
      fun ts hts => follows_nested hn
        (ih (by omega) (by omega) (by rw [levelsPerNesting]; omega) ts hts)
    have hinner : FollowsAt n (k + 1) (nested cx (levels cx (unary cx beyond room)))
        (cx.levels (cx.unary m)) :=
      fun ts hts => follows_nested hn (follows_levels (by rw [levelsPerNesting]; omega)
        (ih (by omega) (by omega) (by rw [levelsPerNesting]; omega)) (sound_unary m) ts hts)
    exact follows_unaryOver (by rw [levelsPerNesting]; omega) hdeeper hinner (sound_unary m)

theorem follows_parse (beyond : Counting w) (hroom : maxDepth < room) (hts : Scanned ts) :
    Follows 0 0 (parse cx beyond room ts) (cx.parse ts) := by
  have hoperand : FollowsAt 0 6 (unary cx beyond room) (cx.unary maxDepth) :=
    follows_unary beyond (Nat.zero_add _) hroom (Nat.le_refl _)
  apply follows_bind (follows_levels (by decide) hoperand (sound_unary maxDepth) ts hts)
  rintro ⟨e, rest⟩ -
  match rest with
  | [] => exact follows_pure _
  | _ :: _ => exact follows_lifted _

theorem follows_ofText (known : String → Option (FieldId w)) (beyond : Counting w)
    (hroom : maxDepth < room) (text : String) :
    Follows 0 0 (ofText known beyond room text) (Expr.ofText known text) := by
  apply follows_bind (follows_lifted _)
  intro ts hts
  exact follows_parse beyond hroom (Lexeme.written_of_scanFrom hts)

end Counting

theorem within_start : ({} : Tally w).Within := by
  refine ⟨?_, nofun, nofun⟩
  intro n hn
  obtain rfl := List.mem_singleton.1 hn
  exact Nat.zero_le _

/-- Whatever a text is, a parse of it keeps the nesting within the limit, and each level leaves the
nesting as it found it, also where it fails. Trees come with their heights, and those that are
compiled are no higher than the limit, so parsing and evaluation need no more nested calls. -/
theorem depth_bounded (files : Files) (source : String) :
    (∀ (known : String → Option (FieldId w)) (beyond : Counting w) (room : Nat), 128 < room →
      ∃ t : Tally w,
        (Counting.ofText known beyond room source).run.run {} = (ofText known source, t) ∧
        t.nesting = 0 ∧ (∀ n ∈ t.nestings, n ≤ 128) ∧
        (∀ call ∈ t.calls, call.after = call.before ∧ call.active ≤ 7 * 129) ∧
        ∀ s ∈ t.trees, s.depth = s.expr.height) ∧
      ∀ (c c' : Catalog w) (e : Compiled w), compile files source c = .ok e c' →
        e.root.height ≤ 128 ∧ ∀ config b stop,
          within config b stop 128 e.root = answer config b e.root := by
  refine ⟨fun known beyond room hroom => ?_, fun c c' e he => ?_⟩
  · obtain ⟨t, hrun, hnesting, -, hw⟩ :=
      Counting.follows_ofText known beyond hroom source {} rfl rfl within_start
    exact ⟨t, hrun, hnesting, hw.nestings, hw.calls, hw.trees⟩
  · obtain ⟨-, hroot⟩ := exists_compile_iff.1 ⟨c', he⟩
    obtain ⟨ts, hts, hparse⟩ := ok_bind_iff.1 hroot
    obtain ⟨-, hheight⟩ := Context.written_of_parse (Lexeme.written_of_scanFrom hts) hparse
    exact ⟨hheight, fun config b stop => within_eq config b stop hheight⟩

theorem depth_of_sign :
    let beyond : Counting .wide := fun _ => Counting.lifted (.error (.unknownName ""))
    let root : Expr .wide := .signed .not (.number 0x3ff0000000000000)
    (∃ t : Tally .wide, (Counting.ofText (fun _ => none) beyond 129 "!(1)").run.run {}
        = (.ok root, t) ∧ t.nesting = 0 ∧ ∀ n ∈ t.nestings, n ≤ 128) ∧
      root.height ≤ 128 := by
  intro beyond root
  have hread : ofText (fun _ => none) "!(1)" = .ok root := by decide +kernel
  obtain ⟨hparse, hcompile⟩ := depth_bounded (w := .wide) (fun _ => .error "") "!(1)"
  obtain ⟨t, ht, hnesting, hnestings, -⟩ := hparse (fun _ => none) beyond 129 (by decide)
  refine ⟨⟨t, hread ▸ ht, hnesting, hnestings⟩, ?_⟩
  have hcompiled : compile (fun _ => .error "") "!(1)" ({} : Catalog .wide)
      = .ok ⟨"!(1)", root⟩ {} := compile_of_ofText hread
  exact (hcompile {} {} _ hcompiled).1

end FieldBuffers.Expr
