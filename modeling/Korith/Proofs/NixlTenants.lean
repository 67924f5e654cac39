import Korith.Proofs.BlockStore

/-!
# Whose blocks a restore returns

A snapshot is the concatenation of all blocks that were buffered under one prefix, which is made of the worker and the
token hash, and it is served by the metadata of the first of them. Beside the state we keep, for every file, the
blocks it was written from.
-/

set_option linter.unusedSectionVars false

namespace Korith.Nixl

open Machine

variable {P D V : Type} [DecidableEq P] [DecidableEq D] [DecidableEq V] {env : Env P D} {s s' : State P D V}
  {b : Text} {m req : Metadata V} {p : P} {buf : BlockBuffer P V} {entry : SnapshotEntry P D V} {key : String}
  {request stored : Option V} {incomingBytes : Nat}

abbrev Block (V : Type) : Type := Text × Bytes × Metadata V

def joined (blocks : List (Block V)) : Bytes := blocks.flatMap fun blk => blk.2.1

/-- The blocks of which a file was written last. -/
abbrev Origins (P D V : Type) : Type := D × P → List (Block V)

def written (env : Env P D) (buf : BlockBuffer P V) (o : Origins P D V) : Origins P D V :=
  if admitted env buf then Function.update o (snapshotEntry env buf).snapshotPath buf.blocks else o

def record (env : Env P D) (s : State P D V) (o : Origins P D V) : Op P V → Origins P D V
  | .put b data m nowMs =>
    if Due env nowMs (buffered env b data m nowMs s) then written env (buffered env b data m nowMs s) o else o
  | .get _ _ => o
  | .delete _ => o
  | .flush p =>
    match s.buffers.find p with
    | none => o
    | some buf => if buf.blocks = [] then o else written env buf o

def stepFrom (env : Env P D) (x : State P D V × Origins P D V) (op : Op P V) : Answer × State P D V × Origins P D V :=
  ((step env x.1 op).1, (step env x.1 op).2, record env x.1 x.2 op)

def start : State P D V × Origins P D V := (State.empty, fun _ => [])

/-! ### The property and the condition -/

/-- The request names a tenant and the five fields that are checked. -/
structure Names (req : Metadata V) : Prop where
  tenantId : textOr req.tenantId [] ≠ []
  modelHash : req.modelHash.isSome = true
  kvVersion : req.kvVersion.isSome = true
  ropeBaseBits : req.ropeBaseBits.isSome = true
  ropeScaleBits : req.ropeScaleBits.isSome = true
  samplingHash : req.samplingHash.isSome = true

structure SameContext (m req : Metadata V) : Prop where
  tenantId : textOr m.tenantId "default".toList = textOr req.tenantId "default".toList
  modelId : textOr m.modelId [] = textOr req.modelId []
  modelHash : m.modelHash = req.modelHash
  kvVersion : m.kvVersion = req.kvVersion
  ropeBaseBits : m.ropeBaseBits = req.ropeBaseBits
  ropeScaleBits : m.ropeScaleBits = req.ropeScaleBits
  samplingHash : m.samplingHash = req.samplingHash

/-- What the five checks ask of a block: three of the fields may be missing. -/
structure Passes (m req : Metadata V) : Prop where
  modelHash : m.modelHash = req.modelHash
  kvVersion : m.kvVersion = req.kvVersion
  ropeBaseBits : m.ropeBaseBits = none ∨ m.ropeBaseBits = req.ropeBaseBits
  ropeScaleBits : m.ropeScaleBits = none ∨ m.ropeScaleBits = req.ropeScaleBits
  samplingHash : m.samplingHash = none ∨ m.samplingHash = req.samplingHash

def sources (x : State P D V × Origins P D V) (b : Text) : List (Block V) :=
  ((x.1.blockToPrefix.find b).bind fun r => x.1.entries.find r.2).elim [] fun e => x.2 e.snapshotPath

/-- Data is returned only if it consists of blocks that were put in the context of the request. -/
def Isolated (x : State P D V × Origins P D V) (b : Text) (req : Metadata V) : Prop :=
  Names req → ∀ data ∈ (get b req x.1).1,
    data = joined (sources x b) ∧ ∀ blk ∈ sources x b, SameContext blk.2.2 req

/-- The request has the tenant and the model of the block, which has a value for every field that is checked. -/
structure Owner (m req : Metadata V) : Prop where
  tenantId : textOr m.tenantId "default".toList = textOr req.tenantId "default".toList
  modelId : textOr m.modelId [] = textOr req.modelId []
  ropeBaseBits : m.ropeBaseBits.isSome = true
  ropeScaleBits : m.ropeScaleBits.isSome = true
  samplingHash : m.samplingHash.isSome = true

/-- Blocks that can share a buffer with one that passes the checks of the request are of its tenant, model and context,
and the request is its owner's. -/
def Separate (env : Env P D) (puts : Set (Text × Metadata V)) (req : Metadata V) : Prop :=
  Names req → ∀ x ∈ puts, Passes x.2 req → Owner x.2 req ∧
    ∀ y ∈ puts, prefixForBlock env y.1 y.2 = prefixForBlock env x.1 x.2 → SameContext y.2 x.2

/-- The history puts blocks of the set only. -/
def Over (puts : Set (Text × Metadata V)) (ops : List (Op P V)) : Prop :=
  ∀ op ∈ ops, ∀ b data m nowMs, op = .put b data m nowMs → (b, m) ∈ puts

theorem SameContext.trans {m₁ m₂ m₃ : Metadata V} (h : SameContext m₁ m₂) (h' : SameContext m₂ m₃) :
    SameContext m₁ m₃ :=
  ⟨h.1.trans h'.1, h.2.trans h'.2, h.3.trans h'.3, h.4.trans h'.4, h.5.trans h'.5, h.6.trans h'.6, h.7.trans h'.7⟩

theorem SameContext.symm (h : SameContext m req) : SameContext req m :=
  ⟨h.1.symm, h.2.symm, h.3.symm, h.4.symm, h.5.symm, h.6.symm, h.7.symm⟩

theorem Owner.sameContext (h : Owner m req) (hpass : Passes m req) : SameContext m req := by
  have hpresent : ∀ {x y : Option V}, x.isSome = true → x = none ∨ x = y → x = y := fun hx hor =>
    hor.resolve_left (Option.isSome_iff_ne_none.1 hx)
  exact ⟨h.tenantId, h.modelId, hpass.modelHash, hpass.kvVersion, hpresent h.ropeBaseBits hpass.ropeBaseBits,
    hpresent h.ropeScaleBits hpass.ropeScaleBits, hpresent h.samplingHash hpass.samplingHash⟩

theorem SameContext.owner (h : SameContext m req) (hnames : Names req) : Owner m req :=
  ⟨h.tenantId, h.modelId, h.ropeBaseBits ▸ hnames.ropeBaseBits, h.ropeScaleBits ▸ hnames.ropeScaleBits,
    h.samplingHash ▸ hnames.samplingHash⟩

/-! ### Validation -/

theorem checkField_required_iff : checkField key true stored request = none ↔ stored = request := by
  unfold checkField
  split_ifs with hnone hs hr hne
  · exact iff_of_true rfl (hnone.1.trans hnone.2.symm)
  · cases hs.2
  · cases hr.2
  · exact iff_of_false (fun h => (by cases h)) hne
  · exact iff_of_true rfl (not_not.1 hne)

theorem checkField_optional_iff (h : request.isSome = true) :
    checkField key false stored request = none ↔ stored = none ∨ stored = request := by
  obtain ⟨v, rfl⟩ := Option.isSome_iff_exists.1 h
  cases stored with
  | none => simp [checkField]
  | some v' => simp [checkField]

theorem validate_eq_none_iff (h : Names req) : validate m req = none ↔ Passes m req := by
  rw [validate, Option.or_eq_none_iff, Option.or_eq_none_iff, Option.or_eq_none_iff, Option.or_eq_none_iff,
    checkField_required_iff, checkField_required_iff, checkField_optional_iff h.ropeBaseBits,
    checkField_optional_iff h.ropeScaleBits, checkField_optional_iff h.samplingHash]
  constructor
  · rintro ⟨h₁, h₂, h₃, h₄, h₅⟩
    exact ⟨h₁, h₂, h₃, h₄, h₅⟩
  · rintro ⟨h₁, h₂, h₃, h₄, h₅⟩
    exact ⟨h₁, h₂, h₃, h₄, h₅⟩

/-! ### Where everything comes from -/

variable {puts : Set (Text × Metadata V)}

def From (env : Env P D) (puts : Set (Text × Metadata V)) (p : P) (blocks : List (Block V)) : Prop :=
  ∀ blk ∈ blocks, (blk.1, blk.2.2) ∈ puts ∧ prefixForBlock env blk.1 blk.2.2 = p

structure Led (env : Env P D) (puts : Set (Text × Metadata V)) (buf : BlockBuffer P V) : Prop where
  first : ∃ first ∈ buf.blocks.head?, first.2.2 = buf.metadata
  blocks : From env puts buf.prefixId buf.blocks

structure Sourced (env : Env P D) (puts : Set (Text × Metadata V)) (x : State P D V × Origins P D V) : Prop where
  named : Named x.1
  buffers : ∀ p, ∀ buf ∈ x.1.buffers.find p, Led env puts buf
  files : ∀ path, ∀ data ∈ x.1.disk path, data = joined (x.2 path)
  entries : ∀ p, ∀ e ∈ x.1.entries.find p, From env puts p (x.2 e.snapshotPath) ∧
    ∃ first ∈ (x.2 e.snapshotPath).head?, ∀ req, validate e.metadata req = validate first.2.2 req

theorem sourced_start : Sourced env puts (start : State P D V × Origins P D V) := by
  refine ⟨?_, ?_, ?_, ?_⟩
  · intro p e he
    cases he
  · intro p buf hbuf
    cases hbuf
  · intro path data hdata
    cases hdata
  · intro p e he
    cases he

theorem maybeEvict_inv {I : State P D V → Prop} (hI : ∀ e s, I s → I (evict e s)) (h : I s) :
    I (maybeEvict env incomingBytes s) := by
  have hloop : ∀ sorted s, I s → I (evictLoop env incomingBytes sorted s) := by
    intro sorted
    induction sorted with
    | nil => exact fun _ h => h
    | cons e rest ih =>
      intro s h
      rw [evictLoop]
      split_ifs
      · exact h
      · exact ih s h
      · exact ih _ (hI e s h)
  unfold maybeEvict
  split_ifs
  · exact h
  · exact hloop _ s h

theorem buffers_maybeEvict : (maybeEvict env incomingBytes s).buffers = s.buffers :=
  maybeEvict_inv (I := fun s' => s'.buffers = s.buffers) (fun _ _ h => h) rfl

variable {o : Origins P D V}

theorem files_remove {disk : D × P → Option Bytes} (gone : D × P)
    (h : ∀ path, ∀ data ∈ disk path, data = joined (o path)) :
    ∀ path, ∀ data ∈ Function.update disk gone none path, data = joined (o path) := by
  intro path data hdata
  by_cases hpath : path = gone
  · rw [hpath, Function.update_self] at hdata
    cases hdata
  · rw [Function.update_of_ne hpath] at hdata
    exact h path data hdata

theorem files_maybeEvict (h : ∀ path, ∀ data ∈ s.disk path, data = joined (o path)) :
    ∀ path, ∀ data ∈ (maybeEvict env incomingBytes s).disk path, data = joined (o path) :=
  maybeEvict_inv (I := fun s' => ∀ path, ∀ data ∈ s'.disk path, data = joined (o path))
    (fun e _ h => files_remove e.snapshotPath h) h

variable (h : Sourced env puts (s, o))

include h

theorem Sourced.onSnapshotReady (hbuf : Led env puts buf) :
    Sourced env puts (onSnapshotReady env buf s, written env buf o) := by
  refine ⟨h.named.onSnapshotReady, ?_, ?_, ?_⟩
  · intro p buf' hbuf'
    refine h.buffers p buf' ?_
    rw [Nixl.onSnapshotReady] at hbuf'
    split_ifs at hbuf'
    · rwa [buffers_maybeEvict] at hbuf'
    · exact hbuf'
  · rw [Nixl.onSnapshotReady, written]
    split_ifs
    · intro path data hdata
      rw [Option.mem_def] at hdata
      dsimp only at hdata ⊢
      by_cases hpath : path = (snapshotEntry env buf).snapshotPath
      · rw [hpath, Function.update_self] at hdata ⊢
        exact (Option.some.inj hdata).symm
      · rw [Function.update_of_ne hpath] at hdata ⊢
        exact files_maybeEvict h.files path data hdata
    · exact h.files
  · rw [Nixl.onSnapshotReady, written]
    split_ifs
    · intro p e he
      rw [Option.mem_def] at he
      dsimp only at he ⊢
      rw [Table.find_assign] at he
      split_ifs at he with hp
      · obtain ⟨first, hfirst, hmeta⟩ := hbuf.first
        rw [← Option.some.inj he, Function.update_self, ← hp]
        refine ⟨hbuf.blocks, first, hfirst, fun req => ?_⟩
        rw [validate_snapshotEntry, hmeta]
      · have hold := (Shrinks.maybeEvict h.named).entries p e he
        -- a file of another prefix has another name
        have hpath : e.snapshotPath ≠ (snapshotEntry env buf).snapshotPath := by
          intro heq
          exact hp ((congrArg Prod.snd heq).symm.trans (h.named p e hold))
        rw [Function.update_of_ne hpath]
        exact h.entries p e hold
    · exact h.entries

variable {data : Bytes}

theorem led_buffered {nowMs : ℚ} (hput : (b, m) ∈ puts) : Led env puts (buffered env b data m nowMs s) := by
  unfold buffered
  dsimp only
  cases hfind : s.buffers.find (prefixForBlock env b m) with
  | none => exact ⟨⟨(b, data, m), rfl, rfl⟩, List.forall_mem_singleton.2 ⟨hput, rfl⟩⟩
  | some buf =>
    obtain ⟨⟨first, hfirst, hmeta⟩, hblocks⟩ := h.buffers _ buf hfind
    refine ⟨⟨first, List.mem_head?_append_of_mem_head? hfirst, hmeta⟩, List.forall_mem_append.2 ⟨hblocks, ?_⟩⟩
    exact List.forall_mem_singleton.2 ⟨hput, (Table.find_eq_some_iff.1 hfind).2.symm⟩

theorem Sourced.assigned (hbuf : Led env puts buf) : Sourced env puts (assigned buf s, o) := by
  refine ⟨h.named, ?_, h.files, h.entries⟩
  intro p buf' hbuf'
  rw [Option.mem_def, Nixl.assigned, Table.find_assign] at hbuf'
  split_ifs at hbuf'
  · rw [← Option.some.inj hbuf']
    exact hbuf
  · exact h.buffers p buf' hbuf'

theorem Sourced.popped : Sourced env puts (popped p s, o) := by
  refine ⟨h.named, ?_, h.files, h.entries⟩
  intro q buf' hbuf'
  rw [Option.mem_def, Nixl.popped, Table.find_deleteKey] at hbuf'
  split_ifs at hbuf'
  exact h.buffers q buf' hbuf'

theorem Sourced.get : Sourced env puts ((get b req s).2, o) := by
  have hnamed : Named (Nixl.get b req s).2 := h.named.get
  rcases get_cases b req s with heq | ⟨-, heq⟩ | ⟨p, e, e', he, rfl, hpath, hmeta, heq⟩
  · rw [heq]
    exact h
  · rw [heq]
    exact ⟨h.named, h.buffers, h.files, h.entries⟩
  · rw [heq] at hnamed ⊢
    refine ⟨hnamed, h.buffers, h.files, ?_⟩
    intro q e₁ he₁
    rw [Option.mem_def] at he₁
    dsimp only at he₁ ⊢
    rw [Table.find_assign] at he₁
    split_ifs at he₁ with hq
    · rw [← Option.some.inj he₁, hpath, hmeta, ← hq]
      exact h.entries _ e he
    · exact h.entries q e₁ he₁

theorem Sourced.delete : Sourced env puts ((delete b s).2, o) := by
  have hnamed : Named (Nixl.delete b s).2 := h.named.delete
  rcases delete_cases b s with ⟨-, heq⟩ | heq | ⟨p, e, -, -, heq⟩
  · rw [heq]
    exact h
  · rw [heq]
    exact ⟨h.named, h.buffers, h.files, h.entries⟩
  · rw [heq] at hnamed ⊢
    refine ⟨hnamed, h.buffers, files_remove e.snapshotPath h.files, ?_⟩
    intro q e' he'
    rw [Option.mem_def] at he'
    dsimp only at he' ⊢
    rw [Table.find_deleteKey] at he'
    split_ifs at he'
    exact h.entries q e' he'

theorem Sourced.step (op : Op P V) (hop : ∀ b data m nowMs, op = .put b data m nowMs → (b, m) ∈ puts) :
    Sourced env puts ((step env s op).2, record env s o op) := by
  cases op with
  | put b data m nowMs =>
    show Sourced env puts (Nixl.put env b data m nowMs s, _)
    have hled : Led env puts (buffered env b data m nowMs s) := led_buffered h (hop b data m nowMs rfl)
    rw [put_eq rfl, record]
    split_ifs
    · exact (h.assigned hled).popped.onSnapshotReady hled
    · exact h.assigned hled
  | get b req => exact h.get
  | delete b => exact h.delete
  | flush p =>
    show Sourced env puts (flushLocked env p s, _)
    rw [flushLocked, record]
    cases hbuf : s.buffers.find p with
    | none => exact h
    | some buf =>
      dsimp only
      split_ifs
      · exact h.popped
      · exact h.popped.onSnapshotReady (h.buffers p buf hbuf)

omit h

theorem sourced_after {ops : List (Op P V)} (hops : Over puts ops) :
    Sourced env puts (after (stepFrom env) start ops) := by
  induction ops using List.reverseRecOn with
  | nil => exact sourced_start
  | append_singleton ops op ih =>
    rw [after_concat]
    obtain ⟨hbefore, hop⟩ := List.forall_mem_append.1 hops
    exact (ih hbefore).step op (List.forall_mem_singleton.1 hop)

/-! ### What is served -/

variable {x : State P D V × Origins P D V}

theorem Sourced.resident (h : Sourced env puts x) (hres : resident x.1 b = some (data, m)) :
    data = joined (sources x b) ∧ ∃ p, From env puts p (sources x b) ∧ ∃ first ∈ (sources x b).head?,
      ∀ req, validate m req = validate first.2.2 req := by
  rw [Nixl.resident, Option.bind_eq_some_iff] at hres
  obtain ⟨r, hr, hres⟩ := hres
  obtain ⟨e, he, hres⟩ := Option.bind_eq_some_iff.1 hres
  obtain ⟨data', hdata, heq⟩ := Option.map_eq_some_iff.1 hres
  cases heq
  have hsources : sources x b = x.2 e.snapshotPath := by
    rw [sources, hr, Option.bind_some, he, Option.elim_some]
  rw [hsources]
  exact ⟨h.files _ data hdata, r.2, h.entries r.2 e he⟩

theorem Sourced.isolated (h : Sourced env puts x) (hsep : Separate env puts req) : Isolated x b req := by
  intro hnames data hdata
  rw [get_fst] at hdata
  obtain ⟨r, hres, hdata⟩ := Option.bind_eq_some_iff.1 hdata
  split_ifs at hdata with hvalid
  cases hdata
  obtain ⟨hjoined, p, hfrom, first, hfirst, hsame⟩ := h.resident hres
  have hpass : Passes first.2.2 req := (validate_eq_none_iff hnames).1 (hsame req ▸ hvalid)
  obtain ⟨hput, hp⟩ := hfrom first (List.mem_of_mem_head? hfirst)
  obtain ⟨howner, hagree⟩ := hsep hnames _ hput hpass
  refine ⟨hjoined, fun blk hblk => ?_⟩
  obtain ⟨hput', hp'⟩ := hfrom blk hblk
  exact (hagree _ hput' (hp'.trans hp.symm)).trans (howner.sameContext hpass)

/-! ### Two puts that meet in a buffer -/

theorem admitted_of_nonpos (hmin : env.minAdmitRoi ≤ 0) : admitted env buf = true := by
  have hroi : 0 ≤ roi buf.numTokens buf.storageTier :=
    div_nonneg (le_max_left _ _) (zero_le_one.trans (le_max_left _ _))
  exact decide_eq_true ((max_eq_left hmin).le.trans hroi)

theorem not_due_at_once (hfirst : buf.firstPutMs = 0) : ¬ Due env 0 buf := by
  intro h
  have hten : (10 : ℚ) ≤ 0 - buf.firstPutMs := (le_max_left _ _).trans h
  rw [hfirst] at hten
  norm_num at hten

theorem sources_onSnapshotReady (h : admitted env buf = true) (hb : b ∈ buf.ids) :
    sources (onSnapshotReady env buf s, written env buf o) b = buf.blocks := by
  rw [onSnapshotReady, written, if_pos h, if_pos h, sources]
  dsimp only
  rw [find_foldl_assign, if_pos hb, Option.bind_some, Table.find_assign, prefixId_snapshotEntry, if_pos rfl]
  exact Function.update_self _ _ _

theorem stepFrom_put {nowMs : ℚ} (hbuf : buffered env b data m nowMs s = buf) (hdue : ¬ Due env nowMs buf) :
    (stepFrom env (s, o) (.put b data m nowMs)).2 = (assigned buf s, o) := by
  show (put env b data m nowMs s, record env s o _) = _
  rw [put_eq hbuf, if_neg hdue, record, hbuf, if_neg hdue]

theorem stepFrom_flush (hfind : s.buffers.find p = some buf) (hblocks : buf.blocks ≠ []) :
    (stepFrom env (s, o) (.flush p)).2 = (onSnapshotReady env buf (popped p s), written env buf o) := by
  show (flushLocked env p s, record env s o _) = _
  rw [flushLocked, record, hfind]
  dsimp only
  rw [if_neg hblocks, if_neg hblocks]
  rfl

/-- Two blocks with one prefix that are put at once and flushed: the first one is served with both. -/
theorem served_together (hroi : env.minAdmitRoi ≤ 0) {x y : Text × Metadata V}
    (hxy : prefixForBlock env y.1 y.2 = prefixForBlock env x.1 x.2) (hpass : validate x.2 req = none) :
    let z := after (stepFrom env) start
      [.put x.1 [] x.2 0, .put y.1 [] y.2 0, .flush (prefixForBlock env x.1 x.2)]
    (get x.1 req z.1).1 = some [] ∧ sources z x.1 = [(x.1, [], x.2), (y.1, [], y.2)] := by
  intro z
  obtain ⟨buf₁, hbuf₁⟩ : ∃ buf, buffered env x.1 [] x.2 0 (State.empty : State P D V) = buf := ⟨_, rfl⟩
  obtain ⟨buf₂, hbuf₂⟩ : ∃ buf, buffered env y.1 [] y.2 0 (assigned buf₁ (State.empty : State P D V)) = buf := ⟨_, rfl⟩
  have hfind : (assigned buf₁ (State.empty : State P D V)).buffers.find (prefixForBlock env x.1 x.2) = some buf₁ := by
    rw [Nixl.assigned, Table.find_assign, ← hbuf₁]
    exact if_pos rfl
  obtain ⟨hpre, hblocks, hmeta, hfirst⟩ : buf₂.prefixId = prefixForBlock env x.1 x.2 ∧
      buf₂.blocks = [(x.1, [], x.2), (y.1, [], y.2)] ∧ buf₂.metadata = x.2 ∧ buf₂.firstPutMs = 0 := by
    rw [← hbuf₂, buffered, hxy, hfind, ← hbuf₁]
    exact ⟨rfl, rfl, rfl, rfl⟩
  have hfind₂ : (assigned buf₂ (assigned buf₁ (State.empty : State P D V))).buffers.find (prefixForBlock env x.1 x.2) =
      some buf₂ := by
    rw [Nixl.assigned, Table.find_assign, if_pos hpre]
  have hz : z = (onSnapshotReady env buf₂ (popped (prefixForBlock env x.1 x.2) (assigned buf₂ (assigned buf₁ .empty))),
      written env buf₂ fun _ => []) := by
    show after (stepFrom env) start [_, _, _] = _
    rw [after_cons, start, stepFrom_put hbuf₁ (not_due_at_once (by rw [← hbuf₁]; rfl)), after_cons,
      stepFrom_put hbuf₂ (not_due_at_once hfirst), after_cons,
      stepFrom_flush hfind₂ (by rw [hblocks]; exact List.cons_ne_nil _ _), after_nil]
  have hids : x.1 ∈ buf₂.ids := by
    rw [BlockBuffer.ids, hblocks]
    exact List.mem_cons_self
  have hadmitted : admitted env buf₂ = true := admitted_of_nonpos hroi
  rw [hz, get_fst, resident_onSnapshotReady_affected hadmitted (.inl hids), sources_onSnapshotReady hadmitted hids,
    Option.bind_some, validate_snapshotEntry, hmeta, if_pos hpass, BlockBuffer.combined, hblocks]
  exact ⟨rfl, rfl⟩

theorem tenants_isolated_iff (env : Env P D) (puts : Set (Text × Metadata V)) (req : Metadata V) :
    (Separate env puts req → ∀ ops, Over puts ops → ∀ b, Isolated (after (stepFrom env) start ops) b req) ∧
    (env.minAdmitRoi ≤ 0 → (∀ ops, Over puts ops → ∀ b, Isolated (after (stepFrom env) start ops) b req) →
      Separate env puts req) := by
  refine ⟨fun hsep ops hops b => (sourced_after hops).isolated hsep, fun hroi hall hnames x hx hpass => ?_⟩
  have hsame : ∀ y ∈ puts, prefixForBlock env y.1 y.2 = prefixForBlock env x.1 x.2 → SameContext y.2 req := by
    intro y hy hxy
    obtain ⟨hget, hsources⟩ := served_together hroi hxy ((validate_eq_none_iff hnames).2 hpass)
    refine (hall _ ?_ x.1 hnames _ hget).2 (y.1, [], y.2) ?_
    · intro op hop b data m nowMs heq
      subst heq
      simp only [List.mem_cons, Op.put.injEq, reduceCtorEq, List.not_mem_nil, or_false] at hop
      rcases hop with ⟨rfl, -, rfl, -⟩ | ⟨rfl, -, rfl, -⟩
      · exact hx
      · exact hy
    · rw [hsources]
      exact List.mem_cons_of_mem _ (List.mem_singleton_self _)
  have hx' := hsame x hx rfl
  exact ⟨hx'.owner hnames, fun y hy hxy => (hsame y hy hxy).trans hx'.symm⟩

def ownedBy (tenant model : Text) : Metadata Nat :=
  ⟨some "t".toList, some "w".toList, some model, some tenant, none, some 100, some 1, some 1, some 1, some 1, some 1⟩

/-- Two tenants with one worker and token hash: the first is served the bytes of the second, who is served those of the
first; so is a third one with another model. -/
theorem tenants_not_isolated : let mine := ownedBy "a".toList "m".toList
    let yours := ownedBy "b".toList "m".toList
    let other := ownedBy "c".toList "n".toList
    let ops : List (Op Text Nat) := [.put "x".toList [1] mine 0, .put "y".toList [2] yours 600]
    Function.Injective sampleEnv.digest ∧ Names mine ∧ Names yours ∧ Names other ∧
      (get "x".toList mine (after (stepFrom sampleEnv) start ops).1).1 = some [1, 2] ∧
      (get "x".toList yours (after (stepFrom sampleEnv) start ops).1).1 = some [1, 2] ∧
      (get "x".toList other (after (stepFrom sampleEnv) start ops).1).1 = some [1, 2] ∧
      ¬ Isolated (after (stepFrom sampleEnv) start ops) "x".toList mine := by
  have hnames : ∀ tenant ∈ ["a".toList, "b".toList, "c".toList], ∀ model, Names (ownedBy tenant model) := by
    intro tenant htenant model
    refine ⟨?_, rfl, rfl, rfl, rfl, rfl⟩
    show textOr (some tenant) [] ≠ []
    revert tenant
    decide
  have hget : (get "x".toList (ownedBy "a".toList "m".toList) (after (stepFrom sampleEnv) start
      [.put "x".toList [1] (ownedBy "a".toList "m".toList) 0,
        .put "y".toList [2] (ownedBy "b".toList "m".toList) 600]).1).1 = some [1, 2] := by
    decide +kernel
  have hsources : ("y".toList, [2], ownedBy "b".toList "m".toList) ∈ sources (after (stepFrom sampleEnv) start
      [.put "x".toList [1] (ownedBy "a".toList "m".toList) 0,
        .put "y".toList [2] (ownedBy "b".toList "m".toList) 600]) "x".toList := by
    decide +kernel
  refine ⟨fun _ _ h => h, hnames _ (by simp) _, hnames _ (by simp) _, hnames _ (by simp) _, hget, by decide +kernel,
    by decide +kernel, fun hisolated => ?_⟩
  have hsame := (hisolated (hnames _ (by simp) _) _ hget).2 _ hsources
  exact absurd hsame.tenantId (by decide)

end Korith.Nixl
