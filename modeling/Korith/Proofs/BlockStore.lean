import Korith.Platform.NixlBackend

/-!
# Whether the backend is a block store

A block is served from the snapshot that its map names, whatever that holds. So what a `get` returns is what was put
last exactly as long as every admitted flush leaves each block that is mapped to its prefix with the concatenation of
the buffer as its own payload, and a put finds no other payload of its block in the store. As `flush_all` is a list
of flushes (`flushAll_eq`), this is also asked between two of them, where a `get` can come: it does not take the lock
of the aggregator.
-/

set_option linter.unusedSectionVars false

namespace Korith.Nixl

open Machine

variable {P D V : Type} [DecidableEq P] [DecidableEq D] [DecidableEq V] {env : Env P D} {s s' : State P D V}
  {b : Text} {m req : Metadata V} {p : P} {buf : BlockBuffer P V} {entry : SnapshotEntry P D V}

/-! ### What is expected -/

/-- What the callers have put and not deleted, and the blocks whose last put was flushed and admitted and has not been
deleted, overwritten or evicted since. -/
structure Ghost (V : Type) where
  live : Text → Option (Bytes × Metadata V)
  held : Text → Bool

def Ghost.empty : Ghost V := ⟨fun _ => none, fun _ => false⟩

structure Serves (s : State P D V) (g : Ghost V) : Prop where
  sound : ∀ b req data, (get b req s).1 = some data → ∃ m, g.live b = some (data, m) ∧ validate m req = none
  kept : ∀ b, g.held b = true → ∃ data m, g.live b = some (data, m) ∧
    ∀ req, validate m req = none → (get b req s).1 = some data

def latestIn (env : Env P D) (g : Ghost V) (buf : BlockBuffer P V) (b : Text) : Bool :=
  buf.ids.contains b && (g.live b).any fun put => decide (prefixForBlock env b put.2 = buf.prefixId)

def Ghost.flush (env : Env P D) (buf : BlockBuffer P V) (s : State P D V) (g : Ghost V) : Ghost V :=
  if admitted env buf then
    { g with
      held := fun b => latestIn env g buf b ||
        (g.held b && ((maybeEvict env buf.totalBytes s).blockToPrefix.find b).isSome) }
  else g

def Ghost.put (b : Text) (data : Bytes) (m : Metadata V) (g : Ghost V) : Ghost V :=
  ⟨Function.update g.live b (some (data, m)), Function.update g.held b false⟩

def Ghost.delete (b : Text) (g : Ghost V) : Ghost V :=
  ⟨Function.update g.live b none, Function.update g.held b false⟩

def popped (p : P) (s : State P D V) : State P D V :=
  { s with buffers := s.buffers.deleteWhere fun b => decide (b.prefixId = p) }

def Due (env : Env P D) (nowMs : ℚ) (buf : BlockBuffer P V) : Prop := max 10 env.aggWindowMs ≤ nowMs - buf.firstPutMs
  deriving Decidable

def assigned (buf : BlockBuffer P V) (s : State P D V) : State P D V := { s with buffers := s.buffers.assign buf }

def Ghost.step (env : Env P D) (s : State P D V) (g : Ghost V) : Op P V → Ghost V
  | .put b data m nowMs =>
    let buf := buffered env b data m nowMs s
    if Due env nowMs buf then (g.put b data m).flush env buf (popped buf.prefixId (assigned buf s)) else g.put b data m
  | .get _ _ => g
  | .delete b => g.delete b
  | .flush p =>
    match s.buffers.find p with
    | none => g
    | some buf => if buf.blocks = [] then g else g.flush env buf (popped p s)

def track (env : Env P D) (x : State P D V × Ghost V) (op : Op P V) : Answer × State P D V × Ghost V :=
  ((step env x.1 op).1, (step env x.1 op).2, x.2.step env x.1 op)

/-! ### The condition -/

/-- Whoever may be served under `m` may be served under `m'`. -/
def Covers (m m' : Metadata V) : Prop := ∀ req, validate m req = none → validate m' req = none

/-- The block is mapped to the prefix of the buffer when it is flushed. -/
def Affected (env : Env P D) (buf : BlockBuffer P V) (s : State P D V) (b : Text) : Prop :=
  b ∈ buf.ids ∨ ∃ r ∈ (maybeEvict env buf.totalBytes s).blockToPrefix.find b, r.2 = buf.prefixId

/-- Every block that is then mapped to the prefix has the payload of the whole buffer as its own. -/
def FlushSafe (env : Env P D) (buf : BlockBuffer P V) (s : State P D V) (g : Ghost V) : Prop :=
  ∀ b, Affected env buf s b → ∃ m, g.live b = some (buf.combined, m) ∧ Covers buf.metadata m ∧
    ((g.flush env buf s).held b = true → Covers m buf.metadata)

def resident (s : State P D V) (b : Text) : Option (Bytes × Metadata V) :=
  (s.blockToPrefix.find b).bind fun r => (s.entries.find r.2).bind fun e =>
    (s.disk e.snapshotPath).map fun data => (data, e.metadata)

/-- The store has nothing of the block, or the same. -/
def PutSafe (s : State P D V) (b : Text) (data : Bytes) (m : Metadata V) : Prop :=
  ∀ old ∈ resident s b, old.1 = data ∧ Covers old.2 m

def Safe (env : Env P D) (x : State P D V × Ghost V) : Op P V → Prop
  | .put b data m nowMs =>
    let buf := buffered env b data m nowMs x.1
    if Due env nowMs buf ∧ admitted env buf then
      FlushSafe env buf (popped buf.prefixId (assigned buf x.1)) (x.2.put b data m)
    else PutSafe x.1 b data m
  | .get _ _ => True
  | .delete _ => True
  | .flush p => ∀ buf ∈ x.1.buffers.find p, buf.blocks ≠ [] → admitted env buf = true →
    FlushSafe env buf (popped p x.1) x.2

/-! ### Validation -/

theorem checkField_self (key : String) (required : Bool) (x : Option V) : checkField key required x x = none := by
  simp [checkField]

theorem validate_self : validate m m = none := by
  simp [validate, checkField_self]

theorem validate_snapshotEntry : validate (snapshotEntry env buf).metadata req = validate buf.metadata req := rfl

theorem prefixId_snapshotEntry : (snapshotEntry env buf).prefixId = buf.prefixId := rfl

/-! ### What is served -/

theorem get_fst : (get b req s).1 =
    (resident s b).bind fun r => if validate r.2 req = none then some r.1 else none := by
  unfold get resident
  cases s.blockToPrefix.find b with
  | none => rfl
  | some r =>
    dsimp only [Option.bind_some]
    cases s.entries.find r.2 with
    | none => rfl
    | some e =>
      dsimp only [Option.bind_some]
      cases hvalid : validate e.metadata req with
      | some mismatch =>
        cases s.disk e.snapshotPath with
        | none => rfl
        | some data => simp [hvalid]
      | none =>
        cases s.disk e.snapshotPath with
        | none => rfl
        | some data => simp [hvalid]

/-- What is expected for one block. -/
structure Agrees (live resident : Option (Bytes × Metadata V)) (held : Bool) : Prop where
  sound : ∀ data em, resident = some (data, em) → ∃ m, live = some (data, m) ∧ Covers em m
  kept : held = true → ∃ data m em, live = some (data, m) ∧ resident = some (data, em) ∧ Covers m em

variable {g : Ghost V} {live : Option (Bytes × Metadata V)} {data : Bytes} {r : Text × P} {incomingBytes : Nat}
  {nowMs : ℚ} {b' : Text}

theorem serves_iff : Serves s g ↔ ∀ b, Agrees (g.live b) (resident s b) (g.held b) := by
  constructor
  · intro h b
    refine ⟨fun data em hres => ?_, fun hheld => ?_⟩
    · have hget : ∀ req, validate em req = none → (get b req s).1 = some data := by
        intro req hreq
        rw [get_fst, hres, Option.bind_some, if_pos hreq]
      obtain ⟨m, hlive, -⟩ := h.sound b em data (hget em validate_self)
      refine ⟨m, hlive, fun req hreq => ?_⟩
      obtain ⟨m', hlive', hvalid⟩ := h.sound b req data (hget req hreq)
      rw [hlive] at hlive'
      cases hlive'
      exact hvalid
    · obtain ⟨data, m, hlive, hget⟩ := h.kept b hheld
      have hself := hget m validate_self
      rw [get_fst] at hself
      obtain ⟨⟨data', em⟩, hres, hdata⟩ := Option.bind_eq_some_iff.1 hself
      split_ifs at hdata
      have hsame : data' = data := Option.some.inj hdata
      rw [hsame] at hres
      refine ⟨data, m, em, hlive, hres, fun req hreq => ?_⟩
      have hreq' := hget req hreq
      rw [get_fst, hres, Option.bind_some] at hreq'
      split_ifs at hreq' with hvalid
      exact hvalid
  · intro h
    refine ⟨fun b req data hget => ?_, fun b hheld => ?_⟩
    · rw [get_fst] at hget
      obtain ⟨⟨data', em⟩, hres, hdata⟩ := Option.bind_eq_some_iff.1 hget
      split_ifs at hdata with hvalid
      have hsame : data' = data := Option.some.inj hdata
      rw [hsame] at hres
      obtain ⟨m, hlive, hcovers⟩ := (h b).sound data em hres
      exact ⟨m, hlive, hcovers req hvalid⟩
    · obtain ⟨data, m, em, hlive, hres, hcovers⟩ := (h b).kept hheld
      refine ⟨data, m, hlive, fun req hreq => ?_⟩
      rw [get_fst, hres, Option.bind_some, if_pos (hcovers req hreq)]

theorem Agrees.of_none : Agrees live none false :=
  ⟨fun _ _ h => (by cases h), fun h => (by cases h)⟩

theorem agrees_some_iff {held : Bool} : Agrees live (some (data, m)) held ↔
      ∃ m', live = some (data, m') ∧ Covers m m' ∧ (held = true → Covers m' m) := by
  constructor
  · intro h
    obtain ⟨m', hlive, hcovers⟩ := h.sound data m rfl
    refine ⟨m', hlive, hcovers, fun hheld => ?_⟩
    obtain ⟨data', m₁, em, hlive', hres, hcovers'⟩ := h.kept hheld
    cases hres
    rw [hlive] at hlive'
    cases hlive'
    exact hcovers'
  · rintro ⟨m', hlive, hcovers, hback⟩
    refine ⟨fun data' em hres => ?_, fun hheld => ⟨data, m', m, hlive, rfl, hback hheld⟩⟩
    cases hres
    exact ⟨m', hlive, hcovers⟩

/-! ### Residents -/

def Named (s : State P D V) : Prop := ∀ p, ∀ e ∈ s.entries.find p, e.snapshotPath.2 = p

theorem Named.path (h : Named s) (hfind : s.entries.find p = some entry) : entry.snapshotPath.2 = entry.prefixId := by
  rw [h p entry hfind]
  exact (Table.find_eq_some_iff.1 hfind).2.symm

/-- What becomes of a state when entries are evicted. -/
structure Shrinks (s s' : State P D V) : Prop where
  entries : ∀ p, ∀ e ∈ s'.entries.find p, e ∈ s.entries.find p
  kept : ∀ b, ∀ r ∈ s'.blockToPrefix.find b, r ∈ s.blockToPrefix.find b ∧ resident s' b = resident s b

theorem Shrinks.refl (s : State P D V) : Shrinks s s := ⟨fun _ _ h => h, fun _ _ h => ⟨h, rfl⟩⟩

theorem Shrinks.trans {s₁ s₂ s₃ : State P D V} (h₁ : Shrinks s₁ s₂) (h₂ : Shrinks s₂ s₃) : Shrinks s₁ s₃ := by
  refine ⟨fun p e he => h₁.entries p e (h₂.entries p e he), fun b r hr => ?_⟩
  obtain ⟨hr₂, hres₂⟩ := h₂.kept b r hr
  obtain ⟨hr₁, hres₁⟩ := h₁.kept b r hr₂
  exact ⟨hr₁, hres₂.trans hres₁⟩

theorem Shrinks.named (h : Shrinks s s') (hs : Named s) : Named s' := fun p e he => hs p e (h.entries p e he)

theorem resident_eq (h : s.blockToPrefix.find b = some r) : resident s b =
    (s.entries.find r.2).bind fun e => (s.disk e.snapshotPath).map fun data => (data, e.metadata) := by
  rw [resident, h, Option.bind_some]

theorem resident_of_unmapped (h : s.blockToPrefix.find b = none) : resident s b = none := by
  rw [resident, h, Option.bind_none]

theorem resident_congr (path : D × P) (x : Option Bytes) (hs : Named s)
    (hmap : s.blockToPrefix.find b = some r) (hmap' : s'.blockToPrefix.find b = some r)
    (hentries : s'.entries.find r.2 = s.entries.find r.2) (hdisk : s'.disk = Function.update s.disk path x) (hne : r.2 ≠ path.2) :
    resident s' b = resident s b := by
  rw [resident_eq hmap, resident_eq hmap', hentries]
  cases hfind : s.entries.find r.2 with
  | none => rfl
  | some e =>
    have hpath : e.snapshotPath ≠ path := by
      rintro rfl
      exact hne (hs r.2 e hfind).symm
    rw [Option.bind_some, Option.bind_some, hdisk, Function.update_of_ne hpath]

theorem Shrinks.evict (hs : Named s) (hpath : entry.snapshotPath.2 = entry.prefixId) : Shrinks s (evict entry s) := by
  refine ⟨fun p e he => ?_, fun b r hr => ?_⟩
  · rw [Option.mem_def, Nixl.evict, Table.find_deleteKey] at he
    split_ifs at he
    exact he
  · rw [Option.mem_def, Nixl.evict, Table.find_deleteWhere, Option.filter_eq_some_iff] at hr
    obtain ⟨hmap, hne⟩ := hr
    have hne : r.2 ≠ entry.prefixId := by simpa using hne
    refine ⟨hmap, resident_congr entry.snapshotPath none hs hmap ?_ ?_ rfl (hpath ▸ hne)⟩
    · rw [Nixl.evict, Table.find_deleteWhere, hmap, Option.filter_some, if_pos (by simpa using hne)]
    · rw [Nixl.evict, Table.find_deleteKey, if_neg hne]

theorem Shrinks.evictLoop {sorted : List (SnapshotEntry P D V)} (hs : Named s)
    (hsorted : ∀ e ∈ sorted, e.snapshotPath.2 = e.prefixId) : Shrinks s (evictLoop env incomingBytes sorted s) := by
  induction sorted generalizing s with
  | nil => exact .refl s
  | cons e rest ih =>
    obtain ⟨he, hrest⟩ := List.forall_mem_cons.1 hsorted
    rw [Nixl.evictLoop]
    split_ifs
    · exact .refl s
    · exact ih hs hrest
    · have hevict : Shrinks s (Nixl.evict e s) := .evict hs he
      exact hevict.trans (ih (hevict.named hs) hrest)

theorem Shrinks.maybeEvict (hs : Named s) : Shrinks s (maybeEvict env incomingBytes s) := by
  unfold Nixl.maybeEvict
  split_ifs
  · exact .refl s
  · refine .evictLoop hs fun e he => ?_
    have hmem : e ∈ s.entries := (List.mem_insertionSort _).1 he
    exact hs.path (Table.find_eq_some_iff.2 ⟨hmem, rfl⟩)

/-! ### A flush -/

theorem find_foldl_assign (ids : List Text) (t : Table Text (Text × P) Prod.fst) :
    (ids.foldl (fun t b => t.assign (b, p)) t).find b = if b ∈ ids then some (b, p) else t.find b := by
  induction ids generalizing t with
  | nil => rfl
  | cons b' ids ih =>
    rw [List.foldl_cons, ih, Table.find_assign]
    by_cases hmem : b ∈ ids
    · rw [if_pos hmem, if_pos (List.mem_cons_of_mem _ hmem)]
    · by_cases heq : b' = b
      · subst heq
        rw [if_neg hmem, if_pos rfl, if_pos List.mem_cons_self]
      · rw [if_neg hmem, if_neg heq, if_neg]
        rw [List.mem_cons, not_or]
        exact ⟨Ne.symm heq, hmem⟩

theorem onSnapshotReady_of_rejected (h : admitted env buf = false) : onSnapshotReady env buf s = s := by
  rw [onSnapshotReady, h]
  rfl

theorem resident_onSnapshotReady_affected (h : admitted env buf = true) (hb : Affected env buf s b) :
    resident (onSnapshotReady env buf s) b = some (buf.combined, (snapshotEntry env buf).metadata) := by
  obtain ⟨r, hmap, hr⟩ : ∃ r, (onSnapshotReady env buf s).blockToPrefix.find b = some r ∧ r.2 = buf.prefixId := by
    rw [onSnapshotReady, if_pos h]
    dsimp only
    rw [find_foldl_assign]
    split_ifs with hmem
    · exact ⟨_, rfl, rfl⟩
    · exact hb.resolve_left hmem
  have hentry : (onSnapshotReady env buf s).entries.find r.2 = some (snapshotEntry env buf) := by
    rw [onSnapshotReady, if_pos h, hr]
    dsimp only
    rw [Table.find_assign, prefixId_snapshotEntry, if_pos rfl]
  have hdisk : (onSnapshotReady env buf s).disk (snapshotEntry env buf).snapshotPath = some buf.combined := by
    rw [onSnapshotReady, if_pos h]
    exact Function.update_self _ _ _
  rw [resident_eq hmap, hentry, Option.bind_some, hdisk, Option.map_some]

theorem resident_onSnapshotReady (hs : Named s) (h : admitted env buf = true) (hb : ¬ Affected env buf s b) :
    resident (onSnapshotReady env buf s) b = resident (maybeEvict env buf.totalBytes s) b := by
  obtain ⟨hmem, hother⟩ := not_or.1 hb
  have hmap : (onSnapshotReady env buf s).blockToPrefix.find b =
      (maybeEvict env buf.totalBytes s).blockToPrefix.find b := by
    rw [onSnapshotReady, if_pos h]
    dsimp only
    rw [find_foldl_assign, if_neg hmem]
  cases hfind : (maybeEvict env buf.totalBytes s).blockToPrefix.find b with
  | none => rw [resident_of_unmapped hfind, resident_of_unmapped (hmap.trans hfind)]
  | some r =>
    have hne : r.2 ≠ buf.prefixId := fun heq => hother ⟨r, hfind, heq⟩
    refine resident_congr (snapshotEntry env buf).snapshotPath (some buf.combined)
      ((Shrinks.maybeEvict hs).named hs) hfind (hmap.trans hfind) ?_ ?_ hne
    · rw [onSnapshotReady, if_pos h]
      dsimp only
      rw [Table.find_assign, prefixId_snapshotEntry, if_neg (Ne.symm hne)]
    · rw [onSnapshotReady, if_pos h]

theorem Named.onSnapshotReady (hs : Named s) : Named (onSnapshotReady env buf s) := by
  unfold Nixl.onSnapshotReady
  split_ifs
  · intro p e he
    rw [Option.mem_def] at he
    dsimp only at he
    rw [Table.find_assign] at he
    split_ifs at he with hp
    · rw [← Option.some.inj he]
      exact hp
    · exact (Shrinks.maybeEvict hs).named hs p e he
  · exact hs

theorem flush_agrees_iff (hs : Named s) (h : admitted env buf = true)
    (hothers : ∀ b, ¬ Affected env buf s b → Agrees (g.live b) (resident s b) (g.held b)) :
    (∀ b, Agrees ((g.flush env buf s).live b) (resident (onSnapshotReady env buf s) b)
        ((g.flush env buf s).held b)) ↔ FlushSafe env buf s g := by
  have hlive : (g.flush env buf s).live = g.live := by
    rw [Ghost.flush, if_pos h]
  constructor
  · intro hall b hb
    have hagrees := hall b
    rw [resident_onSnapshotReady_affected h hb, agrees_some_iff, hlive] at hagrees
    exact hagrees
  · intro hsafe b
    by_cases hb : Affected env buf s b
    · rw [resident_onSnapshotReady_affected h hb, agrees_some_iff, hlive]
      exact hsafe b hb
    · have hheld : (g.flush env buf s).held b =
          (g.held b && ((maybeEvict env buf.totalBytes s).blockToPrefix.find b).isSome) := by
        have hmem : b ∉ buf.ids := (not_or.1 hb).1
        simp [Ghost.flush, h, latestIn, hmem]
      rw [hlive, hheld, resident_onSnapshotReady hs h hb]
      cases hfind : (maybeEvict env buf.totalBytes s).blockToPrefix.find b with
      | none =>
        rw [resident_of_unmapped hfind, Option.isSome_none, Bool.and_false]
        exact .of_none
      | some r =>
        rw [((Shrinks.maybeEvict hs).kept b r hfind).2, Option.isSome_some, Bool.and_true]
        exact hothers b hb

/-! ### The operations -/

theorem resident_popped : resident (popped p s) b = resident s b := rfl

theorem resident_assigned : resident (assigned buf s) b = resident s b := rfl

theorem ids_buffered : b ∈ (buffered env b data m nowMs s).ids := by
  rw [buffered, BlockBuffer.ids, List.map_append]
  exact List.mem_append_right _ (List.mem_singleton_self b)

theorem put_eq (hbuf : buffered env b data m nowMs s = buf) : put env b data m nowMs s =
    if Due env nowMs buf then onSnapshotReady env buf (popped buf.prefixId (assigned buf s)) else assigned buf s := by
  have hblocks : buf.blocks ≠ [] := fun hnil => by
    have hids : b ∈ buf.ids := hbuf ▸ ids_buffered
    rw [BlockBuffer.ids, hnil] at hids
    cases hids
  have hflush : flushLocked env buf.prefixId (assigned buf s) =
      onSnapshotReady env buf (popped buf.prefixId (assigned buf s)) := by
    rw [flushLocked, assigned, Table.find_assign, if_pos rfl]
    dsimp only
    rw [if_neg hblocks]
    rfl
  rw [← hflush, ← hbuf]
  rfl

def unmapped (b : Text) (s : State P D V) : State P D V :=
  { s with blockToPrefix := s.blockToPrefix.deleteWhere fun r => decide (r.1 = b) }

theorem find_unmapped :
    (unmapped b s).blockToPrefix.find b' = if b' = b then none else s.blockToPrefix.find b' := Table.find_deleteKey

theorem resident_unmapped : resident (unmapped b s) b' = if b' = b then none else resident s b' := by
  rw [resident, find_unmapped]
  split_ifs
  · rfl
  · rfl

theorem get_cases (b : Text) (req : Metadata V) (s : State P D V) :
    (get b req s).2 = s ∨ (resident s b = none ∧ (get b req s).2 = unmapped b s) ∨
      ∃ p e e', s.entries.find p = some e ∧ e'.prefixId = p ∧ e'.snapshotPath = e.snapshotPath ∧
        e'.metadata = e.metadata ∧ (get b req s).2 = { s with entries := s.entries.assign e' } := by
  unfold get
  cases hmap : s.blockToPrefix.find b with
  | none => exact .inl rfl
  | some r =>
    dsimp only
    cases hentry : s.entries.find r.2 with
    | none =>
      refine .inr (.inl ⟨?_, rfl⟩)
      rw [resident_eq hmap, hentry, Option.bind_none]
    | some e =>
      dsimp only
      cases validate e.metadata req with
      | some mismatch => exact .inl rfl
      | none =>
        cases s.disk e.snapshotPath with
        | none => exact .inl rfl
        | some data =>
          exact .inr (.inr ⟨r.2, e, { e with hitCount := e.hitCount + 1 }.updateValue, hentry,
            (Table.find_eq_some_iff.1 hentry).2, rfl, rfl, rfl⟩)

theorem resident_get : resident (get b req s).2 = resident s := by
  funext b'
  rcases get_cases b req s with heq | ⟨hnone, heq⟩ | ⟨p, e, e', he, rfl, hpath, hmeta, heq⟩
  · rw [heq]
  · rw [heq, resident_unmapped]
    split_ifs with hb
    · rw [hb, hnone]
    · rfl
  · rw [heq, resident, resident]
    refine congrArg _ (funext fun r => ?_)
    rw [Table.find_assign]
    split_ifs with hp
    · rw [← hp, he, Option.bind_some, Option.bind_some, hpath, hmeta]
    · rfl

theorem Named.get (hs : Named s) : Named (get b req s).2 := by
  rcases get_cases b req s with heq | ⟨-, heq⟩ | ⟨p, e, e', he, rfl, hpath, -, heq⟩
  · rw [heq]
    exact hs
  · rw [heq]
    exact hs
  · rw [heq]
    intro q e₁ he₁
    rw [Option.mem_def, Table.find_assign] at he₁
    split_ifs at he₁ with hq
    · rw [← Option.some.inj he₁, hpath, ← hq]
      exact hs _ e he
    · exact hs q e₁ he₁

theorem delete_cases (b : Text) (s : State P D V) :
    (s.blockToPrefix.find b = none ∧ (delete b s).2 = s) ∨ (delete b s).2 = unmapped b s ∨
      ∃ p e, s.entries.find p = some e ∧ (∀ b', ∀ r ∈ (unmapped b s).blockToPrefix.find b', r.2 ≠ p) ∧
        (delete b s).2 = { unmapped b s with
          entries := s.entries.deleteWhere fun e => decide (e.prefixId = p)
          totalBytes := s.totalBytes - e.sizeBytes
          disk := Function.update s.disk e.snapshotPath none } := by
  unfold delete
  cases hmap : s.blockToPrefix.find b with
  | none => exact .inl ⟨rfl, rfl⟩
  | some r =>
    dsimp only
    split_ifs with hrefs
    · exact .inr (.inl rfl)
    · cases hentry : s.entries.find r.2 with
      | none => exact .inr (.inl rfl)
      | some e =>
        refine .inr (.inr ⟨r.2, e, hentry, fun b' r' hr' heq => hrefs ?_, rfl⟩)
        exact List.any_eq_true.2 ⟨r', (Table.find_eq_some_iff.1 hr').1, decide_eq_true heq⟩

theorem resident_delete_self : resident (delete b s).2 b = none := by
  rcases delete_cases b s with ⟨hnone, heq⟩ | heq | ⟨p, e, -, -, heq⟩
  · rw [heq, resident_of_unmapped hnone]
  · rw [heq, resident_unmapped, if_pos rfl]
  · rw [heq]
    exact resident_of_unmapped (find_unmapped.trans (if_pos rfl))

theorem resident_delete_of_ne (hs : Named s) (hne : b' ≠ b) : resident (delete b s).2 b' = resident s b' := by
  rcases delete_cases b s with ⟨-, heq⟩ | heq | ⟨p, e, he, hothers, heq⟩
  · rw [heq]
  · rw [heq, resident_unmapped, if_neg hne]
  · have hmap : (delete b s).2.blockToPrefix.find b' = s.blockToPrefix.find b' := by
      rw [heq]
      exact find_unmapped.trans (if_neg hne)
    cases hfind : s.blockToPrefix.find b' with
    | none => rw [resident_of_unmapped hfind, resident_of_unmapped (hmap.trans hfind)]
    | some r =>
      have hp : r.2 ≠ p := hothers b' r (by rw [Option.mem_def, find_unmapped, if_neg hne, hfind])
      refine resident_congr e.snapshotPath none hs hfind (hmap.trans hfind) ?_ (by rw [heq]) ?_
      · rw [heq]
        dsimp only
        rw [Table.find_deleteKey, if_neg hp]
      · rw [hs p e he]
        exact hp

theorem Named.delete (hs : Named s) : Named (delete b s).2 := by
  rcases delete_cases b s with ⟨-, heq⟩ | heq | ⟨p, e, -, -, heq⟩
  · rw [heq]
    exact hs
  · rw [heq]
    exact hs
  · rw [heq]
    intro q e' he'
    rw [Option.mem_def] at he'
    dsimp only at he'
    rw [Table.find_deleteKey] at he'
    split_ifs at he'
    exact hs q e' he'

/-! ### Runs -/

theorem Named.step (hs : Named s) (op : Op P V) : Named (step env s op).2 := by
  cases op with
  | put b data m nowMs =>
    show Named (Nixl.put env b data m nowMs s)
    rw [put_eq rfl]
    split_ifs
    · exact Named.onSnapshotReady hs
    · exact hs
  | get b req => exact Named.get hs
  | delete b => exact Named.delete hs
  | flush p =>
    show Named (flushLocked env p s)
    unfold flushLocked
    split
    · exact hs
    · split_ifs
      · exact hs
      · exact Named.onSnapshotReady hs

theorem put_agrees_iff (h : ∀ b, Agrees (g.live b) (resident s b) (g.held b))
    (hres : ∀ b, resident s' b = resident s b) :
    (∀ b', Agrees ((g.put b data m).live b') (resident s' b') ((g.put b data m).held b')) ↔ PutSafe s b data m := by
  have hself : Agrees (some (data, m)) (resident s b) false ↔ PutSafe s b data m := by
    constructor
    · rintro ⟨hsound, -⟩ ⟨data', em⟩ hold
      obtain ⟨m', heq, hcovers⟩ := hsound data' em hold
      cases heq
      exact ⟨rfl, hcovers⟩
    · intro hsafe
      refine ⟨fun data' em hold => ?_, fun hfalse => (by cases hfalse)⟩
      obtain ⟨rfl, hcovers⟩ := hsafe (data', em) hold
      exact ⟨m, rfl, hcovers⟩
  rw [← hself]
  constructor
  · intro hall
    have hb := hall b
    rw [Ghost.put, hres] at hb
    simpa using hb
  · intro hb b'
    rw [Ghost.put, hres]
    by_cases heq : b' = b
    · subst heq
      simpa using hb
    · simpa [heq] using h b'

theorem step_serves_iff {op : Op P V} (hs : Named s) (h : Serves s g) :
    Serves (step env s op).2 (g.step env s op) ↔ Safe env (s, g) op := by
  rw [serves_iff] at h ⊢
  cases op with
  | put b data m nowMs =>
    show (∀ b', Agrees _ (resident (Nixl.put env b data m nowMs s) b') _) ↔ _
    rw [put_eq rfl, Ghost.step, Safe]
    dsimp only
    by_cases hdue : Due env nowMs (buffered env b data m nowMs s)
    · rw [if_pos hdue, if_pos hdue]
      by_cases hadmitted : admitted env (buffered env b data m nowMs s) = true
      · rw [if_pos ⟨hdue, hadmitted⟩]
        refine flush_agrees_iff hs hadmitted fun b' hb' => ?_
        have hne : b' ≠ b := by
          rintro rfl
          exact hb' (.inl ids_buffered)
        rw [Ghost.put, resident_popped, resident_assigned]
        simpa [hne] using h b'
      · have hrejected := Bool.eq_false_iff.2 hadmitted
        rw [if_neg fun h => hadmitted h.2, Ghost.flush, if_neg hadmitted, onSnapshotReady_of_rejected hrejected]
        exact put_agrees_iff h fun _ => rfl
    · rw [if_neg hdue, if_neg hdue, if_neg fun h => hdue h.1]
      exact put_agrees_iff h fun _ => rfl
  | get b req =>
    refine iff_of_true (fun b' => ?_) trivial
    show Agrees (g.live b') (resident (Nixl.get b req s).2 b') (g.held b')
    rw [resident_get]
    exact h b'
  | delete b =>
    refine iff_of_true (fun b' => ?_) trivial
    show Agrees ((g.delete b).live b') (resident (Nixl.delete b s).2 b') ((g.delete b).held b')
    rw [Ghost.delete]
    by_cases heq : b' = b
    · subst heq
      rw [resident_delete_self]
      simpa using Agrees.of_none
    · rw [resident_delete_of_ne hs heq]
      simpa [heq] using h b'
  | flush p =>
    show (∀ b', Agrees _ (resident (flushLocked env p s) b') _) ↔ _
    rw [flushLocked, Ghost.step, Safe]
    cases hbuf : s.buffers.find p with
    | none =>
      refine iff_of_true h fun buf hmem => ?_
      cases hmem
    | some buf =>
      dsimp only
      by_cases hblocks : buf.blocks = []
      · rw [if_pos hblocks, if_pos hblocks]
        refine iff_of_true h fun buf' hmem hne => ?_
        cases hmem
        exact absurd hblocks hne
      · rw [if_neg hblocks, if_neg hblocks]
        by_cases hadmitted : admitted env buf = true
        · have hs' : Named (popped p s) := hs
          refine (flush_agrees_iff hs' hadmitted fun b' _ => h b').trans ?_
          constructor
          · rintro hsafe buf' ⟨⟩ - -
            exact hsafe
          · intro hsafe
            exact hsafe buf rfl hblocks hadmitted
        · have hrejected := Bool.eq_false_iff.2 hadmitted
          rw [onSnapshotReady_of_rejected hrejected, Ghost.flush, if_neg hadmitted]
          refine iff_of_true h ?_
          rintro buf' ⟨⟩ - hyes
          exact absurd hyes hadmitted

theorem serves_empty : Serves (State.empty : State P D V) Ghost.empty := by
  refine serves_iff.2 fun b => ?_
  exact .of_none

def Tracked (x : State P D V × Ghost V) : Prop := Named x.1 ∧ Serves x.1 x.2

theorem tracked_of_safe {ops : List (Op P V)}
    (h : Every (fun before op => Safe env (after (track env) (State.empty, Ghost.empty) before) op) ops) :
    Tracked (after (track env) (State.empty, Ghost.empty) ops) := by
  refine h.inv (I := fun ops => Tracked (after (track env) (State.empty, Ghost.empty) ops))
    ⟨fun p e he => (by cases he), serves_empty⟩ ?_
  rintro before op ⟨hnamed, hserves⟩ hsafe
  rw [after_concat]
  exact ⟨hnamed.step op, (step_serves_iff hnamed hserves).2 hsafe⟩

theorem block_store_iff (env : Env P D) (ops : List (Op P V)) : Every (fun before op =>
        Serves (after (track env) (State.empty, Ghost.empty) (before ++ [op])).1
          (after (track env) (State.empty, Ghost.empty) (before ++ [op])).2) ops ↔
      Every (fun before op => Safe env (after (track env) (State.empty, Ghost.empty) before) op) ops := by
  refine every_congr fun before op hsafe => ?_
  obtain ⟨hnamed, hserves⟩ := tracked_of_safe hsafe
  rw [after_concat]
  exact step_serves_iff hnamed hserves

def sampleEnv : Env Text Text := ⟨id, fun tenant model => tenant ++ '/' :: model, 3 / 2, 500, 1000, 17 / 20⟩

def tokens (tokenHash : Text) : Metadata Nat :=
  ⟨some tokenHash, none, none, none, none, some 100, some 1, some 1, none, none, none⟩

def sampleAfter (ops : List (Op Text Nat)) : State Text Text Nat := after (step sampleEnv) State.empty ops

/-- Two blocks of one token hash; a block that is deleted while it is buffered; and a block that is put again. -/
theorem not_a_block_store : let b := "b".toList
    let c := "c".toList
    let m := tokens "t".toList
    let flush : Op Text Nat := .flush ":t".toList
    (get b m (sampleAfter [.put b [1] m 0, .put c [2] m 0, flush])).1 = some [1, 2] ∧
      (delete b (sampleAfter [.put b [1] m 0])).1 = false ∧
      (get b m (sampleAfter [.put b [1] m 0, .delete b, flush])).1 = some [1] ∧
      (get b m (sampleAfter [.put b [1] m 0, flush, .put b [2] m 0])).1 = some [1] ∧
      (get b m (sampleAfter [.put b [1] m 0, flush, .put c [2] m 0, flush])).1 = some [2] := by
  decide +kernel

end Korith.Nixl
