import Korith.Platform.LedgerStore

/-!
# What `prune_snapshot_locations` removes

The rows beyond the limit are found per location, and each is deleted by its fingerprint, org and snapshot id, on
whatever node. So the rows of the limit stay, and are counted right, exactly if none of them has the snapshot id of
a row of its group beyond the limit.
-/

namespace Korith.LedgerStore

open RowNumber

variable {t t' : Locations} {scan : List LocationRow} {n deleted : Nat} {k : PyStr × PyStr}

structure Exact (n : Nat) (t t' : Locations) (deleted : Nat) : Prop where
  kept : ∀ r ∈ t', r ∈ t
  size : ∀ k, (t'.rows.filter fun r => decide (r.group = k)).length =
    min n (t.rows.filter fun r => decide (r.group = k)).length
  newest : ∀ r ∈ t', ∀ r' ∈ t, r' ∉ t' → r.group = r'.group → strLe r'.lastUsedAt r.lastUsedAt = true
  untouched : ∀ k, (t.rows.filter fun r => decide (r.group = k)).length ≤ n → ∀ r ∈ t, r.group = k → r ∈ t'
  count : deleted = (t.rows.filter fun r => decide (r ∉ t'.rows)).length

def Apart (n : Nat) (scan : List LocationRow) : Prop :=
  ∀ r ∈ upTo LocationRow.group n scan, ∀ r' ∈ beyond LocationRow.group n scan,
    r.group = r'.group → r.snapshotId ≠ r'.snapshotId

def LocationRow.victimKey (r : LocationRow) : PyStr × PyStr × PyStr := (r.fingerprintHash, r.orgId, r.snapshotId)

theorem deleteLoop_eq (keys : List (PyStr × PyStr × PyStr)) (deleted : Nat) (t : Locations) :
    (deleteLoop keys (deleted, t)).1 = deleted + keys.length ∧
      (deleteLoop keys (deleted, t)).2.rows = t.rows.filter fun r => decide (r.victimKey ∉ keys) := by
  induction keys generalizing deleted t with
  | nil => simp [deleteLoop]
  | cons key keys ih =>
    obtain ⟨fp, orgId, snapshotId⟩ := key
    obtain ⟨hcount, hrows⟩ := ih (deleted + 1) (t.deleteWhere fun r =>
      decide (r.fingerprintHash = fp) && decide (r.orgId = orgId) && decide (r.snapshotId = snapshotId))
    rw [deleteLoop]
    refine ⟨by rw [hcount, List.length_cons]; omega, ?_⟩
    rw [hrows, Table.deleteWhere, List.filter_filter]
    refine List.filter_congr fun r _ => ?_
    rw [Bool.eq_iff_iff, Bool.and_eq_true, decide_eq_true_eq, decide_eq_true_eq, List.mem_cons, LocationRow.victimKey,
      Prod.mk.injEq, Prod.mk.injEq]
    simp only [Bool.not_eq_eq_eq_not, Bool.not_true, Bool.and_eq_false_iff, decide_eq_false_iff_not]
    tauto

/-- Some row beyond the limit is deleted with the statement that deletes `r`. -/
def Hit (n : Nat) (scan : List LocationRow) (r : LocationRow) : Prop :=
  r.victimKey ∈ (beyond LocationRow.group n scan).map LocationRow.victimKey
  deriving Decidable

variable {r : LocationRow}

theorem victimKey_eq_iff {r' : LocationRow} :
    r.victimKey = r'.victimKey ↔ r.group = r'.group ∧ r.snapshotId = r'.snapshotId := by
  simp only [LocationRow.victimKey, LocationRow.group, Prod.mk.injEq, and_assoc]

theorem apart_iff : Apart n scan ↔ ∀ r ∈ upTo LocationRow.group n scan, ¬ Hit n scan r := by
  constructor
  · intro h r hr hhit
    obtain ⟨r', hr', hkey⟩ := List.mem_map.1 hhit
    obtain ⟨hgroup, hid⟩ := victimKey_eq_iff.1 hkey
    exact h r hr r' hr' hgroup.symm hid.symm
  · intro h r hr r' hr' hgroup hid
    exact h r hr (List.mem_map.2 ⟨r', hr', (victimKey_eq_iff.2 ⟨hgroup, hid⟩).symm⟩)

structure Pruned (n : Nat) (scan : List LocationRow) (t t' : Locations) (deleted : Nat) : Prop where
  rows : t'.rows = t.rows.filter fun r => decide (¬ Hit n scan r)
  deleted : deleted = (beyond LocationRow.group n scan).length

theorem prune_eq {n : Int} (hn : 1 ≤ n) (scan : List LocationRow) (t : Locations) :
    (fits64 n = true ∧ ∃ deleted t', pruneSnapshotLocations n scan t = .ok (deleted, t') ∧
        Pruned n.toNat scan t t' deleted) ∨
      (fits64 n = false ∧ pruneSnapshotLocations n scan t = .error .dataError) := by
  rw [pruneSnapshotLocations, if_neg (by omega)]
  cases fits64 n with
  | false => exact .inr ⟨rfl, rfl⟩
  | true =>
    obtain ⟨hcount, hrows⟩ := deleteLoop_eq ((beyond LocationRow.group n.toNat scan).map LocationRow.victimKey) 0 t
    refine .inl ⟨rfl, _, _, rfl, hrows, ?_⟩
    exact hcount.trans (by rw [Nat.zero_add, List.length_map])

section

variable (hscan : Scans t scan) (h : Pruned n scan t t' deleted)

include h in
theorem Pruned.mem : r ∈ t' ↔ r ∈ t ∧ ¬ Hit n scan r := by
  rw [← Table.mem_rows, h.rows, List.mem_filter, decide_eq_true_eq, Table.mem_rows]

include hscan h in
theorem Pruned.removed : (t.rows.filter fun r => decide (r ∉ t'.rows)).length =
    ((upTo LocationRow.group n scan).filter fun r => decide (Hit n scan r)).length + deleted := by
  have hgone : (t.rows.filter fun r => decide (r ∉ t'.rows)) = t.rows.filter fun r => decide (Hit n scan r) := by
    refine List.filter_congr fun r hr => ?_
    rw [decide_eq_decide, Table.mem_rows, h.mem]
    have hr : r ∈ t := hr
    tauto
  have hbeyond : ((beyond LocationRow.group n scan).filter fun r => decide (Hit n scan r)) =
      beyond LocationRow.group n scan :=
    List.filter_eq_self.2 fun r hr => decide_eq_true (List.mem_map.2 ⟨r, hr, rfl⟩)
  have hperm := ((perm_upTo_beyond LocationRow.group n scan).trans hscan.1).filter fun r => decide (Hit n scan r)
  rw [hgone, ← hperm.length_eq, List.filter_append, List.length_append, hbeyond, h.deleted]

include hscan h in
theorem Pruned.perm (hapart : Apart n scan) : t'.rows.Perm (upTo LocationRow.group n scan) := by
  have hwithin : ((upTo LocationRow.group n scan).filter fun r => decide (¬ Hit n scan r)) =
      upTo LocationRow.group n scan :=
    List.filter_eq_self.2 fun r hr => decide_eq_true (apart_iff.1 hapart r hr)
  have hbeyond : ((beyond LocationRow.group n scan).filter fun r => decide (¬ Hit n scan r)) = [] :=
    List.filter_eq_nil_iff.2 fun r hr hnot => of_decide_eq_true hnot (List.mem_map.2 ⟨r, hr, rfl⟩)
  have hperm := ((perm_upTo_beyond LocationRow.group n scan).trans hscan.1).filter fun r => decide (¬ Hit n scan r)
  rw [List.filter_append, hwithin, hbeyond, List.append_nil, ← h.rows] at hperm
  exact hperm.symm

include hscan h in
theorem Pruned.exact_iff : Exact n t t' deleted ↔ Apart n scan := by
  have hremoved := h.removed hscan
  constructor
  · intro hexact
    have hnone : ((upTo LocationRow.group n scan).filter fun r => decide (Hit n scan r)).length = 0 := by
      have hcount := hexact.count
      omega
    refine apart_iff.2 fun r hr hhit => ?_
    exact List.filter_eq_nil_iff.1 (List.length_eq_zero_iff.1 hnone) r hr (decide_eq_true hhit)
  · intro hapart
    have hperm := h.perm hscan hapart
    have hsize : ∀ k, (t'.rows.filter fun r => decide (r.group = k)).length =
        min n (t.rows.filter fun r => decide (r.group = k)).length := by
      intro k
      rw [(hperm.filter _).length_eq, filter_upTo, List.length_take, (hscan.1.filter _).length_eq]
    have hkept : ∀ r ∈ t', r ∈ t := fun r hr => (h.mem.1 hr).1
    refine ⟨hkept, hsize, ?_, ?_, ?_⟩
    · intro r hr r' hr' hgone hgroup
      have hbeyond : r' ∈ beyond LocationRow.group n scan := by
        have hr' := (perm_upTo_beyond LocationRow.group n scan).mem_iff.2 (hscan.1.mem_iff.2 hr')
        exact (List.mem_append.1 hr').resolve_left fun hwithin => hgone (hperm.mem_iff.2 hwithin)
      exact rel_of_upTo_beyond hscan.2 (hperm.mem_iff.1 hr) hbeyond hgroup
    · rintro k hsmall r hr rfl
      have hwithin : r ∈ upTo LocationRow.group n scan := by
        have hmem : r ∈ (scan.filter fun r' => decide (r'.group = r.group)).take n := by
          rw [List.take_of_length_le (by rwa [(hscan.1.filter _).length_eq])]
          exact List.mem_filter.2 ⟨hscan.1.mem_iff.2 hr, by simp⟩
        rw [← filter_upTo] at hmem
        exact (List.mem_filter.1 hmem).1
      exact hperm.mem_iff.2 hwithin
    · have hnone : ((upTo LocationRow.group n scan).filter fun r => decide (Hit n scan r)) = [] :=
        List.filter_eq_nil_iff.2 fun r hr hhit => apart_iff.1 hapart r hr (of_decide_eq_true hhit)
      rw [hremoved, hnone]
      simp

end

theorem prune_exact_iff {n : Int} (hn : 1 ≤ n) (hscan : Scans t scan) :
    (∃ deleted t', pruneSnapshotLocations n scan t = .ok (deleted, t') ∧ Exact n.toNat t t' deleted) ↔
      fits64 n = true ∧ Apart n.toNat scan := by
  rcases prune_eq hn scan t with ⟨hfits, deleted, t', hprune, hpruned⟩ | ⟨hfits, hprune⟩
  · rw [hprune, ← hpruned.exact_iff hscan]
    constructor
    · rintro ⟨d, u, heq, hexact⟩
      cases heq
      exact ⟨hfits, hexact⟩
    · rintro ⟨-, hexact⟩
      exact ⟨_, _, rfl, hexact⟩
  · rw [hprune, hfits]
    constructor
    · rintro ⟨d, u, heq, -⟩
      cases heq
    · rintro ⟨hfalse, -⟩
      cases hfalse

def location (nodeId snapshotId lastUsedAt : PyStr) : LocationRow :=
  ⟨[0x66], snapshotId, [0x6f], nodeId, none, [], 0, [], lastUsedAt⟩

theorem prune_exact_three : let scan := [location [1] [1] [9], location [1] [2] [8], location [1] [3] [7]]
    let t : Locations := ⟨scan, by decide⟩
    (1 : Int) ≤ 2 ∧ Scans t scan ∧
      ∃ deleted t', pruneSnapshotLocations 2 scan t = .ok (deleted, t') ∧ Exact 2 t t' deleted := by
  intro scan t
  have hscan : Scans t scan := ⟨.refl _, by decide⟩
  exact ⟨by decide, hscan, (prune_exact_iff (by decide) hscan).2 ⟨by decide, by unfold Apart; decide +kernel⟩⟩

/-- One snapshot on two nodes, of which one may stay: both go, and one is counted. -/
theorem prune_removes_newest : let scan := [location [1] [1] [9], location [2] [1] [8]]
    let t : Locations := ⟨scan, by decide⟩
    Scans t scan ∧ pruneSnapshotLocations 1 scan t = .ok (1, Table.empty) ∧ ¬ Exact 1 t Table.empty 1 := by
  intro scan t
  refine ⟨⟨.refl _, by decide⟩, by decide +kernel, fun h => ?_⟩
  exact absurd h.count (by decide)

end Korith.LedgerStore
