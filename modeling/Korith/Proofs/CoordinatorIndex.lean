import Korith.Platform.Coordinator

/-!
# The coordinator's maps and its table agree

Both maps and the table are images of one relation, which record a node has under a key (`Index.record`). Each write
is described by what it does to that relation and to the table. In between, `heartbeat` and `evict` leave the map of a
node's keys behind, so the invariant is split: `Stored` is about the records and the table, `Consistent` adds the
keys.
-/

namespace Korith.Coordinator

variable {M T : Type} {py : Strings} {json : Json M} {s s' : Index M T} {k k' n n' : Text} {r : Record M T}

/-! ### Writes to the maps -/

theorem record_of_lookup {b : Bucket M T} (h : s.entriesByKey.lookup k = some b) : s.record k n = b.lookup n := by
  rw [Index.record, Index.bucket, h, Option.getD_some]

theorem record_eq_none (h : s.entriesByKey.lookup k = none) : s.record k n = none := by
  rw [Index.record, Index.bucket, h, Option.getD_none, AList.lookup_empty]

theorem record_congr (h : s'.entriesByKey.lookup k = s.entriesByKey.lookup k) : s'.record k n = s.record k n := by
  rw [Index.record, Index.record, Index.bucket, Index.bucket, h]

theorem record_putEntry : (putEntry k n r s).record k' n' = if k' = k ∧ n' = n then some r else s.record k' n' := by
  by_cases hk : k' = k
  · subst hk
    rw [record_of_lookup (AList.lookup_insert _)]
    by_cases hn : n' = n
    · subst hn
      rw [if_pos ⟨rfl, rfl⟩, AList.lookup_insert]
    · rw [if_neg fun h => hn h.2, AList.lookup_insert_ne hn, Index.record]
  · rw [if_neg fun h => hk h.1]
    exact record_congr (AList.lookup_insert_ne hk)

theorem record_dropEntry : (dropEntry n k s).record k' n' = if k' = k ∧ n' = n then none else s.record k' n' := by
  by_cases hk : k' = k
  · subst hk
    have hbucket : (dropEntry n k' s).record k' n' = ((s.bucket k').erase n).lookup n' := by
      by_cases hempty : ((s.bucket k').erase n).entries.isEmpty = true
      · have hnil : (s.bucket k').erase n = ∅ := AList.ext (List.isEmpty_iff.1 hempty)
        rw [record_eq_none, hnil, AList.lookup_empty]
        simp [dropEntry, deleteRecord, hempty]
      · refine record_of_lookup ?_
        simp [dropEntry, deleteRecord, hempty]
    rw [hbucket]
    by_cases hn : n' = n
    · subst hn
      rw [if_pos ⟨rfl, rfl⟩, AList.lookup_erase]
    · rw [if_neg fun h => hn h.2, AList.lookup_erase_ne hn, Index.record]
  · rw [if_neg fun h => hk h.1]
    refine record_congr ?_
    simp only [dropEntry, deleteRecord]
    split_ifs
    · exact AList.lookup_erase_ne hk
    · exact AList.lookup_insert_ne hk

theorem mem_keysOf_addKey : k' ∈ (addKey n k s).keysOf n' ↔ n' = n ∧ k' = k ∨ k' ∈ s.keysOf n' := by
  by_cases hn : n' = n
  · subst hn
    simp only [Index.keysOf, addKey, AList.lookup_insert, Option.getD_some, List.mem_insert_iff, true_and]
  · simp only [Index.keysOf, addKey, AList.lookup_insert_ne hn, hn, false_and, false_or]

/-! ### The table -/

theorem find_persistRecord : (persistRecord json k n r s).db.find (k', n') =
      if k' = k ∧ n' = n then some (rowOf json k n r) else s.db.find (k', n') := by
  rw [persistRecord, Table.find_insertOrReplace]
  have : (rowOf json k n r).key = (k', n') ↔ k' = k ∧ n' = n := by
    rw [DbRow.key, rowOf, Prod.mk.injEq, eq_comm, and_congr_right_iff]
    exact fun _ => eq_comm
  simp [this]

theorem find_deleteRecord :
    (deleteRecord k n s).db.find (k', n') = if k' = k ∧ n' = n then none else s.db.find (k', n') := by
  rw [deleteRecord, Table.find_deleteWhere]
  split_ifs with h
  · obtain ⟨rfl, rfl⟩ := h
    rw [Option.filter_eq_none_iff]
    intro row hrow
    simp [(Table.find_eq_some_iff.1 hrow).2]
  · cases hfind : s.db.find (k', n') with
    | none => rfl
    | some row =>
      have hkey := (Table.find_eq_some_iff.1 hfind).2
      rw [Option.filter_some, if_pos]
      simp [hkey, h]

theorem find_dropEntry : (dropEntry n k s).db.find (k', n') = if k' = k ∧ n' = n then none else s.db.find (k', n') :=
  find_deleteRecord

theorem recordOf_rowOf (hn : r.nodeId = n) : recordOf json (rowOf json k n r) = r := by
  have hne : json.dumps r.metadata ≠ [] := by
    intro h
    have := json.loads_dumps r.metadata
    rw [h, json.loads_nil] at this
    cases this
  rw [recordOf, rowOf]
  simp only [if_neg hne, json.loads_dumps, Option.getD_some, ← hn]

/-! ### The invariant -/

structure Stored (json : Json M) (s : Index M T) : Prop where
  bucket : ∀ k b, s.entriesByKey.lookup k = some b → ∃ n, (b.lookup n).isSome = true
  table : ∀ k n, s.db.find (k, n) = (s.record k n).map (rowOf json k n)
  node : ∀ k n r, s.record k n = some r → r.nodeId = n

structure Consistent (json : Json M) (s : Index M T) : Prop extends Stored json s where
  keys : ∀ k n, k ∈ s.keysOf n ↔ (s.record k n).isSome = true

theorem Stored.write (h : Stored json s) (hr : r.nodeId = n) :
    Stored json (persistRecord json k n r (putEntry k n r s)) where
  bucket k' b hb := by
    by_cases hk : k' = k
    · subst hk
      cases (AList.lookup_insert _).symm.trans hb
      exact ⟨n, by rw [AList.lookup_insert]; rfl⟩
    · exact h.bucket k' b ((AList.lookup_insert_ne hk).symm.trans hb)
  table k' n' := by
    rw [find_persistRecord, show (persistRecord json k n r (putEntry k n r s)).record k' n' =
      (putEntry k n r s).record k' n' from rfl, record_putEntry]
    split_ifs with hkn
    · obtain ⟨rfl, rfl⟩ := hkn
      rfl
    · exact h.table k' n'
  node k' n' r' hr' := by
    have hrec : (putEntry k n r s).record k' n' = some r' := hr'
    rw [record_putEntry] at hrec
    split_ifs at hrec with hkn
    · cases hrec
      exact hr.trans hkn.2.symm
    · exact h.node k' n' r' hrec

theorem Stored.drop (h : Stored json s) : Stored json (dropEntry n k s) where
  bucket k' b hb := by
    simp only [dropEntry, deleteRecord] at hb
    split_ifs at hb with hempty
    · by_cases hk : k' = k
      · rw [hk, AList.lookup_erase] at hb
        cases hb
      · exact h.bucket k' b ((AList.lookup_erase_ne hk).symm.trans hb)
    · by_cases hk : k' = k
      · subst hk
        cases (AList.lookup_insert _).symm.trans hb
        -- a bucket that is not empty has an entry
        cases hentries : ((s.bucket k').erase n).entries with
        | nil => exact absurd (List.isEmpty_iff.2 hentries) hempty
        | cons e es =>
          refine ⟨e.1, AList.lookup_isSome.2 (AList.mem_keys.2 ?_)⟩
          rw [AList.keys, hentries]
          exact List.mem_cons_self
      · exact h.bucket k' b ((AList.lookup_insert_ne hk).symm.trans hb)
  table k' n' := by
    rw [record_dropEntry, find_dropEntry]
    split_ifs
    · rfl
    · exact h.table k' n'
  node k' n' r' hr' := by
    rw [record_dropEntry] at hr'
    split_ifs at hr'
    exact h.node k' n' r' hr'

/-! ### Heartbeats -/

def listed (py : Strings) (items : List (Option (Item M T))) : List Text :=
  items.filterMap fun item => item.bind (Item.key py)

/-- What the first loop does from `acc` on, with `items` to come. -/
structure Entered (py : Strings) (json : Json M) (node : Text) (items : List (Option (Item M T)))
    (acc res : List Text × Index M T) : Prop where
  stored : Stored json acc.2 → Stored json res.2
  newKeys : ∀ k, k ∈ res.1 ↔ k ∈ acc.1 ∨ k ∈ listed py items
  others : ∀ k n, n ≠ node → res.2.record k n = acc.2.record k n
  own : ∀ k, (res.2.record k node).isSome = true ↔ k ∈ listed py items ∨ (acc.2.record k node).isSome = true
  keysByNode : res.2.keysByNode = acc.2.keysByNode

theorem entered_heartbeatEntries (py : Strings) (json : Json M) (node : Text) (items : List (Option (Item M T)))
    (acc : List Text × Index M T) : Entered py json node items acc (heartbeatEntries py json node items acc) := by
  induction items generalizing acc with
  | nil => exact ⟨id, by simp [heartbeatEntries, listed], fun _ _ _ => rfl, by simp [heartbeatEntries, listed], rfl⟩
  | cons item items ih =>
    cases item with
    | none => exact ⟨(ih acc).stored, (ih acc).newKeys, (ih acc).others, (ih acc).own, (ih acc).keysByNode⟩
    | some item =>
      obtain ⟨newKeys, s⟩ := acc
      cases hkey : item.key py with
      | none =>
        have hlisted : listed py (some item :: items) = listed py items := by simp [listed, hkey]
        have hres : heartbeatEntries py json node (some item :: items) (newKeys, s) =
            heartbeatEntries py json node items (newKeys, s) := by simp [heartbeatEntries, hkey]
        have h := ih (newKeys, s)
        rw [hres]
        exact ⟨h.stored, hlisted ▸ h.newKeys, h.others, hlisted ▸ h.own, h.keysByNode⟩
      | some key =>
        have hlisted : listed py (some item :: items) = key :: listed py items := by simp [listed, hkey]
        set r := item.record py json node
        set acc' := (newKeys.insert key, persistRecord json key node r (putEntry key node r s)) with hacc'
        have hres : heartbeatEntries py json node (some item :: items) (newKeys, s) =
            heartbeatEntries py json node items acc' := by simp [heartbeatEntries, hkey, r, acc']
        have hrec : ∀ k n, acc'.2.record k n = if k = key ∧ n = node then some r else s.record k n :=
          fun _ _ => record_putEntry
        have h := ih acc'
        rw [hres]
        refine ⟨fun hs => h.stored (hs.write rfl), fun k => ?_, fun k n hn => ?_, fun k => ?_, h.keysByNode⟩
        · rw [h.newKeys, hlisted, hacc', List.mem_insert_iff, List.mem_cons]
          tauto
        · rw [h.others k n hn, hrec, if_neg fun hkn => hn hkn.2]
        · rw [h.own, hlisted, List.mem_cons, hrec]
          by_cases hk : k = key
          · simp [hk]
          · simp [hk]

theorem stored_dropEntries (h : Stored json s) (node : Text) (stale : List Text) :
    Stored json (stale.foldl (fun s key => dropEntry node key s) s) := by
  induction stale generalizing s with
  | nil => exact h
  | cons key stale ih => exact ih h.drop

theorem record_dropEntries (node : Text) (stale : List Text) (s : Index M T) :
    (stale.foldl (fun s key => dropEntry node key s) s).record k n =
      if k ∈ stale ∧ n = node then none else s.record k n := by
  induction stale generalizing s with
  | nil => simp
  | cons key stale ih =>
    rw [List.foldl_cons, ih, record_dropEntry]
    by_cases hk : k = key
    · by_cases hn : n = node <;> simp [hk, hn]
    · simp [hk]

theorem keysByNode_dropEntries (node : Text) (stale : List Text) (s : Index M T) :
    (stale.foldl (fun s key => dropEntry node key s) s).keysByNode = s.keysByNode := by
  induction stale generalizing s with
  | nil => rfl
  | cons key stale ih => exact ih _

structure Beaten (py : Strings) (json : Json M) (node : Text) (items : List (Option (Item M T)))
    (s s' : Index M T) : Prop where
  consistent : Consistent json s'
  own : ∀ k, (s'.record k node).isSome = true ↔ k ∈ listed py items
  others : ∀ k n, n ≠ node → s'.record k n = s.record k n

variable (h : Consistent json s)

include h

theorem Consistent.heartbeat {nodeId : Text} (hnode : py.strip nodeId ≠ []) (items : List (Option (Item M T))) :
    Beaten py json (py.strip nodeId) items s (heartbeat py json nodeId items s) := by
  unfold Coordinator.heartbeat
  dsimp only
  rw [if_neg hnode]
  set node := py.strip nodeId
  have he := entered_heartbeatEntries py json node items ([], s)
  generalize heartbeatEntries py json node items ([], s) = res at he
  obtain ⟨newKeys, s₁⟩ := res
  have hnew : ∀ k, k ∈ newKeys ↔ k ∈ listed py items := fun k => by simpa using he.newKeys k
  have hkeys₁ : s₁.keysByNode = s.keysByNode := he.keysByNode
  have hold : ∀ n, s₁.keysOf n = s.keysOf n := fun n => by rw [Index.keysOf, Index.keysOf, hkeys₁]
  set stale := (s₁.keysOf node).filter fun key => decide (key ∉ newKeys) with hstale
  set s₂ := stale.foldl (fun s key => dropEntry node key s) s₁ with hs₂
  have hmem : ∀ k, k ∈ stale ↔ (s.record k node).isSome = true ∧ k ∉ listed py items := by
    intro k
    rw [hstale, List.mem_filter, hold, h.keys, decide_eq_true_eq, hnew]
  -- under a key that is not listed the node had a record before, or has none
  have hown : ∀ k, (s₂.record k node).isSome = true ↔ k ∈ listed py items := by
    intro k
    rw [hs₂, record_dropEntries]
    split_ifs with hk
    · simpa using ((hmem k).1 hk.1).2
    · rw [he.own]
      have hnot : k ∉ stale := fun hk' => hk ⟨hk', rfl⟩
      rw [hmem] at hnot
      dsimp only
      tauto
  have hothers : ∀ k n, n ≠ node → s₂.record k n = s.record k n := by
    intro k n hn
    rw [hs₂, record_dropEntries, if_neg fun hk => hn hk.2]
    exact he.others k n hn
  have hst : Stored json s₂ := stored_dropEntries (he.stored h.toStored) node stale
  refine ⟨⟨⟨hst.bucket, hst.table, hst.node⟩, fun k n => ?_⟩, hown, hothers⟩
  show k ∈ ((s₂.keysByNode.insert node newKeys).lookup n).getD [] ↔ (s₂.record k n).isSome = true
  by_cases hn : n = node
  · subst hn
    rw [AList.lookup_insert, Option.getD_some, hnew, hown]
  · rw [AList.lookup_insert_ne hn, hothers k n hn, ← h.keys, hs₂, keysByNode_dropEntries, hkeys₁]
    rfl

/-! ### Registrations and evictions -/

theorem Consistent.register (tenantId prefixHash nodeId workerId : Text) (metadata : M)
    (now : T) : Consistent json (register py json tenantId prefixHash nodeId workerId metadata now s) := by
  unfold Coordinator.register
  dsimp only
  split_ifs
  · exact h
  all_goals
    generalize hr : (Record.mk _ _ _ _ _ _ : Record M T) = r
    set key := composite py tenantId prefixHash
    set node := py.strip nodeId
    have hnode : r.nodeId = node := by rw [← hr]
    have hst : Stored json (persistRecord json key node r (putEntry key node r s)) := h.toStored.write hnode
    refine ⟨⟨hst.bucket, hst.table, hst.node⟩, fun k n => ?_⟩
    show k ∈ (addKey node key (putEntry key node r s)).keysOf n ↔ ((putEntry key node r s).record k n).isSome = true
    have hold : (putEntry key node r s).keysOf n = s.keysOf n := rfl
    rw [mem_keysOf_addKey, record_putEntry, hold, h.keys]
    by_cases hk : k = key
    · by_cases hn : n = node <;> simp [hk, hn]
    · simp [hk]

/-- The loop of `evict` leaves the entries alone. -/
structure Removed (key : Text) (nodes : List Text) (s s' : Index M T) : Prop where
  entriesByKey : s'.entriesByKey = s.entriesByKey
  table : ∀ k n, s'.db.find (k, n) = if k = key ∧ n ∈ nodes then none else s.db.find (k, n)
  keys : ∀ k n, k ∈ s'.keysOf n ↔ k ∈ s.keysOf n ∧ ¬ (k = key ∧ n ∈ nodes)

omit h in
theorem removed_evictFrom (key : Text) (nodes : List Text) (s : Index M T) :
    Removed key nodes s (nodes.foldl (fun s node => evictFrom key node s) s) := by
  induction nodes generalizing s with
  | nil => exact ⟨rfl, by simp, by simp⟩
  | cons node nodes ih =>
    have h := ih (evictFrom key node s)
    rw [List.foldl_cons]
    refine ⟨h.entriesByKey, fun k n => ?_, fun k n => ?_⟩
    · have hfind : (evictFrom key node s).db.find (k, n) =
          if k = key ∧ n = node then none else s.db.find (k, n) := find_deleteRecord
      rw [h.table, hfind]
      by_cases hk : k = key
      · by_cases hn : n = node <;> simp [hk, hn]
      · simp [hk]
    · have hkeys : k ∈ (evictFrom key node s).keysOf n ↔ k ∈ s.keysOf n ∧ ¬ (k = key ∧ n = node) := by
        by_cases hn : n = node
        · subst hn
          simp [Index.keysOf, evictFrom, deleteRecord]
        · simp [Index.keysOf, evictFrom, deleteRecord, AList.lookup_insert_ne hn, hn]
      rw [h.keys, hkeys, List.mem_cons]
      tauto

theorem Consistent.evict (tenantId prefixHash : Text) : Consistent json (evict py tenantId prefixHash s).1 := by
  unfold Coordinator.evict
  dsimp only
  set key := composite py tenantId prefixHash
  have hrem := removed_evictFrom key (s.bucket key).keys { s with entriesByKey := s.entriesByKey.erase key }
  set s' := (s.bucket key).keys.foldl (fun s node => evictFrom key node s)
    { s with entriesByKey := s.entriesByKey.erase key }
  have hbucket : ∀ n, n ∈ (s.bucket key).keys ↔ (s.record key n).isSome = true := by
    intro n
    rw [← AList.mem_keys, ← AList.lookup_isSome, Index.record]
  have hrec : ∀ k n, s'.record k n = if k = key then none else s.record k n := by
    intro k n
    split_ifs with hk
    · subst hk
      exact record_eq_none ((congrArg (AList.lookup key) hrem.entriesByKey).trans (AList.lookup_erase ..))
    · exact record_congr ((congrArg (AList.lookup k) hrem.entriesByKey).trans (AList.lookup_erase_ne hk))
  refine ⟨⟨fun k b hb => ?_, fun k n => ?_, fun k n r hr => ?_⟩, fun k n => ?_⟩
  · rw [hrem.entriesByKey] at hb
    by_cases hk : k = key
    · rw [hk, AList.lookup_erase] at hb
      cases hb
    · exact h.bucket k b ((AList.lookup_erase_ne hk).symm.trans hb)
  · rw [hrem.table, hrec]
    by_cases hk : k = key
    · -- a node without a record under the key has no row either
      subst hk
      rw [if_pos rfl]
      split_ifs with hn
      · rfl
      · rw [h.table, Option.not_isSome_iff_eq_none.1 fun hs => hn ⟨rfl, (hbucket n).2 hs⟩]
    · rw [if_neg hk, if_neg fun hkn => hk hkn.1]
      exact h.table k n
  · rw [hrec] at hr
    split_ifs at hr
    exact h.node k n r hr
  · rw [hrem.keys, hrec, hbucket, show Index.keysOf { s with entriesByKey := s.entriesByKey.erase key } n = s.keysOf n
      from rfl, h.keys]
    by_cases hk : k = key
    · subst hk
      simp [Option.isSome_iff_ne_none]
    · simp [hk]

/-! ### Loading -/

/-- What the loop of `_load_from_db` makes of the rows still to come. -/
structure Loaded (json : Json M) (rows : List (DbRow T)) (s s' : Index M T) : Prop where
  record : ∀ k n, s'.record k n =
    ((rows.find? fun row => decide (row.key = (k, n))).map (recordOf json)).or (s.record k n)
  keys : ∀ k n, k ∈ s'.keysOf n ↔ (∃ row ∈ rows, row.key = (k, n)) ∨ k ∈ s.keysOf n
  bucket : (∀ k b, s.entriesByKey.lookup k = some b → ∃ n, (b.lookup n).isSome = true) →
    ∀ k b, s'.entriesByKey.lookup k = some b → ∃ n, (b.lookup n).isSome = true
  db : s'.db = s.db

omit h in
theorem loaded_foldl (json : Json M) (rows : List (DbRow T)) (hnodup : (rows.map DbRow.key).Nodup) (s : Index M T) :
    Loaded json rows s (rows.foldl (fun s row => addKey row.nodeId row.compositeKey
      (putEntry row.compositeKey row.nodeId (recordOf json row) s)) s) := by
  induction rows generalizing s with
  | nil => exact ⟨fun _ _ => rfl, by simp, id, rfl⟩
  | cons row rows ih =>
    rw [List.map_cons, List.nodup_cons] at hnodup
    rw [List.foldl_cons]
    set s₁ := addKey row.nodeId row.compositeKey (putEntry row.compositeKey row.nodeId (recordOf json row) s)
    have h := ih hnodup.2 s₁
    have hkey : ∀ k n, row.key = (k, n) ↔ k = row.compositeKey ∧ n = row.nodeId := by
      intro k n
      rw [DbRow.key, Prod.mk.injEq, eq_comm, and_congr_right_iff]
      exact fun _ => eq_comm
    refine ⟨fun k n => ?_, fun k n => ?_, fun hb => h.bucket fun k b hb' => ?_, h.db⟩
    · have hrec : s₁.record k n = if k = row.compositeKey ∧ n = row.nodeId then some (recordOf json row)
          else s.record k n := record_putEntry
      rw [h.record, hrec, List.find?_cons]
      by_cases hk : row.key = (k, n)
      · -- no later row has the same key
        have hlater : (rows.find? fun row => decide (row.key = (k, n))) = none := by
          rw [List.find?_eq_none]
          intro row' hrow' heq
          exact hnodup.1 (List.mem_map.2 ⟨row', hrow', (of_decide_eq_true heq).trans hk.symm⟩)
        rw [hlater, if_pos ((hkey k n).1 hk)]
        simp [hk]
      · rw [if_neg fun hkn => hk ((hkey k n).2 hkn)]
        simp [hk]
    · have hkeys : k ∈ s₁.keysOf n ↔ n = row.nodeId ∧ k = row.compositeKey ∨ k ∈ s.keysOf n := mem_keysOf_addKey
      rw [h.keys, hkeys, List.exists_mem_cons_iff, hkey, and_comm, or_assoc, or_left_comm]
    · by_cases hk : k = row.compositeKey
      · subst hk
        cases (AList.lookup_insert _).symm.trans hb'
        exact ⟨row.nodeId, by rw [AList.lookup_insert]; rfl⟩
      · exact hb k b ((AList.lookup_insert_ne hk).symm.trans hb')

omit h in
theorem loaded_loadFromDb (json : Json M) (db : Table (Text × Text) (DbRow T) DbRow.key) :
    (∀ k n, (loadFromDb json db).record k n = (db.find (k, n)).map (recordOf json)) ∧
      (∀ k n, k ∈ (loadFromDb json db).keysOf n ↔ (db.find (k, n)).isSome = true) ∧
      (∀ k b, (loadFromDb json db).entriesByKey.lookup k = some b → ∃ n, (b.lookup n).isSome = true) ∧
      (loadFromDb json db).db = db := by
  have h := loaded_foldl json db.rows db.nodup (⟨∅, ∅, db⟩ : Index M T)
  refine ⟨fun k n => ?_, fun k n => ?_, h.bucket (by simp), h.db⟩
  · rw [loadFromDb, h.record, record_eq_none (AList.lookup_empty _), Option.or_none]
    rfl
  · rw [loadFromDb, h.keys, Option.isSome_iff_exists]
    simp only [Index.keysOf, AList.lookup_empty, Option.getD_none, List.not_mem_nil, or_false,
      Table.find_eq_some_iff]
    rfl

/-! ### Runs -/

structure SameMaps (s s' : Index M T) : Prop where
  keys : ∀ k, (s'.entriesByKey.lookup k).isSome = (s.entriesByKey.lookup k).isSome
  records : ∀ k n, s'.record k n = s.record k n
  keysOf : ∀ k n, k ∈ s'.keysOf n ↔ k ∈ s.keysOf n

omit h in
theorem Stored.lookup_isSome (hb : ∀ k b, s.entriesByKey.lookup k = some b → ∃ n, (b.lookup n).isSome = true) :
    (s.entriesByKey.lookup k).isSome = true ↔ ∃ n, (s.record k n).isSome = true := by
  cases hlookup : s.entriesByKey.lookup k with
  | none => simp [record_eq_none hlookup]
  | some b =>
    obtain ⟨n, hn⟩ := hb k b hlookup
    simp only [Option.isSome_some, true_iff]
    exact ⟨n, by rw [record_of_lookup hlookup, hn]⟩

theorem Consistent.sameMaps : SameMaps s (loadFromDb json s.db) := by
  obtain ⟨hrec, hkeys, hbucket, -⟩ := loaded_loadFromDb json s.db
  have hrecords : ∀ k n, (loadFromDb json s.db).record k n = s.record k n := by
    intro k n
    rw [hrec, h.table, Option.map_map]
    cases hr : s.record k n with
    | none => rfl
    | some r => rw [Option.map_some, Function.comp_apply, recordOf_rowOf (h.node k n r hr)]
  refine ⟨fun k => ?_, hrecords, fun k n => ?_⟩
  · rw [Bool.eq_iff_iff, Stored.lookup_isSome hbucket, Stored.lookup_isSome h.bucket]
    simp only [hrecords]
  · rw [hkeys, h.keys, h.table, Option.isSome_map]

theorem Consistent.restart : Consistent json (loadFromDb json s.db) := by
  obtain ⟨-, -, hbucket, hdb⟩ := loaded_loadFromDb json s.db
  have hsame := h.sameMaps
  refine ⟨⟨hbucket, fun k n => ?_, fun k n r hr => ?_⟩, fun k n => ?_⟩
  · rw [hdb, hsame.records]
    exact h.table k n
  · exact h.node k n r ((hsame.records k n).symm.trans hr)
  · rw [hsame.keysOf, hsame.records]
    exact h.keys k n

theorem Consistent.step (op : Op M T) : Consistent json (step py json s op) := by
  cases op with
  | register tenantId prefixHash nodeId workerId metadata now => exact h.register ..
  | heartbeat nodeId entries =>
    by_cases hnode : py.strip nodeId = []
    · rw [Coordinator.step, Coordinator.heartbeat, if_pos hnode]
      exact h
    · exact (h.heartbeat hnode entries).consistent
  | evict tenantId prefixHash => exact h.evict ..
  | restart => exact h.restart

omit h

theorem consistent_run (ops : List (Op M T)) : Consistent json (run py json ops) := by
  have hstart : Consistent json (loadFromDb json Table.empty : Index M T) := by
    obtain ⟨hrec, hkeys, hbucket, hdb⟩ := loaded_loadFromDb json (Table.empty : Table _ (DbRow T) _)
    have hnone : ∀ kn, (Table.empty : Table _ (DbRow T) DbRow.key).find kn = none := fun _ => rfl
    refine ⟨⟨hbucket, fun k n => ?_, fun k n r hr => ?_⟩, fun k n => ?_⟩
    · rw [hdb, hrec, hnone]
      rfl
    · rw [hrec, hnone] at hr
      cases hr
    · rw [hkeys, hrec, hnone]
      rfl
  rw [run]
  generalize (loadFromDb json Table.empty : Index M T) = s at hstart
  induction ops generalizing s with
  | nil => exact hstart
  | cons op ops ih => exact ih _ (hstart.step op)

/-- After every sequence of registrations, heartbeats, evictions and restarts. A heartbeat leaves the node with the
keys that it lists, and the records of other nodes as they were. -/
theorem coordinator_consistent (ops : List (Op M T)) : Consistent json (run py json ops) ∧
      SameMaps (run py json ops) (loadFromDb json (run py json ops).db) ∧
      ∀ nodeId items, py.strip nodeId ≠ [] →
        Beaten py json (py.strip nodeId) items (run py json ops) (heartbeat py json nodeId items (run py json ops)) :=
  ⟨consistent_run ops, (consistent_run ops).sameMaps, fun _ items hnode => (consistent_run ops).heartbeat hnode items⟩

def demoStrings : Strings := ⟨Char.isAlphanum, Char.isWhitespace, fun s => s.map Char.toLower⟩

def demoJson : Json Unit where
  dumps _ := ['{', '}']
  loads t := if t = ['{', '}'] then some () else none
  empty := ()
  truthy _ := false
  loads_nil := rfl
  loads_dumps _ := rfl

/-- A node whose only key was evicted stays in `_keys_by_node` with an empty set; an index opened on the same
database does not know the node. -/
theorem evicted_node_not_reloaded :
    let s := run demoStrings demoJson [.register ['t'] ['1'] ['n'] ['w'] () (0 : Nat), .evict ['t'] ['1']]
    s.keysByNode.lookup ['n'] = some [] ∧ (loadFromDb demoJson s.db).keysByNode.lookup ['n'] = none := by
  decide

end Korith.Coordinator
