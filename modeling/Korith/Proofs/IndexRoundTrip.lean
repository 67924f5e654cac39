import Korith.Amf.IndexFile
import Korith.Amf.Inv

/-!
# The index file is read as it was written

`load_index` of the bytes that `flush_index` writes gives back the entries, with the defaults of `loadedEntry` filled
in. What a load has filled in stays at the next one, whatever version the first file had. Only the state depends on
the clock of the load, and the expiry of an entry that was never used and whose filled-in expiry wrapped to 0.
-/

namespace Korith.Amf

variable {F : Type} {d : DoubleBits F} {x y : AmfEntry F} {xs recs : List (AmfEntry F)} {v : IndexVersion}
  {bytes rest : List Byte}

/-! ### One record -/

/-- The values are those of the fields' types. -/
structure AmfEntry.Fits (d : DoubleBits F) (x : AmfEntry F) : Prop where
  fields : ∀ f ∈ x.fields d, f.2 < 256 ^ f.1
  emaSavedMs : d.ofBits (d.bits x.emaSavedMs) = x.emaSavedMs
  emaRestoreMs : d.ofBits (d.bits x.emaRestoreMs) = x.emaRestoreMs
  emaRoi : d.ofBits (d.bits x.emaRoi) = x.emaRoi

theorem AmfKey.fields_lt (key : AmfKey) : ∀ f ∈ key.fields, f.2 < 256 ^ f.1 := by
  have h64 (b : BitVec 64) : b.toNat < 256 ^ 8 := b.isLt
  have h32 (b : BitVec 32) : b.toNat < 256 ^ 4 := b.isLt
  simp only [AmfKey.fields, List.forall_mem_cons, List.not_mem_nil, false_imp_iff, implies_true, and_true]
  exact ⟨h64 _, h64 _, h64 _, h32 _, h32 _, h32 _, h32 _, h64 _, h64 _⟩

theorem sum_recordWidths (v : IndexVersion) : (recordWidths v).sum = recordSize v := by
  cases v <;> decide

theorem length_indexRecord : (indexRecord d x).length = recordSize .v9 := by
  have hwidths : (x.key.fields ++ x.fields d).map Prod.fst = recordWidths .v9 := rfl
  rw [indexRecord, length_packFields, hwidths, sum_recordWidths]

theorem EntryState.ofByte_toByte (s : EntryState) : EntryState.ofByte s.toByte = s := by
  cases s <;> rfl

theorem EntryState.toByte_lt (s : EntryState) : s.toByte < 256 ^ 1 := by
  cases s <;> decide

theorem keyOfFields_fields (key : AmfKey) : keyOfFields .v9 (key.fields.map Prod.snd) = some key := by
  simp [AmfKey.fields, keyOfFields]

theorem entryOfFields_fields (h : x.Fits d) : entryOfFields d x.key ((x.fields d).map Prod.snd) = some x := by
  simp [AmfEntry.fields, entryOfFields, h.emaSavedMs, h.emaRestoreMs, h.emaRoi, EntryState.ofByte_toByte]

theorem readRecord_indexRecord (h : x.Fits d) : readRecord d .v9 (indexRecord d x ++ rest) = some x := by
  have hlt : ∀ f ∈ x.key.fields ++ x.fields d, f.2 < 256 ^ f.1 := by
    intro f hf
    rcases List.mem_append.mp hf with hf | hf
    · exact x.key.fields_lt f hf
    · exact h.fields f hf
  have hread : unpackFields (recordWidths .v9) (indexRecord d x ++ rest) =
      some (x.key.fields.map Prod.snd ++ (x.fields d).map Prod.snd) := by
    rw [← List.map_append]
    exact unpackFields_packFields _ hlt rest
  have hlen : (keyWidths .v9).length = (x.key.fields.map Prod.snd).length := rfl
  rw [readRecord, hread, hlen, Option.bind_some, List.take_left, List.drop_left, keyOfFields_fields, Option.bind_some,
    entryOfFields_fields h]

theorem entryOfFields_fits {key : AmfKey} {ns : List Nat} (h : entryOfFields d key ns = some x)
    (hlt : List.Forall₂ (fun w n => n < 256 ^ w) entryWidths ns) : x.Fits d := by
  unfold entryOfFields at h
  split at h
  case h_1 =>
    cases h
    simp only [entryWidths, List.forall₂_cons] at hlt
    obtain ⟨-, hprefixLen, -, hseen, hrestore, hsaved, hrestoreMs, hroi, hfailure, hblock, hsavedMs, hhit, hlastUsed,
      hlastHit, hlowRoi, -, hkv, haccess, haccesses, hstored, hexpires, hsize, -, -, -, -⟩ := hlt
    refine ⟨?_, d.ofBits_bits _ hsaved, d.ofBits_bits _ hrestoreMs, d.ofBits_bits _ hroi⟩
    simp only [AmfEntry.fields, List.forall_mem_cons, List.not_mem_nil, false_imp_iff, implies_true, and_true]
    exact ⟨BitVec.isLt _, hprefixLen, by decide, hseen, hrestore, d.bits_lt _, d.bits_lt _, d.bits_lt _, hfailure,
      hblock, hsavedMs, hhit, hlastUsed, hlastHit, hlowRoi, by decide, hkv, haccess, haccesses, hstored, hexpires,
      hsize, BitVec.isLt _, EntryState.toByte_lt _, by decide⟩
  case h_2 => cases h

theorem readRecord_fits (h : readRecord d v bytes = some x) : x.Fits d := by
  obtain ⟨fields, hfields, h⟩ := Option.bind_eq_some_iff.mp h
  obtain ⟨key, -, h⟩ := Option.bind_eq_some_iff.mp h
  have hlt := List.forall₂_drop (keyWidths v).length (unpackFields_lt hfields)
  rw [recordWidths, List.drop_left] at hlt
  exact entryOfFields_fits h hlt

section Load

variable [FloatArith F] {e : Env F} {w w' : World F}

/-! ### What a load fills in -/

/-- A loaded entry: all but the state is as in the file, or was 0 there and may be filled in. -/
structure Reloaded (x y : AmfEntry F) : Prop where
  same : y = { x with
    modelHash := y.modelHash
    sizeBytes := y.sizeBytes
    lastAccessTimeMs := y.lastAccessTimeMs
    expiresAtMs := y.expiresAtMs
    state := y.state }
  modelHash : x.modelHash ≠ 0 → y.modelHash = x.modelHash
  sizeBytes : x.sizeBytes ≠ 0 → y.sizeBytes = x.sizeBytes
  lastAccessTimeMs : x.lastAccessTimeMs ≠ 0 → y.lastAccessTimeMs = x.lastAccessTimeMs
  expiresAtMs : x.expiresAtMs ≠ 0 → y.expiresAtMs = x.expiresAtMs

theorem reloaded_loadedEntry (e : Env F) (now : Nat) (x : AmfEntry F) : Reloaded x (loadedEntry e now x) where
  same := rfl
  modelHash h := if_neg h
  sizeBytes h := if_neg h
  lastAccessTimeMs h := if_neg h
  expiresAtMs h := if_neg fun hx => h hx.1

/-- An entry that is loaded again: all but the state is as it was, and the expiry unless it was 0 for an entry that was
never used. -/
structure Resaved (e : Env F) (x y : AmfEntry F) : Prop where
  same : y = { x with expiresAtMs := y.expiresAtMs, state := y.state }
  expiresAtMs : y.expiresAtMs = x.expiresAtMs ∨ x.expiresAtMs = 0 ∧ x.lastAccessTimeMs = 0 ∧ 0 < e.defaultTtlMs

structure Filled (e : Env F) (x : AmfEntry F) : Prop where
  modelHash : x.modelHash = 0 → x.key.modelHash = 0
  sizeBytes : x.sizeBytes = 0 → x.kvSize = 0
  lastAccessTimeMs : x.lastAccessTimeMs = 0 → x.lastUsed = 0
  expiresAtMs : x.expiresAtMs = 0 → 0 < e.defaultTtlMs → 0 < x.lastAccessTimeMs →
    u64 (x.lastAccessTimeMs + effectiveTtlMs e x.accessCount) = 0

section Default

variable {α : Type} [DecidableEq α] {a b z : α}

theorem default_of_filled (h : (if a = z then b else a) = z) : b = z := by
  split_ifs at h with ha
  · exact h
  · exact absurd h ha

theorem filled_of_default (h : a = z → b = z) : (if a = z then b else a) = a := by
  split_ifs with ha
  · exact (h ha).trans ha.symm
  · rfl

end Default

theorem filled_loadedEntry (e : Env F) (now : Nat) (x : AmfEntry F) : Filled e (loadedEntry e now x) where
  modelHash h := default_of_filled h
  sizeBytes h := default_of_filled h
  lastAccessTimeMs h := default_of_filled h
  expiresAtMs h httl hlast := by
    change (if x.expiresAtMs = 0 ∧ 0 < e.defaultTtlMs then
      u64 ((if 0 < (loadedEntry e now x).lastAccessTimeMs then (loadedEntry e now x).lastAccessTimeMs else now) +
        effectiveTtlMs e x.accessCount) else x.expiresAtMs) = 0 at h
    rw [if_pos hlast] at h
    split_ifs at h with h0
    · exact h
    · exact absurd ⟨h, httl⟩ h0

theorem Filled.resaved (h : Filled e x) (now : Nat) : Resaved e x (loadedEntry e now x) := by
  have hmodel : (loadedEntry e now x).modelHash = x.modelHash := filled_of_default h.modelHash
  have hsize : (loadedEntry e now x).sizeBytes = x.sizeBytes := filled_of_default h.sizeBytes
  have hlast : (loadedEntry e now x).lastAccessTimeMs = x.lastAccessTimeMs := filled_of_default h.lastAccessTimeMs
  have hexpires : (loadedEntry e now x).expiresAtMs =
      if x.expiresAtMs = 0 ∧ 0 < e.defaultTtlMs then
        u64 ((if 0 < (loadedEntry e now x).lastAccessTimeMs then (loadedEntry e now x).lastAccessTimeMs else now) +
          effectiveTtlMs e x.accessCount)
      else x.expiresAtMs := rfl
  rw [hlast] at hexpires
  refine ⟨?_, ?_⟩
  · have hsame := (reloaded_loadedEntry e now x).same
    rw [hmodel, hsize, hlast] at hsame
    exact hsame
  · by_cases h0 : x.expiresAtMs = 0 ∧ 0 < e.defaultTtlMs
    · rw [if_pos h0] at hexpires
      by_cases hused : 0 < x.lastAccessTimeMs
      · rw [if_pos hused, h.expiresAtMs h0.1 h0.2 hused] at hexpires
        exact .inl (hexpires.trans h0.1.symm)
      · exact .inr ⟨h0.1, by omega, h0.2⟩
    · rw [if_neg h0] at hexpires
      exact .inl hexpires

theorem AmfEntry.Fits.loadedEntry (h : x.Fits d) (e : Env F) (now : Nat) : (loadedEntry e now x).Fits d := by
  have hlt := h.fields
  simp only [AmfEntry.fields, List.forall_mem_cons, List.not_mem_nil, false_imp_iff, implies_true, and_true] at hlt
  obtain ⟨hmodel, hprefixLen, hreserved, hseen, hrestore, hsaved, hrestoreMs, hroi, hfailure, hblock, hsavedMs, hhit,
    hlastUsed, hlastHit, hlowRoi, hreserved', hkv, haccess, haccesses, hstored, hexpires, hsize, hchecksum, -, hlast⟩ :=
    hlt
  refine ⟨?_, h.emaSavedMs, h.emaRestoreMs, h.emaRoi⟩
  simp only [AmfEntry.fields, List.forall_mem_cons, List.not_mem_nil, false_imp_iff, implies_true, and_true]
  refine ⟨BitVec.isLt _, hprefixLen, hreserved, hseen, hrestore, hsaved, hrestoreMs, hroi, hfailure, hblock, hsavedMs,
    hhit, hlastUsed, hlastHit, hlowRoi, hreserved', hkv, ?_, haccesses, hstored, ?_, ?_, hchecksum,
    EntryState.toByte_lt _, hlast⟩
  · dsimp only [Amf.loadedEntry]
    split_ifs
    · exact hlastUsed
    · exact haccess
  · dsimp only [Amf.loadedEntry]
    split
    · exact Nat.mod_lt _ (by decide)
    · exact hexpires
  · dsimp only [Amf.loadedEntry]
    split_ifs
    · exact hkv
    · exact hsize

/-! ### The file -/

theorem loadLoop_records (h : ∀ x ∈ xs, x.Fits d) (c : Hash) (w : World F) :
    loadLoop e d .v9 xs.length (xs.flatMap (indexRecord d)) c w =
      (some (xs.foldl (fun h x => hashBytes h (indexRecord d x)) c), loadRecords e xs w) := by
  induction xs generalizing c w with
  | nil => rfl
  | cons x xs ih =>
    rw [List.flatMap_cons, List.length_cons, loadLoop, readRecord_indexRecord (h x List.mem_cons_self)]
    dsimp only
    rw [List.take_left' length_indexRecord, List.drop_left' length_indexRecord,
      ih fun y hy => h y (List.mem_cons_of_mem _ hy)]
    rfl

variable {checksum count version : Nat}

theorem unpackFields_indexHeader (hv : version < 256 ^ 4) (hn : count < 256 ^ 8)
    (hc : checksum < 256 ^ 8) : unpackFields headerWidths (indexHeader version count checksum ++ rest) =
      some [kIndexMagic, version, count, checksum] := by
  refine unpackFields_packFields [(4, kIndexMagic), (4, version), (8, count), (8, checksum)] ?_ rest
  simp only [List.forall_mem_cons, List.not_mem_nil, false_imp_iff, implies_true, and_true]
  exact ⟨by decide, hv, hn, hc⟩

theorem length_indexHeader : (indexHeader version count checksum).length = headerSize := by
  rw [indexHeader, length_packFields]
  rfl

def World.reloaded (e : Env F) (recs : List (AmfEntry F)) (w : World F) : World F :=
  let w := loadRecords e recs { w.next with store := w.store.cleared }.next
  { w with store := { w.store with
      stats := { w.store.stats with entries := w.store.entries.length, bytes := w.store.totalBytes } } }

theorem loadIndexBytes_indexBytes (hlen : xs.length ≤ 2 ^ 20) (h : ∀ x ∈ xs, x.Fits d) :
    loadIndexBytes e d (some (indexBytes d xs)) w = (true, w.reloaded e xs) := by
  have hcount : xs.length < 256 ^ 8 := by omega
  unfold loadIndexBytes indexBytes
  dsimp only
  rw [unpackFields_indexHeader (by decide) hcount (BitVec.isLt _)]
  dsimp only
  rw [if_neg (fun h => h rfl), if_pos rfl, List.drop_left' length_indexHeader, loadBody, if_neg (by omega),
    loadLoop_records h]
  exact if_neg (fun h => h rfl)

theorem loadIndexBytes_eq_loadIndex (hlen : xs.length ≤ 2 ^ 20) (h : ∀ x ∈ xs, x.Fits d)
    (hdisk : w.disk.indexFile = some xs) (hread : e.readStops w.next.tick = none) :
    loadIndexBytes e d (some (indexBytes d xs)) w = (true, loadIndex e w) := by
  have hfile : ({ w.next with store := w.store.cleared } : World F).disk.indexFile = some xs := hdisk
  have hstops : e.readStops ({ w.next with store := w.store.cleared } : World F).tick = none := hread
  rw [loadIndexBytes_indexBytes hlen h, loadIndex, hfile]
  dsimp only
  rw [if_neg (by omega), hstops]
  rfl

/-! ### The entries after a load -/

theorem reloaded_entries (e : Env F) (recs : List (AmfEntry F)) (w : World F) :
    List.Forall₂ (fun x y => ∃ now, y = loadedEntry e now x) recs (w.reloaded e recs).store.entries := by
  obtain ⟨ys, hentries, hys⟩ := loadRecords_entries e recs { w.next with store := w.store.cleared }.next
  have heq : (w.reloaded e recs).store.entries = ys := hentries
  rw [heq]
  exact hys

theorem entries_of_reloaded (hfits : ∀ x ∈ recs, x.Fits d) (w : World F) :
    ∀ y ∈ (w.reloaded e recs).store.entries, y.Fits d ∧ Filled e y := by
  have hboth := (List.forall₂_and_left _ _).2 ⟨hfits, reloaded_entries e recs w⟩
  have hright : List.Forall₂ (fun y _ => (y.Fits d ∧ Filled e y) ∧ True) (w.reloaded e recs).store.entries recs := by
    refine .flip (hboth.imp ?_)
    rintro x y ⟨hx, now, rfl⟩
    exact ⟨⟨hx.loadedEntry e now, filled_loadedEntry e now x⟩, trivial⟩
  exact ((List.forall₂_and_left _ _).1 hright).1

/-! ### Files of older versions -/

theorem loadLoop_eq_some {n : Nat} {c c' : Hash} (h : loadLoop e d v n bytes c w = (some c', w')) :
    ∃ recs, recs.length = n ∧ (∀ x ∈ recs, x.Fits d) ∧ w' = loadRecords e recs w := by
  induction n generalizing bytes c w with
  | zero =>
    cases h
    exact ⟨[], rfl, by simp, rfl⟩
  | succ n ih =>
    rw [loadLoop] at h
    split at h
    · cases h
    · rename_i rec hrec
      obtain ⟨recs, hlen, hfits, rfl⟩ := ih h
      refine ⟨rec :: recs, by rw [List.length_cons, hlen], ?_, rfl⟩
      intro x hx
      rcases List.mem_cons.mp hx with rfl | hx
      · exact readRecord_fits hrec
      · exact hfits x hx

theorem loadBody_eq_true
    (h : loadBody e d v version count checksum bytes { w.next with store := w.store.cleared } = (true, w')) :
    ∃ recs, recs.length ≤ 2 ^ 20 ∧ (∀ x ∈ recs, x.Fits d) ∧ w' = w.reloaded e recs := by
  unfold loadBody at h
  by_cases hcount : 2 ^ 20 < count
  · rw [if_pos hcount] at h
    cases h
  rw [if_neg hcount] at h
  split at h
  · cases h
  · rename_i found w₁ hloop
    obtain ⟨recs, hlen, hfits, rfl⟩ := loadLoop_eq_some hloop
    by_cases hsum : found.toNat ≠ checksum
    · rw [if_pos hsum] at h
      cases h
    · rw [if_neg hsum] at h
      cases h
      exact ⟨recs, by omega, hfits, rfl⟩

def IsVersion8 (bytes : List Byte) : Prop :=
  ∃ count checksum, unpackFields headerWidths bytes = some [kIndexMagic, kIndexVersionV8, count, checksum]

theorem IsVersion8.load (hv : IsVersion8 bytes) (h : loadIndexBytes e d (some bytes) w = (true, w')) :
    ∃ recs, recs.length ≤ 2 ^ 20 ∧ (∀ x ∈ recs, x.Fits d) ∧ w' = w.reloaded e recs := by
  obtain ⟨count, checksum, hheader⟩ := hv
  unfold loadIndexBytes at h
  dsimp only at h
  rw [hheader] at h
  dsimp only at h
  rw [if_neg (fun h => h rfl), if_neg (by decide), if_pos rfl] at h
  exact loadBody_eq_true h

/-! ### Round trips -/

/-- A flushed index is loaded as it was, with zeros filled in; what was migrated from version 8 stays when it is
flushed and loaded again, up to the state and to the expiry of an entry that was never used, if it is 0. -/
theorem index_round_trip (d : DoubleBits F) (e : Env F) :
    (∀ (xs : List (AmfEntry F)) (w : World F), xs.length ≤ 2 ^ 20 → (∀ x ∈ xs, x.Fits d) →
      (xs.map AmfEntry.key).Nodup →
      ∃ w', loadIndexBytes e d (some (indexBytes d xs)) w = (true, w') ∧
        w'.store.enabled = true ∧
        List.Forall₂ Reloaded xs w'.store.entries ∧
        Indexed AmfEntry.key w'.store.entries w'.store.index ∧
        w'.store.totalBytes = (w'.store.entries.map AmfEntry.sizeBytes).sum) ∧
    ∀ (bytes : List Byte) (w w' : World F), IsVersion8 bytes →
      loadIndexBytes e d (some bytes) w = (true, w') →
      ∀ w₂ : World F, ∃ w₃, loadIndexBytes e d (some (indexBytes d w'.store.entries)) w₂ = (true, w₃) ∧
        List.Forall₂ (Resaved e) w'.store.entries w₃.store.entries := by
  constructor
  · intro xs w hlen hfits hnodup
    refine ⟨_, loadIndexBytes_indexBytes hlen hfits, ?_, ?_, ?_, ?_⟩
    · exact loadRecords_same.1
    · refine (reloaded_entries e xs w).imp ?_
      rintro x y ⟨now, rfl⟩
      exact reloaded_loadedEntry e now x
    · exact loadRecords_indexed (w := { w.next with store := w.store.cleared }.next) Indexed.nil hnodup fun _ _ => rfl
    · exact loadRecords_sum (w := { w.next with store := w.store.cleared }.next) rfl
  · intro bytes w w' hv hload w₂
    obtain ⟨recs, hlen, hfits, rfl⟩ := hv.load hload
    have hentries := reloaded_entries e recs w
    have hlen' : (w.reloaded e recs).store.entries.length ≤ 2 ^ 20 := hentries.length_eq ▸ hlen
    have hmigrated := entries_of_reloaded hfits w (e := e)
    refine ⟨_, loadIndexBytes_indexBytes hlen' fun y hy => (hmigrated y hy).1, ?_⟩
    refine ((List.forall₂_and_left _ _).2 ⟨hmigrated, reloaded_entries e _ w₂⟩).imp ?_
    rintro y z ⟨⟨-, hfilled⟩, now, rfl⟩
    exact hfilled.resaved now

end Load

def fracBits : DoubleBits Frac where
  bits x := if x.den = 0 then 2 ^ 64 - 1 else x.num.toNat % (2 ^ 64 - 1)
  ofBits n := if n = 2 ^ 64 - 1 then ⟨0, 0⟩ else ⟨n, 1⟩
  bits_lt x := by
    split_ifs
    · decide
    · have := Nat.mod_lt x.num.toNat (show 0 < 2 ^ 64 - 1 by decide)
      omega
  ofBits_bits n hn := by
    by_cases h : n = 2 ^ 64 - 1
    · rw [if_pos h, if_pos rfl, if_pos rfl]
    · have hmod : n % (2 ^ 64 - 1) = n := Nat.mod_eq_of_lt (by omega)
      simp only [if_neg h, if_neg Nat.one_ne_zero, Int.toNat_natCast, hmod]

def legacyFile (lastUsed : Nat) : List Byte :=
  let record := packFields ((recordWidths .v8).zip
    [7, 1, 64, 1, 0, 0, 0, 0, 7, 2, 0, 0, 0, 0, 0, 0, 0, 0, 0, 0, lastUsed, 0, 0, 0, 30, 0, 0, 0, 0, 0, 0, 0, 0])
  let checksum := hashBytes (hashBytes kFNVOffset (indexHeader kIndexVersionV8 1 0)) record
  indexHeader kIndexVersionV8 1 checksum.toNat ++ record

theorem isVersion8_legacyFile (lastUsed : Nat) : IsVersion8 (legacyFile lastUsed) :=
  ⟨_, _, unpackFields_indexHeader (by decide) (by decide) (BitVec.isLt _)⟩

def twoTenants : List (AmfEntry Frac) :=
  [newEntry smallEnv (tenant 1) [5, 6] [1, 2] 9 1000 none, newEntry smallEnv (tenant 2) [5, 6] [3] 4 2000 none]

theorem twoTenants_length : twoTenants.length ≤ 2 ^ 20 := by
  rw [twoTenants, List.length_cons, List.length_singleton]
  omega

theorem twoTenants_fits : ∀ x ∈ twoTenants, x.Fits fracBits := by
  simp only [twoTenants, List.forall_mem_cons, List.not_mem_nil, false_imp_iff, implies_true, and_true]
  exact ⟨⟨by decide +kernel, by decide, by decide, by decide⟩, ⟨by decide +kernel, by decide, by decide, by decide⟩⟩

theorem loadIndexBytes_twoTenants : let w := { emptyWorld with disk.indexFile := some twoTenants }
    loadIndexBytes smallEnv fracBits (some (indexBytes fracBits twoTenants)) w = (true, loadIndex smallEnv w) :=
  loadIndexBytes_eq_loadIndex twoTenants_length twoTenants_fits rfl rfl

theorem index_round_trip_two_tenants :
    (∃ w', loadIndexBytes smallEnv fracBits (some (indexBytes fracBits twoTenants)) emptyWorld = (true, w') ∧
      List.Forall₂ Reloaded twoTenants w'.store.entries) ∧
    ∃ w₁ w₂, loadIndexBytes smallEnv fracBits (some (legacyFile 3000)) emptyWorld = (true, w₁) ∧
      w₁.store.entries.length = 1 ∧
      loadIndexBytes smallEnv fracBits (some (indexBytes fracBits w₁.store.entries)) w₁ = (true, w₂) ∧
      List.Forall₂ (Resaved smallEnv) w₁.store.entries w₂.store.entries := by
  obtain ⟨hfile, hlegacy⟩ := index_round_trip fracBits smallEnv
  have hkeys : (twoTenants.map AmfEntry.key).Nodup := by decide +kernel
  obtain ⟨w', hload, -, hentries, -⟩ := hfile twoTenants emptyWorld twoTenants_length twoTenants_fits hkeys
  have hok : (loadIndexBytes smallEnv fracBits (some (legacyFile 3000)) emptyWorld).1 = true := by decide +kernel
  have hone : (loadIndexBytes smallEnv fracBits (some (legacyFile 3000)) emptyWorld).2.store.entries.length = 1 := by
    decide +kernel
  generalize hfirst : loadIndexBytes smallEnv fracBits (some (legacyFile 3000)) emptyWorld = first at hok hone
  obtain ⟨ok, w₁⟩ := first
  obtain rfl : ok = true := hok
  obtain ⟨w₂, hload₂, hentries₂⟩ := hlegacy _ _ _ (isVersion8_legacyFile 3000) hfirst w₁
  exact ⟨⟨w', hload, hentries⟩, w₁, w₂, rfl, hone, hload₂, hentries₂⟩

def wrappingEnv : Env Frac :=
  { smallEnv with clock := fun n => 2048 * (n + 1), defaultTtlMs := 2 ^ 64 - 6144, maxTtlMs := 2 ^ 64 - 6144 }

def reloadAgain (e : Env Frac) (w : World Frac) : Bool × World Frac :=
  loadIndexBytes e fracBits (some (indexBytes fracBits w.store.entries)) w

/-- A migrated entry is cold when it is loaded again; and one that was never used gets another expiry. -/
theorem migrated_entries_change : let used := loadIndexBytes smallEnv fracBits (some (legacyFile 3000)) emptyWorld
    let unused := loadIndexBytes wrappingEnv fracBits (some (legacyFile 0)) emptyWorld
    IsVersion8 (legacyFile 3000) ∧ used.1 = true ∧ (reloadAgain smallEnv used.2).1 = true ∧
    used.2.store.entries.map AmfEntry.state = [.hot] ∧
    (reloadAgain smallEnv used.2).2.store.entries.map AmfEntry.state = [.cold] ∧
    IsVersion8 (legacyFile 0) ∧ unused.1 = true ∧ (reloadAgain wrappingEnv unused.2).1 = true ∧
    unused.2.store.entries.map AmfEntry.expiresAtMs = [0] ∧
    (reloadAgain wrappingEnv unused.2).2.store.entries.map AmfEntry.expiresAtMs = [6144] := by
  refine ⟨isVersion8_legacyFile _, ?_, ?_, ?_, ?_, isVersion8_legacyFile _, ?_, ?_, ?_, ?_⟩ <;> decide +kernel

end Korith.Amf
