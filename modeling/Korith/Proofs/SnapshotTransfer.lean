import Korith.Platform.Snapshots
import Korith.Proofs.CorruptionVerdict

/-!
# Whether a transferred snapshot is usable

`fetch_snapshot` sends the bytes of a file and not its sidecar, and `_cache_snapshot_from_blob` writes no sidecar
either. What the check before the adapter finds is the sidecar that the cached path had before the transfer: none, or
the one of an older snapshot, and then the bytes that have just arrived count as corrupt.
-/

namespace Korith.Snapshots

open Governance (Capabilities applyGovernance verdict_applyGovernance)

variable {sha256 : List UInt8 → String} {q : Expected} {p p₀ : Path} {d : Disk} {m m₀ : Meta} {blob : Blob}
  {env : Env} {caps : Capabilities} {c c' : Cluster} {w : String} {call : Call} {node : Node} {now : Int}
  {fp : String} {wk : Worker}

/-! ### What a valid sidecar says -/

def describes (sha256 : List UInt8 → String) (q : Expected) (blob : Blob) : Meta :=
  ⟨metaFormat, q.fingerprintHash, q.modelHash, q.tokenizerHash, q.nCtx, q.kvLayoutVersion, sha256 blob.bytes⟩

theorem validate_eq_ok_iff : validateSnapshotMetadata sha256 q p d = .ok m ↔
    ∃ blob, d.read p = some blob ∧ d.metas p = some m ∧ m = describes sha256 q blob ∧ sha256 blob.bytes ≠ "" := by
  unfold validateSnapshotMetadata
  constructor
  · intro h
    cases hread : d.read p with
    | none => simp [hread] at h
    | some blob =>
      cases hmeta : d.metas p with
      | none => simp [hread, hmeta] at h
      | some m' =>
        simp only [hread, hmeta] at h
        split_ifs at h with hformat hfp hmodel htokenizer hlayout hctx hempty hsum
        obtain rfl := Except.ok.inj h
        simp only [ne_eq, Decidable.not_not] at hformat hfp hmodel htokenizer hlayout hctx hsum
        refine ⟨blob, rfl, rfl, ?_, hsum ▸ hempty⟩
        obtain ⟨format, fp, model, tokenizer, nCtx, layout, checksum⟩ := m'
        dsimp only at hformat hfp hmodel htokenizer hlayout hctx hsum
        rw [describes, hformat, hfp, hmodel, htokenizer, hlayout, hctx, hsum]
  · rintro ⟨blob, hread, hmeta, rfl, hne⟩
    simp [hread, hmeta, describes, hne]

theorem validate_iff_of_describes (hread : d.read p = some blob) (hm₀ : m₀ = describes sha256 q blob)
    (hne : sha256 blob.bytes ≠ "") : (∃ m, validateSnapshotMetadata sha256 q p d = .ok m) ↔ d.metas p = some m₀ := by
  constructor
  · rintro ⟨m, hm⟩
    obtain ⟨blob', hread', hmeta, rfl, -⟩ := validate_eq_ok_iff.1 hm
    cases hread.symm.trans hread'
    rw [hmeta, hm₀]
  · intro hmeta
    exact ⟨m₀, validate_eq_ok_iff.2 ⟨blob, hread, hmeta, hm₀, hne⟩⟩

/-! ### A transfer -/

def targetPath (env : Env) (w jobId : String) (blob : Blob) : Path :=
  (env.workers w).cachePath (env.jobs jobId).fingerprintHash blob.bytes.length

/-- The transfer is good for the job: the cached path has the sidecar `m₀`, or nothing is checked. -/
def Passes (env : Env) (caps : Capabilities) (w jobId : String) (blob : Blob) (m₀ : Meta) (c : Cluster) : Prop :=
  (caps.kvReplay && caps.deterministicSeeding) = false ∨ env.isKvTransferSnapshot blob.bytes = true ∨
    (c.disk (env.workers w).machine).metas (targetPath env w jobId blob) = some m₀

theorem cacheSnapshotFromBlob_read :
    (wk.cacheSnapshotFromBlob fp blob now d).2.read (wk.cachePath fp blob.bytes.length) = some blob := by
  rw [Worker.cacheSnapshotFromBlob, Worker.read_enforce, Disk.read_write, if_pos rfl]

theorem cacheSnapshotFromBlob_metas : (wk.cacheSnapshotFromBlob fp blob now d).2.metas = d.metas := by
  rw [Worker.cacheSnapshotFromBlob, Worker.metas_enforce, Disk.metas_write]

theorem working_validate : (c.validate env w call caps).working w =
    let checked := checkInput env caps (env.expected (env.workers w) call.jobId) call.mfSnapshotIn
      (c.disk (env.workers w).machine)
    some { call with mfSnapshotIn := checked.1, stage := .validated, corruption := checked.2 } :=
  Function.update_self ..

/-- After the transfer the cached path has the bytes of the source and its old sidecar, and this is what is checked. -/
theorem run_transfer_validate (caps : Capabilities) (now : Int) (hcall : c.callAt w .promoted = some call)
    (hinput : call.mfSnapshotIn = none)
    (hfetch : c.fetchSnapshot env.tierRank node (env.jobs call.jobId).fingerprintHash (env.jobs call.jobId).orgId =
      some (p₀, blob)) :
    ∃ c' call' d, Run.run (Cluster.step env) [.transfer w (some node) now, .validate w caps] c = some c' ∧
      c'.working w = some call' ∧ c'.disk (env.workers w).machine = d ∧
      d.read (targetPath env w call.jobId blob) = some blob ∧ d.metas = (c.disk (env.workers w).machine).metas ∧
      (call'.mfSnapshotIn, call'.corruption) =
        checkInput env caps (env.expected (env.workers w) call.jobId) (some (targetPath env w call.jobId blob)) d := by
  have hsent : c.transfer env w call (some node) now =
      (c.publish (env.workers w) (env.jobs call.jobId).fingerprintHash (env.jobs call.jobId).orgId (.job call.jobId)
        (targetPath env w call.jobId blob)
        ((env.workers w).cacheSnapshotFromBlob (env.jobs call.jobId).fingerprintHash blob now
          (c.disk (env.workers w).machine)).2 now).setCall w
        (some { call with mfSnapshotIn := some (targetPath env w call.jobId blob), stage := .transferred }) := by
    simp only [Cluster.transfer, hinput, Cluster.transferSnapshot, Option.bind_some, hfetch]
    rfl
  have hstep : Cluster.step env c (.transfer w (some node) now) = some (c.transfer env w call (some node) now) := by
    rw [Cluster.step, hcall, Option.map_some]
  have hat : (c.transfer env w call (some node) now).callAt w .transferred =
      some { call with mfSnapshotIn := some (targetPath env w call.jobId blob), stage := .transferred } := by
    rw [hsent]
    exact Cluster.callAt_eq_some_iff.2 ⟨Function.update_self .., rfl⟩
  have hdisk : (c.transfer env w call (some node) now).disk (env.workers w).machine =
      ((env.workers w).cacheSnapshotFromBlob (env.jobs call.jobId).fingerprintHash blob now
        (c.disk (env.workers w).machine)).2 := by
    rw [hsent, Cluster.setCall, Cluster.publish_disk, Function.update_self]
  refine ⟨(c.transfer env w call (some node) now).validate env w
    { call with mfSnapshotIn := some (targetPath env w call.jobId blob), stage := .transferred } caps, _, _, ?_,
    working_validate, hdisk, cacheSnapshotFromBlob_read, cacheSnapshotFromBlob_metas, ?_⟩
  · rw [Run.run, hstep, Option.bind_some, Run.run, Cluster.step, hat]
    rfl
  · rw [hdisk]

theorem not_verdict_iff {T : Type} [CommRing T] [LinearOrder T] {cfg : Governance.Config T}
    {metrics : Governance.AmfMetrics T} {corruption : Bool} {nowEpoch nowTs : T}
    {state : Option (Governance.Row String T)} (hstate : ∀ row ∈ state, row.Coherent ∧ ¬ row.Verdict) :
    ¬ (applyGovernance cfg fp metrics corruption nowEpoch nowTs state).Verdict ↔ corruption = false := by
  rw [(verdict_applyGovernance fun row hrow => (hstate row hrow).1).2, not_or, Bool.not_eq_true]
  constructor
  · rintro ⟨h, -⟩
    exact h
  · intro h
    refine ⟨h, ?_⟩
    rintro ⟨row, hrow, hverdict⟩
    exact (hstate row hrow).2 hverdict

/-- The cached file passes its check, the job keeps it without a record of corruption, and its fingerprint gets no
verdict, in exactly the states in which the cached path has the same sidecar already (or, for the last two, nothing is
checked). -/
theorem transferred_usable_iff {T : Type} [CommRing T] [LinearOrder T]
    (hcall : c.callAt w .promoted = some call) (hinput : call.mfSnapshotIn = none)
    (hfetch : c.fetchSnapshot env.tierRank node (env.jobs call.jobId).fingerprintHash (env.jobs call.jobId).orgId =
      some (p₀, blob))
    (hvalid : validateSnapshotMetadata env.sha256 (env.expected (env.workers w) call.jobId) p₀ (c.disk node.machine) =
      .ok m₀) :
    ∃ c' call', Run.run (Cluster.step env) [.transfer w (some node) now, .validate w caps] c = some c' ∧
      c'.working w = some call' ∧
      ((∃ m, validateSnapshotMetadata env.sha256 (env.expected (env.workers w) call.jobId)
          (targetPath env w call.jobId blob) (c'.disk (env.workers w).machine) = .ok m) ↔
        (c.disk (env.workers w).machine).metas (targetPath env w call.jobId blob) = some m₀) ∧
      (call'.mfSnapshotIn = some (targetPath env w call.jobId blob) ↔ Passes env caps w call.jobId blob m₀ c) ∧
      (call'.corruption = false ↔ Passes env caps w call.jobId blob m₀ c) ∧
      ∀ (cfg : Governance.Config T) (metrics : Governance.AmfMetrics T) (nowEpoch nowTs : T)
        (state : Option (Governance.Row String T)), (∀ row ∈ state, row.Coherent ∧ ¬ row.Verdict) →
        (¬ (applyGovernance cfg (env.jobs call.jobId).fingerprintHash metrics call'.corruption nowEpoch nowTs
          state).Verdict ↔ Passes env caps w call.jobId blob m₀ c) := by
  obtain ⟨blob', hread₀, -, hm₀, hne⟩ := validate_eq_ok_iff.1 hvalid
  cases (Cluster.fetchSnapshot_eq_some hfetch).1.symm.trans hread₀
  obtain ⟨c', call', d, hrun, hworking, hdisk, hread, hmetas, hadmit⟩ := run_transfer_validate caps now hcall hinput hfetch
  have htarget := validate_iff_of_describes hread hm₀ hne
  rw [hmetas] at htarget
  refine ⟨c', call', hrun, hworking, hdisk ▸ htarget, ?_⟩
  -- the input and the record follow the same check
  have hcheck : (call'.mfSnapshotIn = some (targetPath env w call.jobId blob) ↔ Passes env caps w call.jobId blob m₀ c) ∧
      (call'.corruption = false ↔ Passes env caps w call.jobId blob m₀ c) := by
    have hcases := checkInput_cases env caps (env.expected (env.workers w) call.jobId) (targetPath env w call.jobId blob) d
    rw [htarget, hread, Option.map_some, Option.some.injEq, ← hadmit] at hcases
    rcases hcases with ⟨hpair, hok⟩ | ⟨hpair, hno⟩ <;> obtain ⟨hin, hcorr⟩ := Prod.mk.inj hpair <;> rw [hin, hcorr]
    · exact ⟨iff_of_true rfl hok, iff_of_true rfl hok⟩
    · exact ⟨iff_of_false (fun h => by cases h) hno, iff_of_false (fun h => by cases h) hno⟩
  refine ⟨hcheck.1, hcheck.2, fun cfg metrics nowEpoch nowTs state hstate => ?_⟩
  rw [not_verdict_iff hstate]
  exact hcheck.2

/-- Two workers with caches of two bytes, each on a machine of its own; all jobs but one have one fingerprint. -/
def twoNodes : Env where
  cwd := []
  baseDir := .ofText "/artifacts".toList
  jobs jobId := ⟨"org", if jobId = "other" then "g" else "f", "model", "tokenizer", 4096⟩
  workers w :=
    { nodeId := w, machine := w, snapshotDir := fun _ => "cache", vramMaxBytes := 4, ramMaxBytes := 8,
      cacheMaxBytes := fun _ => 2, promoteOnRestore := true, hasIndex := true, kvLayoutVersion := "v1" }
  tierRank _ := 0
  sha256 bytes := String.ofList (bytes.map fun b => Char.ofNat b.toNat)
  loads _ := none

def allCaps : Capabilities := ⟨true, true, true, true, true⟩

def serve (w jobId : String) (bytes : List UInt8) (now : Int) : List Event :=
  [.take w jobId now, .promote w true now, .transfer w none now, .validate w allCaps, .run w (some bytes) now,
    .finish w true true now]

def lookUp (w jobId : String) (now : Int) : List Event := [.take w jobId now, .promote w true now]

/-- The same bytes were in the cache of the second node before, and have been evicted: their sidecar is still there. -/
theorem transferred_usable_after_eviction :
    ∃ c c' call, Run.run (Cluster.step twoNodes) (serve "n2" "j1" [1, 1] 0 ++ serve "n1" "j2" [1, 1] 1 ++
        serve "n2" "other" [2] 2 ++ lookUp "n2" "j3" 3) .start = some c ∧
      Run.run (Cluster.step twoNodes) [.transfer "n2" (some ⟨"n1", "n1"⟩) 4, .validate "n2" allCaps] c = some c' ∧
      c'.working "n2" = some call ∧ call.mfSnapshotIn = some (.cached "cache" "f") ∧ call.corruption = false := by
  let history := serve "n2" "j1" [1, 1] 0 ++ serve "n1" "j2" [1, 1] 1 ++ serve "n2" "other" [2] 2 ++ lookUp "n2" "j3" 3
  let sidecar := describes twoNodes.sha256 (twoNodes.expected (twoNodes.workers "n2") "j3") ⟨[1, 1], "j2"⟩
  have hsome : (Run.run (Cluster.step twoNodes) history .start).isSome := by decide +kernel
  obtain ⟨c, hc⟩ := Option.isSome_iff_exists.1 hsome
  have hstate : ∀ c ∈ Run.run (Cluster.step twoNodes) history .start,
      c.callAt "n2" .promoted = some ⟨"j3", none, .promoted, false⟩ ∧
      c.fetchSnapshot twoNodes.tierRank ⟨"n1", "n1"⟩ "f" "org" = some (.cached "cache" "f", ⟨[1, 1], "j2"⟩) ∧
      validateSnapshotMetadata twoNodes.sha256 (twoNodes.expected (twoNodes.workers "n2") "j3") (.cached "cache" "f")
        (c.disk "n1") = .ok sidecar ∧
      (c.disk "n2").metas (.cached "cache" "f") = some sidecar := by
    decide +kernel
  obtain ⟨hcall, hfetch, hvalid, hsidecar⟩ := hstate c hc
  obtain ⟨c', call, hrun, hworking, -, hinput, hcorruption, -⟩ :=
    transferred_usable_iff (T := Int) hcall rfl hfetch hvalid
  have hpasses : Passes twoNodes allCaps "n2" "j3" ⟨[1, 1], "j2"⟩ sidecar c := .inr (.inr hsidecar)
  exact ⟨c, c', call, hc, hrun, hworking, hinput.2 hpasses, hcorruption.2 hpasses⟩

/-- The first transfer of a snapshot to a node: it is valid on its source, arrives whole, and is dropped as corrupt;
the fingerprint gets a verdict. -/
theorem transferred_counts_as_corrupt :
    ∃ c ∈ Run.run (Cluster.step twoNodes) (serve "n1" "j1" [1, 1] 0 ++ lookUp "n2" "j2" 1) .start,
      c.fetchSnapshot twoNodes.tierRank ⟨"n1", "n1"⟩ "f" "org" = some (.cached "cache" "f", ⟨[1, 1], "j1"⟩) ∧
      (validateSnapshotMetadata twoNodes.sha256 (twoNodes.expected (twoNodes.workers "n2") "j2") (.cached "cache" "f")
        (c.disk "n1")).isOk ∧
      ∃ c' ∈ Run.run (Cluster.step twoNodes) [.transfer "n2" (some ⟨"n1", "n1"⟩) 2, .validate "n2" allCaps] c,
        (c'.disk "n2").read (.cached "cache" "f") = some ⟨[1, 1], "j1"⟩ ∧
        validateSnapshotMetadata twoNodes.sha256 (twoNodes.expected (twoNodes.workers "n2") "j2") (.cached "cache" "f")
          (c'.disk "n2") = .error "snapshot_meta_missing" ∧
        c'.working "n2" = some ⟨"j2", none, .validated, true⟩ ∧
        (applyGovernance (⟨3, 60⟩ : Governance.Config Int) "f" ⟨false, 0, 0, 0⟩ true 2 2 none).Verdict := by
  decide +kernel

end Korith.Snapshots
