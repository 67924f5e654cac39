import Korith.Platform.Snapshots

/-!
# Whose snapshots a job reads

A snapshot can only reach a job by its fingerprint: the name of a cached file, the key of the restore store and the
rows of the index all carry it. The organization takes part in one of the three only. And a job records the
`mf_snapshot` file that it finds in its directory under its own fingerprint, whoever has written it. So a job reads
snapshots of its own organization in every history of some jobs if and only if none of these jobs share a fingerprint
or a directory across organizations.
-/

namespace Korith.Snapshots

open Governance (Capabilities)

variable {env : Env} {allowed : String → Prop} {c c' : Cluster} {d : Disk} {p : Path} {blob : Blob} {w : Worker}
  {worker jobId fp org : String} {snapshotId : SnapshotId} {call : Call} {node : Option Node} {now : Int}

/-- A job with this fingerprint has the directory. -/
def DirOf (env : Env) (allowed : String → Prop) (dir : Place) (fp : String) : Prop :=
  ∃ j, allowed j ∧ Cluster.artifactDir env j = dir ∧ (env.jobs j).fingerprintHash = fp

/-- The path may be stored for the fingerprint. -/
def Path.Of (env : Env) (allowed : String → Prop) (fp : String) : Path → Prop
  | .artifact dir => DirOf env allowed dir fp
  | .cached _ fingerprintHash => fingerprintHash = fp

/-- The file may hold the blob. -/
def Holds (env : Env) (allowed : String → Prop) (p : Path) (blob : Blob) : Prop :=
  allowed blob.producedBy ∧
    match p with
    | .artifact dir => Cluster.artifactDir env blob.producedBy = dir
    | .cached _ fingerprintHash => DirOf env allowed (Cluster.artifactDir env blob.producedBy) fingerprintHash

theorem Path.Of.dirOf (hp : p.Of env allowed fp) (h : Holds env allowed p blob) :
    DirOf env allowed (Cluster.artifactDir env blob.producedBy) fp := by
  cases p with
  | artifact dir => exact h.2 ▸ hp
  | cached dir fingerprintHash => exact hp ▸ h.2

structure Inv (env : Env) (allowed : String → Prop) (c : Cluster) : Prop where
  files : ∀ machine, (c.disk machine).All (Holds env allowed)
  restoreStore : ∀ row ∈ c.restoreStore, row.snapshotPath.Of env allowed row.fingerprintHash
  index : ∀ row ∈ c.index, row.snapshotPath.Of env allowed row.fingerprintHash
  snapshots : ∀ row ∈ c.snapshots, row.snapshotPath.Of env allowed row.fingerprintHash
  jobs : ∀ worker call, c.working worker = some call → allowed call.jobId
  inputs : ∀ worker call, c.working worker = some call → ∀ p ∈ call.mfSnapshotIn,
    p.Of env allowed (env.jobs call.jobId).fingerprintHash
  reads : ∀ r ∈ c.reads, allowed r.1 ∧ allowed r.2.producedBy ∧
    DirOf env allowed (Cluster.artifactDir env r.2.producedBy) (env.jobs r.1).fingerprintHash

namespace Inv

theorem start : Inv env allowed .start where
  files machine p blob h := by cases h
  restoreStore row h := by cases h
  index row h := by cases h
  snapshots row h := by cases h
  jobs worker call h := by cases h
  inputs worker call h := by cases h
  reads r h := by cases h

/-! ### The stores -/

variable (h : Inv env allowed c)

include h

theorem setDisk {machine : String} (hd : d.All (Holds env allowed)) :
    Inv env allowed (c.setDisk machine d) where
  __ := h
  files machine' := by
    rw [Cluster.setDisk_disk]
    split_ifs
    · exact hd
    · exact h.files machine'

theorem setRestore (hp : p.Of env allowed fp) : Inv env allowed (c.setRestore fp p) where
  __ := h
  restoreStore row hrow := by
    rcases Table.mem_insertOrReplace.1 hrow with rfl | ⟨hold, -⟩
    · exact hp
    · exact h.restoreStore row hold

theorem upsertLocation (hp : p.Of env allowed fp) :
    Inv env allowed (c.upsertLocation w fp org snapshotId p now) := by
  unfold Cluster.upsertLocation
  split_ifs
  · refine { h with index := fun row hrow => ?_ }
    rcases Table.mem_insertOrReplace.1 hrow with rfl | ⟨hold, -⟩
    · exact hp
    · exact h.index row hold
  · exact h

theorem publish (hp : p.Of env allowed fp) (hd : d.All (Holds env allowed)) :
    Inv env allowed (c.publish w fp org snapshotId p d now) :=
  ((h.setDisk hd).setRestore hp).upsertLocation hp

theorem setCall {call? : Option Call} (hjob : ∀ call ∈ call?, allowed call.jobId)
    (hinput : ∀ call ∈ call?, ∀ p ∈ call.mfSnapshotIn, p.Of env allowed (env.jobs call.jobId).fingerprintHash) :
    Inv env allowed (c.setCall worker call?) := by
  have hworking : ∀ worker' call, (c.setCall worker call?).working worker' = some call →
      call ∈ call? ∨ c.working worker' = some call := by
    intro worker' call hcall
    rw [Cluster.setCall_working] at hcall
    split_ifs at hcall
    · exact .inl hcall
    · exact .inr hcall
  refine { h with jobs := fun worker' call hcall => ?_, inputs := fun worker' call hcall => ?_ }
  · exact (hworking worker' call hcall).elim (hjob call) (h.jobs worker' call)
  · exact (hworking worker' call hcall).elim (hinput call) (h.inputs worker' call)

theorem setCall_none : Inv env allowed (c.setCall worker none) :=
  h.setCall (fun _ hc => by cases hc) fun _ hc => by cases hc

theorem setCall_some (hjob : allowed call.jobId)
    (hinput : ∀ p ∈ call.mfSnapshotIn, p.Of env allowed (env.jobs call.jobId).fingerprintHash) :
    Inv env allowed (c.setCall worker (some call)) := by
  refine h.setCall ?_ ?_ <;> intro call' hcall' <;> cases hcall'
  · exact hjob
  · exact hinput

/-! ### The functions of the worker -/

omit h in
theorem cacheSnapshotFromFile {out : Path} {d' : Disk} (hd : d.All (Holds env allowed))
    (hp : p.Of env allowed fp) (h : w.cacheSnapshotFromFile fp p d = some (out, d')) :
    out.Of env allowed fp ∧ d'.All (Holds env allowed) := by
  obtain ⟨f, hfind, heq⟩ := Option.map_eq_some_iff.1 h
  obtain ⟨rfl, rfl⟩ := Prod.mk.inj heq
  have hf : Holds env allowed p f.blob := hd p f.blob (by rw [Disk.read, hfind, Option.map_some])
  refine ⟨rfl, Worker.all_enforce ?_⟩
  split_ifs
  · exact hd
  · exact hd.write ⟨hf.1, hp.dirOf hf⟩

theorem resolve {candidate : Option Path} (hcand : ∀ p ∈ candidate, p.Of env allowed fp) :
    (∀ p ∈ (c.resolveSnapshotInputPath env.tierRank w fp org candidate now).1, p.Of env allowed fp) ∧
      Inv env allowed (c.resolveSnapshotInputPath env.tierRank w fp org candidate now).2 := by
  simp only [Cluster.resolveSnapshotInputPath]
  split
  · rename_i p hp
    rw [Option.filter_eq_some_iff] at hp
    exact ⟨fun p' hp' => Option.some.inj hp' ▸ hcand p hp.1, h⟩
  · split_ifs
    · -- a row of the index, found at the node or anywhere
      have hrow : ∀ {test : Location → Bool} {row},
          (c.getLocations env.tierRank fp org).find? test = some row → row.snapshotPath.Of env allowed fp := by
        intro test row hfind
        obtain ⟨hmem, hfp, -⟩ := Cluster.mem_getLocations.1 (List.mem_of_find?_eq_some hfind)
        exact hfp ▸ h.index row hmem
      split
      · rename_i row hfind
        exact ⟨fun p hp => Option.some.inj hp ▸ hrow hfind, h.setRestore (hrow hfind)⟩
      · split
        · rename_i row hfind
          exact ⟨fun p hp => Option.some.inj hp ▸ hrow hfind,
            (h.setRestore (hrow hfind)).upsertLocation (hrow hfind)⟩
        · exact ⟨fun p hp => (by cases hp), h⟩
    · exact ⟨fun p hp => (by cases hp), h⟩

theorem getRestore : ∀ p ∈ c.getRestore fp, p.Of env allowed fp := by
  intro p hp
  obtain ⟨row, hfind, rfl⟩ := Option.map_eq_some_iff.1 hp
  obtain ⟨hrow, rfl⟩ := Table.find_eq_some_iff.1 hfind
  exact h.restoreStore row hrow

variable {copies : Bool}

theorem promoteInput (hp : p.Of env allowed fp) :
    (c.maybePromoteSnapshotInput w fp org p copies now).1.Of env allowed fp ∧
      Inv env allowed (c.maybePromoteSnapshotInput w fp org p copies now).2 := by
  unfold Cluster.maybePromoteSnapshotInput
  split
  · exact ⟨hp, h⟩
  · rename_i out d hcached
    obtain ⟨hout, hd⟩ := cacheSnapshotFromFile (h.files _) hp (Option.filter_eq_some_iff.1 hcached).1
    exact ⟨hout, h.publish hout hd⟩

theorem transferInput : (∀ p ∈ (c.transferSnapshot env.tierRank w jobId fp org node now).1, p.Of env allowed fp) ∧
      Inv env allowed (c.transferSnapshot env.tierRank w jobId fp org node now).2 := by
  unfold Cluster.transferSnapshot
  split
  · exact ⟨fun p hp => (by cases hp), h⟩
  · rename_i p₀ blob hsent
    obtain ⟨n, -, hfetch⟩ := Option.bind_eq_some_iff.1 hsent
    obtain ⟨hread, row, hrow, rfl, rfl⟩ := Cluster.fetchSnapshot_eq_some hfetch
    have hblob : Holds env allowed (w.cachePath row.fingerprintHash blob.bytes.length) blob := by
      have hfile := h.files n.machine row.snapshotPath blob hread
      exact ⟨hfile.1, (h.index row hrow).dirOf hfile⟩
    refine ⟨fun p hp => ?_, h.publish rfl ?_⟩
    · cases hp
      rfl
    · exact Worker.all_enforce ((h.files _).write hblob)

/-! ### The events -/

theorem take (hjob : allowed jobId) : Inv env allowed (c.take env worker jobId now) := by
  obtain ⟨hp, h'⟩ := h.resolve h.getRestore
  exact h'.setCall_some hjob hp

variable (hcall : c.working worker = some call)

include hcall

theorem promote : Inv env allowed (c.promote env worker call copies now) := by
  have hjob := h.jobs worker call hcall
  have hinput := h.inputs worker call hcall
  simp only [Cluster.promote]
  split
  · exact h.setCall_some hjob hinput
  · rename_i p hp
    obtain ⟨hout, h'⟩ := h.promoteInput (hinput p (Option.filter_eq_some_iff.1 hp).1)
    refine h'.setCall_some hjob ?_
    intro p' hp'
    cases hp'
    exact hout

theorem transfer : Inv env allowed (c.transfer env worker call node now) := by
  have hjob := h.jobs worker call hcall
  simp only [Cluster.transfer]
  split
  · exact h.setCall_some hjob (h.inputs worker call hcall)
  · obtain ⟨hp, h'⟩ := h.transferInput
    exact h'.setCall_some hjob hp

variable {caps : Capabilities} {input : Option Path}

omit hcall in
omit h in
theorem mem_checkInput {q : Expected} (h : p ∈ (checkInput env caps q input d).1) : p ∈ input := by
  cases input with
  | none => cases h
  | some p' =>
    rcases checkInput_cases env caps q p' d with ⟨heq, -⟩ | ⟨heq, -⟩ <;> rw [heq] at h
    · exact h
    · cases h

theorem validate : Inv env allowed (c.validate env worker call caps) :=
  h.setCall_some (h.jobs worker call hcall) fun p hp => h.inputs worker call hcall p (mem_checkInput hp)

theorem run {writes : Option (List UInt8)} : Inv env allowed (c.run env worker call writes now) := by
  have hjob := h.jobs worker call hcall
  have hread : Inv env allowed { c with
      reads := (call.mfSnapshotIn.bind (c.disk (env.workers worker).machine).read).toList.map (Prod.mk call.jobId) ++
        c.reads } := by
    refine { h with reads := fun r hr => ?_ }
    rcases List.mem_append.1 hr with hnew | hold
    · obtain ⟨blob, hblob, rfl⟩ := List.mem_map.1 hnew
      obtain ⟨p, hp, hread⟩ := Option.bind_eq_some_iff.1 (Option.mem_toList.1 hblob)
      have hfile := h.files _ p blob hread
      exact ⟨hjob, hfile.1, (h.inputs worker call hcall p hp).dirOf hfile⟩
    · exact h.reads r hold
  simp only [Cluster.run]
  cases writes with
  | none => exact hread
  | some bytes => exact hread.setDisk ((h.files _).write ⟨hjob, rfl⟩)

omit hcall in
omit h in
theorem cachedOrKept (hd : d.All (Holds env allowed)) (hp : p.Of env allowed fp) :
    (((w.cacheSnapshotFromFile fp p d).filter fun _ => copies).getD (p, d)).1.Of env allowed fp ∧
      (((w.cacheSnapshotFromFile fp p d).filter fun _ => copies).getD (p, d)).2.All (Holds env allowed) := by
  cases hcached : (w.cacheSnapshotFromFile fp p d).filter fun _ => copies with
  | none => exact ⟨hp, hd⟩
  | some pair => exact cacheSnapshotFromFile hd hp (Option.filter_eq_some_iff.1 hcached).1

theorem finish {describes : Bool} : Inv env allowed (c.finish env worker call describes copies now) := by
  have hpath : (Cluster.artifactPath env call.jobId).Of env allowed (env.jobs call.jobId).fingerprintHash :=
    ⟨call.jobId, h.jobs worker call hcall, rfl, rfl⟩
  have hsnapshots : Inv env allowed { c with
      snapshots := c.snapshots.insertOrReplace
        ⟨call.jobId, (env.jobs call.jobId).fingerprintHash, Cluster.artifactPath env call.jobId⟩ } := by
    refine { h with snapshots := fun row hrow => ?_ }
    rcases Table.mem_insertOrReplace.1 hrow with rfl | ⟨hold, -⟩
    · exact hpath
    · exact h.snapshots row hold
  simp only [Cluster.finish]
  split_ifs
  · exact h.setCall_none
  -- with a sidecar and without one the files are the same
  · have hfiles : (writeSnapshotMetadata env.sha256 (env.expected (env.workers worker) call.jobId)
        (Cluster.artifactPath env call.jobId) (c.disk (env.workers worker).machine)).All (Holds env allowed) :=
      h.files _
    obtain ⟨hp, hd⟩ := cachedOrKept hfiles hpath
    exact (hsnapshots.publish hp hd).setCall_none
  · obtain ⟨hp, hd⟩ := cachedOrKept (h.files _) hpath
    exact (hsnapshots.publish hp hd).setCall_none

omit hcall

theorem markUsed : Inv env allowed (c.markUsed env worker call now) := by
  unfold Cluster.markUsed
  dsimp only
  split
  · exact h
  · rename_i first _
    refine { h with index := fun row hrow => ?_ }
    have hmem : row ∈ c.index.updateWhere (fun r => decide (r.key = first.key)) (Location.used now) fun _ => rfl := hrow
    rcases Table.mem_updateWhere.1 hmem with ⟨hold, -⟩ | ⟨row₀, hold, -, rfl⟩
    · exact h.index row hold
    · exact h.index row₀ hold

theorem restore {orgId : Option String} : Inv env allowed (c.restore env jobId orgId) := by
  simp only [Cluster.restore]
  split_ifs
  · split
    · exact h
    · rename_i snap hfind
      split_ifs
      · exact h.setRestore (h.snapshots snap (Table.find_eq_some_iff.1 hfind).1)
      · exact h
  · exact h

theorem step {e : Event} (he : ∀ w j now, e = .take w j now → allowed j)
    (hstep : c.step env e = some c') : Inv env allowed c' := by
  -- all events but three belong to a call that is at their stage
  have hat : ∀ {worker stage} {f : Call → Cluster}, (c.callAt worker stage).map f = some c' →
      (∀ call, c.working worker = some call → Inv env allowed (f call)) → Inv env allowed c' := by
    intro worker stage f hmap hf
    obtain ⟨call, hcall, rfl⟩ := Option.map_eq_some_iff.1 hmap
    exact hf call (Cluster.callAt_eq_some_iff.1 hcall).1
  cases e with
  | take w j now =>
    rw [Cluster.step] at hstep
    split_ifs at hstep
    cases hstep
    exact h.take (he w j now rfl)
  | promote w copies now => exact hat hstep fun call hcall => h.promote hcall
  | transfer w node now => exact hat hstep fun call hcall => h.transfer hcall
  | validate w caps => exact hat hstep fun call hcall => h.validate hcall
  | run w writes now => exact hat hstep fun call hcall => h.run hcall
  | markUsed w now => exact hat hstep fun call _ => h.markUsed
  | finish w describes copies now => exact hat hstep fun call hcall => h.finish hcall
  | drop w =>
    cases hstep
    exact h.setCall_none
  | restore j orgId =>
    cases hstep
    exact h.restore

end Inv

def Over (allowed : String → Prop) (es : List Event) : Prop := ∀ w j now, .take w j now ∈ es → allowed j

theorem inv_of_over {es : List Event} (hes : Over allowed es) (hrun : Run.run (Cluster.step env) es .start = some c) :
    Inv env allowed c := by
  have halong : Run.Along (Cluster.step env) (fun _ e => ∀ w j now, e = .take w j now → allowed j) es .start := by
    refine Run.along_of_forall fun e he _ w j now heq => ?_
    exact hes w j now (heq ▸ he)
  exact halong.inv Inv.start (fun _ _ _ hinv he hstep => hinv.step he hstep) hrun

/-! ### How a snapshot crosses -/

def noCaps : Capabilities := ⟨false, false, false, false, false⟩

theorem setCall_setCall {call₁ call₂ : Option Call} :
    (c.setCall worker call₁).setCall worker call₂ = c.setCall worker call₂ := by
  rw [Cluster.setCall, Cluster.setCall, Function.update_idem, Cluster.setCall]

theorem callAt_setCall {stage : Stage} {corruption : Bool} :
    (c.setCall worker (some ⟨jobId, input, stage, corruption⟩)).callAt worker stage =
      some ⟨jobId, input, stage, corruption⟩ :=
  Cluster.callAt_eq_some_iff.2 ⟨Function.update_self .., rfl⟩

theorem promote_fails : c.maybePromoteSnapshotInput w fp org p false now = (p, c) := by
  unfold Cluster.maybePromoteSnapshotInput
  cases w.cacheSnapshotFromFile fp p (c.disk w.machine) <;> rfl

theorem run_unchanged (input : Option Path) :
    Run.run (Cluster.step env) [.promote worker false 0, .transfer worker none 0, .validate worker noCaps]
        (c.setCall worker (some ⟨jobId, input, .resolved, false⟩)) =
      some (c.setCall worker (some ⟨jobId, input, .validated, false⟩)) := by
  have hpromote : Cluster.step env (c.setCall worker (some ⟨jobId, input, .resolved, false⟩))
      (.promote worker false 0) = some (c.setCall worker (some ⟨jobId, input, .promoted, false⟩)) := by
    rw [Cluster.step, callAt_setCall, Option.map_some, Cluster.promote]
    dsimp only
    cases hp : input.filter fun _ => (env.workers worker).promoteOnRestore with
    | none => simp only [setCall_setCall]
    | some p =>
      obtain rfl := (Option.filter_eq_some_iff.1 hp).1
      simp [promote_fails, setCall_setCall]
  have htransfer : Cluster.step env (c.setCall worker (some ⟨jobId, input, .promoted, false⟩))
      (.transfer worker none 0) = some (c.setCall worker (some ⟨jobId, input, .transferred, false⟩)) := by
    rw [Cluster.step, callAt_setCall, Option.map_some, Cluster.transfer]
    cases input with
    | none => simp only [Cluster.transferSnapshot, Option.bind_none, setCall_setCall]
    | some p => simp only [setCall_setCall]
  have hvalidate : Cluster.step env (c.setCall worker (some ⟨jobId, input, .transferred, false⟩))
      (.validate worker noCaps) = some (c.setCall worker (some ⟨jobId, input, .validated, false⟩)) := by
    rw [Cluster.step, callAt_setCall, Option.map_some, Cluster.validate]
    cases input with
    | none => simp only [checkInput, setCall_setCall]
    | some p => simp [checkInput, noCaps, setCall_setCall]
  rw [Run.run, hpromote, Option.bind_some, Run.run, htransfer, Option.bind_some, Run.run, hvalidate]
  rfl

def unchecked (worker jobId : String) : List Event :=
  [.take worker jobId 0, .promote worker false 0, .transfer worker none 0, .validate worker noCaps]

theorem run_unchecked (hidle : c.working worker = none)
    (hinput : c.resolveSnapshotInputPath env.tierRank (env.workers worker) (env.jobs jobId).fingerprintHash
      (env.jobs jobId).orgId (c.getRestore (env.jobs jobId).fingerprintHash) 0 = (input, c)) :
    Run.run (Cluster.step env) (unchecked worker jobId) c =
      some (c.setCall worker (some ⟨jobId, input, .validated, false⟩)) := by
  have htake : Cluster.step env c (.take worker jobId 0) =
      some (c.setCall worker (some ⟨jobId, input, .resolved, false⟩)) := by
    rw [Cluster.step, hidle, if_neg (by simp), Cluster.take]
    simp [hinput]
  rw [unchecked, Run.run, htake, Option.bind_some]
  exact run_unchanged input

theorem finish_uncopied (hread : (c.disk (env.workers worker).machine).read (Cluster.artifactPath env call.jobId) = some blob)
    (hnew : c.snapshots.find call.jobId = none) : let published := c.finish env worker call false false now
    published.working worker = none ∧
      published.getRestore (env.jobs call.jobId).fingerprintHash = some (Cluster.artifactPath env call.jobId) ∧
      (published.disk (env.workers worker).machine).read (Cluster.artifactPath env call.jobId) = some blob := by
  have hskip : ¬ (¬ (c.disk (env.workers worker).machine).has (Cluster.artifactPath env call.jobId) = true ∨
      (c.snapshots.find call.jobId).isSome = true) := by
    simp [Disk.has, hread, hnew]
  have hcopy : ∀ d, ((env.workers worker).cacheSnapshotFromFile (env.jobs call.jobId).fingerprintHash
      (Cluster.artifactPath env call.jobId) d).filter (fun _ => false) = none := by
    intro d
    cases (env.workers worker).cacheSnapshotFromFile _ _ d <;> rfl
  simp only [Cluster.finish, if_neg hskip, Bool.false_eq_true, if_false, hcopy, Option.getD_none]
  refine ⟨?_, Cluster.publish_getRestore, ?_⟩
  · rw [Cluster.setCall_working, if_pos rfl]
  · rw [Cluster.setCall, Cluster.publish_disk, Function.update_self]
    exact hread

theorem resolve_empty (hrestore : c.restoreStore = .empty) (hindex : c.index = .empty) :
    c.resolveSnapshotInputPath env.tierRank w fp org (c.getRestore fp) now = (none, c) := by
  have hnone : c.getRestore fp = none := by
    rw [Cluster.getRestore, hrestore]
    rfl
  simp only [Cluster.resolveSnapshotInputPath, hnone, Cluster.getLocations, hindex]
  split_ifs <;> rfl

/-- The first job leaves a file and does not finish; the second one finds the file in its directory. -/
theorem second_records_file (env : Env) (worker : String) {j q : String}
    (hdir : Cluster.artifactDir env j = Cluster.artifactDir env q) : ∃ c, Run.run (Cluster.step env)
        (unchecked worker j ++ ([.run worker (some []) 0, .drop worker] ++
          (unchecked worker q ++ [.run worker none 0, .finish worker false false 0]))) .start = some c ∧
      c.working worker = none ∧ c.getRestore (env.jobs q).fingerprintHash = some (Cluster.artifactPath env q) ∧
      (c.disk (env.workers worker).machine).read (Cluster.artifactPath env q) = some ⟨[], j⟩ := by
  let left := ((Cluster.start.setCall worker (some ⟨j, none, .validated, false⟩)).run env worker
    ⟨j, none, .validated, false⟩ (some []) 0).setCall worker none
  let ran := (left.setCall worker (some ⟨q, none, .validated, false⟩)).run env worker ⟨q, none, .validated, false⟩ none 0
  have hread : (ran.disk (env.workers worker).machine).read (Cluster.artifactPath env q) = some ⟨[], j⟩ := by
    have hdisk : ran.disk (env.workers worker).machine = (Cluster.start.disk (env.workers worker).machine).write
        (Cluster.artifactPath env j) ⟨[], j⟩ 0 := Function.update_self ..
    have hpath : Cluster.artifactPath env j = Cluster.artifactPath env q := congrArg Path.artifact hdir
    rw [hdisk, Disk.read_write, if_pos hpath]
  have hcall : ran.callAt worker .validated = some ⟨q, none, .validated, false⟩ :=
    Cluster.callAt_eq_some_iff.2 ⟨Function.update_self .., rfl⟩
  have hleft : Run.run (Cluster.step env) [.run worker (some []) 0, .drop worker]
      (Cluster.start.setCall worker (some ⟨j, none, .validated, false⟩)) = some left := by
    rw [Run.run, Cluster.step, callAt_setCall]
    rfl
  refine ⟨ran.finish env worker ⟨q, none, .validated, false⟩ false false 0, ?_, finish_uncopied hread rfl⟩
  rw [Run.run_append, run_unchecked rfl (resolve_empty rfl rfl), Option.bind_some, Run.run_append, hleft,
    Option.bind_some, Run.run_append, run_unchecked (Function.update_self ..) (resolve_empty rfl rfl), Option.bind_some,
    Run.run, Cluster.step, callAt_setCall, Option.map_some, Option.bind_some, Run.run, Cluster.step, hcall]
  rfl

theorem next_reads_snapshot (hidle : c.working worker = none)
    (hrestore : c.getRestore (env.jobs jobId).fingerprintHash = some p)
    (hread : (c.disk (env.workers worker).machine).read p = some blob) :
    ∃ c', Run.run (Cluster.step env) (unchecked worker jobId ++ [.run worker none 0]) c = some c' ∧
      (jobId, blob) ∈ c'.reads := by
  have hinput : c.resolveSnapshotInputPath env.tierRank (env.workers worker) (env.jobs jobId).fingerprintHash
      (env.jobs jobId).orgId (c.getRestore (env.jobs jobId).fingerprintHash) 0 = (some p, c) := by
    have hhas : (c.disk (env.workers worker).machine).has p = true := by rw [Disk.has, hread, Option.isSome_some]
    simp only [Cluster.resolveSnapshotInputPath, hrestore, Option.filter_some, hhas, if_true]
  refine ⟨(c.setCall worker (some ⟨jobId, some p, .validated, false⟩)).run env worker
    ⟨jobId, some p, .validated, false⟩ none 0, ?_, ?_⟩
  · rw [Run.run_append, run_unchecked hidle hinput, Option.bind_some, Run.run, Cluster.step, callAt_setCall]
    rfl
  · refine List.mem_append_left _ (List.mem_map.2 ⟨blob, Option.mem_toList.2 ?_, rfl⟩)
    exact hread

/-! ### Organizations -/

def Isolated (env : Env) (c : Cluster) : Prop :=
  ∀ r ∈ c.reads, (env.jobs r.2.producedBy).orgId = (env.jobs r.1).orgId
  deriving Decidable

theorem exists_crossing {j q r : String} (hdir : Cluster.artifactDir env j = Cluster.artifactDir env q)
    (hfp : (env.jobs q).fingerprintHash = (env.jobs r).fingerprintHash) :
    ∃ es c, Over (fun i => i = j ∨ i = q ∨ i = r) es ∧ Run.run (Cluster.step env) es .start = some c ∧
      (r, ⟨[], j⟩) ∈ c.reads := by
  obtain ⟨c₁, hrun₁, hidle, hrestore, hread⟩ := second_records_file env "w" hdir
  rw [hfp] at hrestore
  obtain ⟨c₂, hrun₂, hcrossed⟩ := next_reads_snapshot hidle hrestore hread
  refine ⟨(unchecked "w" j ++ ([.run "w" (some []) 0, .drop "w"] ++
    (unchecked "w" q ++ [.run "w" none 0, .finish "w" false false 0]))) ++ (unchecked "w" r ++ [.run "w" none 0]), c₂,
    ?_, ?_, hcrossed⟩
  · intro w i now hi
    simp [unchecked] at hi
    tauto
  · rw [Run.run_append, hrun₁, Option.bind_some, hrun₂]

theorem isolated_iff (env : Env) (allowed : String → Prop) :
    (∀ es c, Over allowed es → Run.run (Cluster.step env) es .start = some c → Isolated env c) ↔
      ∀ j j', allowed j → allowed j' → (env.jobs j).fingerprintHash = (env.jobs j').fingerprintHash ∨
        Cluster.artifactDir env j = Cluster.artifactDir env j' → (env.jobs j).orgId = (env.jobs j').orgId := by
  constructor
  · intro h j j' hj hj' hshared
    -- the file of `j` is recorded by `j` itself, or by `j'`
    obtain ⟨q, hq, hdir, hfp⟩ : ∃ q, (q = j ∨ q = j') ∧ Cluster.artifactDir env j = Cluster.artifactDir env q ∧
        (env.jobs q).fingerprintHash = (env.jobs j').fingerprintHash := by
      rcases hshared with hfp | hdir
      · exact ⟨j, .inl rfl, rfl, hfp⟩
      · exact ⟨j', .inr rfl, hdir, rfl⟩
    obtain ⟨es, c, hes, hrun, hcrossed⟩ := exists_crossing hdir hfp
    refine h es c (fun w i now hi => ?_) hrun _ hcrossed
    rcases hes w i now hi with rfl | rfl | rfl
    · exact hj
    · rcases hq with rfl | rfl
      · exact hj
      · exact hj'
    · exact hj'
  · intro h es c hes hrun r hr
    obtain ⟨hreader, hproducer, q, hq, hdir, hfp⟩ := (inv_of_over hes hrun).reads r hr
    exact (h _ _ hproducer hq (.inr hdir.symm)).trans (h _ _ hq hreader (.inl hfp))

def twoOrgs : Env where
  jobs jobId := ⟨if jobId = "a1" then "a" else "b", if jobId = "../a/a1" then "g" else "f", "model", "tokenizer", 4096⟩
  cwd := []
  baseDir := .ofText "/artifacts".toList
  workers w :=
    { nodeId := w, machine := w, snapshotDir := fun _ => "cache", vramMaxBytes := 4, ramMaxBytes := 8,
      cacheMaxBytes := fun _ => 0, promoteOnRestore := true, hasIndex := true, kvLayoutVersion := "v1" }
  tierRank _ := 0
  sha256 bytes := String.ofList (bytes.map fun b => Char.ofNat b.toNat)
  loads _ := none

/-- A worker takes a job as far as its adapter. -/
def started (jobId : String) : List Event :=
  [.take "w" jobId 0, .promote "w" true 0, .transfer "w" none 0, .validate "w" ⟨true, true, true, true, true⟩]

/-- The second job is given the snapshot of the first one, with a sidecar that passes every check. A job whose id leads
to the directory of the first one records that snapshot under its own fingerprint, and is given it when it comes back. -/
theorem snapshot_crosses :
    (∃ c ∈ Run.run (Cluster.step twoOrgs)
        (started "a1" ++ [.run "w" (some [7]) 0, .finish "w" true true 0] ++ started "b1" ++ [.run "w" none 1]) .start,
      c.reads = [("b1", ⟨[7], "a1"⟩)] ∧ ¬ Isolated twoOrgs c) ∧
    ∃ c ∈ Run.run (Cluster.step twoOrgs)
        (started "a1" ++ [.run "w" (some [7]) 0, .finish "w" true true 0] ++ started "../a/a1" ++
          [.run "w" none 1, .finish "w" true true 1] ++ started "../a/a1" ++ [.run "w" none 2]) .start,
      c.reads = [("../a/a1", ⟨[7], "a1"⟩)] ∧ ¬ Isolated twoOrgs c := by
  decide +kernel

end Korith.Snapshots
