import Korith.Platform.Process
import Korith.Proofs.QueueOwner

/-!
# Whether a redelivered job is ever acknowledged

`_process` writes the status `RUNNING` first, which the ledger refuses over a terminal one, and it inserts the
snapshot of a job under the id of the job, which works once. A job whose delivery was cut off behind either of these
raises in every later delivery, and so does one whose `spec_cfg` makes no `dict`; the loop of the worker gives it back
each time. All other jobs are acknowledged by the first delivery in which nothing fails.
-/

set_option linter.unusedSectionVars false

namespace Korith.Process

open Ledger Exec Run

variable {J O K F W T P : Type} [DecidableEq J] {s s' : Store J O K F} {j : J} {job job' : Job J O F} {b : Behaviour}
  {jobs jobs' : Jobs J O K F} {newStatus : JobStatus}

/-! ### The status -/

theorem updateStatus_ok (h : updateStatus j newStatus jobs = .ok jobs') :
    jobs' = jobs ∨ jobs' = setStatus j newStatus jobs ∧ ∃ a, status jobs j = some a ∧ ¬ newStatus.index < a.index := by
  simp only [updateStatus, checkStatus] at h
  cases hfind : jobs.find j with
  | none => simp [hfind] at h
  | some row =>
    simp only [hfind] at h
    by_cases hsame : row.status = newStatus
    · simp only [if_pos hsame] at h
      exact .inl (Except.ok.inj h).symm
    · by_cases hless : newStatus.index < row.status.index
      · simp [if_neg hsame, if_pos hless] at h
      · simp only [if_neg hsame, if_neg hless] at h
        exact .inr ⟨(Except.ok.inj h).symm, row.status, by rw [status, hfind, Option.map_some], hless⟩

theorem updateStatus_of_status {a : JobStatus} (h : status jobs j = some a) : updateStatus j newStatus jobs =
      if a = newStatus then .ok jobs
      else if newStatus.index < a.index then .error (.valueError "status regression not allowed")
      else .ok (setStatus j newStatus jobs) := by
  obtain ⟨row, hrow, rfl⟩ := Option.map_eq_some_iff.1 h
  simp only [updateStatus, checkStatus, hrow]
  split_ifs <;> rfl

/-! ### Code of the worker -/

section Rules

variable {Q : Unit → Store J O K F → Prop} {E : Stop → Store J O K F → Prop} {I : Store J O K F → Prop}
  {f : Store J O K F → Except Error (Store J O K F)} {B : Empty → Prop} {exitCode : Int}

theorem keeps_passes (p : Place) : Keeps I (passes b p : Worker J O K F Unit) := by
  unfold passes
  cases b.cut p with
  | pass => exact keeps_pure ()
  | raise | crash => exact keeps_exit _

theorem keeps_transact (hf : ∀ s s', I s → f s = .ok s' → I s') : Keeps I (transact f) := by
  intro s hs
  unfold transact
  split
  · next s' hs' => exact hf s s' hs hs'
  · exact hs

theorem keeps_setJobStatus
    (hstatus : ∀ s jobs', I s → updateStatus j newStatus s.jobs = .ok jobs' → I { s with jobs := jobs' }) :
    Keeps I (setJobStatus j newStatus : Worker J O K F Unit) := by
  refine keeps_transact fun s s' hs hs' => ?_
  cases hupdate : updateStatus j newStatus s.jobs with
  | error e => simp [hupdate, Except.map] at hs'
  | ok jobs' =>
    rw [hupdate] at hs'
    cases hs'
    exact hstatus s jobs' hs hupdate

theorem keeps_recordSnapshot (hsnapshot : ∀ s, I s → s.snapshots.find job.jobId = none → job.jobId ∈ s.files →
      I { s with snapshots := s.snapshots.insertOrReplace ⟨job.jobId, job.orgId, job.fingerprintHash⟩ }) :
    Keeps I (recordSnapshot b job : Worker J O K F Unit) := by
  refine keeps_get_bind fun s hs => ?_
  by_cases hfile : job.jobId ∈ s.files
  · have hinsert : Keeps (fun t => I t ∧ job.jobId ∈ t.files) (insertSnapshot job : Worker J O K F Unit) := by
      refine keeps_transact fun t t' ht ht' => ?_
      by_cases hrow : (t.snapshots.find job.jobId).isSome = true
      · rw [if_pos hrow] at ht'
        cases ht'
      · rw [if_neg hrow] at ht'
        cases ht'
        exact ⟨hsnapshot t ht.1 (by simpa using hrow) ht.2, ht.2⟩
    rw [decide_eq_true hfile]
    exact (keeps_bind hinsert (fun _ => keeps_passes .snapshotInserted) s ⟨hs, hfile⟩).1
  · rw [decide_eq_false hfile]
    exact hs

theorem keeps_attempt (hstatus : ∀ s newStatus jobs', I s → updateStatus job.jobId newStatus s.jobs = .ok jobs' →
      I { s with jobs := jobs' })
    (hrun : ∀ s exitCode, I s → I { s with runs := (job.jobId, exitCode) :: s.runs })
    (hsnapshot : ∀ s, I s → s.snapshots.find job.jobId = none → job.jobId ∈ s.files →
      I { s with snapshots := s.snapshots.insertOrReplace ⟨job.jobId, job.orgId, job.fingerprintHash⟩ })
    (hfile : ∀ s, I s → I { s with files := job.jobId :: s.files }) :
    Keeps I (attempt b job : Worker J O K F Unit) := by
  have hset : ∀ newStatus, Keeps I (setJobStatus job.jobId newStatus : Worker J O K F Unit) := fun newStatus =>
    keeps_setJobStatus fun s jobs' => hstatus s newStatus jobs'
  have hwrite : ∀ writes, Keeps I (writeSnapshot job.jobId writes : Worker J O K F Unit) := fun writes =>
    keeps_when ((keeps_modify _).2 hfile)
  have hcomplete : ∀ exitCode, Keeps I (complete b job exitCode : Worker J O K F Unit) := by
    intro exitCode
    refine keeps_bind (keeps_passes _) fun _ => keeps_bind ((keeps_modify _).2 fun s => hrun s exitCode) fun _ => ?_
    refine keeps_bind (keeps_passes _) fun _ => keeps_bind (keeps_recordSnapshot hsnapshot) fun _ => ?_
    exact keeps_bind (hset _) fun _ => keeps_passes _
  have hfailed : Keeps I (failed b job : Worker J O K F Unit) :=
    keeps_bind (keeps_passes _) fun _ => keeps_bind (hset _) fun _ => keeps_passes _
  have hadapter : Keeps I (runAdapter b job : Worker J O K F Unit) := by
    unfold runAdapter
    cases b.adapter with
    | raises writes => exact keeps_bind (hwrite writes) fun _ => hfailed
    | returns exitCode writes => exact keeps_bind (hwrite writes) fun _ => hcomplete exitCode
  have hprocess : Keeps I (process b job : Worker J O K F Unit) := by
    refine keeps_bind (keeps_passes _) fun _ => keeps_bind (keeps_passes _) fun _ => ?_
    refine keeps_bind (hset _) fun _ => keeps_bind (keeps_passes _) fun _ => ?_
    exact keeps_bind (keeps_when (keeps_exit _)) fun _ => hadapter
  exact keeps_bind hprocess fun _ => keeps_passes _

/-! ### Jobs that can be processed -/

/-- The job has no terminal status, no snapshot is recorded for it, and its `spec_cfg` makes a `dict`. -/
structure Recoverable (s : Store J O K F) (job : Job J O F) : Prop where
  status : status s.jobs job.jobId = some .queued ∨ status s.jobs job.jobId = some .running
  snapshot : s.snapshots.find job.jobId = none
  readable : job.Readable

def Stuck (s : Store J O K F) (job : Job J O F) : Prop :=
  (status s.jobs job.jobId = some .succeeded ∨ status s.jobs job.jobId = some .failed) ∨
    (s.snapshots.find job.jobId).isSome ∨ ¬ job.Readable

theorem recoverable_or_stuck (h : (s.jobs.find job.jobId).isSome) : Recoverable s job ∨ Stuck s job := by
  obtain ⟨row, hrow⟩ := Option.isSome_iff_exists.1 h
  have hstatus : status s.jobs job.jobId = some row.status := by rw [status, hrow, Option.map_some]
  by_cases hstuck : Stuck s job
  · exact .inr hstuck
  · unfold Stuck at hstuck
    push Not at hstuck
    rw [hstatus] at hstuck
    refine .inl ⟨?_, by simpa using hstuck.2.1, hstuck.2.2⟩
    rw [hstatus]
    cases hrow : row.status <;> simp [hrow] at hstuck ⊢

theorem find_jobs_of_updateStatus (h : updateStatus job.jobId newStatus jobs = .ok jobs') (hne : j ≠ job.jobId) :
    jobs'.find j = jobs.find j := by
  rcases updateStatus_ok h with rfl | ⟨rfl, -⟩
  · rfl
  · rw [find_setStatus, if_neg hne]

theorem keeps_recoverable (hne : job'.jobId ≠ job.jobId) :
    Keeps (fun s => Recoverable s job') (attempt b job : Worker J O K F Unit) := by
  refine keeps_attempt ?_ (fun _ _ h => ⟨h.1, h.2, h.3⟩) ?_ (fun _ h => ⟨h.1, h.2, h.3⟩)
  · rintro s newStatus jobs' ⟨hstatus, hnone, hread⟩ hupdate
    refine ⟨?_, hnone, hread⟩
    rwa [status, find_jobs_of_updateStatus hupdate hne]
  · rintro s ⟨hstatus, hnone, hread⟩ - -
    refine ⟨hstatus, ?_, hread⟩
    rwa [Table.find_insertOrReplace, if_neg (Ne.symm hne)]

theorem keeps_stuck : Keeps (fun s => Stuck s job') (attempt b job : Worker J O K F Unit) := by
  refine keeps_attempt ?_ (fun _ _ h => h) ?_ (fun _ h => h)
  · rintro s newStatus jobs' h hupdate
    refine h.imp_left fun hterminal => ?_
    rcases updateStatus_ok hupdate with rfl | ⟨rfl, a, ha, hle⟩
    · exact hterminal
    · rw [status_setStatus]
      split_ifs with hj
      · -- what comes behind `SUCCEEDED` in the order is terminal
        rw [← hj] at ha
        rcases hterminal with h | h <;> rw [h] at ha <;> cases ha <;> rw [h] <;>
          cases newStatus <;> simp [JobStatus.index, statusOrder] at hle ⊢
      · exact hterminal
  · rintro s h - -
    refine h.imp_right fun h => h.imp_left fun hrow => ?_
    rw [Table.find_insertOrReplace]
    split_ifs
    · rfl
    · exact hrow

/-! ### A delivery in which nothing fails -/

/-- A snapshot is recorded only for a file, and files stay. -/
def FilesKept (s : Store J O K F) : Prop := ∀ j, (s.snapshots.find j).isSome → j ∈ s.files

theorem keeps_filesKept : Keeps FilesKept (attempt b job : Worker J O K F Unit) := by
  refine keeps_attempt (fun _ _ _ h _ => h) (fun _ _ h => h) ?_ ?_
  · intro s h _ hfile j hj
    rw [Table.find_insertOrReplace] at hj
    split_ifs at hj with hkey
    · exact hkey ▸ hfile
    · exact h j hj
  · intro s h j hj
    exact List.mem_cons_of_mem _ (h j hj)

theorem passes_of_good (hb : b.Good) (p : Place) : (passes b p : Worker J O K F Unit) = pure () := by
  rw [passes, hb.1 p]

theorem wp_transact : wp B (transact f) Q E s ↔
    (∀ s', f s = .ok s' → Q () s') ∧ ∀ e, f s = .error e → E .raised s := by
  cases hf : f s <;> simp [transact, wp, Outcome.sat, hf]

theorem wp_setJobStatus : wp B (setJobStatus j newStatus) Q E s ↔
    (∀ jobs', updateStatus j newStatus s.jobs = .ok jobs' → Q () { s with jobs := jobs' }) ∧
      ∀ e, updateStatus j newStatus s.jobs = .error e → E .raised s := by
  rw [setJobStatus, wp_transact]
  cases updateStatus j newStatus s.jobs <;> simp [Except.map]

theorem wp_insertSnapshot : wp B (insertSnapshot job) Q E s ↔ (s.snapshots.find job.jobId = none →
        Q () { s with snapshots := s.snapshots.insertOrReplace ⟨job.jobId, job.orgId, job.fingerprintHash⟩ }) ∧
      ((s.snapshots.find job.jobId).isSome → E .raised s) := by
  rw [insertSnapshot, wp_transact]
  cases s.snapshots.find job.jobId <;> simp

theorem wp_recordSnapshot (hb : b.Good) : wp B (recordSnapshot b job) Q E s ↔
    (job.jobId ∈ s.files → wp B (insertSnapshot job) Q E s) ∧ (job.jobId ∉ s.files → Q () s) := by
  simp [recordSnapshot, wp_bind, wp_get, wp_when, passes_of_good hb, wp_pure]

def Ready (j : J) (s : Store J O K F) : Prop := status s.jobs j = some .running ∧ s.snapshots.find j = none

theorem Recoverable.wp_running (h : Recoverable s job) :
    wp B (setJobStatus job.jobId .running) (fun _ t => Ready job.jobId t) (fun _ _ => False) s := by
  obtain ⟨hstatus, hnone, -⟩ := h
  rw [wp_setJobStatus]
  rcases hstatus with hstatus | hstatus
  · rw [updateStatus_of_status hstatus, if_neg (by decide), if_neg (by decide)]
    refine ⟨?_, fun e he => by cases he⟩
    rintro jobs' hjobs'
    cases hjobs'
    exact ⟨by rw [status_setStatus, if_pos rfl, hstatus, Option.map_some], hnone⟩
  · rw [updateStatus_of_status hstatus, if_pos rfl]
    refine ⟨?_, fun e he => by cases he⟩
    rintro jobs' hjobs'
    cases hjobs'
    exact ⟨hstatus, hnone⟩

theorem wp_finalStatus (h : status s.jobs j = some .running) :
    wp B (setJobStatus j (finalStatus exitCode)) (fun _ _ => True) (fun _ _ => False) s := by
  have hfinal : finalStatus exitCode = .succeeded ∨ finalStatus exitCode = .failed := by
    unfold finalStatus
    split_ifs
    · exact .inl rfl
    · exact .inr rfl
  rw [wp_setJobStatus, updateStatus_of_status h]
  rcases hfinal with hfinal | hfinal <;> rw [hfinal, if_neg (by decide), if_neg (by decide)] <;>
    exact ⟨fun _ _ => trivial, fun e he => by cases he⟩

theorem Ready.wp_complete (hb : b.Good) (h : Ready job.jobId s) :
    wp B (complete b job exitCode) (fun _ _ => True) (fun _ _ => False) s := by
  simp only [complete, insertRun, wp_bind, wp_modify, passes_of_good hb, wp_pure, wp_recordSnapshot hb]
  refine ⟨fun _ => ?_, fun _ => ?_⟩
  · rw [wp_insertSnapshot]
    refine ⟨fun _ => ?_, fun hrow => ?_⟩
    · exact wp_finalStatus h.1
    · rw [h.2] at hrow
      cases hrow
  · exact wp_finalStatus h.1

theorem Recoverable.attempt_good (hb : b.Good) (h : Recoverable s job) : (attempt b job s).res = .ok () := by
  obtain ⟨exitCode, writes, hadapter⟩ := hb.2
  have hread : (!dictReturns job.specCfg) = false := by rw [h.readable]; rfl
  have hwp : wp (fun _ => False) (attempt b job) (fun _ _ => True) (fun _ _ => False) s := by
    simp only [attempt, process, runAdapter, hadapter, writeSnapshot, wp_bind, passes_of_good hb, wp_pure, wp_when,
      wp_modify, hread]
    refine h.wp_running.imp fun _ t ht => ⟨fun hfalse => absurd hfalse Bool.false_ne_true, fun _ => ?_⟩
    exact ⟨fun _ => ht.wp_complete hb, fun _ => ht.wp_complete hb⟩
  have hsat := hwp fun _ _ => id
  revert hsat
  rcases attempt b job s with ⟨_ | a, s', l⟩
  · exact False.elim
  · exact fun _ => rfl

theorem Stuck.wp_running (hfiles : FilesKept s) (h : Stuck s job) :
    wp B (setJobStatus job.jobId .running)
      (fun _ t => job.Readable → (t.snapshots.find job.jobId).isSome ∧ job.jobId ∈ t.files)
      (fun e _ => e = .raised) s := by
  rw [wp_setJobStatus]
  refine ⟨fun jobs' hjobs' hread => ?_, fun _ _ => rfl⟩
  rcases h with hterminal | hrow | hunread
  · rcases hterminal with hterminal | hterminal <;>
      rw [updateStatus_of_status hterminal, if_neg (by decide), if_pos (by decide)] at hjobs' <;> cases hjobs'
  · exact ⟨hrow, hfiles _ hrow⟩
  · exact absurd hread hunread

theorem wp_complete_of_row (hb : b.Good) (hrow : (s.snapshots.find job.jobId).isSome) (hfile : job.jobId ∈ s.files) :
    wp B (complete b job exitCode) (fun _ _ => False) (fun e _ => e = .raised) s := by
  simp only [complete, insertRun, wp_bind, wp_modify, passes_of_good hb, wp_pure, wp_recordSnapshot hb]
  refine ⟨fun _ => ?_, fun hno => absurd hfile hno⟩
  rw [wp_insertSnapshot]
  refine ⟨fun hnone => ?_, fun _ => rfl⟩
  rw [hnone] at hrow
  cases hrow

theorem Stuck.attempt_good (hb : b.Good) (hfiles : FilesKept s) (h : Stuck s job) :
    (attempt b job s).res = .error .raised := by
  obtain ⟨exitCode, writes, hadapter⟩ := hb.2
  have hwp : wp (fun _ => False) (attempt b job) (fun _ _ => False) (fun e _ => e = .raised) s := by
    simp only [attempt, process, runAdapter, hadapter, writeSnapshot, wp_bind, passes_of_good hb, wp_pure, wp_when,
      wp_modify]
    refine (h.wp_running hfiles).imp fun _ t ht => ⟨fun _ => (wp_exit _).2 rfl, fun hread => ?_⟩
    obtain ⟨hrow, hfile⟩ := ht (by simpa [Job.Readable] using hread)
    refine ⟨fun _ => ?_, fun _ => ?_⟩
    · exact wp_complete_of_row hb hrow (List.mem_cons_of_mem _ hfile)
    · exact wp_complete_of_row hb hrow hfile
  have hsat := hwp fun _ _ => id
  revert hsat
  rcases attempt b job s with ⟨e | a, s', l⟩
  · intro he
    exact congrArg Except.error he
  · exact False.elim

end Rules

/-! ### Runs -/

variable [DecidableEq W] [CommRing T] [LinearOrder T] {cfg : Queue.Config W T P} {σ σ' : System J O K F W T P}
  {e : Event J O K F W T P} {events : List (Event J O K F W T P)} {w : W} {t t' : T} {q : Queue.SQLiteQueue J W T P}

theorem isSome_find_settle {jobId : J} {res : Except Stop Unit} :
    ((settle jobId t (Queue.deliver w jobId q) res).find j).isSome =
      if j = jobId ∧ res = .ok () then false else (q.find j).isSome := by
  have hdeliver : ((Queue.deliver w jobId q).find j).isSome = (q.find j).isSome := by
    rw [Queue.find_deliver]
    split_ifs
    · rw [Option.isSome_map]
    · rfl
  cases res with
  | error stop =>
    have hnot : ¬ (j = jobId ∧ (Except.error stop : Except Stop Unit) = .ok ()) := by
      rintro ⟨-, h⟩
      cases h
    rw [if_neg hnot, ← hdeliver]
    cases stop with
    | raised =>
      rw [settle, Queue.find_retry]
      split_ifs
      · rw [Option.isSome_map]
      · rfl
    | crashed => rfl
  | ok _ =>
    rw [settle, Queue.find_ack, ← hdeliver]
    by_cases hj : j = jobId
    · rw [if_pos hj, if_pos ⟨hj, rfl⟩]
      rfl
    · rw [if_neg hj, if_neg fun h => hj h.1]

theorem step_delivery (h : step cfg σ (.delivery w job b t t') = some σ') : σ'.store = (attempt b job σ.store).state ∧
      ∀ j, (σ'.queue.find j).isSome =
        if j = job.jobId ∧ (attempt b job σ.store).res = .ok () then false else (σ.queue.find j).isSome := by
  obtain ⟨q, hq, rfl⟩ := Option.map_eq_some_iff.1 h
  simp only [Queue.step] at hq
  split at hq
  · split_ifs at hq
    cases hq
    exact ⟨rfl, fun j => isSome_find_settle⟩
  · cases hq

theorem step_submit {row : JobRow J O K F} {payload : P} (h : step cfg σ (.submit row payload t) = some σ') :
    σ.store.jobs.find row.jobId = none ∧
      σ'.store = { σ.store with jobs := σ.store.jobs.insertOrReplace row } ∧
      ∀ j, (σ'.queue.find j).isSome = if j = row.jobId then true else (σ.queue.find j).isSome := by
  simp only [step, insertJob] at h
  by_cases hrow : (σ.store.jobs.find row.jobId).isSome = true
  · simp only [if_pos hrow] at h
    cases h
  · simp only [if_neg hrow] at h
    obtain ⟨q, hq, rfl⟩ := Option.map_eq_some_iff.1 h
    simp only [Queue.step] at hq
    split_ifs at hq
    cases hq
    refine ⟨by simpa using hrow, rfl, fun j => ?_⟩
    rw [Queue.enqueue, Table.find_insertOrReplace]
    by_cases hj : row.jobId = j
    · rw [if_pos hj, if_pos hj.symm]
      rfl
    · rw [if_neg hj, if_neg (Ne.symm hj)]

theorem step_reclaim (h : step cfg σ (.reclaim t t') = some σ') :
    σ'.store = σ.store ∧ ∀ j, (σ'.queue.find j).isSome = (σ.queue.find j).isSome := by
  cases h
  exact ⟨rfl, fun j => Queue.isSome_find_reclaim⟩

structure Inv (σ : System J O K F W T P) : Prop where
  files : FilesKept σ.store
  jobs : ∀ j, (σ.queue.find j).isSome → (σ.store.jobs.find j).isSome

theorem inv_start : Inv (start : System J O K F W T P) := ⟨fun _ h => (by cases h), fun _ h => (by cases h)⟩

theorem keeps_job : Keeps (fun s => (s.jobs.find j).isSome) (attempt b job : Worker J O K F Unit) := by
  refine keeps_attempt (fun s newStatus jobs' h hupdate => ?_) (fun _ _ h => h) (fun _ h _ _ => h) (fun _ h => h)
  rcases updateStatus_ok hupdate with rfl | ⟨rfl, -⟩
  · exact h
  · rw [find_setStatus]
    split_ifs
    · rwa [Option.isSome_map]
    · exact h

theorem job_step (h : (σ.store.jobs.find j).isSome) (hstep : step cfg σ e = some σ') :
    (σ'.store.jobs.find j).isSome := by
  cases e with
  | submit row payload now =>
    obtain ⟨-, hstore, -⟩ := step_submit hstep
    rw [hstore, Table.find_insertOrReplace]
    split_ifs
    · rfl
    · exact h
  | delivery w job b now later =>
    rw [(step_delivery hstep).1]
    exact keeps_job _ h
  | reclaim now later =>
    rwa [(step_reclaim hstep).1]

theorem Inv.step (h : Inv σ) (hstep : step cfg σ e = some σ') : Inv σ' := by
  refine ⟨?_, fun j hj => ?_⟩
  · cases e with
    | submit row payload now =>
      rw [(step_submit hstep).2.1]
      exact h.files
    | delivery w job b now later =>
      rw [(step_delivery hstep).1]
      exact keeps_filesKept _ h.files
    | reclaim now later =>
      rw [(step_reclaim hstep).1]
      exact h.files
  · cases e with
    | submit row payload now =>
      obtain ⟨-, hstore, hqueue⟩ := step_submit hstep
      by_cases hrow : j = row.jobId
      · rw [hstore, hrow, Table.find_insertOrReplace, if_pos rfl]
        rfl
      · rw [hqueue, if_neg hrow] at hj
        exact job_step (h.jobs j hj) hstep
    | delivery w job b now later =>
      rw [(step_delivery hstep).2] at hj
      split_ifs at hj
      exact job_step (h.jobs j hj) hstep
    | reclaim now later =>
      rw [(step_reclaim hstep).2] at hj
      exact job_step (h.jobs j hj) hstep

/-- The queue hands out the job under its id, and nothing fails in such a delivery. -/
def Event.GoodFor (job : Job J O F) : Event J O K F W T P → Prop
  | .delivery _ job' b _ _ => job'.jobId = job.jobId → job' = job ∧ b.Good
  | _ => True

def Event.Delivers (j : J) : Event J O K F W T P → Prop
  | .delivery _ job _ _ _ => job.jobId = j
  | _ => False

theorem stuck_step (hinv : Inv σ) (h : Stuck σ.store job ∧ (σ.queue.find job.jobId).isSome) (hgood : e.GoodFor job)
    (hstep : step cfg σ e = some σ') : Stuck σ'.store job ∧ (σ'.queue.find job.jobId).isSome := by
  obtain ⟨hstuck, hqueued⟩ := h
  cases e with
  | submit row payload now =>
    obtain ⟨hnew, hstore, hqueue⟩ := step_submit hstep
    have hne : row.jobId ≠ job.jobId := by
      intro heq
      have := hinv.jobs _ hqueued
      rw [← heq, hnew] at this
      cases this
    rw [hqueue, if_neg (Ne.symm hne), hstore]
    refine ⟨hstuck.imp_left fun hterminal => ?_, hqueued⟩
    rwa [status, Table.find_insertOrReplace, if_neg hne]
  | delivery w job' b now later =>
    obtain ⟨hstore, hqueue⟩ := step_delivery hstep
    rw [hstore, hqueue]
    refine ⟨keeps_stuck _ hstuck, ?_⟩
    rw [if_neg]
    · exact hqueued
    · rintro ⟨hj, hok⟩
      obtain ⟨rfl, hb⟩ := hgood hj.symm
      rw [hstuck.attempt_good hb hinv.files] at hok
      cases hok
  | reclaim now later =>
    obtain ⟨hstore, hqueue⟩ := step_reclaim hstep
    rw [hstore, hqueue]
    exact ⟨hstuck, hqueued⟩

theorem stuck_run (hinv : Inv σ) (h : Stuck σ.store job) (hqueued : (σ.queue.find job.jobId).isSome)
    (hgood : ∀ e ∈ events, e.GoodFor job) (hrun : run (step cfg) events σ = some σ') :
    (σ'.queue.find job.jobId).isSome := by
  have halong : Along (step cfg) (fun _ e => Event.GoodFor job e) events σ :=
    along_of_forall fun e he _ => hgood e he
  have hend : Inv σ' ∧ Stuck σ'.store job ∧ (σ'.queue.find job.jobId).isSome := by
    refine halong.inv (I := fun σ => Inv σ ∧ Stuck σ.store job ∧ (σ.queue.find job.jobId).isSome) ⟨hinv, h, hqueued⟩ ?_
      hrun
    intro σ e σ' hσ hgood hstep
    exact ⟨hσ.1.step hstep, stuck_step hσ.1 hσ.2 hgood hstep⟩
  exact hend.2.2

theorem acked_step (h : (σ.store.jobs.find j).isSome ∧ (σ.queue.find j).isSome = false)
    (hstep : step cfg σ e = some σ') : (σ'.store.jobs.find j).isSome ∧ (σ'.queue.find j).isSome = false := by
  refine ⟨job_step h.1 hstep, ?_⟩
  cases e with
  | submit row payload now =>
    obtain ⟨hnew, -, hqueue⟩ := step_submit hstep
    rw [hqueue, if_neg]
    · exact h.2
    · rintro rfl
      rw [hnew] at h
      cases h.1
  | delivery w job b now later =>
    rw [(step_delivery hstep).2, h.2, ite_self]
  | reclaim now later =>
    rw [(step_reclaim hstep).2]
    exact h.2

theorem recoverable_step (h : Recoverable σ.store job) (hother : ¬ e.Delivers job.jobId)
    (hstep : step cfg σ e = some σ') : Recoverable σ'.store job := by
  cases e with
  | submit row payload now =>
    obtain ⟨hnew, hstore, -⟩ := step_submit hstep
    have hne : row.jobId ≠ job.jobId := by
      intro heq
      have hstatus := h.status
      rw [status, ← heq, hnew] at hstatus
      rcases hstatus with hstatus | hstatus <;> cases hstatus
    rw [hstore]
    refine ⟨?_, h.snapshot, h.readable⟩
    rw [status, Table.find_insertOrReplace, if_neg hne]
    exact h.status
  | delivery w job' b now later =>
    rw [(step_delivery hstep).1]
    exact keeps_recoverable (fun hj => hother hj.symm) _ h
  | reclaim now later =>
    rw [(step_reclaim hstep).1]
    exact h

theorem recoverable_run (h : Recoverable σ.store job) (hjob : (σ.store.jobs.find job.jobId).isSome)
    (hgood : ∀ e ∈ events, e.GoodFor job) (hdelivers : ∃ e ∈ events, e.Delivers job.jobId)
    (hrun : run (step cfg) events σ = some σ') : σ'.queue.find job.jobId = none := by
  induction events generalizing σ with
  | nil =>
    obtain ⟨e, he, -⟩ := hdelivers
    cases he
  | cons e events ih =>
    obtain ⟨σ₁, hstep, hrest⟩ := run_cons.1 hrun
    have hjob₁ := job_step hjob hstep
    by_cases hfirst : e.Delivers job.jobId
    · have hacked : (σ₁.queue.find job.jobId).isSome = false := by
        cases e with
        | delivery w job' b now later =>
          obtain ⟨rfl, hb⟩ := hgood _ List.mem_cons_self hfirst
          rw [(step_delivery hstep).2, if_pos ⟨rfl, h.attempt_good hb⟩]
        | submit | reclaim => cases hfirst
      have hend := inv_of_run (I := fun σ : System J O K F W T P => (σ.store.jobs.find job.jobId).isSome ∧
        (σ.queue.find job.jobId).isSome = false) ⟨hjob₁, hacked⟩ (fun _ _ _ => acked_step) hrest
      exact Option.isNone_iff_eq_none.1 (by simpa using hend.2)
    · refine ih (recoverable_step h hfirst hstep) hjob₁ (fun e' he' => hgood e' (List.mem_cons_of_mem _ he')) ?_ hrest
      obtain ⟨e', he', hdelivers⟩ := hdelivers
      rcases List.mem_cons.1 he' with rfl | he'
      · exact absurd hdelivers hfirst
      · exact ⟨e', he', hdelivers⟩

/-! ### Result -/

/-- A job in the queue, after any history of deliveries that were cut off anywhere. -/
theorem redelivery_acked_iff {history : List (Event J O K F W T P)} (hhistory : run (step cfg) history start = some σ)
    (hqueued : (σ.queue.find job.jobId).isSome) :
    (Recoverable σ.store job → ∀ events σ', run (step cfg) events σ = some σ' → (∀ e ∈ events, e.GoodFor job) →
        (∃ e ∈ events, e.Delivers job.jobId) → σ'.queue.find job.jobId = none) ∧
      (¬ Recoverable σ.store job → ∀ events σ', run (step cfg) events σ = some σ' → (∀ e ∈ events, e.GoodFor job) →
        (σ'.queue.find job.jobId).isSome) := by
  have hinv : Inv σ := inv_of_run inv_start (fun _ _ _ h => h.step) hhistory
  have hjob := hinv.jobs _ hqueued
  refine ⟨?_, ?_⟩
  · intro h events σ' hrun hgood hdelivers
    exact recoverable_run h hjob hgood hdelivers hrun
  · intro h events σ' hrun hgood
    exact stuck_run hinv ((recoverable_or_stuck hjob).resolve_left h) hqueued hgood hrun

section Demo

open Queue.Workers (defaults)

def demoJob (specCfg : Json) : Job Nat Nat Nat := ⟨1, 2, 3, specCfg⟩

def nothingFails : Behaviour := ⟨fun _ => .pass, .returns 0 true⟩

def cutAt (p : Place) (c : Cut) : Behaviour := ⟨fun p' => if p' = p then c else .pass, .returns 0 true⟩

def cutHistory (p : Place) (c : Cut) (specCfg : Json) : List (Event Nat Nat Nat Nat Nat Int Unit) :=
  [.submit ⟨1, 0, 2, 3, none, .queued⟩ () 0, .delivery 7 (demoJob specCfg) (cutAt p c) 0 10, .reclaim 1000 1000]

theorem nothingFails_good : nothingFails.Good := ⟨fun _ => rfl, 0, true, rfl⟩

theorem redelivery_acked_after_crash :
    ∃ σ σ', run (step defaults) (cutHistory .setup .crash (.obj [])) start = some σ ∧
      Recoverable σ.store (demoJob (.obj [])) ∧
      run (step defaults) [.delivery 8 (demoJob (.obj [])) nothingFails 1000 1010] σ = some σ' ∧
      σ'.queue.find 1 = none := by
  have hfacts : ((run (step defaults) (cutHistory .setup .crash (.obj [])) start).map fun σ =>
      (status σ.store.jobs 1, (σ.store.snapshots.find 1).isNone, (σ.queue.find 1).isSome)) =
      some (some .running, true, true) := by decide +kernel
  have hsome : ((run (step defaults) (cutHistory .setup .crash (.obj [])) start).bind
      (run (step defaults) [.delivery 8 (demoJob (.obj [])) nothingFails 1000 1010])).isSome = true := by decide +kernel
  obtain ⟨σ, hσ, hfacts⟩ := Option.map_eq_some_iff.1 hfacts
  obtain ⟨hstatus, hnone, hqueued⟩ : _ ∧ _ ∧ _ := by simpa only [Prod.mk.injEq] using hfacts
  obtain ⟨σ', hσ'⟩ := Option.isSome_iff_exists.1 hsome
  rw [hσ, Option.bind_some] at hσ'
  have hrecoverable : Recoverable σ.store (demoJob (.obj [])) :=
    ⟨.inr hstatus, Option.isNone_iff_eq_none.1 hnone, rfl⟩
  refine ⟨σ, σ', hσ, hrecoverable, hσ', ?_⟩
  refine (redelivery_acked_iff hσ hqueued).1 hrecoverable _ σ' hσ' ?_ ⟨_, List.mem_singleton_self _, rfl⟩
  intro e he
  rw [List.mem_singleton.1 he]
  exact fun _ => ⟨rfl, nothingFails_good⟩

/-- The job comes back for ever: it is in the queue, it can be delivered, and it is in the queue after any number of
deliveries in which nothing fails. -/
def ForEver (p : Place) (c : Cut) (specCfg : Json) : Prop :=
  ∃ σ, run (step defaults) (cutHistory p c specCfg) start = some σ ∧
    (run (step defaults) [.delivery 8 (demoJob specCfg) nothingFails 1000 1010] σ).isSome = true ∧
    ∀ events σ', run (step defaults) events σ = some σ' → (∀ e ∈ events, e.GoodFor (demoJob specCfg)) →
      (σ'.queue.find 1).isSome

theorem forEver_of_facts {p : Place} {c : Cut} {specCfg : Json} {a : Option JobStatus} {x : Bool}
    (hfacts : ((run (step defaults) (cutHistory p c specCfg) start).map fun σ =>
      (status σ.store.jobs 1, (σ.store.snapshots.find 1).isSome, (σ.queue.find 1).isSome)) = some (a, x, true))
    (hstuck : a = some .succeeded ∨ x = true ∨ dictReturns specCfg ≠ true)
    (hsome : ((run (step defaults) (cutHistory p c specCfg) start).bind
      (run (step defaults) [.delivery 8 (demoJob specCfg) nothingFails 1000 1010])).isSome = true) :
    ForEver p c specCfg := by
  obtain ⟨σ, hσ, hfacts⟩ := Option.map_eq_some_iff.1 hfacts
  obtain ⟨rfl, rfl, hqueued⟩ : _ ∧ _ ∧ _ := by simpa only [Prod.mk.injEq] using hfacts
  rw [hσ, Option.bind_some] at hsome
  refine ⟨σ, hσ, hsome, fun events σ' hrun hgood => ?_⟩
  have hinv : Inv σ := inv_of_run inv_start (fun _ _ _ h => h.step) hσ
  exact stuck_run hinv (hstuck.imp_left .inl) hqueued hgood hrun

/-- Worker 7 dies before it acknowledges a job that has succeeded; it raises behind the insertion of the snapshot; and
it takes a job whose `spec_cfg` is a text. -/
theorem redelivered_for_ever : ForEver .ack .crash (.obj []) ∧ ForEver .snapshotInserted .raise (.obj []) ∧
    ForEver .setup .pass (.str (pyStr "fast")) := by
  refine ⟨?_, ?_, ?_⟩
  · exact forEver_of_facts (a := some .succeeded) (x := true) (by decide +kernel) (.inl rfl) (by decide +kernel)
  · exact forEver_of_facts (a := some .running) (x := true) (by decide +kernel) (.inr (.inl rfl)) (by decide +kernel)
  · exact forEver_of_facts (a := some .running) (x := false) (by decide +kernel) (.inr (.inr (by decide)))
      (by decide +kernel)

end Demo

end Korith.Process
