import Korith.Platform.Artifacts

/-!
# Where the artifacts of a job are

The artifacts are below the directory of the organization exactly if the directory of the job is (`prefix_jobDir_iff`
reads that off the id, which comes from the client), and two jobs have an artifact in common exactly if they have
their directory in common. If both are where they should be, and the ids of the organizations are plain names, they do
not.
-/

namespace Korith.Artifacts

open Korith.Path Submit

variable {K F : Type} {cwd : Place} {baseDir : Path} {a b : Answer Text Text K} {p : Path}

def orgDir (cwd : Place) (baseDir : Path) (a : Answer Text Text K) : Place := resolve cwd (baseDir.join a.orgId)

def jobDir (cwd : Place) (baseDir : Path) (a : Answer Text Text K) : Place :=
  resolve cwd (initJob baseDir a.jobId a.orgId).jobDir

def artifacts (baseDir : Path) (a : Answer Text Text K) : List Path := (initJob baseDir a.jobId a.orgId).files

structure Isolated (cwd : Place) (baseDir : Path) (jobs : List (Answer Text Text K)) : Prop where
  inside : ∀ a ∈ jobs, ∀ p ∈ artifacts baseDir a, Inside (orgDir cwd baseDir a) (resolve cwd p)
  disjoint : ∀ a ∈ jobs, ∀ b ∈ jobs, a.orgId ≠ b.orgId →
    ∀ p ∈ artifacts baseDir a, ∀ q ∈ artifacts baseDir b, resolve cwd p ≠ resolve cwd q

/-- The names after the levels that the id goes up are those of these levels first. -/
def Contained (cwd : Place) (baseDir : Path) (a : Answer Text Text K) : Prop :=
  let dir := orgDir cwd baseDir a
  if isAbsolute a.jobId then dir <+: walk [] (components a.jobId)
  else dir.drop (dir.length - (cancel (components a.jobId)).1) <+: (cancel (components a.jobId)).2

theorem prefix_jobDir_iff : orgDir cwd baseDir a <+: jobDir cwd baseDir a ↔ Contained cwd baseDir a := by
  unfold Contained jobDir
  cases habs : isAbsolute a.jobId with
  | true =>
    have hdir : resolve cwd (initJob baseDir a.jobId a.orgId).jobDir = walk [] (components a.jobId) :=
      resolve_join_absolute habs
    simp [hdir]
  | false =>
    have hdir : resolve cwd (initJob baseDir a.jobId a.orgId).jobDir =
        walk (orgDir cwd baseDir a) (components a.jobId) := resolve_join habs
    simp [hdir, prefix_walk_iff]

/-! ### Files -/

def fileNames : List Text :=
  ["metrics.json".toList, "events.jsonl".toList, "output.txt".toList, "run.log".toList, "mf_snapshot.json".toList,
    "engine_metrics.json".toList, "engine_events.jsonl".toList]

theorem artifacts_eq : artifacts baseDir a = fileNames.map (initJob baseDir a.jobId a.orgId).jobDir.join := rfl

theorem plain_fileNames : ∀ name ∈ fileNames, Plain name := by decide

theorem resolve_artifact (cwd : Place) (h : p ∈ artifacts baseDir a) :
    ∃ name ∈ fileNames, resolve cwd p = jobDir cwd baseDir a ++ [name] := by
  rw [artifacts_eq] at h
  obtain ⟨name, hname, rfl⟩ := List.mem_map.1 h
  exact ⟨name, hname, (plain_fileNames name hname).resolve_join⟩

theorem metrics_mem : (initJob baseDir a.jobId a.orgId).metrics ∈ artifacts baseDir a := List.mem_cons_self

theorem resolve_metrics : resolve cwd (initJob baseDir a.jobId a.orgId).metrics =
    jobDir cwd baseDir a ++ ["metrics.json".toList] :=
  (plain_fileNames _ List.mem_cons_self).resolve_join

theorem inside_iff : (∀ p ∈ artifacts baseDir a, Inside (orgDir cwd baseDir a) (resolve cwd p)) ↔
    Contained cwd baseDir a := by
  rw [← prefix_jobDir_iff]
  constructor
  · intro h
    have hmetrics := h _ metrics_mem
    rwa [resolve_metrics, inside_concat] at hmetrics
  · intro h p hp
    obtain ⟨name, -, hp⟩ := resolve_artifact cwd hp
    rw [hp]
    exact inside_concat.2 h

theorem disjoint_iff : (∀ p ∈ artifacts baseDir a, ∀ q ∈ artifacts baseDir b, resolve cwd p ≠ resolve cwd q) ↔
      jobDir cwd baseDir a ≠ jobDir cwd baseDir b := by
  constructor
  · intro h hdir
    refine h _ metrics_mem _ metrics_mem ?_
    rw [resolve_metrics, resolve_metrics, hdir]
  · intro h p hp q hq hpq
    obtain ⟨name, -, hp⟩ := resolve_artifact cwd hp
    obtain ⟨name', -, hq⟩ := resolve_artifact cwd hq
    rw [hp, hq] at hpq
    exact h (List.append_inj_left' hpq rfl)

/-! ### Organizations -/

theorem jobDir_ne_of_plain (ha : Contained cwd baseDir a) (hb : Contained cwd baseDir b) (hpa : Plain a.orgId)
    (hpb : Plain b.orgId) (hne : a.orgId ≠ b.orgId) : jobDir cwd baseDir a ≠ jobDir cwd baseDir b := by
  intro hdir
  have hpre := prefix_jobDir_iff.2 ha
  have hpre' := prefix_jobDir_iff.2 hb
  rw [orgDir, hpa.resolve_join, hdir] at hpre
  rw [orgDir, hpb.resolve_join] at hpre'
  have hlength : (resolve cwd baseDir ++ [a.orgId]).length = (resolve cwd baseDir ++ [b.orgId]).length := by
    simp
  have horg := (List.prefix_of_prefix_length_le hpre hpre' hlength.le).eq_of_length hlength
  exact hne (List.singleton_inj.1 (List.append_cancel_left horg))

/-- Where the two ids lead from the base directory. -/
def destination (base : Place) (orgId jobId : Text) : Place :=
  if isAbsolute jobId then walk [] (components jobId)
  else walk (if isAbsolute orgId then [] else base) (components orgId ++ components jobId)

theorem jobDir_eq : jobDir cwd baseDir a = destination (resolve cwd baseDir) a.orgId a.jobId := by
  unfold jobDir destination initJob
  split_ifs with hjob horg
  · exact resolve_join_absolute hjob
  · rw [resolve_join (Bool.eq_false_iff.2 hjob), resolve_join_absolute horg, walk_append]
  · rw [resolve_join (Bool.eq_false_iff.2 hjob), resolve_join (Bool.eq_false_iff.2 horg), walk_append]

/-- Where the id of an organization is not a plain name, the ids of the jobs have to lead apart as well. -/
theorem artifacts_isolated_iff (cwd : Place) (baseDir : Path) (s : State Text Text K F) :
    Isolated cwd baseDir s.returned ↔
      (∀ a ∈ s.returned, Contained cwd baseDir a) ∧
        ∀ a ∈ s.returned, ∀ b ∈ s.returned, a.orgId ≠ b.orgId → ¬ (Plain a.orgId ∧ Plain b.orgId) →
          destination (resolve cwd baseDir) a.orgId a.jobId ≠ destination (resolve cwd baseDir) b.orgId b.jobId := by
  simp only [← jobDir_eq]
  constructor
  · rintro ⟨hinside, hdisjoint⟩
    refine ⟨fun a ha => inside_iff.1 (hinside a ha), ?_⟩
    intro a ha b hb hne _
    exact disjoint_iff.1 (hdisjoint a ha b hb hne)
  · rintro ⟨hcontained, hapart⟩
    refine ⟨fun a ha => inside_iff.2 (hcontained a ha), ?_⟩
    intro a ha b hb hne
    refine disjoint_iff.2 ?_
    by_cases hplain : Plain a.orgId ∧ Plain b.orgId
    · exact jobDir_ne_of_plain (hcontained a ha) (hcontained b hb) hplain.1 hplain.2 hne
    · exact hapart a ha b hb hne hplain

section Runs

def call (orgId jobId : String) : Submission Text Text Unit Unit :=
  ⟨orgId.toList, none, jobIdOf (some jobId.toList) "3f2b".toList, 0, (), .insertJob⟩

def accepted (c : Submission Text Text Unit Unit) : List (Event Text Text Unit Unit) :=
  .lookup c none :: [.insertJob, .initArtifacts, .appendAccept, .appendAssign, .enqueue, .return].map fun phase =>
    .advance { c with phase }

/-- A job that writes into the directory of a job of another organization. -/
theorem artifacts_not_isolated :
    (Run.run step (accepted (call "acme" "j1") ++ accepted (call "other" "../acme/j1")) start).map State.returned =
        some [⟨"other".toList, none, "../acme/j1".toList⟩, ⟨"acme".toList, none, "j1".toList⟩] ∧
      ¬ Inside (resolve [] ((ofText "/data".toList).join "other".toList))
        (resolve [] (initJob (ofText "/data".toList) "../acme/j1".toList "other".toList).events) ∧
      resolve [] (initJob (ofText "/data".toList) "../acme/j1".toList "other".toList).events =
        resolve [] (initJob (ofText "/data".toList) "j1".toList "acme".toList).events := by
  refine ⟨by decide +kernel, by decide +kernel, by decide +kernel⟩

end Runs

end Korith.Artifacts
