import Korith.Lib.Path
import Korith.Platform.Submit

/-!
# The artifacts of a job

`ArtifactStore.init_job` puts the artifacts of a job into a directory below that of its organization, and joins both
ids to the path as they are. The client may choose the id of the job. There are no symbolic links below the base
directory: nothing in the repository makes one.
-/

namespace Korith.Artifacts

abbrev Text : Type := List Char

def jobIdOf (jobId : Option Text) (uuid : Text) : Text :=
  match jobId with
  | some id => if id = [] then uuid else id
  | none => uuid

structure JobPaths where
  jobDir : Path
  metrics : Path
  events : Path
  output : Path
  log : Path
  mfSnapshot : Path
  engineMetrics : Path
  engineEvents : Path

def initJob (baseDir : Path) (jobId orgId : Text) : JobPaths :=
  let jobDir := (baseDir.join orgId).join jobId
  { jobDir
    metrics := jobDir.join "metrics.json".toList
    events := jobDir.join "events.jsonl".toList
    output := jobDir.join "output.txt".toList
    log := jobDir.join "run.log".toList
    mfSnapshot := jobDir.join "mf_snapshot.json".toList
    engineMetrics := jobDir.join "engine_metrics.json".toList
    engineEvents := jobDir.join "engine_events.jsonl".toList }

def JobPaths.files (paths : JobPaths) : List Path :=
  [paths.metrics, paths.events, paths.output, paths.log, paths.mfSnapshot, paths.engineMetrics, paths.engineEvents]

end Korith.Artifacts
