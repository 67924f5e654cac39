import Korith.Platform.LedgerStore
import Mathlib.Tactic.Tauto

/-!
# Whether the stores of the ledger are interchangeable

From equal tables both stores do the same, or both raise, as long as a call stays clear of what they treat
differently: `update_status` of Postgres checks nothing, a jobspec or a fingerprint with a code point above `~` is
stored as another text and with another hash, and some values are taken by one of the databases only.
-/

namespace Korith.LedgerStore

open Machine

variable {R : Type} {env : Env R} {t t' : Tables R} {op : Op R} {ops before : List (Op R)} {b : Backend} {q : Query R}
  {st : Statement R} {a : JobArgs} {jobId newStatus : PyStr} {p : Prop} {row : JobRow}

/-! ### What is compared -/

/-- The same rows may be returned: what is left open is the order of rows with equal sort keys. -/
def Selection.Alike {α : Type} (q q' : Selection α) : Prop := ∀ out, q.Returns out ↔ q'.Returns out

def Answer.Alike : Answer R → Answer R → Prop
  | .jobId q, .jobId q' => q.Alike q'
  | .snapshot q, .snapshot q' => q.Alike q'
  | .run q, .run q' => q.Alike q'
  | .jobs q, .jobs q' => q.Alike q'
  | .apiKeys q, .apiKeys q' => q.Alike q'
  | .replayGovernances q, .replayGovernances q' => q.Alike q'
  | .specGovernances q, .specGovernances q' => q.Alike q'
  | .locations q, .locations q' => q.Alike q'
  | answer, answer' => answer = answer'

theorem Answer.Alike.refl (answer : Answer R) : answer.Alike answer := by
  cases answer <;> first | exact fun _ => Iff.rfl | rfl

/-- Both raise, or both return the same. -/
def Same : Except Error (Answer R) → Except Error (Answer R) → Prop
  | .ok answer, .ok answer' => answer.Alike answer'
  | .error _, .error _ => True
  | _, _ => False

def SameJobs (t t' : Tables R) : Prop := ∀ row, row ∈ t.jobs ↔ row ∈ t'.jobs

structure Agree (env : Env R) (before : List (Op R)) (op : Op R) : Prop where
  answers : Same (answer (step env .sqlite) .empty before op) (answer (step env .postgres) .empty before op)
  jobs : SameJobs (after (step env .sqlite) .empty (before ++ [op])) (after (step env .postgres) .empty (before ++ [op]))

/-! ### The condition -/

def takesJob (env : Env R) (b : Backend) (a : JobArgs) : Bool :=
  encodable (a.jobspec.dumps b.ensureAscii true) && takes env b (jobRow env b a).params

def Advances (t : Tables R) (jobId newStatus : PyStr) : Prop :=
  newStatus ∈ statusOrder ∧ ∃ row ∈ t.jobs.find jobId, row.status = newStatus ∨
    (row.status ∈ statusOrder ∧ ¬ statusOrder.idxOf newStatus < statusOrder.idxOf row.status)
  deriving Decidable

/-- The operation stays clear of what the stores treat differently. -/
def Clear (env : Env R) (t : Tables R) : Op R → Prop
  | .insertJob a =>
    (t.jobs.find a.jobId).isSome ∨ (takesJob env .sqlite a = false ∧ takesJob env .postgres a = false) ∨
      (takesJob env .sqlite a = true ∧ takesJob env .postgres a = true ∧ a.jobspec.plain = true ∧
        a.fingerprint.plain = true)
  | .updateStatus jobId newStatus =>
    takes env .postgres [.text newStatus, .text jobId] = false ∨ Advances t jobId newStatus
  | .query q =>
    (statement env .sqlite q).clash t = true ∨
      takes env .sqlite (statement env .sqlite q).params = takes env .postgres (statement env .sqlite q).params

instance : Decidable (Clear env t op) :=
  match op with
  | .insertJob _ => inferInstanceAs (Decidable (_ ∨ _))
  | .updateStatus _ _ => inferInstanceAs (Decidable (_ ∨ _))
  | .query _ => inferInstanceAs (Decidable (_ ∨ _))

/-! ### One step -/

/-- What a step makes of what the store performs. -/
def settle (t : Tables R) : Except Error (Answer R × Tables R) → Except Error (Answer R) × Tables R
  | .ok (answer, t') => (.ok answer, t')
  | .error e => (.error e, t)

theorem step_eq : step env b t op = settle t (perform env b t op) := rfl

abbrev Outcome (R : Type) : Type := Except Error (Answer R) × Tables R

structure AgreeIff (p : Prop) (x y : Outcome R) : Prop where
  mpr : p → Same x.1 y.1 ∧ x.2 = y.2
  mp : Same x.1 y.1 → SameJobs x.2 y.2 → p

theorem Same.refl (x : Except Error (Answer R)) : Same x x := by
  cases x with
  | error e => trivial
  | ok answer => exact Answer.Alike.refl answer

theorem AgreeIff.of_eq (x : Outcome R) (hp : p) : AgreeIff p x x := ⟨fun _ => ⟨Same.refl _, rfl⟩, fun _ _ => hp⟩

theorem AgreeIff.errors (e e' : Error) (hp : p) : AgreeIff p (settle t (.error e)) (settle t (.error e')) :=
  ⟨fun _ => ⟨trivial, rfl⟩, fun _ _ => hp⟩

theorem AgreeIff.of_not {x y : Outcome R} (hp : ¬ p) (hxy : ¬ Same x.1 y.1) : AgreeIff p x y :=
  ⟨fun h => absurd h hp, fun h => absurd h hxy⟩

theorem execute_of_clash (env : Env R) (b : Backend) (h : st.clash t = true) : ∃ e, execute env b st t = .error e := by
  unfold execute
  split_ifs
  · exact ⟨_, rfl⟩
  · exact ⟨_, rfl⟩

theorem execute_of_not_takes (h : takes env b st.params = false) : execute env b st t = .error .dataError := by
  rw [execute, h]
  rfl

theorem execute_of_takes (h : takes env b st.params = true) (hclash : st.clash t = false) :
    execute env b st t = .ok (st.effect t) := by
  rw [execute, h, hclash]
  rfl

theorem statement_postgres (h : env.collation = strLe) : statement env .postgres q = statement env .sqlite q := by
  have horder : order env .postgres = order env .sqlite := h
  cases q <;>
    simp only [statement, getLatestRun, listJobs, findJobByFingerprint, findJobByIdempotency, getSnapshotForJob,
      listApiKeys, listReplayGovernance, listSpecGovernance, listSnapshotLocations, sorted, horder]

theorem jobs_effect : ((statement env b q).effect t).2.jobs = t.jobs := by
  cases q <;> simp only [statement, findJobByIdempotency] <;> first | rfl | (split_ifs <;> rfl)

theorem query_agrees (h : env.collation = strLe) :
    AgreeIff (Clear env t (.query q)) (step env .sqlite t (.query q)) (step env .postgres t (.query q)) := by
  rw [step_eq, step_eq, perform, perform, statement_postgres h]
  show AgreeIff ((statement env .sqlite q).clash t = true ∨ _) _ _
  cases hclash : (statement env .sqlite q).clash t with
  | true =>
    obtain ⟨e, he⟩ := execute_of_clash env .sqlite hclash
    obtain ⟨e', he'⟩ := execute_of_clash env .postgres hclash
    rw [he, he']
    exact .errors e e' (.inl rfl)
  | false =>
    cases hs : takes env .sqlite (statement env .sqlite q).params <;>
      cases hp : takes env .postgres (statement env .sqlite q).params
    · rw [execute_of_not_takes hs, execute_of_not_takes hp]
      exact .errors _ _ (.inr rfl)
    · rw [execute_of_not_takes hs, execute_of_takes hp hclash]
      exact .of_not (by simp) id
    · rw [execute_of_takes hs hclash, execute_of_not_takes hp]
      exact .of_not (by simp) id
    · rw [execute_of_takes hs hclash, execute_of_takes hp hclash]
      exact .of_eq _ (.inr rfl)

/-- A job with a plain jobspec and a plain fingerprint is the same row for both stores, and no other job is. -/
theorem jobRow_eq_iff :
    jobRow env .sqlite a = jobRow env .postgres a ↔ a.jobspec.plain = true ∧ a.fingerprint.plain = true := by
  constructor
  · intro h
    exact ⟨Json.dumps_eq_iff.1 (congrArg JobRow.jobspecJson h).symm,
      Json.dumps_eq_iff.1 (congrArg JobRow.fingerprintJson h).symm⟩
  · rintro ⟨hspec, hfp⟩
    simp [jobRow, Backend.ensureAscii, Json.dumps_of_plain hspec, Json.dumps_of_plain hfp]

theorem insertJob_of_clash (env : Env R) (b : Backend) (h : (t.jobs.find a.jobId).isSome = true) :
    ∃ e, insertJob env b a t = .error e := by
  unfold insertJob
  split_ifs
  · exact execute_of_clash env b h
  · exact ⟨_, rfl⟩

theorem insertJob_of_not_takes (h : takesJob env b a = false) : ∃ e, insertJob env b a t = .error e := by
  unfold insertJob
  split_ifs with hencodable
  · rw [takesJob, hencodable, Bool.true_and] at h
    exact ⟨_, execute_of_not_takes h⟩
  · exact ⟨_, rfl⟩

theorem insertJob_of_takes (h : takesJob env b a = true) (hnew : (t.jobs.find a.jobId).isSome = false) :
    insertJob env b a t = .ok (.none, { t with jobs := t.jobs.insertOrReplace (jobRow env b a) }) := by
  rw [takesJob, Bool.and_eq_true] at h
  rw [insertJob, if_pos h.1]
  exact execute_of_takes h.2 hnew

theorem insertJob_agrees :
    AgreeIff (Clear env t (.insertJob a)) (step env .sqlite t (.insertJob a)) (step env .postgres t (.insertJob a)) := by
  rw [step_eq, step_eq, perform, perform]
  show AgreeIff (_ = true ∨ _) _ _
  cases hclash : (t.jobs.find a.jobId).isSome with
  | true =>
    obtain ⟨e, he⟩ := insertJob_of_clash env .sqlite hclash
    obtain ⟨e', he'⟩ := insertJob_of_clash env .postgres hclash
    rw [he, he']
    exact .errors e e' (.inl rfl)
  | false =>
    cases hs : takesJob env .sqlite a <;> cases hp : takesJob env .postgres a
    · obtain ⟨e, he⟩ := insertJob_of_not_takes (t := t) hs
      obtain ⟨e', he'⟩ := insertJob_of_not_takes (t := t) hp
      rw [he, he']
      exact .errors e e' (.inr (.inl ⟨rfl, rfl⟩))
    · obtain ⟨e, he⟩ := insertJob_of_not_takes (t := t) hs
      rw [he, insertJob_of_takes hp hclash]
      exact .of_not (by simp) id
    · obtain ⟨e, he⟩ := insertJob_of_not_takes (t := t) hp
      rw [he, insertJob_of_takes hs hclash]
      exact .of_not (by simp) id
    · rw [insertJob_of_takes hs hclash, insertJob_of_takes hp hclash]
      constructor
      · intro hclear
        obtain ⟨-, -, hplain⟩ : true = true ∧ true = true ∧ _ := by simpa using hclear
        rw [jobRow_eq_iff.2 hplain]
        exact ⟨Same.refl _, rfl⟩
      · intro _ hjobs
        have hrow : jobRow env .sqlite a = jobRow env .postgres a := by
          rcases Table.mem_insertOrReplace.1 ((hjobs _).1 (Table.mem_insertOrReplace.2 (.inl rfl))) with heq | ⟨-, hne⟩
          · exact heq
          · exact absurd rfl hne
        exact .inr (.inr ⟨rfl, rfl, jobRow_eq_iff.1 hrow⟩)

/-- No job of the tables has a NUL in its id. -/
def Inv (t : Tables R) : Prop := ∀ row ∈ t.jobs, nulFree row.jobId = true

theorem takes_pair : takes env .postgres [.text newStatus, .text jobId] = true ↔
    (encodable newStatus = true ∧ nulFree newStatus = true) ∧ encodable jobId = true ∧ nulFree jobId = true := by
  simp [takes, env.postgres_text]

theorem statusOrder_takes (h : newStatus ∈ statusOrder) : encodable newStatus = true ∧ nulFree newStatus = true := by
  revert h newStatus
  decide

theorem takes_of_advances (hinv : Inv t) (hadv : Advances t jobId newStatus) (htext : encodable jobId = true) :
    takes env .postgres [.text newStatus, .text jobId] = true := by
  obtain ⟨hmem, row, hfind, -⟩ := hadv
  obtain ⟨hrow, rfl⟩ := Table.find_eq_some_iff.1 hfind
  exact takes_pair.2 ⟨statusOrder_takes hmem, htext, hinv row hrow⟩

theorem mem_setStatus (h : row ∈ (setStatus jobId newStatus t).jobs) : ∃ row₀ ∈ t.jobs, row₀.jobId = row.jobId := by
  rw [setStatus, Table.mem_updateWhere] at h
  rcases h with ⟨hrow, -⟩ | ⟨row₀, hrow₀, -, rfl⟩
  · exact ⟨row, hrow, rfl⟩
  · exact ⟨row₀, hrow₀, rfl⟩

theorem setStatus_eq_self (hfind : t.jobs.find jobId = some row) : setStatus jobId row.status t = t := by
  obtain ⟨hrow, rfl⟩ := Table.find_eq_some_iff.1 hfind
  have hjobs : ∀ r ∈ t.jobs, decide (r.jobId = row.jobId) = true → { r with status := row.status } = r := by
    intro r hr hid
    rw [Table.eq_of_key hr hrow (of_decide_eq_true hid)]
  rw [setStatus, Table.updateWhere_eq_self hjobs]

theorem sqlite_updateStatus (env : Env R) (t : Tables R) (jobId newStatus : PyStr) :
    (Advances t jobId newStatus ∧ encodable jobId = true ∧
        Sqlite.updateStatus env jobId newStatus t = .ok (.none, setStatus jobId newStatus t)) ∨
      (¬ (Advances t jobId newStatus ∧ encodable jobId = true) ∧
        ∃ e, Sqlite.updateStatus env jobId newStatus t = .error e) := by
  unfold Sqlite.updateStatus
  by_cases hmem : newStatus ∈ statusOrder
  · rw [if_neg (not_not.2 hmem)]
    have htakes : takes env .sqlite [.text jobId] = encodable jobId := by simp [takes, env.sqlite_text]
    rw [htakes]
    cases htext : encodable jobId with
    | false => exact .inr ⟨fun h => Bool.false_ne_true h.2, _, rfl⟩
    | true =>
      rw [if_pos rfl]
      cases hfind : t.jobs.find jobId with
      | none =>
        refine .inr ⟨?_, _, rfl⟩
        rintro ⟨⟨-, row, hrow, -⟩, -⟩
        rw [hfind] at hrow
        cases hrow
      | some row =>
        have hadv : Advances t jobId newStatus ↔ row.status = newStatus ∨
            (row.status ∈ statusOrder ∧ ¬ statusOrder.idxOf newStatus < statusOrder.idxOf row.status) := by
          simp [Advances, hmem, hfind]
        dsimp only
        split_ifs with hsame hstatus hback
        · exact .inl ⟨hadv.2 (.inl hsame), rfl, by rw [← hsame, setStatus_eq_self hfind]⟩
        · exact .inr ⟨fun h => (hadv.1 h.1).elim hsame fun h => h.2 hback, _, rfl⟩
        · refine .inl ⟨hadv.2 (.inr ⟨hstatus, hback⟩), rfl, execute_of_takes ?_ rfl⟩
          simp [change, takes, env.sqlite_text, (statusOrder_takes hmem).1, htext]
        · exact .inr ⟨fun h => (hadv.1 h.1).elim hsame fun h => hstatus h.1, _, rfl⟩
  · rw [if_pos hmem]
    exact .inr ⟨fun h => hmem h.1.1, _, rfl⟩

theorem updateStatus_agrees (hinv : Inv t) :
    AgreeIff (Clear env t (.updateStatus jobId newStatus)) (step env .sqlite t (.updateStatus jobId newStatus))
      (step env .postgres t (.updateStatus jobId newStatus)) := by
  rw [step_eq, step_eq, perform, perform]
  show AgreeIff (_ = false ∨ _) (settle t (Sqlite.updateStatus env jobId newStatus t))
    (settle t (Postgres.updateStatus env jobId newStatus t))
  cases hp : takes env .postgres [.text newStatus, .text jobId] with
  | false =>
    have hpostgres : Postgres.updateStatus env jobId newStatus t = .error .dataError := execute_of_not_takes hp
    rw [hpostgres]
    rcases sqlite_updateStatus env t jobId newStatus with ⟨hadv, htext, -⟩ | ⟨-, e, hsqlite⟩
    · exact absurd (takes_of_advances hinv hadv htext) (Bool.eq_false_iff.1 hp)
    · rw [hsqlite]
      exact .errors _ _ (.inl rfl)
  | true =>
    have hpostgres : Postgres.updateStatus env jobId newStatus t = .ok (.none, setStatus jobId newStatus t) :=
      execute_of_takes hp rfl
    rw [hpostgres]
    rcases sqlite_updateStatus env t jobId newStatus with ⟨hadv, -, hsqlite⟩ | ⟨hadv, e, hsqlite⟩
    · rw [hsqlite]
      exact .of_eq _ (.inr hadv)
    · rw [hsqlite]
      refine .of_not ?_ id
      rintro (hfalse | h)
      · cases hfalse
      · exact hadv ⟨h, (takes_pair.1 hp).2.1⟩

theorem step_agrees (h : env.collation = strLe) (hinv : Inv t) :
    AgreeIff (Clear env t op) (step env .sqlite t op) (step env .postgres t op) := by
  cases op with
  | insertJob a => exact insertJob_agrees
  | updateStatus jobId newStatus => exact updateStatus_agrees hinv
  | query q => exact query_agrees h

/-! ### Runs -/

theorem Inv.execute (hinv : Inv t) (heffect : takes env b st.params = true → Inv (st.effect t).2) :
    Inv (settle t (execute env b st t)).2 := by
  unfold LedgerStore.execute
  split_ifs with htakes
  · exact hinv
  · exact heffect htakes
  · exact hinv

theorem Inv.postgres (hinv : Inv t) : Inv (step env .postgres t op).2 := by
  rw [step_eq]
  cases op with
  | insertJob a =>
    rw [perform, insertJob]
    split_ifs
    · refine hinv.execute fun htakes row hrow => ?_
      rcases Table.mem_insertOrReplace.1 hrow with rfl | ⟨hrow, -⟩
      · have hid : env.accepts .postgres (.text a.jobId) = true := List.all_eq_true.1 htakes _ (.head _)
        rw [env.postgres_text, Bool.and_eq_true] at hid
        exact hid.2
      · exact hinv row hrow
    · exact hinv
  | updateStatus jobId newStatus =>
    refine hinv.execute fun _ row hrow => ?_
    obtain ⟨row₀, hrow₀, hid⟩ := mem_setStatus hrow
    rw [← hid]
    exact hinv row₀ hrow₀
  | query q =>
    refine hinv.execute fun _ row hrow => ?_
    rw [jobs_effect] at hrow
    exact hinv row hrow

theorem tables_eq (h : env.collation = strLe)
    (hclear : Every (fun before op => Clear env (after (step env .sqlite) .empty before) op) ops) :
    after (step env .sqlite) .empty ops = after (step env .postgres) .empty ops ∧
      Inv (after (step env .sqlite) .empty ops) := by
  refine hclear.inv (I := fun ops => after (step env .sqlite) .empty ops = after (step env .postgres) .empty ops ∧
    Inv (after (step env .sqlite) .empty ops)) ?_ ?_
  · rw [after_nil, after_nil]
    exact ⟨rfl, fun row hrow => absurd hrow Table.notMem_empty⟩
  · rintro before op ⟨htables, hinv⟩ hop
    have hstep := ((step_agrees h hinv).mpr hop).2
    rw [after_concat, after_concat, ← htables, hstep]
    exact ⟨rfl, hinv.postgres⟩

theorem stores_agree_iff (h : env.collation = strLe) :
    Every (Agree env) ops ↔ Every (fun before op => Clear env (after (step env .sqlite) .empty before) op) ops := by
  refine every_congr fun before op hclear => ?_
  obtain ⟨htables, hinv⟩ := tables_eq h hclear
  have hstep : AgreeIff (Clear env _ op) _ _ := step_agrees h hinv
  constructor
  · rintro ⟨hanswers, hjobs⟩
    rw [answer, answer, ← htables] at hanswers
    rw [after_concat, after_concat, ← htables] at hjobs
    exact hstep.mp hanswers hjobs
  · intro hop
    obtain ⟨hsame, heq⟩ := hstep.mpr hop
    refine ⟨?_, ?_⟩
    · rw [answer, answer, ← htables]
      exact hsame
    · rw [after_concat, after_concat, ← htables, heq]
      exact fun row => Iff.rfl

def plainEnv : Env Unit :=
  ⟨documented fun _ => false, fun _ => rfl, fun _ => rfl, id, fun _ => .null, strLe⟩

def promptJob (c : Nat) : JobArgs :=
  ⟨pyStr "j", pyStr "t", .obj [(pyStr "prompt", .str [c])], .obj [], pyStr "p", pyStr "f", none, pyStr "QUEUED",
    pyStr "org"⟩

theorem stores_agree_plain : plainEnv.collation = strLe ∧ Every (Agree plainEnv)
      [.insertJob (promptJob 0x61), .updateStatus (pyStr "j") (pyStr "RUNNING"), .query (.getJob (pyStr "j"))] :=
  ⟨rfl, (stores_agree_iff rfl).2 (by decide +kernel)⟩

/-- An unknown job, a status that goes back, and a prompt with an `é`. -/
theorem stores_disagree : (answer (step plainEnv .sqlite) .empty [] (.updateStatus (pyStr "j") (pyStr "RUNNING")) =
        .error (.valueError "job not found") ∧
      answer (step plainEnv .postgres) .empty [] (.updateStatus (pyStr "j") (pyStr "RUNNING")) = .ok .none) ∧
    (answer (step plainEnv .sqlite) .empty
          [.insertJob (promptJob 0x61), .updateStatus (pyStr "j") (pyStr "RUNNING")]
          (.updateStatus (pyStr "j") (pyStr "QUEUED")) = .error (.valueError "status regression not allowed") ∧
      answer (step plainEnv .postgres) .empty
          [.insertJob (promptJob 0x61), .updateStatus (pyStr "j") (pyStr "RUNNING")]
          (.updateStatus (pyStr "j") (pyStr "QUEUED")) = .ok .none) ∧
    ((after (step plainEnv .sqlite) .empty [.insertJob (promptJob 0xe9)]).jobs.rows =
        [jobRow plainEnv .sqlite (promptJob 0xe9)] ∧
      (after (step plainEnv .postgres) .empty [.insertJob (promptJob 0xe9)]).jobs.rows =
        [jobRow plainEnv .postgres (promptJob 0xe9)] ∧
      (jobRow plainEnv .sqlite (promptJob 0xe9)).jobspecJson = pyStr "\x7b\"prompt\": \"é\"\x7d" ∧
      (jobRow plainEnv .postgres (promptJob 0xe9)).jobspecJson = pyStr "\x7b\"prompt\": \"\\u00e9\"\x7d") ∧
    ¬ Every (Agree plainEnv) [.updateStatus (pyStr "j") (pyStr "RUNNING")] := by
  refine ⟨⟨rfl, rfl⟩, ⟨rfl, rfl⟩, ⟨?_, ?_, ?_, ?_⟩, fun h => ?_⟩
  · decide +kernel
  · decide +kernel
  · decide +kernel
  · decide +kernel
  · exact (h [] _ [] rfl).answers

end Korith.LedgerStore
