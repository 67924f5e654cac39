import Korith.Platform.Backends
import Korith.Proofs.QueueDrain

/-!
# Which backends keep the contract of `retry`

`SQLiteQueue` keeps it: the row of the job stays, with one more attempt and the time from which it may be taken.
`InProcQueue` loses the job. `RedisQueue` counts every delivery as the first. `RedisStreamsQueue` adds the job to its
stream at once, so that the delay is not kept.

The contract is about the hand-outs that follow the `retry`: its logs have no other events, so that a second `retry`, an
`ack`, a reclaim or a crash behind it is not spoken of.
-/

set_option linter.unusedSectionVars false

namespace Korith.Backends

variable {J T R : Type} [DecidableEq J] [DecidableEq R] [CommRing T] [LinearOrder T] {b : Backend J T R}
  {cfg : Config T R} {q : b.State} {returned due now delayS : T} {jobId j : J} {content : R} {attempts : Nat}
  {item a : Item J T R} {w : String} {known : List J} {held : List (String × Item J T R)}
  {retries : J → Nat}

/-! ### The contract -/

/-- The job waits as `Queued` says until it is handed out, and is `Gone` from then on. -/
theorem RetryContract.of_queued {Queued Gone : b.State → Prop} (hq : Queued q)
    (hqueued : ∀ q h q', Queued q → returned ≤ h.now → b.hand q h = some q' →
      (h.item.jobId = jobId ∧ (h.item.payload.content = content ∧ h.item.attempts = attempts ∧ due ≤ h.now) ∧ Gone q') ∨
      (h.item.jobId ≠ jobId ∧ Queued q'))
    (hgone : ∀ q h q', Gone q → b.hand q h = some q' → h.item.jobId ≠ jobId ∧ Gone q')
    (μ : T → b.State → Nat)
    (hnext : ∀ t q, Queued q → ∃ h q', b.hand q h = some q' ∧ t ≤ h.now ∧
      (h.item.jobId = jobId ∨ (Queued q' ∧ μ t q' < μ t q))) :
    RetryContract b q returned due jobId content attempts := by
  refine ⟨fun log q' hrun htimes => ?_, fun log q' hrun htimes h hh hjob => ?_, fun log q' t hrun htimes hnone => ?_⟩
  · rcases Run.hit_once hqueued hgone hq hrun htimes with ⟨-, hnone⟩ | ⟨before, h, after, rfl, -, -, hothers⟩
    · rw [List.filter_eq_nil_iff.2 fun h hh => by simpa using hnone h hh]
      exact Nat.zero_le _
    · have hside : ∀ l : List (Handout J T R), (∀ h ∈ l, h ∈ before ++ after) →
          l.filter (fun h => decide (h.item.jobId = jobId)) = [] := by
        intro l hl
        exact List.filter_eq_nil_iff.2 fun h hh => by simpa using hothers h (hl h hh)
      rw [List.filter_append, hside before fun h hh => List.mem_append_left _ hh, List.nil_append, List.filter_cons]
      split_ifs <;> simp [hside after fun h hh => List.mem_append_right _ hh]
  · rcases Run.hit_once hqueued hgone hq hrun htimes with ⟨-, hnone⟩ | ⟨before, h', after, rfl, -, hok, hothers⟩
    · exact absurd hjob (hnone h hh)
    · rcases List.mem_append.1 hh with hh | hh
      · exact absurd hjob (hothers h (List.mem_append_left _ hh))
      · rcases List.mem_cons.1 hh with rfl | hh
        · exact hok
        · exact absurd hjob (hothers h (List.mem_append_right _ hh))
  · rcases Run.hit_once hqueued hgone hq hrun htimes with ⟨hq', -⟩ | ⟨before, h, after, rfl, hjob, -, -⟩
    · exact Run.exists_hit (μ t) (hnext t) hq'
    · exact absurd hjob (hnone h (List.mem_append_right _ List.mem_cons_self))

theorem not_retryContract_of_gone {Gone : b.State → Prop} (hq : Gone q)
    (hgone : ∀ q h q', Gone q → b.hand q h = some q' → h.item.jobId ≠ jobId ∧ Gone q') :
    ¬ RetryContract b q returned due jobId content attempts := by
  intro hcontract
  obtain ⟨log, q', hrun, -, h, hh, hjob⟩ := hcontract.delivered [] q returned rfl
    (fun h hh => absurd hh List.not_mem_nil) fun h hh => absurd hh List.not_mem_nil
  exact Run.not_hit_of_run hgone hq hrun h hh hjob

/-! ### Systems -/

/-- What each operation of a backend keeps. -/
structure Keeps (b : Backend J T R) (I : b.State → List J → List (String × Item J T R) → (J → Nat) → Prop) : Prop where
  start : I b.start [] [] fun _ => 0
  enqueue : ∀ {q known held retries} j content enqueuedAt now, I q known held retries → j ∉ known →
    I (b.enqueue j ⟨content, none, enqueuedAt⟩ now q) (j :: known) held retries
  dequeue : ∀ {q known held retries} w item now q', I q known held retries → b.dequeue w item now q = some q' →
    I q' known ((w, item) :: held) retries
  ack : ∀ {q known held retries} w item, I q known held retries → (w, item) ∈ held →
    I (b.ack w item.jobId q) known (held.erase (w, item)) retries
  retry : ∀ {q known held retries} w item delayS now, I q known held retries → (w, item) ∈ held →
    I (b.retry w item.jobId delayS now q) known (held.erase (w, item))
      (Function.update retries item.jobId (retries item.jobId + 1))
  reclaim : ∀ {q known held retries} now later, I q known held retries → I (b.reclaim now later q) known held retries
  crash : ∀ {q known held retries} w, I q known held retries →
    I (b.crash w q) known (held.filter fun h => decide (h.1 ≠ w)) retries

theorem Keeps.run {I : b.State → List J → List (String × Item J T R) → (J → Nat) → Prop} (hI : Keeps b I)
    {es : List (Event J T R)} {s : System b} (hrun : Run.run System.step es System.start = some s) :
    I s.queue s.known s.held s.retries := by
  refine Run.inv_of_run (I := fun s : System b => I s.queue s.known s.held s.retries) hI.start ?_ hrun
  intro s e s' hs hstep
  cases e with
  | enqueue j content enqueuedAt now =>
    simp only [System.step] at hstep
    split_ifs at hstep with hknown
    cases hstep
    exact hI.enqueue j content enqueuedAt now hs hknown
  | dequeue w item now =>
    obtain ⟨q', hq', rfl⟩ := Option.map_eq_some_iff.1 hstep
    exact hI.dequeue w item now q' hs hq'
  | ack w item =>
    simp only [System.step] at hstep
    split_ifs at hstep with hheld
    cases hstep
    exact hI.ack w item hs hheld
  | retry w item delayS now =>
    simp only [System.step] at hstep
    split_ifs at hstep with hheld
    cases hstep
    exact hI.retry w item delayS now hs hheld
  | reclaim now later =>
    cases hstep
    exact hI.reclaim now later hs
  | crash w =>
    cases hstep
    exact hI.crash w hs

/-! ### `SQLiteQueue` -/

namespace Sqlite

open Queue (SQLiteQueue Row find_deliver find_retry find_enqueue find_ack find_reclaim deliver Selects deliverable
  deliverable_deliver exists_selects)

variable {q q' : SQLiteQueue J String T (Payload T R)} {h : Handout J T R} {t : T}
  {r : Row J String T (Payload T R)}

theorem dequeue_eq_some (hq : (sqlite cfg).dequeue w item now q = some q') :
    ∃ r, q.find item.jobId = some r ∧ Selects w now q r ∧ itemOf r = item ∧ q' = deliver w item.jobId q := by
  simp only [sqlite] at hq
  split at hq
  · rename_i r hr
    split_ifs at hq with hsel
    exact ⟨r, hr, hsel.1, hsel.2, (Option.some.inj hq).symm⟩
  · cases hq

def Queued (jobId : J) (w : String) (due : T) (content : R) (attempts : Nat)
    (q : SQLiteQueue J String T (Payload T R)) : Prop :=
  ∃ r, q.find jobId = some r ∧ r.status = .queued ∧ r.availableAt = due ∧
    (r.targetWorkerId = none ∨ r.targetWorkerId = some w) ∧ r.payload.content = content ∧ r.attempts = attempts

def Gone (jobId : J) (q : SQLiteQueue J String T (Payload T R)) : Prop :=
  ∀ r, q.find jobId = some r → r.status = .inflight

theorem Queued.hand (hq : Queued jobId w due content attempts q) (hhand : (sqlite cfg).hand q h = some q') :
    (h.item.jobId = jobId ∧ (h.item.payload.content = content ∧ h.item.attempts = attempts ∧ due ≤ h.now) ∧
        Gone jobId q') ∨
      (h.item.jobId ≠ jobId ∧ Queued jobId w due content attempts q') := by
  obtain ⟨r, hfind, hstatus, hdue, htarget, hcontent, hattempts⟩ := hq
  obtain ⟨r', hfind', hsel, hitem, rfl⟩ := dequeue_eq_some hhand
  by_cases hj : h.item.jobId = jobId
  · rw [hj, hfind] at hfind'
    cases hfind'
    refine .inl ⟨hj, ⟨?_, ?_, ?_⟩, ?_⟩
    · rw [← hitem]
      exact hcontent
    · rw [← hitem]
      exact hattempts
    · rw [← hdue]
      exact hsel.1.2.1
    · intro r₁ hr₁
      rw [find_deliver, if_pos hj.symm, hfind, Option.map_some] at hr₁
      cases hr₁
      rfl
  · refine .inr ⟨hj, r, ?_, hstatus, hdue, htarget, hcontent, hattempts⟩
    rw [find_deliver, if_neg (Ne.symm hj), hfind]

theorem Gone.hand (hq : Gone jobId q) (hhand : (sqlite cfg).hand q h = some q') :
    h.item.jobId ≠ jobId ∧ Gone jobId q' := by
  obtain ⟨r, hfind, hsel, -, rfl⟩ := dequeue_eq_some hhand
  have hj : h.item.jobId ≠ jobId := by
    intro hj
    have hinflight := hq r (hj ▸ hfind)
    rw [hsel.1.1] at hinflight
    cases hinflight
  refine ⟨hj, fun r' hr' => ?_⟩
  rw [find_deliver, if_neg hj.symm] at hr'
  exact hq r' hr'

theorem Queued.next (t : T) (hq : Queued jobId w due content attempts q) :
    ∃ h q', (sqlite cfg).hand q h = some q' ∧ t ≤ h.now ∧
      (h.item.jobId = jobId ∨ (Queued jobId w due content attempts q' ∧
        deliverable w (max t due) q' < deliverable w (max t due) q)) := by
  obtain ⟨r, hfind, hstatus, rfl, htarget, -⟩ := id hq
  obtain ⟨hmem, -⟩ := Table.find_eq_some_iff.1 hfind
  obtain ⟨r₀, hmem₀, hsel⟩ := exists_selects hmem ⟨hstatus, le_max_right t r.availableAt, htarget⟩
  have hhand : (sqlite cfg).hand q ⟨w, itemOf r₀, max t r.availableAt⟩ = some (deliver w r₀.jobId q) := by
    have hfind₀ : q.find (itemOf r₀).jobId = some r₀ := Table.find_eq_some_iff.2 ⟨hmem₀, rfl⟩
    simp only [Backend.hand, sqlite, hfind₀, and_true]
    exact if_pos hsel
  refine ⟨_, _, hhand, le_max_left .., ?_⟩
  rcases hq.hand hhand with ⟨hj, -⟩ | ⟨-, hq'⟩
  · exact .inl hj
  · exact .inr ⟨hq', deliverable_deliver hmem₀ hsel.1⟩

/-- What is known of a row: its job was enqueued, a worker that was handed it may have it, and its attempts are the
times it was given back. -/
def RowOk (known : List J) (retries : J → Nat) (j : J) (r : Row J String T (Payload T R)) : Prop :=
  j ∈ known ∧ (∀ w ∈ r.workerId, r.targetWorkerId = none ∨ r.targetWorkerId = some w) ∧ r.attempts = retries j

structure Inv (q : SQLiteQueue J String T (Payload T R)) (known : List J) (held : List (String × Item J T R))
    (retries : J → Nat) : Prop where
  rows : ∀ j r, q.find j = some r → RowOk known retries j r
  heldKnown : ∀ h ∈ held, h.2.jobId ∈ known
  unknown : ∀ j, j ∉ known → retries j = 0

namespace Inv

variable (hI : Inv q known held retries)

include hI

theorem enqueue {enqueuedAt : Option T} (hfresh : j ∉ known) :
    Inv (Queue.enqueue cfg.sqlite j ⟨content, none, enqueuedAt⟩ now q) (j :: known) held retries := by
  refine ⟨fun j' r hr => ?_, fun h hh => List.mem_cons_of_mem _ (hI.heldKnown h hh), fun j' hj' => ?_⟩
  · rw [find_enqueue] at hr
    split_ifs at hr with heq
    · obtain rfl := heq
      cases hr
      exact ⟨List.mem_cons_self, fun w hw => (by cases hw), (hI.unknown _ hfresh).symm⟩
    · obtain ⟨hk, hrest⟩ := hI.rows j' r hr
      exact ⟨List.mem_cons_of_mem _ hk, hrest⟩
  · exact hI.unknown j' fun hmem => hj' (List.mem_cons_of_mem _ hmem)

theorem dequeue (hq' : (sqlite cfg).dequeue w item now q = some q') : Inv q' known ((w, item) :: held) retries := by
  obtain ⟨r₀, hfind₀, hsel, -, rfl⟩ := dequeue_eq_some hq'
  have hr₀ := hI.rows item.jobId r₀ hfind₀
  refine ⟨fun j r hr => ?_, List.forall_mem_cons.2 ⟨hr₀.1, hI.heldKnown⟩, hI.unknown⟩
  rw [find_deliver] at hr
  split_ifs at hr with heq
  · obtain rfl := heq
    rw [hfind₀, Option.map_some] at hr
    cases hr
    exact ⟨hr₀.1, fun w' hw' => Option.some.inj hw' ▸ hsel.1.2.2, hr₀.2.2⟩
  · exact hI.rows j r hr

theorem ack : Inv (Queue.ack item.jobId q) known (held.erase (w, item)) retries := by
  refine ⟨fun j r hr => ?_, fun h hh => hI.heldKnown h (List.mem_of_mem_erase hh), hI.unknown⟩
  rw [find_ack] at hr
  split_ifs at hr
  exact hI.rows j r hr

theorem retry (hheld : (w, item) ∈ held) : Inv (Queue.retry item.jobId delayS now q) known (held.erase (w, item))
      (Function.update retries item.jobId (retries item.jobId + 1)) := by
  refine ⟨fun j r hr => ?_, fun h hh => hI.heldKnown h (List.mem_of_mem_erase hh), fun j hj => ?_⟩
  · rw [find_retry] at hr
    split_ifs at hr with heq
    · obtain rfl := heq
      obtain ⟨r₀, hfind₀, rfl⟩ := Option.map_eq_some_iff.1 hr
      obtain ⟨hk, -, hcount⟩ := hI.rows item.jobId r₀ hfind₀
      refine ⟨hk, fun w' hw' => (by cases hw'), ?_⟩
      rw [Function.update_self, ← hcount]
    · obtain ⟨hk, htarget, hcount⟩ := hI.rows j r hr
      refine ⟨hk, htarget, ?_⟩
      rw [Function.update_of_ne heq, hcount]
  · have hne : j ≠ item.jobId := by
      rintro rfl
      exact hj (hI.heldKnown _ hheld)
    exact (Function.update_of_ne hne ..).trans (hI.unknown j hj)

theorem reclaim {later : T} : Inv (Queue.reclaimStaleInflight cfg.sqlite now later q) known held retries := by
  refine ⟨fun j r hr => ?_, hI.heldKnown, hI.unknown⟩
  rw [find_reclaim] at hr
  obtain ⟨r₀, hfind₀, rfl⟩ := Option.map_eq_some_iff.1 hr
  obtain ⟨hk, htarget, hcount⟩ := hI.rows j r₀ hfind₀
  split_ifs
  · exact ⟨hk, fun w hw => (by cases hw), hcount⟩
  · exact ⟨hk, htarget, hcount⟩

omit hI

theorem keeps : Keeps (sqlite (J := J) cfg) Inv where
  start := ⟨fun j r hr => (by cases hr), fun h hh => (by cases hh), fun j _ => rfl⟩
  enqueue j content enqueuedAt now hI hfresh := hI.enqueue hfresh
  dequeue w item now q' hI hq' := hI.dequeue hq'
  ack w item hI _ := hI.ack
  retry w item delayS now hI hheld := hI.retry hheld
  reclaim now later hI := hI.reclaim
  crash w hI := { hI with heldKnown := fun h hh => hI.heldKnown h (List.mem_of_mem_filter hh) }

end Inv

theorem retryContract (hI : Inv q known held retries) (hholds : (sqlite cfg).Holds q w item) (delayS now : T) :
    RetryContract (sqlite cfg) (Queue.retry item.jobId delayS now q) now (now + delayS) item.jobId
      item.payload.content (item.attempts + 1) := by
  obtain ⟨r, hr, hstatus, hworker, rfl⟩ := hholds
  obtain ⟨-, htarget, -⟩ := hI.rows _ r hr
  have hq : Queued r.jobId w (now + delayS) r.payload.content (r.attempts + 1)
      (Queue.retry r.jobId delayS now q) := by
    refine ⟨{ r with status := .queued, workerId := none, availableAt := now + delayS, attempts := r.attempts + 1 }, ?_,
      rfl, rfl, htarget w hworker, rfl, rfl⟩
    rw [find_retry, if_pos rfl]
    exact congrArg (Option.map _) hr
  exact RetryContract.of_queued hq (fun _ _ _ hq _ hhand => hq.hand hhand) (fun _ _ _ hq hhand => hq.hand hhand)
    (fun t => deliverable w (max t (now + delayS))) fun t _ hq => hq.next t

theorem attempts_eq (hI : Inv q known held retries) (hholds : (sqlite cfg).Holds q w item) :
    item.attempts = retries item.jobId := by
  obtain ⟨r, hr, -, -, rfl⟩ := hholds
  exact (hI.rows _ r hr).2.2

end Sqlite

/-! ### Queues in which a job is at most once -/

section Fifo

variable {κ : Type} [DecidableEq κ] {waiting waiting' : κ → List (Item J T R)} {k : κ} {names : List κ}

structure Tracked (waiting : κ → List (Item J T R)) (known : List J) (held : List (String × Item J T R)) : Prop where
  queuedKnown : ∀ k, ∀ a ∈ waiting k, a.jobId ∈ known
  heldKnown : ∀ h ∈ held, h.2.jobId ∈ known
  solo : ∀ j, Fifo.Absent Item.jobId j waiting ∨ ∃ k a, Fifo.Single Item.jobId j k a waiting
  apart : ∀ h ∈ held, Fifo.Absent Item.jobId h.2.jobId waiting
  nodup : (held.map fun h => h.2.jobId).Nodup

namespace Tracked

theorem start : Tracked (fun _ : κ => []) ([] : List J) ([] : List (String × Item J T R)) where
  queuedKnown k a ha := by cases ha
  heldKnown h hh := by cases hh
  solo j := .inl fun k a ha => by cases ha
  apart h hh := by cases hh
  nodup := List.nodup_nil

variable (h : Tracked waiting known held)

include h

theorem push_of_absent (hk : a.jobId ∈ known)
    (habsent : Fifo.Absent Item.jobId a.jobId waiting) (hheld : ∀ h ∈ held, h.2.jobId ≠ a.jobId) :
    Tracked (Fifo.push k a waiting) known held where
  __ := h
  queuedKnown k' b hb := by
    rcases Fifo.mem_push hb with ⟨-, rfl⟩ | hb
    · exact hk
    · exact h.queuedKnown k' b hb
  solo j := by
    by_cases hj : a.jobId = j
    · exact .inr ⟨k, a, (hj ▸ habsent).push hj⟩
    · exact (h.solo j).imp (fun hj' => hj'.push_other hj) (.imp fun k' => .imp fun b hb => hb.push_other hj)
  apart h' hh' := (h.apart h' hh').push_other (hheld h' hh').symm

theorem absent_of_unknown (hj : j ∉ known) : Fifo.Absent Item.jobId j waiting := by
  intro k a ha hjob
  exact hj (hjob ▸ h.queuedKnown k a ha)

theorem enqueue (ha : a.jobId ∉ known) : Tracked (Fifo.push k a waiting) (a.jobId :: known) held := by
  have hold : Tracked waiting (a.jobId :: known) held :=
    { h with
      queuedKnown := fun k b hb => List.mem_cons_of_mem _ (h.queuedKnown k b hb)
      heldKnown := fun h' hh' => List.mem_cons_of_mem _ (h.heldKnown h' hh') }
  exact hold.push_of_absent List.mem_cons_self (h.absent_of_unknown ha) fun h' hh' heq => ha (heq ▸ h.heldKnown h' hh')

theorem dequeue (hpop : Fifo.pop names waiting = some (k, a, waiting')) :
    Tracked waiting' known ((w, a) :: held) where
  queuedKnown k' b hb := h.queuedKnown k' b (Fifo.mem_of_pop hpop hb)
  heldKnown := List.forall_mem_cons.2 ⟨h.queuedKnown k a (Fifo.head_mem hpop), h.heldKnown⟩
  solo j := by
    rcases h.solo j with hj | ⟨k', b, hb⟩
    · exact .inl (hj.pop hpop).2
    · rcases hb.pop hpop with ⟨-, -, hgone⟩ | ⟨-, hrest⟩
      · exact .inl hgone
      · exact .inr ⟨k', b, hrest⟩
  apart := by
    refine List.forall_mem_cons.2 ⟨?_, fun h' hh' => ((h.apart h' hh').pop hpop).2⟩
    rcases h.solo a.jobId with habsent | ⟨k', b, hb⟩
    · exact absurd rfl (habsent.pop hpop).1
    · rcases hb.pop hpop with ⟨-, -, hgone⟩ | ⟨hne, -⟩
      · exact hgone
      · exact absurd rfl hne
  nodup := by
    refine List.nodup_cons.2 ⟨fun hmem => ?_, h.nodup⟩
    obtain ⟨h', hh', heq⟩ := List.mem_map.1 hmem
    exact h.apart h' hh' k a (Fifo.head_mem hpop) heq.symm

theorem settle {held' : List (String × Item J T R)} (hsub : held'.Sublist held) : Tracked waiting known held' where
  __ := h
  heldKnown h' hh' := h.heldKnown h' (hsub.subset hh')
  apart h' hh' := h.apart h' (hsub.subset hh')
  nodup := h.nodup.sublist (hsub.map _)

theorem ne_of_mem_erase (hheld : (w, item) ∈ held) : ∀ h' ∈ held.erase (w, item), h'.2.jobId ≠ item.jobId := by
  have hperm := (List.perm_cons_erase hheld).map fun h' : String × Item J T R => h'.2.jobId
  have hnodup := hperm.nodup_iff.1 h.nodup
  intro h' hh' heq
  exact (List.nodup_cons.1 hnodup).1 (List.mem_map.2 ⟨h', hh', heq⟩)

theorem retry (hheld : (w, item) ∈ held) (ha : a.jobId = item.jobId) :
    Tracked (Fifo.push k a waiting) known (held.erase (w, item)) := by
  refine (h.settle List.erase_sublist).push_of_absent ?_ ?_ ?_ <;> rw [ha]
  · exact h.heldKnown _ hheld
  · exact h.apart _ hheld
  · exact h.ne_of_mem_erase hheld

end Tracked

structure Counted (waiting : κ → List (Item J T R)) (known : List J) (held : List (String × Item J T R))
    (retries : J → Nat) : Prop where
  queued : ∀ k, ∀ a ∈ waiting k, a.attempts = retries a.jobId
  handed : ∀ h ∈ held, h.2.attempts = retries h.2.jobId
  unknown : ∀ j, j ∉ known → retries j = 0

namespace Counted

theorem start : Counted (fun _ : κ => []) ([] : List J) ([] : List (String × Item J T R)) fun _ => 0 where
  queued k a ha := by cases ha
  handed h hh := by cases hh
  unknown j _ := rfl

variable (h : Counted waiting known held retries)

include h

theorem enqueue (hfresh : a.jobId ∉ known) (ha : a.attempts = 0) :
    Counted (Fifo.push k a waiting) (a.jobId :: known) held retries where
  __ := h
  queued k' b hb := by
    rcases Fifo.mem_push hb with ⟨-, rfl⟩ | hb
    · rw [ha, h.unknown _ hfresh]
    · exact h.queued k' b hb
  unknown j hj := h.unknown j fun hmem => hj (List.mem_cons_of_mem _ hmem)

theorem dequeue (hpop : Fifo.pop names waiting = some (k, a, waiting')) :
    Counted waiting' known ((w, a) :: held) retries where
  __ := h
  queued k' b hb := h.queued k' b (Fifo.mem_of_pop hpop hb)
  handed := List.forall_mem_cons.2 ⟨h.queued k a (Fifo.head_mem hpop), h.handed⟩

theorem settle {held' : List (String × Item J T R)}
    (hsub : held'.Sublist held) : Counted waiting known held' retries :=
  { h with handed := fun h' hh' => h.handed h' (hsub.subset hh') }

theorem lost (htracked : Tracked waiting known held) (hheld : (w, item) ∈ held) :
    Counted waiting known (held.erase (w, item)) (Function.update retries item.jobId (retries item.jobId + 1)) where
  queued k' b hb := by
    rw [Function.update_of_ne (htracked.apart _ hheld k' b hb), h.queued k' b hb]
  handed h' hh' := by
    rw [Function.update_of_ne (htracked.ne_of_mem_erase hheld h' hh'), h.handed h' (List.mem_of_mem_erase hh')]
  unknown j hj := by
    have hne : j ≠ item.jobId := by
      rintro rfl
      exact hj (htracked.heldKnown _ hheld)
    rw [Function.update_of_ne hne, h.unknown j hj]

theorem retry (htracked : Tracked waiting known held)
    (hheld : (w, item) ∈ held) (hjob : a.jobId = item.jobId) (ha : a.attempts = item.attempts + 1) :
    Counted (Fifo.push k a waiting) known (held.erase (w, item))
      (Function.update retries item.jobId (retries item.jobId + 1)) where
  __ := h.lost htracked hheld
  queued k' b hb := by
    rcases Fifo.mem_push hb with ⟨-, rfl⟩ | hb
    · rw [hjob, Function.update_self, ha, h.handed _ hheld]
    · exact (h.lost htracked hheld).queued k' b hb

end Counted

end Fifo

/-! ### `InProcQueue` -/

namespace InProc

variable {q q' : Option String → List (Item J T R)} {h : Handout J T R}

theorem dequeue_eq_some (hq : (inProc cfg).dequeue w item now q = some q') :
    ∃ k, Fifo.pop [some w, none] q = some (k, item, q') := by
  simp only [inProc] at hq
  split at hq
  · rename_i k a q'' hpop
    split_ifs at hq with ha
    obtain rfl := ha
    cases hq
    exact ⟨k, hpop⟩
  · cases hq

theorem keeps : Keeps (inProc (J := J) cfg) fun q known held retries =>
    Tracked q known held ∧ Counted q known held retries where
  start := ⟨Tracked.start, Counted.start⟩
  enqueue j content enqueuedAt now hI hfresh := ⟨hI.1.enqueue hfresh, hI.2.enqueue hfresh rfl⟩
  dequeue w item now q' hI hq' := by
    obtain ⟨k, hpop⟩ := dequeue_eq_some hq'
    exact ⟨hI.1.dequeue hpop, hI.2.dequeue hpop⟩
  ack w item hI _ := ⟨hI.1.settle List.erase_sublist, hI.2.settle List.erase_sublist⟩
  retry w item delayS now hI hheld := ⟨hI.1.settle List.erase_sublist, hI.2.lost hI.1 hheld⟩
  reclaim now later hI := hI
  crash w hI := ⟨hI.1.settle List.filter_sublist, hI.2.settle List.filter_sublist⟩

theorem not_retryContract {known : List J} {held : List (String × Item J T R)} (hI : Tracked q known held)
    (hheld : (w, item) ∈ held) : ¬ RetryContract (inProc cfg) q returned due item.jobId content attempts := by
  have hgone : ∀ q h q', Fifo.Absent Item.jobId item.jobId q → (inProc cfg).hand q h = some q' →
      h.item.jobId ≠ item.jobId ∧ Fifo.Absent Item.jobId item.jobId q' := by
    intro q h q' hq hhand
    obtain ⟨k, hpop⟩ := dequeue_eq_some hhand
    exact hq.pop hpop
  exact not_retryContract_of_gone (hI.apart _ hheld) hgone

end InProc

/-! ### Redis -/

namespace Redis

variable {r r' : Redis J T R} {names : List String} {stream w' k : String} {q' : String → List (Item J T R)}

def waiting (r : Redis J T R) : String → List (Item J T R) := fun stream => (r.streams stream).waiting

theorem waiting_add : (r.add stream item).waiting = Fifo.push stream item r.waiting := Stream.waiting_push

theorem waiting_settle : (r.settle w j).waiting = r.waiting := by
  unfold waiting settle
  split
  · rw [Stream.waiting_update, Stream.waiting_ack]
    exact Function.update_eq_self ..
  · rfl

theorem read_eq_some (h : r.read names w item = some r') :
    (∃ k, Fifo.pop names r.waiting = some (k, item, r'.waiting)) ∧
      r'.payloads = Function.update r.payloads w (Function.update (r.payloads w) item.jobId (some item.payload)) := by
  have hpop := Stream.pop_waiting names r.streams
  unfold read at h
  split at h
  · rename_i stream i m streams hread
    split_ifs at h with hm
    obtain rfl := hm
    cases h
    rw [hread] at hpop
    exact ⟨⟨stream, hpop⟩, rfl⟩
  · cases h

theorem exists_read (h : Fifo.pop names r.waiting = some (k, a, q')) :
    ∃ r', r.read names w a = some r' ∧ r'.waiting = q' := by
  have hpop := (Stream.pop_waiting names r.streams).symm.trans h
  obtain ⟨⟨stream, i, m, streams⟩, hread, heq⟩ := Option.map_eq_some_iff.1 hpop
  obtain ⟨rfl, rfl, rfl⟩ : stream = k ∧ m = a ∧ (fun k => (streams k).waiting) = q' := by
    simpa only [Prod.mk.injEq] using heq
  refine ⟨⟨streams, Function.update r.receipts w (Function.update (r.receipts w) m.jobId (some (stream, i))),
    Function.update r.payloads w (Function.update (r.payloads w) m.jobId (some m.payload))⟩, ?_, rfl⟩
  simp [read, hread]

end Redis

/-! ### `RedisQueue` -/

namespace RedisQueue

variable {r r' : Redis J T R} {h : Handout J T R}

/-- Every message counts as a first delivery. -/
def Zero (r : Redis J T R) : Prop := ∀ k, ∀ a ∈ r.waiting k, a.attempts = 0

theorem Zero.enqueue {payload : Payload T R} {now : T} (hr : Zero r) : Zero (redisEnqueue cfg j payload now r) := by
  intro k a ha
  rw [redisEnqueue, Redis.waiting_add] at ha
  rcases Fifo.mem_push ha with ⟨-, rfl⟩ | ha
  · rfl
  · exact hr k a ha

theorem Zero.settle {w : String} (hr : Zero r) : Zero (r.settle w j) := by
  intro k a ha
  rw [Redis.waiting_settle] at ha
  exact hr k a ha

theorem Zero.retry {w : String} {delayS now : T} (hr : Zero r) : Zero (redisRetry cfg w j delayS now r) := by
  unfold redisRetry
  split_ifs
  · exact hr
  · exact hr.settle.enqueue

theorem Zero.read {names : List String} {w : String} {item : Item J T R} (hr : Zero r)
    (hread : r.read names w item = some r') : item.attempts = 0 ∧ Zero r' := by
  obtain ⟨⟨k, hpop⟩, -⟩ := Redis.read_eq_some hread
  exact ⟨hr k item (Fifo.head_mem hpop), fun k' a ha => hr k' a (Fifo.mem_of_pop hpop ha)⟩

theorem keeps : Keeps (redis (J := J) cfg) fun r _ _ _ => Zero r where
  start k a ha := by cases ha
  enqueue j content enqueuedAt now hI _ := hI.enqueue
  dequeue w item now r' hI hread := (hI.read hread).2
  ack w item hI _ := hI.settle
  retry w item delayS now hI _ := hI.retry
  reclaim now later hI := hI
  crash w hI := hI

theorem not_retryContract (hr : Zero r) :
    ¬ RetryContract (redis cfg) r returned due jobId content (attempts + 1) := by
  intro hcontract
  obtain ⟨log, r', hrun, htimes, h, hh, hjob⟩ := hcontract.delivered [] r returned rfl
    (fun h hh => absurd hh List.not_mem_nil) fun h hh => absurd hh List.not_mem_nil
  have hzero : ∀ (r : Redis J T R) h r', Zero r → (redis cfg).hand r h = some r' → ¬ h.item.attempts ≠ 0 ∧ Zero r' := by
    intro r h r' hr hhand
    exact (hr.read hhand).imp_left not_not.2
  obtain ⟨-, hattempts, -⟩ := hcontract.same log r' hrun htimes h hh hjob
  rw [not_not.1 (Run.not_hit_of_run hzero hr hrun h hh)] at hattempts
  cases hattempts

end RedisQueue

/-! ### `RedisStreamsQueue` -/

namespace RedisStreams

variable {r r' : Redis J T R} {h : Handout J T R}

def home (cfg : Config T R) (a : Item J T R) : String := nodeStream cfg (cfg.targetNodeId a.payload.content)

structure Inv (cfg : Config T R) (r : Redis J T R) (known : List J) (held : List (String × Item J T R))
    (retries : J → Nat) : Prop where
  tracked : Tracked r.waiting known held
  counted : Counted r.waiting known held retries
  queuedAt : ∀ k, ∀ a ∈ r.waiting k, k = home cfg a ∧ a.attempts = a.payload.attempts.getD 0
  heldBy : ∀ h ∈ held, home cfg h.2 ∈ nodeStreams cfg h.1 ∧ h.2.attempts = h.2.payload.attempts.getD 0 ∧
    r.payloads h.1 h.2.jobId = some h.2.payload

def again (item : Item J T R) (delayS now : T) : Item J T R :=
  let payload : Payload T R :=
    { item.payload with
      attempts := some (item.payload.attempts.getD 0 + 1), enqueuedAt := some (now + max 0 delayS) }
  ⟨item.jobId, payload, (payload.enqueuedAt.filter fun t => decide (t ≠ 0)).getD now, item.payload.attempts.getD 0 + 1⟩

theorem streamsRetry_eq (hpayload : r.payloads w item.jobId = some item.payload) :
    streamsRetry cfg w item.jobId delayS now r = (r.settle w item.jobId).add (home cfg item) (again item delayS now) := by
  simp [streamsRetry, Redis.payload, hpayload, streamsEnqueue, again, home]

theorem payloads_other {w' : String} {j' : J} {p : Option (Payload T R)} (hne : j' ≠ j) :
    Function.update r.payloads w (Function.update (r.payloads w) j p) w' j' = r.payloads w' j' := by
  rw [Function.update_apply]
  split_ifs with hw
  · rw [Function.update_of_ne hne, hw]
  · rfl

namespace Inv

variable (hI : Inv cfg r known held retries)

include hI

theorem enqueue {enqueuedAt : Option T} (hfresh : j ∉ known) :
    Inv cfg (streamsEnqueue cfg j ⟨content, none, enqueuedAt⟩ now r) (j :: known) held retries where
  tracked := by
    rw [streamsEnqueue, Redis.waiting_add]
    exact hI.tracked.enqueue hfresh
  counted := by
    rw [streamsEnqueue, Redis.waiting_add]
    exact hI.counted.enqueue hfresh rfl
  queuedAt k a ha := by
    rw [streamsEnqueue, Redis.waiting_add] at ha
    rcases Fifo.mem_push ha with ⟨rfl, rfl⟩ | ha
    · exact ⟨rfl, rfl⟩
    · exact hI.queuedAt k a ha
  heldBy := hI.heldBy

theorem dequeue (hread : r.read (nodeStreams cfg w) w item = some r') :
    Inv cfg r' known ((w, item) :: held) retries := by
  obtain ⟨⟨k, hpop⟩, hpayloads⟩ := Redis.read_eq_some hread
  have htracked : Tracked r'.waiting known ((w, item) :: held) := hI.tracked.dequeue hpop
  refine ⟨htracked, hI.counted.dequeue hpop, fun k' a ha => hI.queuedAt k' a (Fifo.mem_of_pop hpop ha),
    List.forall_mem_cons.2 ⟨?_, fun h hh => ?_⟩⟩
  · obtain ⟨rfl, hattempts⟩ := hI.queuedAt k item (Fifo.head_mem hpop)
    refine ⟨(Fifo.pop_eq_some hpop).1, hattempts, ?_⟩
    rw [hpayloads, Function.update_self, Function.update_self]
  · obtain ⟨hhome, hattempts, hpayload⟩ := hI.heldBy h hh
    have hne : h.2.jobId ≠ item.jobId := by
      intro heq
      exact (List.nodup_cons.1 htracked.nodup).1 (List.mem_map.2 ⟨h, hh, heq⟩)
    refine ⟨hhome, hattempts, ?_⟩
    rw [hpayloads, payloads_other hne, hpayload]

theorem heldBy_settle (hheld : (w, item) ∈ held) :
    ∀ h ∈ held.erase (w, item), home cfg h.2 ∈ nodeStreams cfg h.1 ∧ h.2.attempts = h.2.payload.attempts.getD 0 ∧
      (r.settle w item.jobId).payloads h.1 h.2.jobId = some h.2.payload := by
  intro h hh
  obtain ⟨hhome, hattempts, hpayload⟩ := hI.heldBy h (List.mem_of_mem_erase hh)
  exact ⟨hhome, hattempts, (payloads_other (hI.tracked.ne_of_mem_erase hheld h hh)).trans hpayload⟩

theorem ack (hheld : (w, item) ∈ held) : Inv cfg (r.settle w item.jobId) known (held.erase (w, item)) retries := by
  refine ⟨?_, ?_, ?_, hI.heldBy_settle hheld⟩ <;> rw [Redis.waiting_settle]
  · exact hI.tracked.settle List.erase_sublist
  · exact hI.counted.settle List.erase_sublist
  · exact hI.queuedAt

theorem retry (hheld : (w, item) ∈ held) :
    Inv cfg (streamsRetry cfg w item.jobId delayS now r) known (held.erase (w, item))
      (Function.update retries item.jobId (retries item.jobId + 1)) := by
  obtain ⟨-, hattempts, hpayload⟩ := hI.heldBy _ hheld
  rw [streamsRetry_eq hpayload]
  refine ⟨?_, ?_, ?_, hI.heldBy_settle hheld⟩ <;> rw [Redis.waiting_add, Redis.waiting_settle]
  · exact hI.tracked.retry hheld rfl
  · exact hI.counted.retry hI.tracked hheld rfl (congrArg (· + 1) hattempts.symm)
  · intro k a ha
    rcases Fifo.mem_push ha with ⟨rfl, rfl⟩ | ha
    · exact ⟨rfl, rfl⟩
    · exact hI.queuedAt k a ha

theorem crash : Inv cfg (r.crash w) known (held.filter fun h => decide (h.1 ≠ w)) retries := by
  refine ⟨hI.tracked.settle List.filter_sublist, hI.counted.settle List.filter_sublist, hI.queuedAt, fun h hh => ?_⟩
  obtain ⟨hmem, hne⟩ := List.mem_filter.1 hh
  obtain ⟨hhome, hattempts, hpayload⟩ := hI.heldBy h hmem
  refine ⟨hhome, hattempts, ?_⟩
  exact (congrFun (Function.update_of_ne (of_decide_eq_true hne) ..) _).trans hpayload

omit hI

theorem keeps : Keeps (redisStreams (J := J) cfg) (Inv cfg) where
  start := ⟨Tracked.start, Counted.start, fun k a ha => (by cases ha), fun h hh => by cases hh⟩
  enqueue j content enqueuedAt now hI hfresh := hI.enqueue hfresh
  dequeue w item now q' hI hread := hI.dequeue hread
  ack w item hI hheld := hI.ack hheld
  retry w item delayS now hI hheld := hI.retry hheld
  reclaim now later hI := hI
  crash w hI := hI.crash

end Inv

variable {k : String}

def Queued (a : Item J T R) (k : String) (r : Redis J T R) : Prop := Fifo.Single Item.jobId a.jobId k a r.waiting

theorem Queued.hand (hq : Queued a k r) (hhand : (redisStreams cfg).hand r h = some r') :
    (h.item = a ∧ Fifo.Absent Item.jobId a.jobId r'.waiting) ∨ (h.item.jobId ≠ a.jobId ∧ Queued a k r') := by
  obtain ⟨⟨k', hpop⟩, -⟩ := Redis.read_eq_some hhand
  rcases hq.pop hpop with ⟨-, heq, hgone⟩ | ⟨hne, hrest⟩
  · exact .inl ⟨heq, hgone⟩
  · exact .inr ⟨hne, hrest⟩

theorem Queued.next (hk : k ∈ nodeStreams cfg w) (t : T) (hq : Queued a k r) :
    ∃ h r', (redisStreams cfg).hand r h = some r' ∧ h.now = t ∧ (h.item.jobId = a.jobId ∨
      (Queued a k r' ∧ Fifo.size (nodeStreams cfg w) r'.waiting < Fifo.size (nodeStreams cfg w) r.waiting)) := by
  obtain ⟨k', a', q', hpop⟩ := Fifo.exists_pop hk (Fifo.Single.ne_nil hq)
  obtain ⟨r', hread, rfl⟩ := Redis.exists_read (w := w) hpop
  have hhand : (redisStreams cfg).hand r ⟨w, a', t⟩ = some r' := hread
  refine ⟨⟨w, a', t⟩, r', hhand, rfl, ?_⟩
  rcases hq.hand hhand with ⟨heq, -⟩ | ⟨-, hq'⟩
  · exact .inl (congrArg Item.jobId heq)
  · exact .inr ⟨hq', Fifo.size_pop hpop⟩

theorem queued_retry (hI : Inv cfg r known held retries) (hheld : (w, item) ∈ held) :
    Queued (again item delayS now) (home cfg item) (streamsRetry cfg w item.jobId delayS now r) := by
  obtain ⟨-, -, hpayload⟩ := hI.heldBy _ hheld
  rw [streamsRetry_eq hpayload, Queued, Redis.waiting_add, Redis.waiting_settle]
  have habsent : Fifo.Absent Item.jobId (again item delayS now).jobId r.waiting := hI.tracked.apart _ hheld
  exact habsent.push rfl

theorem retryContract_iff_nonpos [IsStrictOrderedRing T] (hI : Inv cfg r known held retries) (hheld : (w, item) ∈ held)
    (delayS now : T) :
    RetryContract (redisStreams cfg) (streamsRetry cfg w item.jobId delayS now r) now (now + delayS) item.jobId
      item.payload.content (item.attempts + 1) ↔ delayS ≤ 0 := by
  obtain ⟨hhome, hattempts, -⟩ := hI.heldBy _ hheld
  have hq : Queued (again item delayS now) (home cfg item) (streamsRetry cfg w item.jobId delayS now r) :=
    queued_retry hI hheld
  constructor
  · intro hcontract
    have hnow : ∃ log r', Run.run (redisStreams cfg).hand log (streamsRetry cfg w item.jobId delayS now r) = some r' ∧
        (∀ h ∈ log, h.now = now) ∧ ∃ h ∈ log, h.item.jobId = item.jobId :=
      Run.exists_hit _ (fun r hq => hq.next hhome now) hq
    obtain ⟨log, r', hrun, htimes, h, hh, hjob⟩ := hnow
    obtain ⟨-, -, hdue⟩ := hcontract.same log r' hrun (fun h hh => (htimes h hh).ge) h hh hjob
    rw [htimes h hh] at hdue
    exact (add_le_iff_nonpos_right now).1 hdue
  · intro hdelay
    let Gone : Redis J T R → Prop := fun r => Fifo.Absent Item.jobId item.jobId r.waiting
    have hgone : ∀ r h r', Gone r → (redisStreams cfg).hand r h = some r' → h.item.jobId ≠ item.jobId ∧ Gone r' := by
      intro r h r' hr hhand
      obtain ⟨⟨k, hpop⟩, -⟩ := Redis.read_eq_some hhand
      exact hr.pop hpop
    refine RetryContract.of_queued hq ?_ hgone (fun _ r => Fifo.size (nodeStreams cfg w) r.waiting) ?_
    · intro r h r' hq htime hhand
      rcases hq.hand hhand with ⟨heq, hgone⟩ | ⟨hne, hq'⟩
      · refine .inl ⟨?_, ⟨?_, ?_, ?_⟩, hgone⟩
        · rw [heq]
          rfl
        · rw [heq]
          rfl
        · rw [heq, hattempts]
          rfl
        · exact le_trans ((add_le_iff_nonpos_right now).2 hdelay) htime
      · exact .inr ⟨hne, hq'⟩
    · intro t r hq
      obtain ⟨h, r', hhand, htime, hnext⟩ := hq.next hhome t
      exact ⟨h, r', hhand, htime.ge, hnext⟩

end RedisStreams

/-! ### All backends -/

/-- After every history and for every job that a worker holds. The attempts of the job are the times it was given
back, except with `RedisQueue`. -/
theorem retry_contract_iff [IsStrictOrderedRing T] (kind : Kind) {es : List (Event J T R)}
    {s : System (kind.backend (J := J) cfg)} {w : String} {item : Item J T R}
    (hrun : Run.run System.step es System.start = some s) (hheld : (w, item) ∈ s.held)
    (hholds : (kind.backend cfg).Holds s.queue w item) (delayS now : T) :
    (RetryContract (kind.backend cfg) ((kind.backend cfg).retry w item.jobId delayS now s.queue)
        ((kind.backend (J := J) cfg).returnsAt delayS now) (now + delayS) item.jobId item.payload.content
        (item.attempts + 1) ↔
      kind = .sqlite ∨ (kind = .redisStreams ∧ delayS ≤ 0)) ∧
      (kind ≠ .redis → item.attempts = s.retries item.jobId) := by
  cases kind with
  | sqlite =>
    have hI := Sqlite.Inv.keeps.run hrun
    exact ⟨iff_of_true (Sqlite.retryContract hI hholds delayS now) (.inl rfl), fun _ => Sqlite.attempts_eq hI hholds⟩
  | inProc =>
    obtain ⟨htracked, hcounted⟩ := InProc.keeps.run hrun
    refine ⟨iff_of_false (InProc.not_retryContract htracked hheld) ?_, fun _ => hcounted.handed _ hheld⟩
    rintro (h | ⟨h, -⟩) <;> cases h
  | redis =>
    have hzero := RedisQueue.keeps.run hrun
    refine ⟨iff_of_false (RedisQueue.not_retryContract hzero.retry) ?_, fun h => absurd rfl h⟩
    rintro (h | ⟨h, -⟩) <;> cases h
  | redisStreams =>
    have hI := RedisStreams.Inv.keeps.run hrun
    refine ⟨(RedisStreams.retryContract_iff_nonpos hI hheld delayS now).trans ?_, fun _ => hI.counted.handed _ hheld⟩
    constructor
    · intro h
      exact .inr ⟨rfl, h⟩
    · rintro (h | ⟨-, h⟩)
      · cases h
      · exact h

def plain : Config Int Unit := ⟨fun _ => none, fun _ => "", (), id, fun _ => "", true, 900⟩

def firstItem : Item Nat Int Unit := ⟨1, ⟨(), none, some 0⟩, 0, 0⟩

def heldOnce : List (Event Nat Int Unit) := [.enqueue 1 () (some 0) 0, .dequeue "w" firstItem 0]

theorem retry_contract_sqlite :
    ∃ s : System (Kind.sqlite.backend plain), Run.run System.step heldOnce System.start = some s ∧
      RetryContract (Kind.sqlite.backend plain) ((Kind.sqlite.backend plain).retry "w" 1 5 0 s.queue) 0 5 1 () 1 := by
  have hrun : Run.run System.step heldOnce (System.start : System (Kind.sqlite.backend plain)) = some _ := rfl
  refine ⟨_, hrun, ?_⟩
  let row : Queue.Row Nat String Int (Payload Int Unit) := ⟨1, ⟨(), none, some 0⟩, .inflight, none, some "w", 0, 0, 0⟩
  exact (retry_contract_iff (T := Int) .sqlite hrun List.mem_cons_self ⟨row, rfl, rfl, rfl, rfl⟩ 5 0).1.2 (.inl rfl)

/-- One `retry` of five seconds. In memory the job is in no queue afterwards; `RedisQueue` hands it out with no
attempt counted; `RedisStreamsQueue` hands it out at once. -/
theorem retry_contract_broken :
    (∃ s ∈ Run.run System.step (heldOnce ++ [.retry "w" firstItem 5 0]) (System.start : System (inProc plain)),
      Fifo.pop [some "w", none] s.queue = none) ∧
    (Run.run System.step (heldOnce ++ [.retry "w" firstItem 5 0, .dequeue "w" ⟨1, ⟨(), none, some 0⟩, 5, 0⟩ 5])
      (System.start : System (redis plain))).isSome ∧
    (Run.run System.step (heldOnce ++ [.retry "w" firstItem 5 0, .dequeue "w" ⟨1, ⟨(), some 1, some 5⟩, 5, 1⟩ 0])
      (System.start : System (redisStreams plain))).isSome := by
  refine ⟨⟨_, rfl, rfl⟩, ?_, ?_⟩ <;> decide +kernel

end Korith.Backends
