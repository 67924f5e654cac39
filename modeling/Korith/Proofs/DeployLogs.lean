import Korith.Backend.DeployStream

/-!
# What the stream of a log delivers

The deque holds the last 500 messages, and the cursor counts the messages since the first. As long as no more than 500
have been emitted the two agree. Later some messages are skipped, and the cursor stays where it is for good (`Stuck`).
-/

namespace Korith.DeployStream

open Machine

variable {M : Type} {id : Nat} {es before : List (Event M)} {e : Event M} {id' : Nat}

def Event.message (id : Nat) : Event M → Option M
  | .append id' m => if id' = id then some m else none
  | _ => none

theorem message_append {m : M} : (Event.append id' m).message id = if id' = id then some m else none := rfl

theorem message_markDone : (Event.markDone id' : Event M).message id = none := rfl

theorem message_poll : (Event.poll : Event M).message id = none := rfl

def emitted (id : Nat) (es : List (Event M)) : List M := es.filterMap (Event.message id)

def sent (id : Nat) (es : List (Event M)) : List M := (answers (step id) initial es).flatten

def reached (id : Nat) (es : List (Event M)) : System M := after (step id) initial es

def System.log (id : Nat) (s : System M) : RuntimeState M := s.states.getOrCreate id

theorem emitted_concat : emitted id (es ++ [e]) = emitted id es ++ (e.message id).toList := by
  rw [emitted, emitted, List.filterMap_append]
  cases h : e.message id <;> simp [h]

theorem sent_concat : sent id (es ++ [e]) = sent id es ++ (step id (reached id es) e).1 := by
  rw [sent, answers_concat, List.flatten_append, List.flatten_singleton]
  rfl

theorem reached_concat : reached id (es ++ [e]) = (step id (reached id es) e).2 := after_concat

/-! ### Steps -/

theorem getOrCreate_update {states : StateStore M} {state : RuntimeState M} :
    StateStore.getOrCreate (Function.update states id' (some state)) id =
      if id = id' then state else states.getOrCreate id := by
  by_cases h : id = id'
  · subst h
    simp [StateStore.getOrCreate]
  · simp [StateStore.getOrCreate, h]

variable {s : System M} {n : Nat}

theorem log_append {m : M} : (step id s (.append id' m)).2.log id =
    if id' = id then { s.log id with logs := dequeAppend maxLogs (s.log id).logs m } else s.log id := by
  show StateStore.getOrCreate (Function.update s.states id' _) id = _
  rw [getOrCreate_update]
  by_cases h : id' = id
  · subst h
    rw [if_pos rfl, if_pos rfl]
    rfl
  · rw [if_neg h, if_neg (Ne.symm h)]
    rfl

theorem log_markDone : (step id s (.markDone id')).2.log id =
    if id' = id then { s.log id with done := true } else s.log id := by
  show StateStore.getOrCreate (Function.update s.states id' _) id = _
  rw [getOrCreate_update]
  by_cases h : id' = id
  · subst h
    rw [if_pos rfl, if_pos rfl]
    rfl
  · rw [if_neg h, if_neg (Ne.symm h)]
    rfl

theorem poll_of_closed (h : s.closed = true) : poll id s = ([], s) := by
  rw [poll, if_pos h]

theorem poll_of_open (h : s.closed = false) :
    poll id s = ((s.log id).logs.drop s.cursor, ⟨Function.update s.states id (some (s.log id)),
      s.cursor + ((s.log id).logs.drop s.cursor).length,
      (s.log id).done && ((s.log id).logs.drop s.cursor).isEmpty⟩) := by
  have hidx : ¬ (s.cursor : Int) < 0 := by omega
  simp [poll, h, StateStore.snapshot, hidx, System.log]

theorem log_poll : (step id s .poll).2.log id = s.log id := by
  show (poll id s).2.log id = _
  cases h : s.closed with
  | true => rw [poll_of_closed h]
  | false =>
    rw [poll_of_open h]
    show StateStore.getOrCreate (Function.update s.states id _) id = _
    rw [getOrCreate_update, if_pos rfl]

theorem logs_step : ((step id s e).2.log id).logs =
    (e.message id).elim (s.log id).logs (dequeAppend maxLogs (s.log id).logs) := by
  cases e with
  | append id' m =>
    rw [log_append, message_append]
    by_cases h : id' = id <;> simp [h]
  | markDone id' =>
    rw [log_markDone, message_markDone, Option.elim_none]
    by_cases h : id' = id <;> simp [h]
  | poll => rw [log_poll, message_poll, Option.elim_none]

theorem cursor_step : (step id s e).2.cursor = s.cursor + (step id s e).1.length := by
  cases e with
  | append id' m => rfl
  | markDone id' => rfl
  | poll =>
    show (poll id s).2.cursor = s.cursor + (poll id s).1.length
    cases h : s.closed with
    | true => rw [poll_of_closed h]; rfl
    | false => rw [poll_of_open h]

theorem sent_step (h : (step id s e).1 ≠ []) :
    e = .poll ∧ s.closed = false ∧ (step id s e).1 = (s.log id).logs.drop s.cursor := by
  cases e with
  | append id' m => exact absurd rfl h
  | markDone id' => exact absurd rfl h
  | poll =>
    replace h : (poll id s).1 ≠ [] := h
    show Event.poll = Event.poll ∧ _ ∧ (poll id s).1 = _
    cases hclosed : s.closed with
    | true => exact absurd (by rw [poll_of_closed hclosed]) h
    | false => exact ⟨rfl, rfl, by rw [poll_of_open hclosed]⟩

/-! ### Every run -/

theorem length_rtake {l : List M} : (l.rtake n).length = min l.length n := by
  rw [List.rtake, List.length_drop]
  omega

theorem logs_reached (id : Nat) (es : List (Event M)) :
    ((reached id es).log id).logs = (emitted id es).rtake maxLogs := by
  induction es using List.reverseRecOn with
  | nil => exact (List.rtake_nil _).symm
  | append_singleton es e ih =>
    rw [reached_concat, logs_step, emitted_concat, ih]
    cases e.message id with
    | none => rw [Option.toList_none, List.append_nil, Option.elim_none]
    | some m => rw [Option.toList_some, Option.elim_some, dequeAppend_rtake]

theorem cursor_reached (id : Nat) (es : List (Event M)) : (reached id es).cursor = (sent id es).length := by
  induction es using List.reverseRecOn with
  | nil => rfl
  | append_singleton es e ih => rw [reached_concat, cursor_step, sent_concat, List.length_append, ih]

theorem length_sent_le (id : Nat) (es : List (Event M)) : (sent id es).length ≤ (emitted id es).length := by
  induction es using List.reverseRecOn with
  | nil => exact le_rfl
  | append_singleton es e ih =>
    rw [sent_concat, emitted_concat, List.length_append, List.length_append]
    by_cases h : (step id (reached id es) e).1 = []
    · rw [h, List.length_nil]
      omega
    · rw [(sent_step h).2.2, List.length_drop, logs_reached, length_rtake, cursor_reached]
      omega

/-! ### Passes -/

/-- A pass that finds the stream open comes before the 501st message, or nothing is pending. -/
def Timely (id : Nat) (before : List (Event M)) (e : Event M) : Prop :=
  e = .poll → (reached id before).closed = false →
    (emitted id before).length ≤ maxLogs ∨ (sent id before).length = (emitted id before).length

theorem drop_rtake {l : List M} {c : Nat} (h : l.length ≤ n ∨ c = l.length) : (l.rtake n).drop c = l.drop c := by
  rw [List.rtake, List.drop_drop]
  rcases h with h | rfl
  · rw [Nat.sub_eq_zero_of_le h, Nat.zero_add]
  · rw [List.drop_of_length_le (Nat.le_add_left ..), List.drop_length]

theorem sent_poll (htimely : Timely id es .poll) (hclosed : (reached id es).closed = false)
    (hsent : sent id es <+: emitted id es) : sent id (es ++ [.poll]) = emitted id es := by
  rw [sent_concat]
  show _ ++ (poll id (reached id es)).1 = _
  rw [poll_of_open hclosed]
  show _ ++ ((reached id es).log id).logs.drop (reached id es).cursor = _
  rw [logs_reached, cursor_reached, drop_rtake (htimely rfl hclosed)]
  obtain ⟨rest, hrest⟩ := hsent
  rw [← hrest, List.drop_left]

/-- The cursor is behind the deque, and messages are missing. -/
def Stuck (id : Nat) (es : List (Event M)) : Prop :=
  maxLogs ≤ (sent id es).length ∧ (sent id es).length < (emitted id es).length

theorem Stuck.step (h : Stuck id es) : Stuck id (es ++ [e]) := by
  obtain ⟨hmax, hlt⟩ := h
  have hnothing : (DeployStream.step id (reached id es) e).1 = [] := by
    by_contra hne
    apply hne
    rw [(sent_step hne).2.2]
    apply List.drop_of_length_le
    rw [logs_reached, length_rtake, cursor_reached]
    omega
  rw [Stuck, sent_concat, hnothing, List.append_nil, emitted_concat, List.length_append]
  omega

theorem Stuck.append (h : Stuck id es) (rest : List (Event M)) : Stuck id (es ++ rest) := by
  induction rest using List.reverseRecOn with
  | nil => rwa [List.append_nil]
  | append_singleton rest e ih => rw [← List.append_assoc]; exact ih.step

theorem stuck_of_not_timely (h : ¬ Timely id es e) : Stuck id (es ++ [e]) := by
  simp only [Timely, Classical.not_imp, not_or, not_le] at h
  obtain ⟨rfl, hclosed, hmany, hpending⟩ := h
  have hle := length_sent_le id es
  have hm : emitted id (es ++ [.poll]) = emitted id es := by
    rw [emitted_concat]
    exact List.append_nil _
  have hsent : (sent id (es ++ [.poll])).length = (sent id es).length + (maxLogs - (sent id es).length) := by
    rw [sent_concat, List.length_append]
    show _ + (poll id (reached id es)).1.length = _
    rw [poll_of_open hclosed]
    show _ + (((reached id es).log id).logs.drop (reached id es).cursor).length = _
    rw [List.length_drop, logs_reached, cursor_reached, length_rtake, Nat.min_eq_right hmany.le]
  rw [Stuck, hsent, hm]
  omega

/-! ### Complete runs -/

def Event.isPoll : Event M → Bool
  | .poll => true
  | _ => false

theorem done_step : ((step id s e).2.log id).done = true ↔ (s.log id).done = true ∨ e = .markDone id := by
  cases e with
  | append id' m =>
    rw [log_append]
    by_cases h : id' = id <;> simp [h]
  | markDone id' =>
    rw [log_markDone]
    by_cases h : id' = id <;> simp [h]
  | poll => simp [log_poll]

theorem step_of_not_isPoll (id : Nat) (s : System M) (h : e.isPoll = false) :
    (step id s e).1 = [] ∧ (step id s e).2.closed = s.closed := by
  cases e with
  | append id' m => exact ⟨rfl, rfl⟩
  | markDone id' => exact ⟨rfl, rfl⟩
  | poll => cases h

theorem eq_poll_of_isPoll (h : e.isPoll = true) : e = .poll := by
  cases e with
  | append id' m => cases h
  | markDone id' => cases h
  | poll => rfl

theorem running_in_order (hrunning : ∀ e ∈ es, e ≠ .markDone id) (htimely : Every (Timely id) es) :
    ((reached id es).log id).done = false ∧ (reached id es).closed = false ∧ sent id es <+: emitted id es := by
  induction es using List.reverseRecOn with
  | nil => exact ⟨rfl, rfl, List.prefix_rfl⟩
  | append_singleton es e ih =>
    obtain ⟨htimely, hlast⟩ := every_concat.1 htimely
    obtain ⟨hdone, hclosed, hsent⟩ := ih (fun e he => hrunning e (List.mem_append_left _ he)) htimely
    have hdone' : ((reached id (es ++ [e])).log id).done = false := by
      rw [← Bool.not_eq_true, reached_concat, done_step, hdone]
      simpa using hrunning e (by simp)
    refine ⟨hdone', ?_⟩
    cases hpoll : e.isPoll with
    | false =>
      obtain ⟨hnothing, hsame⟩ := step_of_not_isPoll id (reached id es) hpoll
      rw [reached_concat, hsame, sent_concat, hnothing, List.append_nil, emitted_concat]
      exact ⟨hclosed, hsent.trans (List.prefix_append ..)⟩
    | true =>
      obtain rfl := eq_poll_of_isPoll hpoll
      have hall := sent_poll hlast hclosed hsent
      refine ⟨?_, ?_⟩
      · rw [reached_concat]
        show (poll id (reached id es)).2.closed = false
        rw [poll_of_open hclosed, hdone]
        rfl
      · rw [hall, emitted_concat]
        exact List.prefix_append ..

structure Finishing (id : Nat) (es : List (Event M)) (n : Nat) : Prop where
  done : ((reached id es).log id).done = true
  sent_prefix : sent id es <+: emitted id es
  of_closed : (reached id es).closed = true → sent id es = emitted id es
  all : 1 ≤ n → sent id es = emitted id es
  closed : 2 ≤ n → (reached id es).closed = true

theorem Finishing.quiet (h : Finishing id es n) (hpoll : e.isPoll = false) (hm : e.message id = none) :
    Finishing id (es ++ [e]) n := by
  obtain ⟨hnothing, hsame⟩ := step_of_not_isPoll id (reached id es) hpoll
  have hsent : sent id (es ++ [e]) = sent id es := by rw [sent_concat, hnothing, List.append_nil]
  have hemitted : emitted id (es ++ [e]) = emitted id es := by rw [emitted_concat, hm, Option.toList_none, List.append_nil]
  have hclosed : (reached id (es ++ [e])).closed = (reached id es).closed := by rw [reached_concat, hsame]
  refine ⟨?_, ?_, ?_, ?_, ?_⟩
  · rw [reached_concat, done_step]
    exact .inl h.done
  · rw [hsent, hemitted]
    exact h.sent_prefix
  · rw [hsent, hemitted, hclosed]
    exact h.of_closed
  · rw [hsent, hemitted]
    exact h.all
  · rw [hclosed]
    exact h.closed

theorem Finishing.poll (h : Finishing id es n) (htimely : Timely id es .poll) :
    Finishing id (es ++ [.poll]) (n + 1) := by
  have hdone : ((reached id (es ++ [.poll])).log id).done = true := by
    rw [reached_concat, done_step]
    exact .inl h.done
  have hemitted : emitted id (es ++ [.poll]) = emitted id es := by
    rw [emitted_concat, message_poll, Option.toList_none, List.append_nil]
  cases hclosed : (reached id es).closed with
  | true =>
    have hstep : step id (reached id es) .poll = ([], reached id es) := poll_of_closed hclosed
    have hall : sent id (es ++ [.poll]) = emitted id (es ++ [.poll]) := by
      rw [sent_concat, hstep, List.append_nil, hemitted, h.of_closed hclosed]
    refine ⟨hdone, hall ▸ List.prefix_rfl, fun _ => hall, fun _ => hall, fun _ => ?_⟩
    rw [reached_concat, hstep, hclosed]
  | false =>
    have hall : sent id (es ++ [.poll]) = emitted id (es ++ [.poll]) := by
      rw [sent_poll htimely hclosed h.sent_prefix, hemitted]
    refine ⟨hdone, hall ▸ List.prefix_rfl, fun _ => hall, fun _ => hall, fun hn => ?_⟩
    -- the pass before has sent everything, so nothing is left for this one
    have hnothing : (step id (reached id es) .poll).1 = [] := by
      have hlength := congrArg List.length (hall.trans (hemitted.trans (h.all (by omega)).symm))
      rw [sent_concat, List.length_append] at hlength
      exact List.eq_nil_of_length_eq_zero (by omega)
    have hdrop : ((reached id es).log id).logs.drop (reached id es).cursor = [] := by
      have hpoll : (DeployStream.poll id (reached id es)).1 = [] := hnothing
      rwa [poll_of_open hclosed] at hpoll
    rw [reached_concat]
    show (DeployStream.poll id (reached id es)).2.closed = true
    rw [poll_of_open hclosed, hdrop, h.done]
    rfl

theorem finishing {running finished : List (Event M)} (hrunning : ∀ e ∈ running, e ≠ .markDone id)
    (hfinished : ∀ e ∈ finished, e.message id = none) (htimely : Every (Timely id) (running ++ .markDone id :: finished)) :
    Finishing id (running ++ .markDone id :: finished) (finished.countP Event.isPoll) := by
  induction finished using List.reverseRecOn with
  | nil =>
    obtain ⟨hdone, hclosed, hsent⟩ := running_in_order hrunning (every_concat.1 htimely).1
    have hsent' : sent id (running ++ [.markDone id]) = sent id running := by
      rw [sent_concat]
      exact List.append_nil _
    have hemitted : emitted id (running ++ [.markDone id]) = emitted id running := by
      rw [emitted_concat, message_markDone, Option.toList_none, List.append_nil]
    refine ⟨?_, ?_, ?_, ?_, ?_⟩
    · rw [reached_concat, done_step]
      exact .inr rfl
    · rw [hsent', hemitted]
      exact hsent
    · rw [reached_concat, (step_of_not_isPoll _ _ rfl).2, hclosed]
      intro h
      cases h
    · intro h
      cases h
    · intro h
      cases h
  | append_singleton finished e ih =>
    have hsplit : running ++ .markDone id :: (finished ++ [e]) = (running ++ .markDone id :: finished) ++ [e] := by
      rw [List.append_assoc, List.cons_append]
    rw [hsplit] at htimely ⊢
    obtain ⟨htimely, hlast⟩ := every_concat.1 htimely
    have hfin := ih (fun e he => hfinished e (List.mem_append_left _ he)) htimely
    rw [List.countP_append, List.countP_singleton]
    cases hpoll : e.isPoll with
    | false => exact hfin.quiet hpoll (hfinished e (by simp))
    | true =>
      obtain rfl := eq_poll_of_isPoll hpoll
      exact hfin.poll hlast

/-- The thread emits, is done and emits no more, and then the stream makes two more passes, whatever the interleaving.
-/
theorem delivered_once_iff (id : Nat) (running finished : List (Event M)) (hrunning : ∀ e ∈ running, e ≠ .markDone id)
    (hfinished : ∀ e ∈ finished, e.message id = none) (hpasses : 2 ≤ finished.countP Event.isPoll) :
    ((reached id (running ++ .markDone id :: finished)).closed = true ∧
      sent id (running ++ .markDone id :: finished) = emitted id (running ++ .markDone id :: finished)) ↔
    Every (Timely id) (running ++ .markDone id :: finished) := by
  constructor
  · rintro ⟨-, hall⟩ before e rest hsplit
    by_contra hlate
    have hstuck := (stuck_of_not_timely hlate).append rest
    rw [List.append_assoc, List.singleton_append, ← hsplit, Stuck, hall] at hstuck
    exact lt_irrefl _ hstuck.2
  · intro htimely
    have hfin := finishing hrunning hfinished htimely
    exact ⟨hfin.closed hpasses, hfin.all (by omega)⟩

section Runs

theorem delivered_once_two :
    (reached 1 ([.append 1 10, .poll, .append 2 20, .append 1 11] ++ .markDone 1 :: [.poll, .poll])).closed = true ∧
      sent 1 ([.append 1 10, .poll, .append 2 20, .append 1 11] ++ .markDone 1 :: [.poll, .poll]) =
        emitted 1 ([.append 1 10, .poll, .append 2 20, .append 1 11] ++ .markDone 1 :: [.poll, .poll]) := by
  refine (delivered_once_iff 1 _ _ (by decide) (by decide) (by decide)).2 ?_
  intro before e rest hsplit _ _
  left
  have hprefix : emitted 1 before <+: [10, 11] := by
    have h := List.prefix_append before (e :: rest)
    rw [← hsplit] at h
    exact h.filterMap _
  exact hprefix.length_le.trans (by decide)

def fullLog : List (Event Nat) := (List.range 500).map (.append 1) ++ [.poll]

def overfullRun : List (Event Nat) := (fullLog ++ [.append 1 500]) ++ .markDone 1 :: [.poll, .poll]

theorem emitted_appends (ms : List Nat) : emitted 1 (ms.map (.append 1)) = ms := by
  rw [emitted, List.filterMap_map]
  exact List.filterMap_some

theorem emitted_fullLog : emitted 1 fullLog = List.range 500 := by
  rw [fullLog, emitted_concat, emitted_appends, message_poll, Option.toList_none, List.append_nil]

theorem sent_fullLog : sent 1 fullLog = List.range 500 := by
  have hrunning : ∀ e ∈ (List.range 500).map (Event.append 1), e ≠ .markDone 1 := by
    intro e he
    obtain ⟨m, -, rfl⟩ := List.mem_map.1 he
    exact fun h => (by cases h)
  have htimely : Every (Timely 1) ((List.range 500).map (Event.append 1)) := by
    intro before e rest hsplit hpoll
    have he : e ∈ (List.range 500).map (Event.append 1) := hsplit ▸ by simp
    obtain ⟨m, -, rfl⟩ := List.mem_map.1 he
    cases hpoll
  obtain ⟨-, hclosed, hsent⟩ := running_in_order hrunning htimely
  have hpoll : Timely 1 ((List.range 500).map (Event.append 1)) .poll := by
    intro _ _
    left
    rw [emitted_appends, List.length_range]
    exact le_rfl
  rw [fullLog, sent_poll hpoll hclosed hsent, emitted_appends]

theorem emitted_append {es' : List (Event M)} : emitted id (es ++ es') = emitted id es ++ emitted id es' :=
  List.filterMap_append

theorem length_sent_append (id : Nat) (es rest : List (Event M)) : (sent id es).length ≤ (sent id (es ++ rest)).length := by
  induction rest using List.reverseRecOn with
  | nil => rw [List.append_nil]
  | append_singleton rest e ih =>
    rw [← List.append_assoc, sent_concat, List.length_append]
    omega

theorem length_emitted_overfullRun : (emitted 1 overfullRun).length = 501 := by
  have hlast : emitted 1 [Event.append 1 500] = [500] := rfl
  have hrest : emitted 1 (Event.markDone 1 :: [.poll, .poll] : List (Event Nat)) = [] := rfl
  rw [overfullRun, emitted_append, emitted_append, emitted_fullLog, hlast, hrest, List.append_nil, List.length_append,
    List.length_range, List.length_singleton]

theorem overfullRun_stuck : Stuck 1 overfullRun := by
  have hlast : emitted 1 [Event.append 1 500] = [500] := rfl
  refine Stuck.append ⟨?_, ?_⟩ _
  · have hsent := length_sent_append 1 fullLog [.append 1 500]
    rw [sent_fullLog, List.length_range] at hsent
    exact hsent
  · rw [sent_concat, (step_of_not_isPoll _ _ rfl).1, List.append_nil, sent_fullLog, emitted_append, emitted_fullLog, hlast,
      List.length_append, List.length_range, List.length_singleton]
    exact Nat.lt_succ_self 500

/-- The stream is at most 500 messages behind all the time, and yet the 501st is never sent. -/
theorem last_message_lost :
    Every (fun before _ => (emitted 1 before).length ≤ (sent 1 before).length + 500) overfullRun ∧
      sent 1 overfullRun ≠ emitted 1 overfullRun := by
  refine ⟨fun before e rest hsplit => ?_, fun heq => ?_⟩
  · have hbefore : before <+: overfullRun := hsplit ▸ List.prefix_append ..
    have hfull : fullLog <+: overfullRun := by
      rw [overfullRun, List.append_assoc]
      exact List.prefix_append ..
    rcases List.prefix_or_prefix_of_prefix hbefore hfull with h | ⟨more, rfl⟩
    · have hle := (h.filterMap (Event.message 1)).length_le
      have hlength := congrArg List.length emitted_fullLog
      rw [List.length_range] at hlength
      exact Nat.le_add_left_of_le (hle.trans hlength.le)
    · have hle := (hbefore.filterMap (Event.message 1)).length_le.trans length_emitted_overfullRun.le
      have hsent := length_sent_append 1 fullLog more
      rw [sent_fullLog, List.length_range] at hsent
      exact hle.trans (by omega)
  · have hstuck := overfullRun_stuck.2
    rw [heq] at hstuck
    exact lt_irrefl _ hstuck

end Runs

end Korith.DeployStream
