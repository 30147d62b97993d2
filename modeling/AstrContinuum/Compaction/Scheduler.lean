import Mathlib.Data.List.Basic

/-!
# The coalescing scheduler

`CoalescingCompactionScheduler` of `scheduler.py`, one atomic section of the event loop at a time.
No section holds the lock while it waits, so the lock never blocks. A session stays in the pending
set until its callback has ended, and an exception of the callback ends the worker task.
`no_lost_wakeup_iff` says exactly in which runs no wake-up is lost.
-/

namespace AstrContinuum

/-- The task of `_run`: it waits at `queue.get`, or runs the callback of a session. An exception of
the callback ends it, although the attribute still holds the task. -/
inductive SchedulerWorker
  | none
  | waiting
  | running (sessionId : String)
  | failed
deriving DecidableEq

/-- The task can still take a session from the queue. -/
def SchedulerWorker.alive : SchedulerWorker → Bool
  | .waiting | .running _ => true
  | .none | .failed => false

/-- `CoalescingCompactionScheduler`. -/
structure SchedulerState where
  queue : List String := []
  pending : List String := []
  worker : SchedulerWorker := .none
  closed : Bool := false
deriving DecidableEq

/-- What happens to a scheduler. -/
inductive SchedulerEvent
  | start
  | notify (sessionId : String)
  | callbackStarts
  | callbackReturns
  | callbackRaises
  | close
deriving DecidableEq

namespace SchedulerState

/-- `start`. -/
def start (state : SchedulerState) : SchedulerState :=
  if state.worker = .none then { state with worker := .waiting } else state

/-- `notify`. -/
def notify (state : SchedulerState) (sessionId : String) : SchedulerState :=
  if state.closed = true ∨ sessionId ∈ state.pending then state
  else
    { state with
      pending := sessionId :: state.pending
      queue := state.queue ++ [sessionId] }

/-- The worker takes a session from the queue and calls the callback. -/
def callbackStarts (state : SchedulerState) : SchedulerState :=
  match state.worker, state.queue with
  | .waiting, sessionId :: rest => { state with queue := rest, worker := .running sessionId }
  | _, _ => state

/-- The `finally` clause of `_run`, and the worker after it. -/
def callbackEnds (state : SchedulerState) (worker : SchedulerWorker) : SchedulerState :=
  match state.worker with
  | .running sessionId =>
      { state with
        pending := state.pending.filter fun other => other ≠ sessionId
        worker := worker }
  | _ => state

/-- `close`: the worker is cancelled, and a running callback ends through the `finally` clause. -/
def close (state : SchedulerState) : SchedulerState :=
  { state.callbackEnds .none with worker := .none, closed := true }

/-- One event. Events that are not enabled change nothing. -/
def step (state : SchedulerState) : SchedulerEvent → SchedulerState
  | .start => state.start
  | .notify sessionId => state.notify sessionId
  | .callbackStarts => state.callbackStarts
  | .callbackReturns => state.callbackEnds .waiting
  | .callbackRaises => state.callbackEnds .failed
  | .close => state.close

/-- The session whose callback an event starts. -/
def started (state : SchedulerState) : SchedulerEvent → Option String
  | .callbackStarts => if state.worker = .waiting then state.queue.head? else none
  | _ => none

end SchedulerState

/-! ## Wake-ups -/

/-- A scheduler with the sessions that were notified before `close` and whose callback has not
started since. -/
structure SchedulerRun where
  state : SchedulerState
  owed : List String
deriving DecidableEq

namespace SchedulerRun

/-- The sessions owed a callback after an event. -/
def owedAfter (run : SchedulerRun) : SchedulerEvent → List String
  | .notify sessionId => if run.state.closed then run.owed else sessionId :: run.owed
  | event => run.owed.filter fun other => run.state.started event ≠ some other

/-- One event. -/
def step (run : SchedulerRun) (event : SchedulerEvent) : SchedulerRun :=
  ⟨run.state.step event, run.owedAfter event⟩

/-- A scheduler that has been started, after some events. -/
def after (events : List SchedulerEvent) : SchedulerRun :=
  events.foldl step ⟨{ worker := .waiting }, []⟩

/-- No wake-up is lost: unless the scheduler is closed, every session that is owed a callback is
queued and the worker can still take it. -/
def Served (run : SchedulerRun) : Prop :=
  run.state.closed = true ∨
    ∀ sessionId ∈ run.owed, sessionId ∈ run.state.queue ∧ run.state.worker.alive = true

/-- The event does not reach the two places where wake-ups get lost: a session is notified only
while its own callback is not running and the worker has not failed, and a callback raises only
while no session is queued. -/
def Orderly (run : SchedulerRun) (event : SchedulerEvent) : Prop :=
  run.state.closed = true ∨
    match event with
    | .notify sessionId =>
        run.state.worker ≠ .running sessionId ∧ run.state.worker ≠ .failed
    | .callbackRaises =>
        ∀ sessionId, run.state.worker = .running sessionId → run.state.queue = []
    | _ => True

instance (run : SchedulerRun) : Decidable run.Served :=
  inferInstanceAs (Decidable (_ ∨ _))

/-- What every event keeps while the scheduler is open. -/
structure Tracked (run : SchedulerRun) : Prop where
  started : run.state.worker ≠ .none
  nodup : run.state.queue.Nodup
  apart : ∀ sessionId, run.state.worker = .running sessionId → sessionId ∉ run.state.queue
  pending : ∀ sessionId, sessionId ∈ run.state.pending ↔
    sessionId ∈ run.state.queue ∨ run.state.worker = .running sessionId
  owed : ∀ sessionId ∈ run.state.queue, sessionId ∈ run.owed

/-- A scheduler that has just been started. -/
theorem tracked_after_nil : Tracked (after []) where
  started := by decide
  nodup := List.nodup_nil
  apart := by simp [after]
  pending := by simp [after]
  owed := by simp [after]

namespace Tracked

variable {run : SchedulerRun} (h : run.Tracked)
include h

/-- `notify`. -/
theorem notify (hopen : run.state.closed = false) (sessionId : String) :
    (run.step (.notify sessionId)).Tracked := by
  by_cases hpending : sessionId ∈ run.state.pending
  · -- coalesced: the state stays as it is
    have hstate : run.state.notify sessionId = run.state := by simp [SchedulerState.notify, hpending]
    have howed : run.owedAfter (.notify sessionId) = sessionId :: run.owed := by
      simp [owedAfter, hopen]
    rw [show run.step (.notify sessionId) = ⟨run.state, sessionId :: run.owed⟩ by
      simp [step, SchedulerState.step, hstate, howed]]
    exact ⟨h.started, h.nodup, h.apart, h.pending,
      fun other hother => List.mem_cons_of_mem _ (h.owed other hother)⟩
  · have hfresh : sessionId ∉ run.state.queue ∧ run.state.worker ≠ .running sessionId := by
      rw [h.pending, not_or] at hpending
      exact hpending
    rw [show run.step (.notify sessionId) =
        ⟨{ run.state with
            pending := sessionId :: run.state.pending
            queue := run.state.queue ++ [sessionId] }, sessionId :: run.owed⟩ by
      simp [step, SchedulerState.step, SchedulerState.notify, owedAfter, hopen, hpending]]
    refine ⟨h.started, ?_, ?_, ?_, ?_⟩
    · refine List.nodup_append.mpr ⟨h.nodup, by simp, ?_⟩
      intro other hother last hlast hsame
      obtain rfl := List.mem_singleton.mp hlast
      exact hfresh.1 (hsame ▸ hother)
    · intro other hrunning hmem
      rcases List.mem_append.mp hmem with hmem | hmem
      · exact h.apart other hrunning hmem
      · exact hfresh.2 (List.mem_singleton.mp hmem ▸ hrunning)
    · intro other
      have hother := h.pending other
      simp only [List.mem_cons, List.mem_append, List.not_mem_nil, or_false]
      tauto
    · intro other hmem
      rcases List.mem_append.mp hmem with hmem | hmem
      · exact List.mem_cons_of_mem _ (h.owed other hmem)
      · exact List.mem_singleton.mp hmem ▸ List.mem_cons_self

/-- The callback of the next session starts. -/
theorem callbackStarts : (run.step .callbackStarts).Tracked := by
  by_cases hready : run.state.worker = .waiting ∧ run.state.queue ≠ []
  · obtain ⟨hwaiting, hqueue⟩ := hready
    obtain ⟨sessionId, rest, hcons⟩ := List.exists_cons_of_ne_nil hqueue
    rw [show run.step .callbackStarts =
        ⟨{ run.state with queue := rest, worker := .running sessionId },
          run.owed.filter fun other => some sessionId ≠ some other⟩ by
      simp [step, SchedulerState.step, SchedulerState.callbackStarts, owedAfter,
        SchedulerState.started, hwaiting, hcons]]
    have hnodup := h.nodup
    rw [hcons, List.nodup_cons] at hnodup
    refine ⟨nofun, hnodup.2, ?_, ?_, ?_⟩
    · intro other hrunning
      obtain rfl := SchedulerWorker.running.inj hrunning
      exact hnodup.1
    · intro other
      have hother := h.pending other
      rw [hcons, hwaiting] at hother
      simp only [hother, List.mem_cons, reduceCtorEq, or_false, SchedulerWorker.running.injEq]
      constructor
      · rintro (rfl | hmem)
        · exact .inr rfl
        · exact .inl hmem
      · rintro (hmem | rfl)
        · exact .inr hmem
        · exact .inl rfl
    · intro other hmem
      have howed := h.owed other (by rw [hcons]; exact List.mem_cons_of_mem _ hmem)
      have hne : sessionId ≠ other := fun hsame => hnodup.1 (hsame ▸ hmem)
      exact List.mem_filter.mpr ⟨howed, by simpa using hne⟩
  · -- the worker does not wait, or has nothing to take
    have hstate : run.state.callbackStarts = run.state := by
      unfold SchedulerState.callbackStarts
      split
      · rename_i hwaiting hcons
        exact absurd ⟨hwaiting, by simp [hcons]⟩ hready
      · rfl
    have hstarted : run.state.started .callbackStarts = none := by
      simp only [SchedulerState.started]
      split
      · rename_i hwaiting
        have hnil : run.state.queue = [] := by
          by_contra hne
          exact hready ⟨hwaiting, hne⟩
        simp [hnil]
      · rfl
    rw [show run.step .callbackStarts = run by
      simp [step, SchedulerState.step, hstate, owedAfter, hstarted]]
    exact h

/-- The callback ends, and the worker waits again or has failed. -/
theorem callbackEnds {worker : SchedulerWorker} (hnone : worker ≠ .none)
    (hidle : ∀ sessionId, worker ≠ .running sessionId) :
    Tracked ⟨run.state.callbackEnds worker, run.owed⟩ := by
  unfold SchedulerState.callbackEnds
  split
  · rename_i sessionId hrunning
    refine ⟨hnone, h.nodup, fun other hother => absurd hother (hidle other), ?_, h.owed⟩
    intro other
    have hother := h.pending other
    have hapart := h.apart sessionId hrunning
    rw [hrunning] at hother
    simp only [List.mem_filter, decide_eq_true_eq, hother, SchedulerWorker.running.injEq, hidle,
      or_false]
    constructor
    · rintro ⟨hmem | rfl, hne⟩
      · exact hmem
      · exact absurd rfl hne
    · intro hmem
      exact ⟨.inl hmem, fun hsame => hapart (hsame ▸ hmem)⟩
  · exact h

/-- Every event but `close`. -/
theorem step (hopen : run.state.closed = false) {event : SchedulerEvent} (hclose : event ≠ .close) :
    (run.step event).Tracked := by
  cases event with
  | start =>
      rw [show run.step .start = run by
        simp [SchedulerRun.step, SchedulerState.step, SchedulerState.start, h.started, owedAfter,
          SchedulerState.started]]
      exact h
  | notify sessionId => exact h.notify hopen sessionId
  | callbackStarts => exact h.callbackStarts
  | callbackReturns =>
      rw [show run.step .callbackReturns = ⟨run.state.callbackEnds .waiting, run.owed⟩ by
        simp [SchedulerRun.step, SchedulerState.step, owedAfter, SchedulerState.started]]
      exact h.callbackEnds (by simp) (by simp)
  | callbackRaises =>
      rw [show run.step .callbackRaises = ⟨run.state.callbackEnds .failed, run.owed⟩ by
        simp [SchedulerRun.step, SchedulerState.step, owedAfter, SchedulerState.started]]
      exact h.callbackEnds (by simp) (by simp)
  | close => exact absurd rfl hclose

end Tracked

/-- A closed scheduler stays closed. -/
theorem closed_step {run : SchedulerRun} (h : run.state.closed = true) (event : SchedulerEvent) :
    (run.step event).state.closed = true := by
  cases event with
  | start =>
      simp only [step, SchedulerState.step, SchedulerState.start]
      split <;> exact h
  | notify sessionId => simp [step, SchedulerState.step, SchedulerState.notify, h]
  | callbackStarts =>
      simp only [step, SchedulerState.step, SchedulerState.callbackStarts]
      split <;> exact h
  | callbackReturns | callbackRaises =>
      simp only [step, SchedulerState.step, SchedulerState.callbackEnds]
      split <;> exact h
  | close => rfl

/-- Only `close` closes an open scheduler. -/
theorem open_step {run : SchedulerRun} (h : run.state.closed = false) {event : SchedulerEvent}
    (hclose : event ≠ .close) : (run.step event).state.closed = false := by
  cases event with
  | start =>
      simp only [step, SchedulerState.step, SchedulerState.start]
      split <;> exact h
  | notify sessionId =>
      simp only [step, SchedulerState.step, SchedulerState.notify]
      split <;> exact h
  | callbackStarts =>
      simp only [step, SchedulerState.step, SchedulerState.callbackStarts]
      split <;> exact h
  | callbackReturns | callbackRaises =>
      simp only [step, SchedulerState.step, SchedulerState.callbackEnds]
      split <;> exact h
  | close => exact absurd rfl hclose

/-! ## Where wake-ups get lost -/

namespace Tracked

variable {run : SchedulerRun} (h : run.Tracked) (hopen : run.state.closed = false)
  (hserved : ∀ sessionId ∈ run.owed, sessionId ∈ run.state.queue ∧ run.state.worker.alive = true)
include h hopen hserved

/-- A notification is kept unless the callback of its session runs or the worker has failed. -/
theorem served_notify (sessionId : String) :
    (run.step (.notify sessionId)).Served ↔
      run.state.worker ≠ .running sessionId ∧ run.state.worker ≠ .failed := by
  have hworker : (run.step (.notify sessionId)).state.worker = run.state.worker := by
    simp only [SchedulerRun.step, SchedulerState.step, SchedulerState.notify]
    split <;> rfl
  have hqueue : ∀ other, other ∈ (run.step (.notify sessionId)).state.queue ↔
      other ∈ run.state.queue ∨ (other = sessionId ∧ sessionId ∉ run.state.pending) := by
    intro other
    simp only [SchedulerRun.step, SchedulerState.step, SchedulerState.notify, hopen]
    by_cases hpending : sessionId ∈ run.state.pending
    · simp [hpending]
    · simp [hpending]
  have howed : (run.step (.notify sessionId)).owed = sessionId :: run.owed := by
    simp [SchedulerRun.step, owedAfter, hopen]
  have hpending := h.pending sessionId
  unfold Served
  rw [open_step hopen (by simp), howed, hworker]
  simp only [Bool.false_eq_true, false_or, List.forall_mem_cons, hqueue]
  constructor
  · rintro ⟨⟨hmem, halive⟩, -⟩
    refine ⟨fun hrunning => ?_, fun hfailed => by simp [hfailed, SchedulerWorker.alive] at halive⟩
    rcases hmem with hmem | ⟨-, hfresh⟩
    · exact h.apart sessionId hrunning hmem
    · exact hfresh (hpending.mpr (.inr hrunning))
  · rintro ⟨hrunning, hfailed⟩
    have halive : run.state.worker.alive = true := by
      cases hworker : run.state.worker with
      | none => exact absurd hworker h.started
      | waiting => rfl
      | running other => rfl
      | failed => exact absurd hworker hfailed
    refine ⟨⟨?_, halive⟩, fun other hother => ⟨.inl (hserved other hother).1, halive⟩⟩
    by_cases hmem : sessionId ∈ run.state.queue
    · exact .inl hmem
    · exact .inr ⟨trivial, by rw [hpending]; exact fun hor => hor.elim hmem hrunning⟩

omit h hopen in
/-- The session whose callback starts is no longer owed one, and the others stay queued. -/
theorem served_callbackStarts : (run.step .callbackStarts).Served := by
  refine .inr fun other hother => ?_
  obtain ⟨howed, hkept⟩ := List.mem_filter.mp hother
  obtain ⟨hmem, halive⟩ := hserved other howed
  simp only [SchedulerRun.step, SchedulerState.step, SchedulerState.callbackStarts]
  split
  · rename_i sessionId rest hwaiting hcons
    have hne : sessionId ≠ other := by
      simpa [SchedulerState.started, hwaiting, hcons] using hkept
    rw [hcons] at hmem
    rcases List.mem_cons.mp hmem with hsame | hmem
    · exact absurd hsame.symm hne
    · exact ⟨hmem, rfl⟩
  · exact ⟨hmem, halive⟩

omit h hopen in
/-- A callback that returns loses nothing. -/
theorem served_callbackReturns : (run.step .callbackReturns).Served := by
  refine .inr fun other hother => ?_
  obtain ⟨hmem, halive⟩ := hserved other (List.mem_of_mem_filter hother)
  simp only [SchedulerRun.step, SchedulerState.step, SchedulerState.callbackEnds]
  split
  · exact ⟨hmem, rfl⟩
  · exact ⟨hmem, halive⟩

/-- A callback that raises loses every session that is queued. -/
theorem served_callbackRaises : (run.step .callbackRaises).Served ↔
    ∀ sessionId, run.state.worker = .running sessionId → run.state.queue = [] := by
  have howed : (run.step .callbackRaises).owed = run.owed := by
    simp [SchedulerRun.step, owedAfter, SchedulerState.started]
  unfold Served
  rw [open_step hopen (by simp), howed]
  simp only [Bool.false_eq_true, false_or]
  by_cases hrunning : ∃ sessionId, run.state.worker = .running sessionId
  · obtain ⟨sessionId, hrunning⟩ := hrunning
    have hfailed : (run.step .callbackRaises).state.worker.alive = false := by
      simp [SchedulerRun.step, SchedulerState.step, SchedulerState.callbackEnds, hrunning,
        SchedulerWorker.alive]
    simp only [hfailed, Bool.false_eq_true, and_false]
    constructor
    · intro hnone _ _
      exact List.eq_nil_iff_forall_not_mem.mpr fun other hmem => hnone other (h.owed other hmem)
    · intro hempty other hother
      have hmem := (hserved other hother).1
      rw [hempty sessionId hrunning] at hmem
      cases hmem
  · have hstate : (run.step .callbackRaises).state = run.state := by
      simp only [SchedulerRun.step, SchedulerState.step, SchedulerState.callbackEnds]
      split
      · rename_i sessionId hworker
        exact absurd ⟨sessionId, hworker⟩ hrunning
      · rfl
    rw [hstate]
    exact ⟨fun _ sessionId hworker => absurd ⟨sessionId, hworker⟩ hrunning, fun _ => hserved⟩

/-- One event loses a wake-up exactly when it is not orderly. -/
theorem served_step_iff (event : SchedulerEvent) :
    (run.step event).Served ↔ run.Orderly event := by
  unfold Orderly
  simp only [hopen, Bool.false_eq_true, false_or]
  cases event with
  | start =>
      rw [show run.step .start = run by
        simp [SchedulerRun.step, SchedulerState.step, SchedulerState.start, h.started, owedAfter,
          SchedulerState.started]]
      exact iff_of_true (.inr hserved) trivial
  | notify sessionId => exact h.served_notify hopen hserved sessionId
  | callbackStarts => exact iff_of_true (served_callbackStarts hserved) trivial
  | callbackReturns => exact iff_of_true (served_callbackReturns hserved) trivial
  | callbackRaises => exact h.served_callbackRaises hopen hserved
  | close => exact iff_of_true (.inl rfl) trivial

end Tracked

/-- From a state in which nothing is lost, a run loses no wake-up exactly when its events are
orderly. -/
theorem served_iff (run : SchedulerRun) (events : List SchedulerEvent)
    (h : run.state.closed = true ∨ (run.Tracked ∧ run.Served)) :
    (∀ n, ((events.take n).foldl step run).Served) ↔
      ∀ n event, events[n]? = some event → ((events.take n).foldl step run).Orderly event := by
  have hnow : run.Served := h.elim .inl fun hopen => hopen.2
  induction events generalizing run with
  | nil => simpa using hnow
  | cons event rest ih =>
      have hfirst : (run.step event).Served ↔ run.Orderly event := by
        rcases h with hclosed | ⟨htracked, hserved⟩
        · exact iff_of_true (.inl (closed_step hclosed event)) (.inl hclosed)
        · cases hopen : run.state.closed with
          | true => exact iff_of_true (.inl (closed_step hopen event)) (.inl hopen)
          | false =>
              have hall := hserved.resolve_left (by simp [hopen])
              exact htracked.served_step_iff hopen hall event
      have hnext : (run.step event).Served →
          (run.step event).state.closed = true ∨
            ((run.step event).Tracked ∧ (run.step event).Served) := by
        intro hserved
        rcases h with hclosed | ⟨htracked, -⟩
        · exact .inl (closed_step hclosed event)
        · cases hopen : run.state.closed with
          | true => exact .inl (closed_step hopen event)
          | false =>
              by_cases hclose : event = .close
              · exact .inl (by rw [hclose]; rfl)
              · exact .inr ⟨htracked.step hopen hclose, hserved⟩
      constructor
      · intro hall
        have hserved : (run.step event).Served := by simpa using hall 1
        have hrest := (ih (run.step event) (hnext hserved) hserved).mp
          fun n => by simpa using hall (n + 1)
        intro n other hother
        cases n with
        | zero =>
            obtain rfl := Option.some.inj hother
            exact hfirst.mp hserved
        | succ n => exact hrest n other (by simpa using hother)
      · intro horderly
        have hserved := hfirst.mpr (horderly 0 event rfl)
        have hrest := (ih (run.step event) (hnext hserved) hserved).mpr
          fun n other hother => by simpa using horderly (n + 1) other (by simpa using hother)
        intro n
        cases n with
        | zero => exact hnow
        | succ n => simpa using hrest n

end SchedulerRun

/-- Once the scheduler has been started, no wake-up is lost in any state of a run exactly when, at
every step before `close`, a session is notified only while its own callback is not running and no
callback has raised, and a callback raises only while no session is queued. -/
theorem no_lost_wakeup_iff (events : List SchedulerEvent) :
    (∀ n, (SchedulerRun.after (events.take n)).Served) ↔
      ∀ n event, events[n]? = some event →
        (SchedulerRun.after (events.take n)).Orderly event :=
  SchedulerRun.served_iff _ events
    (.inr ⟨SchedulerRun.tracked_after_nil, .inr fun _ hmem => by cases hmem⟩)

/-- A session that is notified while its callback runs gets no callback for it, although the
callback returns and the worker goes on waiting. -/
theorem wakeup_lost_while_running :
    ¬ (SchedulerRun.after [.notify "s1", .callbackStarts, .notify "s1"]).Served ∧
      (SchedulerRun.after [.notify "s1", .callbackStarts, .notify "s1", .callbackReturns,
        .callbackStarts]).state = { worker := .waiting } := by
  decide

end AstrContinuum
