import AstrContinuum.Domain.Quoting
import AstrContinuum.Guarantees.ToolCuts

/-!
# When every tool callback is journaled

`tool_events_journaled_iff`: in any interleaving of the host whose tool callbacks of one request all get
their repository call answered, `n` calls and `n` results are `n` events and `n` events if and only if
every callback reaches the repository and no two of one hook take the same metadata under the same
ordinal. A callback takes the ordinal when it starts and counts it up when it returns, so two that
overlap share it, and `overlapping_calls_lost` has one event for two calls.

The run is told by its moments, the latest first. `ToolSound` is what every action keeps: the counter of
a hook is the number of its callbacks that have returned, and every callback that reached the repository
still waits or has its event.
-/

namespace AstrContinuum

open Checked Relational Transactional

/-! ## The moments of a run -/

/-- The two tool hooks of a request. -/
inductive ToolHook
  | usingLlmTool
  | llmToolRespond
deriving DecidableEq

/-- The hook that a callback serves while it waits at a point. -/
def HookPoint.toolHook : HookPoint → Option ToolHook
  | .toolCall _ _ => some .usingLlmTool
  | .toolResult _ _ => some .llmToolRespond
  | _ => none

namespace ToolHook

/-- The type of the events of a hook. -/
def eventType : ToolHook → EventType
  | .usingLlmTool => .toolCall
  | .llmToolRespond => .toolResult

/-- The source hook that identifies the events of a hook. -/
def sourceHook : ToolHook → SourceHook
  | .usingLlmTool => .onUsingLlmTool
  | .llmToolRespond => .onLlmToolRespond

/-- Where a callback of a hook waits. -/
def point (ordinal : Nat) (metadata : String) : ToolHook → HookPoint
  | .usingLlmTool => .toolCall ordinal metadata
  | .llmToolRespond => .toolResult ordinal metadata

/-- The counter of a hook. -/
def counter (request : RequestState) : ToolHook → Nat
  | .usingLlmTool => request.nextToolCallOrdinal
  | .llmToolRespond => request.nextToolResultOrdinal

/-- A callback that waits at the point of a hook serves it. -/
@[simp] theorem toolHook_point (ordinal : Nat) (metadata : String) (hook : ToolHook) :
    (hook.point ordinal metadata).toolHook = some hook := by
  cases hook <;> rfl

end ToolHook

/-- What happens to the tool callbacks of a request. -/
inductive ToolMoment
  /-- A callback starts, with the metadata that it takes to the repository, if it goes there. -/
  | started (hook : ToolHook) (metadata : Option String)
  /-- A callback returns. -/
  | returned (hook : ToolHook)

/-- The number of callbacks of a hook that have started. -/
def startedCount (hook : ToolHook) : List ToolMoment → Nat
  | [] => 0
  | .started other _ :: earlier => startedCount hook earlier + if other = hook then 1 else 0
  | .returned _ :: earlier => startedCount hook earlier

/-- The number of callbacks of a hook that have returned. -/
def returnedCount (hook : ToolHook) : List ToolMoment → Nat
  | [] => 0
  | .started _ _ :: earlier => returnedCount hook earlier
  | .returned other :: earlier => returnedCount hook earlier + if other = hook then 1 else 0

/-- The metadata of the callbacks of a hook that have started since one of them last returned. -/
def startedSince (hook : ToolHook) : List ToolMoment → List String
  | [] => []
  | .started other metadata :: earlier =>
      (if other = hook then metadata.toList else []) ++ startedSince hook earlier
  | .returned other :: earlier => if other = hook then [] else startedSince hook earlier

/-- Every callback of a hook goes to the repository, with metadata that no other has taken there since
a callback of the hook last returned. -/
def Distinguished (hook : ToolHook) : List ToolMoment → Prop
  | [] => True
  | .started other metadata :: earlier =>
      (other = hook → ∃ text, metadata = some text ∧ text ∉ startedSince hook earlier) ∧
        Distinguished hook earlier
  | .returned _ :: earlier => Distinguished hook earlier

/-- The callbacks of a hook that went to the repository, each with the number of those that had returned
when it started and its metadata. -/
def takenOrdinals (hook : ToolHook) : List ToolMoment → List (Nat × String)
  | [] => []
  | .started other metadata :: earlier =>
      (if other = hook then metadata.toList.map fun text => (returnedCount hook earlier, text)
        else []) ++ takenOrdinals hook earlier
  | .returned _ :: earlier => takenOrdinals hook earlier

/-- No ordinal is ahead of the callbacks that have returned. -/
theorem takenOrdinals_le {hook : ToolHook} {moments : List ToolMoment} {taken : Nat × String}
    (h : taken ∈ takenOrdinals hook moments) : taken.1 ≤ returnedCount hook moments := by
  induction moments with
  | nil => cases h
  | cons moment earlier ih =>
      cases moment with
      | started other metadata =>
          rcases List.mem_append.mp h with hnew | hold
          · split at hnew
            · obtain ⟨text, -, rfl⟩ := List.mem_map.mp hnew
              exact le_rfl
            · cases hnew
          · exact ih hold
      | returned other => exact Nat.le_add_right_of_le (ih h)

/-- The metadata since the last return are those of the current ordinal. -/
theorem mem_startedSince {hook : ToolHook} {moments : List ToolMoment} {text : String} :
    text ∈ startedSince hook moments ↔
      (returnedCount hook moments, text) ∈ takenOrdinals hook moments := by
  induction moments with
  | nil => simp [startedSince, takenOrdinals]
  | cons moment earlier ih =>
      cases moment with
      | started other metadata =>
          by_cases hhook : other = hook
          · simp [startedSince, takenOrdinals, returnedCount, hhook, ih]
          · simp [startedSince, takenOrdinals, returnedCount, hhook, ih]
      | returned other =>
          by_cases hhook : other = hook
          · -- the counter has moved past every ordinal that was taken
            have hpast : (returnedCount hook earlier + 1, text) ∉ takenOrdinals hook earlier :=
              fun htaken => absurd (takenOrdinals_le htaken) (by simp)
            simpa [startedSince, takenOrdinals, returnedCount, hhook] using hpast
          · simpa [startedSince, takenOrdinals, returnedCount, hhook] using ih

/-- A callback starts at most once with an ordinal of its own. -/
theorem length_takenOrdinals_le (hook : ToolHook) (moments : List ToolMoment) :
    (takenOrdinals hook moments).length ≤ startedCount hook moments := by
  induction moments with
  | nil => exact le_rfl
  | cons moment earlier ih =>
      cases moment with
      | started other metadata =>
          by_cases hhook : other = hook
          · cases metadata <;> simp [takenOrdinals, startedCount, hhook] <;> omega
          · simpa [takenOrdinals, startedCount, hhook] using ih
      | returned other => exact ih

/-- The callbacks of a hook are distinguished when each has an ordinal and metadata of its own. -/
theorem distinguished_iff (hook : ToolHook) (moments : List ToolMoment) :
    Distinguished hook moments ↔
      (takenOrdinals hook moments).Nodup ∧
        (takenOrdinals hook moments).length = startedCount hook moments := by
  induction moments with
  | nil => simp [Distinguished, takenOrdinals, startedCount]
  | cons moment earlier ih =>
      cases moment with
      | started other metadata =>
          by_cases hhook : other = hook
          · cases metadata with
            | none =>
                -- a callback that stays away from the repository is never made up for
                have hle := length_takenOrdinals_le hook earlier
                simp only [Distinguished, takenOrdinals, startedCount, hhook, if_true]
                simp only [reduceCtorEq, false_and, exists_false, imp_false, not_true, Option.toList,
                  List.map_nil, List.nil_append, false_iff, not_and]
                omega
            | some text =>
                simp [Distinguished, takenOrdinals, startedCount, hhook, ih, mem_startedSince]
                tauto
          · simp [Distinguished, takenOrdinals, startedCount, hhook, ih]
      | returned other => simpa [Distinguished, takenOrdinals, startedCount] using ih

/-! ## What every action keeps -/

/-- A callback that waits elsewhere goes on waiting when another stops. -/
theorem mem_eraseIdx_of_ne {α : Type} {waiting : List α} {index : Nat} {stopped other : α}
    (hstopped : waiting[index]? = some stopped) (hother : other ∈ waiting) (hne : other ≠ stopped) :
    other ∈ waiting.eraseIdx index := by
  obtain ⟨position, hposition⟩ := List.mem_iff_getElem?.mp hother
  refine List.mem_eraseIdx_iff_getElem?.mpr ⟨position, ?_, hposition⟩
  rintro rfl
  exact hne (Option.some.inj (hposition.symm.trans hstopped))

section Runs

variable [Hashlib] [SecureCodec]

/-- A stored row is the event of a callback. -/
def EventRow.IsEventOf (row : EventRow) (turn : HostTurnIdentity) (hook : ToolHook)
    (taken : Nat × String) : Prop :=
  row.sessionKeyHash = turn.sessionKey.sessionKeyHash ∧ row.eventType = hook.eventType ∧
    row.idempotencyKey = AstrContinuum.idempotencyKey turn hook.sourceHook taken.1 taken.2

/-- What every action keeps. -/
structure ToolSound (request : Nat) (moments : List ToolMoment) (state : HostState) : Prop where
  reachable : repository.Reachable state.db
  waiting : ∀ activity ∈ state.activities, activity.request < state.requests.length
  counters : ∀ hook : ToolHook,
    returnedCount hook moments = ((state.requests[request]?).map hook.counter).getD 0
  taken : ∀ hook, ∀ taken ∈ takenOrdinals hook moments, ∃ found : RequestState,
    state.requests[request]? = some found ∧
      (⟨request, hook.point taken.1 taken.2⟩ ∈ state.activities ∨
        ∃ row ∈ state.db.journalEvents, row.IsEventOf found.turn hook taken)

/-- The host starts without requests. -/
theorem toolSound_start (request : Nat) : ToolSound request [] {} where
  reachable := repository.reachable_initial
  waiting := by simp
  counters _ := rfl
  taken _ _ h := (nomatch h)

namespace ToolSound

variable {request : Nat} {moments : List ToolMoment} {state : HostState}

/-- A call of the repository, by whoever may make it. -/
theorem call (h : ToolSound request moments state) (call : Call) :
    ToolSound request moments { state with db := repository.next state.db call } where
  reachable := .next repository h.reachable call
  waiting := h.waiting
  counters := h.counters
  taken hook taken htaken := by
    obtain ⟨found, hfound, hwaits | ⟨row, hrow, hevent⟩⟩ := h.taken hook taken htaken
    · exact ⟨found, hfound, .inl hwaits⟩
    · -- an event stays in the journal
      obtain ⟨added, hadded, -⟩ := (foldl_later h.reachable [call]).2.1.journalEvents
      refine ⟨found, hfound, .inr ⟨row, ?_, hevent⟩⟩
      exact hadded ▸ List.mem_append_left _ hrow

/-- A callback starts to wait. -/
theorem await (h : ToolSound request moments state) {index : Nat}
    (hindex : index < state.requests.length) (point : HookPoint) :
    ToolSound request moments
      { state with activities := state.activities ++ [⟨index, point⟩] } where
  reachable := h.reachable
  waiting activity hactivity := by
    rcases List.mem_append.mp hactivity with hold | hnew
    · exact h.waiting activity hold
    · obtain rfl := List.mem_singleton.mp hnew
      exact hindex
  counters := h.counters
  taken hook taken htaken := by
    obtain ⟨found, hfound, hkept⟩ := h.taken hook taken htaken
    exact ⟨found, hfound, hkept.imp_left (List.mem_append_left _)⟩

/-- A callback stops whose event, if it is to have one, is stored. -/
theorem forget (h : ToolSound request moments state) {index : Nat} {activity : Activity}
    (hactivity : state.activities[index]? = some activity)
    (hkept : ∀ (hook : ToolHook) (taken : Nat × String) (found : RequestState),
      activity = ⟨request, hook.point taken.1 taken.2⟩ → state.requests[request]? = some found →
        ∃ row ∈ state.db.journalEvents, row.IsEventOf found.turn hook taken) :
    ToolSound request moments { state with activities := state.activities.eraseIdx index } where
  reachable := h.reachable
  waiting other hother := h.waiting other (List.mem_of_mem_eraseIdx hother)
  counters := h.counters
  taken hook taken htaken := by
    obtain ⟨found, hfound, hwaits | hevent⟩ := h.taken hook taken htaken
    · by_cases hsame : activity = ⟨request, hook.point taken.1 taken.2⟩
      · exact ⟨found, hfound, .inr (hkept hook taken found hsame hfound)⟩
      · exact ⟨found, hfound, .inl (mem_eraseIdx_of_ne hactivity hwaits (Ne.symm hsame))⟩
    · exact ⟨found, hfound, .inr hevent⟩

/-- A request is put back with the turn it had, and the moments tell how its counters moved. -/
theorem replace (h : ToolSound request moments state) {index : Nat} {found found' : RequestState}
    (moments' : List ToolMoment) (hfound : state.requests[index]? = some found)
    (hturn : found'.turn = found.turn)
    (htaken : ∀ hook, takenOrdinals hook moments' = takenOrdinals hook moments)
    (hcounters : ∀ hook : ToolHook, returnedCount hook moments' = returnedCount hook moments +
      if index = request then hook.counter found' - hook.counter found else 0)
    (hmonotone : ∀ hook : ToolHook, hook.counter found ≤ hook.counter found') :
    ToolSound request moments'
      { state with requests := state.requests.set index found' } where
  reachable := h.reachable
  waiting activity hactivity := by simpa using h.waiting activity hactivity
  counters hook := by
    have hlt : index < state.requests.length := (List.getElem?_eq_some_iff.mp hfound).1
    rw [hcounters, h.counters]
    by_cases hsame : index = request
    · subst hsame
      have hle := hmonotone hook
      simp only [hfound, if_true, Option.map_some, Option.getD_some, List.getElem?_set_self hlt]
      omega
    · rw [if_neg hsame, List.getElem?_set_ne hsame]
      rfl
  taken hook taken hmem := by
    have hlt : index < state.requests.length := (List.getElem?_eq_some_iff.mp hfound).1
    rw [htaken] at hmem
    obtain ⟨other, hother, hkept⟩ := h.taken hook taken hmem
    by_cases hsame : index = request
    · subst hsame
      obtain rfl := Option.some.inj (hfound.symm.trans hother)
      exact ⟨found', List.getElem?_set_self hlt, hturn ▸ hkept⟩
    · exact ⟨other, (List.getElem?_set_ne hsame).trans hother, hkept⟩

/-- A callback starts, or finds its request unprepared. -/
theorem begin (h : ToolSound request moments state) (index : Nat)
    (point : RequestState → Option HookPoint) :
    ToolSound request moments (state.begin index point) := by
  unfold HostState.begin
  cases hfound : state.requests[index]? with
  | none => exact h
  | some found =>
      simp only
      split
      · exact h.await (List.getElem?_eq_some_iff.mp hfound).1 _
      · exact h

/-- A callback that stays away from the repository leaves everything as it was. -/
theorem started_none (h : ToolSound request moments state) (hook : ToolHook) :
    ToolSound request (.started hook none :: moments) state where
  reachable := h.reachable
  waiting := h.waiting
  counters := h.counters
  taken other taken htaken := h.taken other taken (by simpa [takenOrdinals] using htaken)

end ToolSound

/-! ## The run -/

variable [UnicodeTables] [JsonReader]

namespace HostState

/-- What a callback that starts takes to the repository: nothing when its request is not prepared, and
nothing when its metadata raise. -/
def takenMetadata (state : HostState) (request : Nat) (tool : HostTool) (toolArgs : HostValue)
    (toolResult : Option HostValue) : Option String :=
  match state.requests[request]? with
  | some found =>
      if found.prepared then (canonicalToolMetadata tool toolArgs toolResult).toOption else none
  | none => none

/-- The hook of the tool callback of a request that waits at an index. -/
def toolWaiting (state : HostState) (request index : Nat) : Option ToolHook :=
  match state.activities[index]? with
  | some activity => if activity.request = request then activity.point.toolHook else none
  | none => none

/-- What an action is to the tool callbacks of a request. -/
def toolMoment (state : HostState) (request : Nat) : HostAction → Option ToolMoment
  | .usingLlmTool other tool toolArgs =>
      if other = request then
        some (.started .usingLlmTool (state.takenMetadata request tool toolArgs none))
      else none
  | .llmToolRespond other tool toolArgs toolResult =>
      if other = request then
        some (.started .llmToolRespond (state.takenMetadata request tool toolArgs (some toolResult)))
      else none
  | .resume index _ _ => (state.toolWaiting request index).map .returned
  | _ => none

/-- The call of the callback at an index commits. -/
def commits (state : HostState) (index : Nat) (canonical : CanonicalMetricObservation)
    (faults : FaultInjector) : Bool :=
  match state.activities[index]? with
  | some activity =>
      match state.requests[activity.request]? with
      | some found =>
          (AstrContinuum.step state.db
            ⟨activity.point.operation found.turn canonical, faults⟩).isOk
      | none => false
  | none => false

/-- Storage succeeds: the host drops no tool callback of a request, and the calls of all commit. -/
def storageSucceeds (state : HostState) (request : Nat) : HostAction → Bool
  | .resume index canonical faults =>
      (state.toolWaiting request index).isNone || state.commits index canonical faults
  | .abandon index => (state.toolWaiting request index).isNone
  | _ => true

end HostState

/-- A run of the host in which storage succeeds for the tool callbacks of a request, with their moments,
the latest first. -/
inductive ToolRun (request : Nat) : List ToolMoment → HostState → Prop
  | start : ToolRun request [] {}
  | step {moments : List ToolMoment} {state : HostState} (h : ToolRun request moments state)
      (action : HostAction) (hstorage : state.storageSucceeds request action = true) :
      ToolRun request ((state.toolMoment request action).toList ++ moments) (state.step action)

omit [Hashlib] [SecureCodec] in
/-- A callback counts up the ordinal of its hook when it returns, and no other. -/
theorem HookPoint.resume_counter (point : HookPoint) (request : RequestState) (response : Response)
    (hook : ToolHook) :
    hook.counter (point.resume request response).1 =
      hook.counter request + if point.toolHook = some hook then 1 else 0 := by
  cases point with
  | toolCall ordinal metadata | toolResult ordinal metadata => cases hook <;> rfl
  | prepareRead input =>
      simp only [HookPoint.resume]
      split <;> rfl
  | finalizeRead content =>
      simp only [HookPoint.resume]
      split <;> rfl
  | finalizeCapture content =>
      cases response <;> cases hook <;> rfl
  | intentRead =>
      simp only [HookPoint.resume]
      split
      · split <;> rfl
      · rfl
  | prepareCapture input | prepareView | intentRaise target => cases hook <;> rfl

omit [Hashlib] [SecureCodec] [UnicodeTables] [JsonReader] in
/-- The hook of the tool callback that waits at an index. -/
theorem HostState.toolWaiting_eq {state : HostState} {request index : Nat} {activity : Activity}
    (h : state.activities[index]? = some activity) :
    state.toolWaiting request index =
      if activity.request = request then activity.point.toolHook else none := by
  simp [HostState.toolWaiting, h]

namespace ToolSound

variable {request : Nat} {moments : List ToolMoment} {state : HostState}

omit [UnicodeTables] in
/-- A tool callback starts. -/
theorem started (h : ToolSound request moments state) (hook : ToolHook) (tool : HostTool)
    (toolArgs : HostValue) (toolResult : Option HostValue) :
    ToolSound request
      (.started hook (state.takenMetadata request tool toolArgs toolResult) :: moments)
      (state.begin request fun found =>
        HostState.toolPoint tool toolArgs toolResult fun metadata =>
          hook.point (hook.counter found) metadata) := by
  unfold HostState.begin HostState.takenMetadata HostState.toolPoint
  cases hfound : state.requests[request]? with
  | none => exact h.started_none hook
  | some found =>
      cases hprepared : found.prepared with
      | false => simpa [hprepared] using h.started_none hook
      | true =>
          simp only [hprepared, if_true]
          cases hmetadata : canonicalToolMetadata tool toolArgs toolResult with
          | error failure => exact h.started_none hook
          | ok metadata =>
              have hlt := (List.getElem?_eq_some_iff.mp hfound).1
              have hawait := h.await hlt (hook.point (hook.counter found) metadata)
              refine ⟨hawait.reachable, hawait.waiting, hawait.counters, fun other taken htaken => ?_⟩
              rcases List.mem_append.mp htaken with hnew | hold
              · -- the ordinal is the counter, which is the number of callbacks that returned
                have hcounter := h.counters hook
                rw [hfound, Option.map_some, Option.getD_some] at hcounter
                split at hnew
                · next hsame =>
                    subst hsame
                    obtain rfl : taken = (returnedCount hook moments, metadata) :=
                      List.mem_singleton.mp hnew
                    exact ⟨found, hfound, .inl (by simp [hcounter])⟩
                · cases hnew
              · exact hawait.taken other taken hold

/-- A callback goes on. -/
theorem resume (h : ToolSound request moments state) {index : Nat} {activity : Activity}
    (hactivity : state.activities[index]? = some activity)
    (canonical : CanonicalMetricObservation) (faults : FaultInjector)
    (hstorage : state.storageSucceeds request (.resume index canonical faults) = true) :
    ToolSound request (((state.toolWaiting request index).map .returned).toList ++ moments)
      (state.resume activity index canonical faults) := by
  have hwaits := h.waiting activity (List.mem_of_getElem? hactivity)
  have htool : state.toolWaiting request index =
      if activity.request = request then activity.point.toolHook else none :=
    HostState.toolWaiting_eq hactivity
  obtain ⟨found, hfound⟩ : ∃ found, state.requests[activity.request]? = some found :=
    ⟨_, List.getElem?_eq_getElem hwaits⟩
  unfold HostState.resume
  simp only [hfound]
  cases hstep : AstrContinuum.step state.db
      ⟨activity.point.operation found.turn canonical, faults⟩ with
  | error failure =>
      have hnone : state.toolWaiting request index = none := by
        simpa [HostState.storageSucceeds, HostState.commits, hactivity, hfound, hstep,
          Except.isOk, Except.toBool] using hstorage
      rw [hnone]
      refine h.forget hactivity fun hook taken found hsame _ => ?_
      rw [htool, hsame] at hnone
      simp at hnone
  | ok result =>
      obtain ⟨db, response⟩ := result
      obtain ⟨hturn, -, -⟩ := activity.point.resume_cases found response
      have hnext : repository.next state.db
          ⟨activity.point.operation found.turn canonical, faults⟩ = db :=
        repository.next_of_ok hstep
      have hcall := h.call ⟨activity.point.operation found.turn canonical, faults⟩
      rw [hnext] at hcall
      -- a tool callback that goes on has its event
      have hforgot := hcall.forget hactivity fun hook taken other hsame hother => by
        obtain rfl : found = other := by
          rw [hsame] at hfound
          exact Option.some.inj (hfound.symm.trans hother)
        have hcapture : (⟨activity.point.operation found.turn canonical, faults⟩ :
            Call).operation.captureOf = some (hook.eventType,
              captureRequest found.turn hook.sourceHook taken.1 taken.2 taken.2 canonical) := by
          rw [hsame]
          cases hook <;> rfl
        obtain ⟨event, -, hcommitted⟩ := step_capture hcapture hstep
        obtain ⟨hreturned, -⟩ := captureEvent_returned hcommitted
        refine ⟨event.row, hreturned.stored, ?_, ?_, ?_⟩
        · exact congrArg SessionKey.sessionKeyHash hreturned.session
        · exact congrArg EventRow.eventType hreturned.row
        · exact congrArg EventRow.idempotencyKey hreturned.row
      have hreplaced := hforgot.replace
        (((state.toolWaiting request index).map .returned).toList ++ moments) hfound hturn ?_ ?_ ?_
      · cases hpoint : (activity.point.resume found response).2 with
        | none => simpa [hpoint] using hreplaced
        | some next => simpa [hpoint] using hreplaced.await (by simpa using hwaits) next
      · intro hook
        cases state.toolWaiting request index <;> rfl
      · intro hook
        rw [HookPoint.resume_counter, htool]
        by_cases hsame : activity.request = request
        · cases hkind : activity.point.toolHook with
          | none => simp [hsame]
          | some other => simp [hsame, returnedCount]
        · simp [hsame]
      · intro hook
        rw [HookPoint.resume_counter]
        exact Nat.le_add_right _ _

/-- One action. -/
theorem step (h : ToolSound request moments state) (action : HostAction)
    (hstorage : state.storageSucceeds request action = true) :
    ToolSound request ((state.toolMoment request action).toList ++ moments) (state.step action) := by
  cases action with
  | llmRequest turn input =>
      have hadded : ToolSound request moments
          { state with requests := state.requests ++ [{ turn := turn }] } := by
        refine ⟨h.reachable, fun activity hactivity => ?_, fun hook => ?_, fun hook taken htaken => ?_⟩
        · have hwaits := h.waiting activity hactivity
          rw [List.length_append]
          omega
        · -- a new request has counted nothing
          rw [h.counters hook, List.getElem?_append]
          split
          · rfl
          · next hge =>
              rw [List.getElem?_eq_none (by omega)]
              cases hnew : [({ turn := turn } : RequestState)][request - state.requests.length]? with
              | none => rfl
              | some found =>
                  obtain rfl := List.mem_singleton.mp (List.mem_of_getElem? hnew)
                  cases hook <;> rfl
        · obtain ⟨found, hfound, hkept⟩ := h.taken hook taken htaken
          have hlt := (List.getElem?_eq_some_iff.mp hfound).1
          exact ⟨found, (List.getElem?_append_left hlt).trans hfound, hkept⟩
      exact hadded.await (by simp) _
  | agentBegin index shouldCompact =>
      simp only [HostState.step]
      cases hfound : state.requests[index]? with
      | none =>
          rw [List.modify_eq_self (by simpa using hfound)]
          exact h
      | some found =>
          have hset : state.requests.modify index (fun found =>
              { found with shouldCompact := shouldCompact }) =
              state.requests.set index { found with shouldCompact := shouldCompact } := by
            rw [List.modify_eq_set_getElem?, hfound]
            rfl
          have hsame : ∀ hook : ToolHook,
              hook.counter { found with shouldCompact := shouldCompact } = hook.counter found := by
            intro hook
            cases hook <;> rfl
          rw [hset]
          exact h.replace moments hfound rfl (fun _ => rfl) (fun hook => by simp [hsame])
            fun hook => (hsame hook).ge
  | usingLlmTool index tool toolArgs =>
      simp only [HostState.toolMoment]
      by_cases hsame : index = request
      · subst hsame
        rw [if_pos rfl]
        exact h.started .usingLlmTool tool toolArgs none
      · rw [if_neg hsame]
        exact h.begin index _
  | llmToolRespond index tool toolArgs toolResult =>
      simp only [HostState.toolMoment]
      by_cases hsame : index = request
      · subst hsame
        rw [if_pos rfl]
        exact h.started .llmToolRespond tool toolArgs (some toolResult)
      · rw [if_neg hsame]
        exact h.begin index _
  | agentDone index content => exact h.begin index _
  | resume index canonical faults =>
      simp only [HostState.step, HostState.toolMoment]
      cases hactivity : state.activities[index]? with
      | none => simpa [HostState.toolWaiting, hactivity] using h
      | some activity => exact h.resume hactivity canonical faults hstorage
  | abandon index =>
      simp only [HostState.step, HostState.toolMoment]
      cases hactivity : state.activities[index]? with
      | none =>
          rw [List.eraseIdx_of_length_le (List.getElem?_eq_none_iff.mp hactivity)]
          exact h
      | some activity =>
          refine h.forget hactivity fun hook taken found hsame _ => ?_
          -- the host does not drop a tool callback of the request
          have hnone : state.toolWaiting request index = none := by
            simpa [HostState.storageSucceeds] using hstorage
          rw [HostState.toolWaiting_eq hactivity, hsame] at hnone
          simp at hnone
  | other call => exact h.call call

end ToolSound

/-- Every run keeps the invariant. -/
theorem ToolRun.sound {request : Nat} {moments : List ToolMoment} {state : HostState}
    (h : ToolRun request moments state) : ToolSound request moments state := by
  induction h with
  | start => exact toolSound_start request
  | step h action hstorage ih => exact ih.step action hstorage

/-! ## The events of the callbacks -/

/-- The text that `idempotencyKey` hashes. -/
def idempotencyPayload (turn : HostTurnIdentity) (sourceHook : SourceHook) (ordinal : Nat)
    (canonicalMetadata : String) : String :=
  writeMembers
    [("canonical_metadata", jsonString canonicalMetadata),
      ("host_message_id", jsonString turn.hostMessageId), ("ordinal", toString ordinal),
      ("source_hook", jsonString sourceHook.value)]

omit [Hashlib] [SecureCodec] [UnicodeTables] [JsonReader] in
/-- The hashed text determines the ordinal and the metadata. -/
theorem idempotencyPayload_inj {turn : HostTurnIdentity} {sourceHook : SourceHook}
    {ordinal ordinal' : Nat} {metadata metadata' : String}
    (h : idempotencyPayload turn sourceHook ordinal metadata =
      idempotencyPayload turn sourceHook ordinal' metadata') :
    ordinal = ordinal' ∧ metadata = metadata' := by
  -- the metadata stands first and is read up to its closing quote, the ordinal is what then differs
  have hwritten : ∀ (ordinal : Nat) (metadata : String),
      (idempotencyPayload turn sourceHook ordinal metadata).toList =
        ("\x7b" ++ jsonString "canonical_metadata" ++ ":").toList ++
          ((jsonString metadata).toList ++
            (("," ++ (jsonString "host_message_id" ++ ":" ++ jsonString turn.hostMessageId) ++ "," ++
                jsonString "ordinal" ++ ":").toList ++
              ((toString ordinal).toList ++
                ("," ++ (jsonString "source_hook" ++ ":" ++ jsonString sourceHook.value) ++
                  "\x7d").toList))) := by
    intro ordinal metadata
    unfold idempotencyPayload writeMembers
    rw [List.Pairwise.insertionSort_eq]
    · simp [String.intercalate_cons_cons, String.intercalate_singleton]
    · simp
  rw [← String.toList_inj, hwritten, hwritten, List.append_cancel_left_eq] at h
  obtain ⟨hmetadata, hrest⟩ := jsonString_append_inj h
  rw [List.append_cancel_left_eq, List.append_cancel_right_eq] at hrest
  exact ⟨toString_nat_injective (String.toList_injective hrest), hmetadata⟩

/-- No two texts that the callbacks of a hook hash have one digest. -/
def NoCollision (turn : HostTurnIdentity) (hook : ToolHook) (moments : List ToolMoment) : Prop :=
  let payload (taken : Nat × String) :=
    idempotencyPayload turn hook.sourceHook taken.1 taken.2
  ∀ first ∈ takenOrdinals hook moments, ∀ second ∈ takenOrdinals hook moments,
    Hashlib.sha256Hexdigest (payload first) = Hashlib.sha256Hexdigest (payload second) →
      payload first = payload second

/-- The events of the journal that are the event of a callback of a hook. -/
def callbackEvents (db : Database) (turn : HostTurnIdentity) (hook : ToolHook)
    (moments : List ToolMoment) : List EventRow :=
  db.journalEvents.filter fun row => decide
    (row.sessionKeyHash = turn.sessionKey.sessionKeyHash ∧ row.eventType = hook.eventType ∧
      row.idempotencyKey ∈ (takenOrdinals hook moments).map fun taken =>
        idempotencyKey turn hook.sourceHook taken.1 taken.2)

omit [SecureCodec] [UnicodeTables] [JsonReader] in
/-- A row is among the events of the callbacks when it is the event of one. -/
theorem mem_callbackEvents {db : Database} {turn : HostTurnIdentity} {hook : ToolHook}
    {moments : List ToolMoment} {row : EventRow} :
    row ∈ callbackEvents db turn hook moments ↔
      row ∈ db.journalEvents ∧ ∃ taken ∈ takenOrdinals hook moments, row.IsEventOf turn hook taken := by
  simp only [callbackEvents, List.mem_filter, decide_eq_true_eq, List.mem_map, EventRow.IsEventOf]
  grind

/-- No tool callback of a request waits. -/
def HostState.toolsDone (state : HostState) (request : Nat) : Prop :=
  ∀ activity ∈ state.activities, activity.request = request → activity.point.toolHook = none

namespace ToolSound

variable {request : Nat} {moments : List ToolMoment} {state : HostState} {found : RequestState}

omit [UnicodeTables] [JsonReader] in
/-- The events of the callbacks are as many as their identities. -/
theorem length_callbackEvents (h : ToolSound request moments state)
    (hfound : state.requests[request]? = some found) (hdone : state.toolsDone request)
    (hook : ToolHook) :
    (callbackEvents state.db found.turn hook moments).length =
      ((takenOrdinals hook moments).map fun taken =>
        idempotencyKey found.turn hook.sourceHook taken.1 taken.2).dedup.length := by
  have htable := state.db.consistent.journalEvents
  have hnodup : ((callbackEvents state.db found.turn hook moments).map
      EventRow.idempotencyKey).Nodup := by
    refine List.Nodup.map_on (fun first hfirst second hsecond hkey => ?_)
      (List.Nodup.filter _ (List.Nodup.of_map _ htable.primaryKey))
    obtain ⟨hmem, _, _, hhash, htype, -⟩ := mem_callbackEvents.mp hfirst
    obtain ⟨hmem', _, _, hhash', htype', -⟩ := mem_callbackEvents.mp hsecond
    -- the type of an event determines its source hook
    have hsource : first.sourceHook = second.sourceHook := by
      have hmapping := (htable.check first hmem).2.2.2
      have hmapping' := (htable.check second hmem').2.2.2
      rw [htype] at hmapping
      rw [htype', ← hmapping] at hmapping'
      exact (congrArg Prod.snd hmapping').symm
    exact htable.idempotency.eq_of_key hmem hmem'
      (by rw [hhash, hhash', hsource, hkey])
  have hperm := (List.perm_ext_iff_of_nodup hnodup (List.nodup_dedup
    ((takenOrdinals hook moments).map fun taken =>
      idempotencyKey found.turn hook.sourceHook taken.1 taken.2))).mpr fun key => by
    simp only [List.mem_map, List.mem_dedup]
    constructor
    · rintro ⟨row, hrow, rfl⟩
      obtain ⟨-, taken, htaken, -, -, hkey⟩ := mem_callbackEvents.mp hrow
      exact ⟨taken, htaken, hkey.symm⟩
    · rintro ⟨taken, htaken, rfl⟩
      obtain ⟨other, hother, hwaits | ⟨row, hrow, hevent⟩⟩ := h.taken hook taken htaken
      · -- no callback waits any more
        have hnone := hdone _ hwaits rfl
        rw [ToolHook.toolHook_point] at hnone
        cases hnone
      · obtain rfl := Option.some.inj (hfound.symm.trans hother)
        exact ⟨row, mem_callbackEvents.mpr ⟨hrow, taken, htaken, hevent⟩, hevent.2.2⟩
  rw [← hperm.length_eq, List.length_map]

omit [UnicodeTables] [JsonReader] in
/-- The callbacks of a hook have as many events as have started if and only if they are
distinguished. -/
theorem journaled_iff (h : ToolSound request moments state)
    (hfound : state.requests[request]? = some found) (hdone : state.toolsDone request)
    {hook : ToolHook} (hhash : NoCollision found.turn hook moments) :
    (callbackEvents state.db found.turn hook moments).length = startedCount hook moments ↔
      Distinguished hook moments := by
  have hidentities := h.length_callbackEvents hfound hdone hook
  have hle := length_takenOrdinals_le hook moments
  rw [distinguished_iff, hidentities]
  generalize hkeys : ((takenOrdinals hook moments).map fun taken =>
    idempotencyKey found.turn hook.sourceHook taken.1 taken.2) = keys
  have hnodup : keys.Nodup ↔ (takenOrdinals hook moments).Nodup := by
    rw [← hkeys]
    refine ⟨List.Nodup.of_map _, List.Nodup.map_on fun first hfirst second hsecond hkey => ?_⟩
    -- one key for two callbacks is one digest, and without a collision one text
    have hdigest : Hashlib.sha256Hexdigest
          (idempotencyPayload found.turn hook.sourceHook first.1 first.2) =
        Hashlib.sha256Hexdigest
          (idempotencyPayload found.turn hook.sourceHook second.1 second.2) := by
      have hlists := congrArg String.toList hkey
      rw [idempotencyKey, idempotencyKey, String.toList_append, String.toList_append,
        List.append_cancel_left_eq] at hlists
      exact String.toList_injective hlists
    obtain ⟨hordinal, hmetadata⟩ :=
      idempotencyPayload_inj (hhash first hfirst second hsecond hdigest)
    exact Prod.ext hordinal hmetadata
  have hsize : keys.length = (takenOrdinals hook moments).length := by
    rw [← hkeys, List.length_map]
  constructor
  · intro hcount
    have hsublist := List.dedup_sublist keys
    have hdedup := hsublist.length_le
    have hsame : keys.dedup = keys := hsublist.eq_of_length (by omega)
    exact ⟨hnodup.mp (List.dedup_eq_self.mp hsame), by omega⟩
  · rintro ⟨htaken, hcount⟩
    rw [List.dedup_eq_self.mpr (hnodup.mpr htaken), hsize, hcount]

end ToolSound

/-- In any interleaving of the host in which storage succeeds for the tool callbacks of a request, `n`
calls and `n` results that have all returned are `n` events and `n` events in the journal if and only if
the callbacks of each hook are distinguished. -/
theorem tool_events_journaled_iff {request n : Nat} {moments : List ToolMoment} {state : HostState}
    {found : RequestState} (h : ToolRun request moments state)
    (hfound : state.requests[request]? = some found) (hdone : state.toolsDone request)
    (hcalls : startedCount .usingLlmTool moments = n)
    (hresults : startedCount .llmToolRespond moments = n)
    (hhash : ∀ hook, NoCollision found.turn hook moments) :
    ((callbackEvents state.db found.turn .usingLlmTool moments).length = n ∧
        (callbackEvents state.db found.turn .llmToolRespond moments).length = n) ↔
      Distinguished .usingLlmTool moments ∧ Distinguished .llmToolRespond moments := by
  have hcalled := h.sound.journaled_iff hfound hdone (hhash .usingLlmTool)
  have hresponded := h.sound.journaled_iff hfound hdone (hhash .llmToolRespond)
  rw [hcalls] at hcalled
  rw [hresults] at hresponded
  exact and_congr hcalled hresponded

/-- One action of a run, if storage succeeds. -/
def HostState.follow (request : Nat) (before : List ToolMoment × HostState) (action : HostAction) :
    Option (List ToolMoment × HostState) :=
  if before.2.storageSucceeds request action then
    some ((before.2.toolMoment request action).toList ++ before.1, before.2.step action)
  else none

/-- Actions that can be followed are a run. -/
theorem ToolRun.follow {request : Nat} {actions : List HostAction}
    {before after : List ToolMoment × HostState} (h : ToolRun request before.1 before.2)
    (hfollow : actions.foldlM (HostState.follow request) before = some after) :
    ToolRun request after.1 after.2 := by
  induction actions generalizing before with
  | nil =>
      obtain rfl := Option.some.inj hfollow
      exact h
  | cons action rest ih =>
      obtain ⟨next, hnext, hrest⟩ := Option.bind_eq_some_iff.mp hfollow
      unfold HostState.follow at hnext
      split at hnext
      · next hstorage =>
          obtain rfl := Option.some.inj hnext
          exact ih (h.step action hstorage) hrest
      · cases hnext

end Runs

namespace ToolSample

open HookSample (turn goOn call respond callMetadata resultMetadata identityDigests)

/-- The texts that identify the events of the samples, with their SHA-256 digests. -/
def digests : List (String × String) :=
  HookSample.digests ++
    identityDigests "ON_USING_LLM_TOOL" (jsonString callMetadata) "1"
      "8e2bbea103a99edd0d4d6056c29f107951e9c450ae76d15dcd0a8aaaf71bff31"
      "dbd0e4f1741cf255f70c9c678d3a21d3e0647e6b74ce7f7604862ace91d74623" ++
    identityDigests "ON_LLM_TOOL_RESPOND" (jsonString resultMetadata) "1"
      "05cf4ae5a607b8241c5e8ee991fabe86ee20fab927e20ac043a22b18c5a04f57"
      "48fb9fe740e4551abca6e359cb4148e2aba45ffd1d5483bc9817d21f775380c8"

/-- The digests of the texts that the samples hash: those above and the session key. -/
scoped instance : Hashlib := ⟨fun text => (digests.lookup text).getD Sample.sessionHash⟩

/-- The samples stay within the limits of the codec. -/
scoped instance : SecureCodec := ⟨fun _ _ recordKey _ => decide (recordKey.utf8ByteSize ≤ 4096)⟩

/-- No text of the samples depends on the Unicode tables. -/
scoped instance : UnicodeTables := ⟨fun text => text, fun c => c.isAlphanum⟩

/-- The samples read no tool event back. -/
scoped instance : JsonReader := ⟨fun _ => none, fun _ => none⟩

/-- A prepared request calls a tool twice, one call after the other. -/
def inTurn : List HostAction :=
  [.llmRequest turn "hello", goOn, goOn, goOn, call, goOn, respond, goOn, call, goOn, respond, goOn]

/-- A prepared request calls a tool twice at once. -/
def atOnce : List HostAction :=
  [.llmRequest turn "hello", goOn, goOn, goOn, call, call, goOn, goOn, respond, respond, goOn, goOn]

/-- A run has ended with so many callbacks of each hook. -/
def Ended (callbacks : Nat) (after : List ToolMoment × HostState) : Prop :=
  after.2.toolsDone 0 ∧ ∀ hook, startedCount hook after.1 = callbacks

/-- What decides whether a run has ended. -/
theorem ended_of_all {callbacks : Nat} {after : List ToolMoment × HostState}
    (h : (after.2.activities.all (fun activity => activity.point.toolHook.isNone) &&
      decide (startedCount .usingLlmTool after.1 = callbacks ∧
        startedCount .llmToolRespond after.1 = callbacks)) = true) : Ended callbacks after := by
  obtain ⟨hwaiting, hcounts⟩ := (Bool.and_eq_true _ _).mp h
  obtain ⟨hcalls, hresults⟩ := of_decide_eq_true hcounts
  refine ⟨fun activity hactivity _ => ?_, fun hook => ?_⟩
  · simpa using List.all_eq_true.mp hwaiting activity hactivity
  · cases hook with
    | usingLlmTool => exact hcalls
    | llmToolRespond => exact hresults

/-- The ordinals and the metadata of the calls in turn, and of their results. -/
def taken : ToolHook → List (Nat × String)
  | .usingLlmTool => [(1, callMetadata), (0, callMetadata)]
  | .llmToolRespond => [(1, resultMetadata), (0, resultMetadata)]

/-- They are two. -/
theorem length_taken (hook : ToolHook) : (taken hook).length = 2 := by
  cases hook <;> rfl

/-- They differ. -/
theorem taken_nodup (hook : ToolHook) : (taken hook).Nodup := by
  cases hook <;> simp [taken]

/-- So do the digests of the texts that are hashed for them. -/
theorem taken_noCollision (hook : ToolHook) : ∀ first ∈ taken hook, ∀ second ∈ taken hook,
    Hashlib.sha256Hexdigest (idempotencyPayload turn hook.sourceHook first.1 first.2) =
        Hashlib.sha256Hexdigest (idempotencyPayload turn hook.sourceHook second.1 second.2) →
      idempotencyPayload turn hook.sourceHook first.1 first.2 =
        idempotencyPayload turn hook.sourceHook second.1 second.2 := by
  cases hook <;> decide +kernel

end ToolSample

open ToolSample in
/-- Two calls and their results, one after the other, have an event each. -/
theorem tool_events_journaled_iff_sample :
    ∃ (moments : List ToolMoment) (state : HostState) (found : RequestState),
      ToolRun 0 moments state ∧ state.requests[0]? = some found ∧
        (callbackEvents state.db found.turn .usingLlmTool moments).length = 2 ∧
        (callbackEvents state.db found.turn .llmToolRespond moments).length = 2 := by
  have hrun : (inTurn.foldlM (HostState.follow 0) ([], {})).any (fun after =>
      (after.2.requests[0]?).any (fun found => decide (found.turn = HookSample.turn)) &&
        decide (takenOrdinals .usingLlmTool after.1 = taken .usingLlmTool ∧
          takenOrdinals .llmToolRespond after.1 = taken .llmToolRespond) &&
        (after.2.activities.all (fun activity => activity.point.toolHook.isNone) &&
          decide (startedCount .usingLlmTool after.1 = 2 ∧
            startedCount .llmToolRespond after.1 = 2))) = true := by
    decide +kernel
  obtain ⟨after, hafter, hchecked⟩ := (Option.any_eq_true _ _).mp hrun
  obtain ⟨hchecked, hended⟩ := (Bool.and_eq_true _ _).mp hchecked
  obtain ⟨hfound, htaken⟩ := (Bool.and_eq_true _ _).mp hchecked
  obtain ⟨found, hfound, hturn⟩ := (Option.any_eq_true _ _).mp hfound
  obtain ⟨hdone, hcounts⟩ := ended_of_all hended
  have hordinals : ∀ hook, takenOrdinals hook after.1 = taken hook := fun hook => by
    cases hook with
    | usingLlmTool => exact (of_decide_eq_true htaken).1
    | llmToolRespond => exact (of_decide_eq_true htaken).2
  have hdistinguished : ∀ hook, Distinguished hook after.1 := fun hook => by
    rw [distinguished_iff, hordinals, hcounts]
    exact ⟨taken_nodup hook, length_taken hook⟩
  have h : ToolRun 0 after.1 after.2 := ToolRun.follow .start hafter
  refine ⟨after.1, after.2, found, h, hfound, (tool_events_journaled_iff h hfound hdone
    (hcounts _) (hcounts _) fun hook => ?_).mpr ⟨hdistinguished _, hdistinguished _⟩⟩
  unfold NoCollision
  rw [hordinals, of_decide_eq_true hturn]
  exact taken_noCollision hook

open ToolSample in
/-- Two calls at once, and two results at once, have one event each. -/
theorem overlapping_calls_lost :
    ∃ (moments : List ToolMoment) (state : HostState) (found : RequestState),
      atOnce.foldlM (HostState.follow 0) ([], {}) = some (moments, state) ∧
        ToolRun 0 moments state ∧ Ended 2 (moments, state) ∧ state.requests[0]? = some found ∧
          ∀ hook, (callbackEvents state.db found.turn hook moments).length = 1 := by
  have hrun : (atOnce.foldlM (HostState.follow 0) ([], {})).any (fun after =>
      (after.2.requests[0]?).any (fun found =>
        decide ((callbackEvents after.2.db found.turn .usingLlmTool after.1).length = 1 ∧
          (callbackEvents after.2.db found.turn .llmToolRespond after.1).length = 1)) &&
        (after.2.activities.all (fun activity => activity.point.toolHook.isNone) &&
          decide (startedCount .usingLlmTool after.1 = 2 ∧
            startedCount .llmToolRespond after.1 = 2))) = true := by
    decide +kernel
  obtain ⟨after, hafter, hchecked⟩ := (Option.any_eq_true _ _).mp hrun
  obtain ⟨hevents, hended⟩ := (Bool.and_eq_true _ _).mp hchecked
  obtain ⟨found, hfound, hevents⟩ := (Option.any_eq_true _ _).mp hevents
  obtain ⟨hcalls, hresults⟩ := of_decide_eq_true hevents
  refine ⟨after.1, after.2, found, hafter, ToolRun.follow .start hafter, ended_of_all hended, hfound,
    fun hook => ?_⟩
  cases hook with
  | usingLlmTool => exact hcalls
  | llmToolRespond => exact hresults

end AstrContinuum
