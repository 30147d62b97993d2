import Mathlib.Logic.Relation

/-!
# Transactional systems

A system serves calls one at a time. A call either commits, which moves the state and returns a
response, or raises, which leaves the state as it was. Any interleaving of any number of clients is
a sequence of calls, and a `Run` records the calls with their results. `Run.invariant` is the
induction rule over runs.
-/

namespace Transactional

/-- A system: its initial state and what a call commits or raises. -/
structure System (State Call Response Failure : Type) where
  initial : State
  step : State → Call → Except Failure (State × Response)

/-- One call of a run with its result. -/
structure Entry (Call Response Failure : Type) where
  call : Call
  result : Except Failure Response

namespace System

variable {State Call Response Failure : Type} (system : System State Call Response Failure)

/-- The state after a call: the committed state, or the old one when the call raises. -/
def next (state : State) (call : Call) : State :=
  match system.step state call with
  | .ok (state', _) => state'
  | .error _ => state

/-- The history entry of a call. -/
def entry (state : State) (call : Call) : Entry Call Response Failure :=
  ⟨call, (system.step state call).map Prod.snd⟩

/-- A history, latest call first, and the state it leads to. -/
inductive Run : List (Entry Call Response Failure) → State → Prop
  | start : Run [] system.initial
  | call {history state} (c : Call) (h : Run history state) :
      Run (system.entry state c :: history) (system.next state c)

/-- A state that some run leads to. -/
def Reachable (state : State) : Prop :=
  ∃ history, system.Run history state

/-- The history and the state after a sequence of calls. -/
def trace (calls : List Call) : List (Entry Call Response Failure) × State :=
  calls.foldl (fun run c => (system.entry run.2 c :: run.1, system.next run.2 c))
    ([], system.initial)

/-- The state after a sequence of calls. -/
def execute (calls : List Call) : State :=
  (system.trace calls).2

/-- A committed call moves to the committed state. -/
theorem next_of_ok {state state' : State} {call : Call} {response : Response}
    (h : system.step state call = .ok (state', response)) : system.next state call = state' := by
  simp [next, h]

/-- A call that raises leaves the state unchanged. -/
theorem next_of_error {state : State} {call : Call} {failure : Failure}
    (h : system.step state call = .error failure) : system.next state call = state := by
  simp [next, h]

/-- A call commits, or leaves the state unchanged. -/
theorem next_cases (state : State) (call : Call) :
    (∃ state' response, system.step state call = .ok (state', response) ∧
        system.next state call = state' ∧ (system.entry state call).result = .ok response) ∨
      (∃ failure, system.step state call = .error failure ∧ system.next state call = state ∧
        (system.entry state call).result = .error failure) := by
  cases h : system.step state call with
  | ok result =>
      exact .inl ⟨result.1, result.2, rfl, system.next_of_ok h, by simp [entry, h, Except.map]⟩
  | error failure =>
      exact .inr ⟨failure, rfl, system.next_of_error h, by simp [entry, h, Except.map]⟩

/-- A property of the history and the state holds along every run when it holds at the start and
every call preserves it. -/
theorem Run.invariant {P : List (Entry Call Response Failure) → State → Prop}
    (hstart : P [] system.initial)
    (hcall : ∀ history state c, system.Run history state → P history state →
      P (system.entry state c :: history) (system.next state c))
    {history : List (Entry Call Response Failure)} {state : State}
    (h : system.Run history state) : P history state := by
  induction h with
  | start => exact hstart
  | call c h ih => exact hcall _ _ c h ih

/-- A property of the state holds in every reachable state when it holds at the start and every
committed call preserves it. -/
theorem reachable_invariant {P : State → Prop} (hstart : P system.initial)
    (hstep : ∀ state call state' response, P state →
      system.step state call = .ok (state', response) → P state')
    {state : State} (h : system.Reachable state) : P state := by
  obtain ⟨history, hrun⟩ := h
  refine Run.invariant system (P := fun _ s => P s) hstart ?_ hrun
  intro history state c _ ih
  rcases system.next_cases state c with ⟨state', response, hok, hnext, -⟩ | ⟨-, -, hnext, -⟩
  · rw [hnext]
    exact hstep state c state' response ih hok
  · rw [hnext]
    exact ih

/-- The initial state is reachable. -/
theorem reachable_initial : system.Reachable system.initial :=
  ⟨[], .start⟩

/-- Every call leads from a reachable state to a reachable state. -/
theorem Reachable.next {state : State} (h : system.Reachable state) (call : Call) :
    system.Reachable (system.next state call) := by
  obtain ⟨history, hrun⟩ := h
  exact ⟨_, hrun.call call⟩

/-- Any number of further calls leads to a reachable state, related to the first one by whatever
every committed call keeps. -/
theorem Reachable.foldl {R : State → State → Prop} {P : Call → Prop} (hrefl : ∀ state, R state state)
    (htrans : ∀ a b c, R a b → R b c → R a c)
    (hstep : ∀ state call state' response, system.Reachable state → P call →
      system.step state call = .ok (state', response) → R state state')
    {state : State} (h : system.Reachable state) {calls : List Call} (hcalls : ∀ c ∈ calls, P c) :
    system.Reachable (calls.foldl system.next state) ∧ R state (calls.foldl system.next state) := by
  induction calls generalizing state with
  | nil => exact ⟨h, hrefl state⟩
  | cons call rest ih =>
      have hfirst : R state (system.next state call) := by
        rcases system.next_cases state call with ⟨state', response, hok, hnext, -⟩ | ⟨-, -, hnext, -⟩
        · rw [hnext]
          exact hstep state call state' response h (hcalls call List.mem_cons_self) hok
        · rw [hnext]
          exact hrefl state
      obtain ⟨hreachable, hrest⟩ := ih (h.next _ call)
        fun c hc => hcalls c (List.mem_cons_of_mem _ hc)
      exact ⟨hreachable, htrans _ _ _ hfirst hrest⟩

/-- A further call extends the history and moves the state. -/
theorem trace_concat (calls : List Call) (c : Call) :
    system.trace (calls ++ [c]) =
      (system.entry (system.execute calls) c :: (system.trace calls).1,
        system.next (system.execute calls) c) := by
  simp [trace, execute]

/-- Every sequence of calls is a run. -/
theorem run_trace (calls : List Call) :
    system.Run (system.trace calls).1 (system.trace calls).2 := by
  suffices h : ∀ run : List (Entry Call Response Failure) × State, system.Run run.1 run.2 →
      let last := calls.foldl
        (fun run c => (system.entry run.2 c :: run.1, system.next run.2 c)) run
      system.Run last.1 last.2 from h ([], system.initial) .start
  induction calls with
  | nil => exact fun _ h => h
  | cons c rest ih => exact fun run h => ih _ (h.call c)

/-- Every sequence of calls leads to a reachable state. -/
theorem reachable_execute (calls : List Call) : system.Reachable (system.execute calls) :=
  ⟨_, system.run_trace calls⟩

end System

end Transactional
