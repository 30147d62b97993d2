import Mathlib.Algebra.GroupWithZero.Nat
import Mathlib.Algebra.BigOperators.Group.List.Basic
import Mathlib.Data.List.DropRight
import AstrContinuum.Control.Effects
import AstrContinuum.Control.Positions

/-!
# Reversible projection of the host's message list

`runtime/projection.py`: the guard that captures the native message list, the projection that replaces
its history by AstrContinuum's own objects, and the restoration before the host persists the list. The
host's objects are opaque and only ever compared by identity, so an object is its identity here. A
list has an identity of its own, and a projection is only made on the list that was guarded.

`projection_round_trip_iff`: what comes back is the list before the projection followed by what was
appended since, exactly when nothing that the projection retains stood behind the current message. The
restoration cannot tell such an object from an appended one and brings it back twice.
-/

namespace AstrContinuum

open Checked Positions
open Effects (perform)
open scoped List

/-- `ProjectionStage`. -/
inductive ProjectionStage
  | guard
  | project
  | restore
deriving DecidableEq

/-- `ProjectionErrorCode`. -/
inductive ProjectionErrorCode
  | messageListInvalid
  | listIdentityMismatch
  | requestIdentityMismatch
  | preservedObjectInvalid
  | preservedObjectMismatch
  | projectionObjectInvalid
  | projectedPrefixMismatch
deriving DecidableEq

/-- `ProjectionInvariantError`. -/
structure ProjectionInvariantError where
  code : ProjectionErrorCode
  stage : ProjectionStage
  expectedCount : Nat
  actualCount : Nat
  messageListIdentityMatch : Bool
deriving DecidableEq

/-- What the operations raise: a stable error, or one of Python's own when the current objects are
empty or the first of them is gone. -/
inductive ProjectionFailure
  | invariantError (error : ProjectionInvariantError)
  | indexError
  | stopIteration
deriving DecidableEq

/-- `_invalid`. -/
def ProjectionFailure.invalid (code : ProjectionErrorCode) (stage : ProjectionStage)
    (expectedCount actualCount : Nat) (messageListIdentityMatch : Bool) : ProjectionFailure :=
  .invariantError ⟨code, stage, expectedCount, actualCount, messageListIdentityMatch⟩

variable {Object : Type}

/-- A list of the host: its identity and the objects it holds. -/
structure MessageList (Object : Type) where
  identity : Nat
  objects : List Object
deriving DecidableEq

/-- `ProjectionGuard`. -/
structure ProjectionGuard (Object : Type) where
  requestIdentity : Nat
  messageListIdentity : Nat
  nativeObjects : List Object
  nativeHistoryObjects : List Object
  systemObjects : List Object
  currentObjects : List Object
deriving DecidableEq

/-- The system and the current objects. -/
def ProjectionGuard.preserved (guard : ProjectionGuard Object) : List Object :=
  guard.systemObjects ++ guard.currentObjects

/-- `ProjectedView`. -/
structure ProjectedView (Object : Type) where
  guard : ProjectionGuard Object
  requestIdentity : Nat
  messageListIdentity : Nat
  preProjectionObjects : List Object
  projectionObjects : List Object
  projectedObjects : List Object
deriving DecidableEq

/-- `RestoredView`. -/
structure RestoredView (Object : Type) where
  projected : ProjectedView Object
  deltaObjects : List Object
  restoredObjects : List Object
deriving DecidableEq

variable [DecidableEq Object]

/-- `_identity_occurrences`. -/
def identityOccurrences (messages targets : List Object) : Nat :=
  (targets.map fun target => messages.count target).sum

/-- `positions == tuple(sorted(positions))`. -/
def InOrder (positions : List Nat) : Prop :=
  positions = positions.insertionSort (· ≤ ·)

instance InOrder.decidable (positions : List Nat) : Decidable (InOrder positions) :=
  inferInstanceAs (Decidable (_ = _))

/-- `_validate_message_list`. Anything that is not a list is `none`. -/
def validateMessageList (messages : Option (MessageList Object)) (stage : ProjectionStage)
    (expectedIdentity : Option Nat) : Except ProjectionFailure (MessageList Object) := do
  let messages ← orMissing messages (.invalid .messageListInvalid stage 0 0 false)
  require (∀ identity ∈ expectedIdentity, messages.identity = identity)
    (.invalid .listIdentityMismatch stage 0 messages.objects.length false)
  pure messages

/-- The loop of `_validate_preserved` over one group. -/
def requireInOrder (messages : List Object) (group : List Object) (stage : ProjectionStage) :
    Except ProjectionFailure Unit :=
  require (InOrder (positions messages group))
    (.invalid .preservedObjectMismatch stage group.length (positions messages group).length true)

/-- `_validate_preserved`. -/
def validatePreserved (messages : List Object) (guard : ProjectionGuard Object)
    (stage : ProjectionStage) : Except ProjectionFailure Unit := do
  require (identityOccurrences messages guard.preserved = guard.preserved.length)
    (.invalid .preservedObjectMismatch stage guard.preserved.length
      (identityOccurrences messages guard.preserved) true)
  requireInOrder messages guard.systemObjects stage
  requireInOrder messages guard.currentObjects stage

/-- The objects of the native list that are not preserved. -/
def nativeHistory (native preserved : List Object) : List Object :=
  native.filter fun item => item ∉ preserved

/-- `guard_projection`. -/
def guardProjection (requestIdentity : Nat) (messages : Option (MessageList Object))
    (systemObjects currentObjects : List Object) :
    Except ProjectionFailure (ProjectionGuard Object) := do
  let messages ← validateMessageList messages .guard none
  let preserved := systemObjects ++ currentObjects
  require (currentObjects ≠ [] ∧ preserved.Nodup)
    (.invalid .preservedObjectInvalid .guard preserved.length
      (identityOccurrences messages.objects preserved) true)
  require (identityOccurrences messages.objects preserved = preserved.length)
    (.invalid .preservedObjectMismatch .guard preserved.length
      (identityOccurrences messages.objects preserved) true)
  pure
    { requestIdentity := requestIdentity
      messageListIdentity := messages.identity
      nativeObjects := messages.objects
      nativeHistoryObjects := nativeHistory messages.objects preserved
      systemObjects := systemObjects
      currentObjects := currentObjects }

/-- `project`: the list with its new contents, and the view. -/
def project (messages : Option (MessageList Object)) (guard : ProjectionGuard Object)
    (projectionObjects : List Object) :
    Except ProjectionFailure (MessageList Object × ProjectedView Object) := do
  let messages ← validateMessageList messages .project (some guard.messageListIdentity)
  validatePreserved messages.objects guard .project
  require (projectionObjects.Nodup ∧ ∀ projection ∈ projectionObjects,
      projection ∉ messages.objects)
    (.invalid .projectionObjectInvalid .project (max 1 projectionObjects.length)
      projectionObjects.length true)
  let retained := messages.objects.filter fun message => message ∉ guard.nativeHistoryObjects
  let current ← orMissing guard.currentObjects.head? .indexError
  let currentStart ← orMissing (retained.idxOf? current) .stopIteration
  let projectedObjects := retained.take currentStart ++ projectionObjects ++
    retained.drop currentStart
  pure ({ messages with objects := projectedObjects },
    { guard := guard
      requestIdentity := guard.requestIdentity
      messageListIdentity := guard.messageListIdentity
      preProjectionObjects := messages.objects
      projectionObjects := projectionObjects
      projectedObjects := projectedObjects })

/-- `restore`: the list with its new contents, and the view. -/
def restore (messages : Option (MessageList Object)) (projected : ProjectedView Object) :
    Except ProjectionFailure (MessageList Object × RestoredView Object) := do
  let guard := projected.guard
  let messages ← validateMessageList messages .restore none
  require (projected.requestIdentity = guard.requestIdentity)
    (.invalid .requestIdentityMismatch .restore 1 0 true)
  let sameList := decide (messages.identity = projected.messageListIdentity)
  let currentPositions := positions messages.objects guard.currentObjects
  require (currentPositions.length = guard.currentObjects.length ∧ InOrder currentPositions)
    (.invalid .projectedPrefixMismatch .restore guard.currentObjects.length
      currentPositions.length sameList)
  let last ← orMissing currentPositions.getLast? .indexError
  let deltaObjects := messages.objects.drop (last + 1)
  require (∀ projection ∈ projected.projectionObjects, projection ∉ deltaObjects)
    (.invalid .projectedPrefixMismatch .restore 0 1 sameList)
  let restoredObjects := projected.preProjectionObjects ++ deltaObjects
  pure ({ messages with objects := restoredObjects }, ⟨projected, deltaObjects, restoredObjects⟩)

/-- `verify_native`. -/
def verifyNative (messages : Option (MessageList Object)) (restored : RestoredView Object) : Bool :=
  match messages with
  | none => false
  | some messages =>
      decide (messages.objects = restored.projected.guard.nativeObjects ++ restored.deltaObjects)

/-! ## The list of the caller

`project` and `restore` write the list they were given, with `checked_messages[:] = ...`. Statement by
statement they are computations on that list. -/

/-- `guard_projection` on the caller's list, which it reads. -/
def guardInPlace (requestIdentity : Nat) (systemObjects currentObjects : List Object) :
    EStateM ProjectionFailure (Option (MessageList Object)) (ProjectionGuard Object) := do
  perform (guardProjection requestIdentity (← get) systemObjects currentObjects)

/-- `project` on the caller's list. -/
def projectInPlace (guard : ProjectionGuard Object) (projectionObjects : List Object) :
    EStateM ProjectionFailure (Option (MessageList Object)) (ProjectedView Object) := do
  let messages ← perform (validateMessageList (← get) .project (some guard.messageListIdentity))
  perform (validatePreserved messages.objects guard .project)
  perform (require (projectionObjects.Nodup ∧ ∀ projection ∈ projectionObjects,
      projection ∉ messages.objects)
    (.invalid .projectionObjectInvalid .project (max 1 projectionObjects.length)
      projectionObjects.length true))
  let retained := messages.objects.filter fun message => message ∉ guard.nativeHistoryObjects
  let current ← perform (orMissing guard.currentObjects.head? .indexError)
  let currentStart ← perform (orMissing (retained.idxOf? current) .stopIteration)
  let projectedObjects := retained.take currentStart ++ projectionObjects ++
    retained.drop currentStart
  set (some { messages with objects := projectedObjects })
  pure
    { guard := guard
      requestIdentity := guard.requestIdentity
      messageListIdentity := guard.messageListIdentity
      preProjectionObjects := messages.objects
      projectionObjects := projectionObjects
      projectedObjects := projectedObjects }

/-- `restore` on the caller's list. -/
def restoreInPlace (projected : ProjectedView Object) :
    EStateM ProjectionFailure (Option (MessageList Object)) (RestoredView Object) := do
  let guard := projected.guard
  let messages ← perform (validateMessageList (← get) .restore none)
  perform (require (projected.requestIdentity = guard.requestIdentity)
    (.invalid .requestIdentityMismatch .restore 1 0 true))
  let sameList := decide (messages.identity = projected.messageListIdentity)
  let currentPositions := positions messages.objects guard.currentObjects
  perform (require
    (currentPositions.length = guard.currentObjects.length ∧ InOrder currentPositions)
    (.invalid .projectedPrefixMismatch .restore guard.currentObjects.length
      currentPositions.length sameList))
  let last ← perform (orMissing currentPositions.getLast? .indexError)
  let deltaObjects := messages.objects.drop (last + 1)
  perform (require (∀ projection ∈ projected.projectionObjects, projection ∉ deltaObjects)
    (.invalid .projectedPrefixMismatch .restore 0 1 sameList))
  let restoredObjects := projected.preProjectionObjects ++ deltaObjects
  set (some { messages with objects := restoredObjects })
  pure ⟨projected, deltaObjects, restoredObjects⟩

/-! ## The checks -/

/-- Positions in order do not fall. -/
theorem inOrder_iff {positions : List Nat} : InOrder positions ↔ positions.Pairwise (· ≤ ·) := by
  refine ⟨fun h => ?_, fun h => (List.Pairwise.insertionSort_eq h).symm⟩
  rw [h]
  exact List.pairwise_insertionSort _ _

omit [DecidableEq Object] in
/-- A list is valid when it is a list and, if an identity is expected, has it. -/
theorem validateMessageList_ok {messages : Option (MessageList Object)} {stage : ProjectionStage}
    {expectedIdentity : Option Nat} {checked : MessageList Object} :
    validateMessageList messages stage expectedIdentity = .ok checked ↔
      messages = some checked ∧ ∀ identity ∈ expectedIdentity, checked.identity = identity := by
  simp only [validateMessageList, bind_ok, orMissing_ok, require_ok, pure_ok, exists_const]
  constructor
  · rintro ⟨_, hmessages, hidentity, rfl⟩
    exact ⟨hmessages, hidentity⟩
  · rintro ⟨hmessages, hidentity⟩
    exact ⟨checked, hmessages, hidentity, rfl⟩

/-- Objects that all occur, as often together as there are objects, occur once each. -/
theorem count_eq_one_of_identityOccurrences {messages targets : List Object}
    (hcount : identityOccurrences messages targets = targets.length)
    (hmem : ∀ target ∈ targets, target ∈ messages) :
    ∀ target ∈ targets, messages.count target = 1 := by
  have hpos : ∀ target ∈ targets, 1 ≤ messages.count target :=
    fun target htarget => List.count_pos_iff.mpr (hmem target htarget)
  have hlength : ∀ rest : List Object, (∀ target ∈ rest, 1 ≤ messages.count target) →
      rest.length ≤ identityOccurrences messages rest := by
    intro rest hrest
    simpa [identityOccurrences] using List.length_le_sum_of_one_le (rest.map fun target => messages.count target)
      (by simpa using hrest)
  intro target htarget
  obtain ⟨before, after, rfl⟩ := List.append_of_mem htarget
  have hbefore := hlength before fun other hother => hpos other (by simp [hother])
  have hafter := hlength after fun other hother => hpos other (by simp [hother])
  have hone := hpos target htarget
  simp only [identityOccurrences, List.map_append, List.map_cons, List.sum_append, List.sum_cons,
    List.length_append, List.length_cons] at hcount hbefore hafter
  omega

/-- What the guard records, and what it has checked. -/
theorem guardProjection_ok {requestIdentity : Nat} {native : MessageList Object}
    {systemObjects currentObjects : List Object} {guard : ProjectionGuard Object}
    (h : guardProjection requestIdentity (some native) systemObjects currentObjects = .ok guard) :
    guard = ⟨requestIdentity, native.identity, native.objects,
        nativeHistory native.objects (systemObjects ++ currentObjects), systemObjects,
        currentObjects⟩ ∧
      currentObjects ≠ [] ∧ (systemObjects ++ currentObjects).Nodup := by
  obtain ⟨messages, hmessages, h⟩ := bind_ok.mp h
  obtain ⟨hsame, -⟩ := validateMessageList_ok.mp hmessages
  obtain rfl := Option.some.inj hsame
  obtain ⟨_, hpreserved, h⟩ := bind_ok.mp h
  obtain ⟨_, -, h⟩ := bind_ok.mp h
  obtain ⟨hcurrent, hnodup⟩ := require_ok.mp hpreserved
  exact ⟨(pure_ok.mp h).symm, hcurrent, hnodup⟩

/-- What stands behind the last of some objects. -/
def behind (objects targets : List Object) : List Object :=
  objects.rtakeWhile fun object => object ∉ targets

/-- What stands behind the last of some objects, when it is found. -/
theorem behind_split {before after targets : List Object} {last : Object} (hlast : last ∈ targets)
    (hafter : ∀ object ∈ after, object ∉ targets) :
    behind (before ++ last :: after) targets = after := by
  rw [behind, List.rtakeWhile, List.reverse_append, List.reverse_cons, List.append_assoc,
    List.takeWhile_append_of_pos (by simpa using hafter)]
  simp [hlast]

/-- Distinct objects that occur once each and in order split the list at the last of them: the others
stand before it. -/
theorem exists_split_last {objects front : List Object} {last : Object}
    (hsub : front ++ [last] <+ objects)
    (hcount : ∀ target ∈ front ++ [last], objects.count target = 1) :
    ∃ before after, objects = before ++ last :: after ∧ front <+ before ∧ last ∉ before ∧
      ∀ object ∈ after, object ∉ front ++ [last] := by
  obtain ⟨before, after, rfl, hbefore, hafter⟩ := exists_split (hcount last (by simp))
  have hfront : front <+ before := by
    obtain ⟨left, right, hsplit, hleft, hright⟩ := List.append_sublist_iff.mp hsub
    have hlast : last ∈ right := List.singleton_sublist.mp hright
    rcases List.append_eq_append_iff.mp hsplit with ⟨middle, rfl, htail⟩ | ⟨middle, rfl, -⟩
    · -- The last object stands in the part on the right, so nothing lies between.
      cases middle with
      | nil => simpa using hleft
      | cons head rest =>
          obtain ⟨-, rfl⟩ := List.cons.inj htail
          exact absurd (List.mem_append_right _ hlast) hafter
    · exact hleft.trans (List.sublist_append_left _ _)
  refine ⟨before, after, rfl, hfront, hbefore, ?_⟩
  intro object hobject htarget
  have hone := hcount object htarget
  rcases List.mem_append.mp htarget with hmem | hmem
  · have hcount := List.count_pos_iff.mpr (hfront.subset hmem)
    have hcount' := List.count_pos_iff.mpr hobject
    rw [List.count_append, List.count_cons] at hone
    omega
  · obtain rfl := List.mem_singleton.mp hmem
    exact hafter hobject

/-! ## The round trip -/

/-- A projection was accepted: a guarded list, what other hooks made of it, and what the projection
made of that. -/
structure Projected (requestIdentity : Nat) (native : MessageList Object)
    (systemObjects currentObjects : List Object) (changed : MessageList Object)
    (projectionObjects : List Object) (messages : MessageList Object)
    (view : ProjectedView Object) : Prop where
  /-- The preserved objects are still in the list. -/
  kept : ∀ object ∈ systemObjects ++ currentObjects, object ∈ changed.objects
  /-- The guard was accepted, and the projection under it. -/
  accepted : ∃ guard,
    guardProjection requestIdentity (some native) systemObjects currentObjects = .ok guard ∧
      project (some changed) guard projectionObjects = .ok (messages, view)

/-- Inserting at the first current object keeps what stands behind the last one. -/
theorem splice_eq {before after front projectionObjects : List Object} {last current : Object}
    {start : Nat} (hfront : front <+ before) (hcurrent : (front ++ [last]).head? = some current)
    (hstart : (before ++ last :: after).idxOf? current = some start) :
    (before ++ last :: after).take start ++ projectionObjects ++
        (before ++ last :: after).drop start =
      (before.take start ++ projectionObjects ++ before.drop start) ++ last :: after := by
  have hmem : current ∈ before ++ [last] := by
    cases front with
    | nil =>
        obtain rfl := Option.some.inj hcurrent
        simp
    | cons first rest =>
        obtain rfl := Option.some.inj hcurrent
        exact List.mem_append_left _ (hfront.subset List.mem_cons_self)
  have hfound : ((before ++ [last]) ++ after).idxOf? current = some start := by simpa using hstart
  have hlt := lt_length_of_idxOf?_eq_some hmem hfound
  have hle : start ≤ before.length := by simpa [Nat.lt_succ_iff] using hlt
  rw [List.take_append_of_le_length hle, List.drop_append_of_le_length hle]
  simp

/-- What a projection makes of a list: the last current object keeps its place, and behind it stands
what the projection keeps of what stood there. -/
theorem splice_filter {objects front projectionObjects : List Object} {last current : Object}
    {start : Nat} {keeps : Object → Bool} (hsub : front ++ [last] <+ objects)
    (hcount : ∀ target ∈ front ++ [last], objects.count target = 1)
    (hkeeps : ∀ target ∈ front ++ [last], keeps target = true)
    (hnew : ∀ projection ∈ projectionObjects, projection ∉ objects)
    (hcurrent : (front ++ [last]).head? = some current)
    (hstart : (objects.filter keeps).idxOf? current = some start) :
    ∃ before after shown, objects = before ++ last :: after ∧
      (∀ object ∈ after, object ∉ front ++ [last]) ∧
      (objects.filter keeps).take start ++ projectionObjects ++ (objects.filter keeps).drop start =
        shown ++ last :: after.filter keeps ∧
      last ∉ shown ∧ front <+ shown := by
  obtain ⟨before, after, rfl, hfront, hlast, hafter⟩ := exists_split_last hsub hcount
  have hfront' : front <+ before.filter keeps := by
    have hfiltered := hfront.filter keeps
    rwa [List.filter_eq_self.mpr fun target htarget =>
      hkeeps target (List.mem_append_left _ htarget)] at hfiltered
  have hretained : (before ++ last :: after).filter keeps =
      before.filter keeps ++ last :: after.filter keeps := by
    rw [List.filter_append, List.filter_cons_of_pos (hkeeps last (by simp))]
  rw [hretained] at hstart ⊢
  refine ⟨before, after, _, rfl, hafter, splice_eq hfront' hcurrent hstart, ?_, ?_⟩
  · intro hmem
    rcases List.mem_append.mp hmem with hmem | hmem
    · rcases List.mem_append.mp hmem with hmem | hmem
      · exact hlast (List.mem_of_mem_filter (List.mem_of_mem_take hmem))
      · exact hnew last hmem (by simp)
    · exact hlast (List.mem_of_mem_filter (List.mem_of_mem_drop hmem))
  · refine hfront'.trans ?_
    conv_lhs => rw [← List.take_append_drop start (before.filter keeps)]
    exact (List.sublist_append_left _ _).append (.refl _)

/-- What an accepted projection returns, and where the last current object stands. -/
structure Spliced (native : MessageList Object) (systemObjects front : List Object) (last : Object)
    (changed : MessageList Object) (projectionObjects : List Object) (messages : MessageList Object)
    (view : ProjectedView Object) (after : List Object) : Prop where
  nodup : (front ++ [last]).Nodup
  behind_eq : behind changed.objects (front ++ [last]) = after
  shown : ∃ shown, messages.objects = shown ++ last :: after.filter (fun object =>
      object ∉ nativeHistory native.objects (systemObjects ++ (front ++ [last]))) ∧
    last ∉ shown ∧ front <+ shown
  count : ∀ object ∈ front ++ [last], messages.objects.count object = 1
  fresh : ∀ projection ∈ projectionObjects, projection ∉ changed.objects
  present : ∀ projection ∈ projectionObjects, projection ∈ messages.objects
  current_eq : view.guard.currentObjects = front ++ [last]
  native_eq : view.guard.nativeObjects = native.objects
  request_eq : view.requestIdentity = view.guard.requestIdentity
  pre_eq : view.preProjectionObjects = changed.objects
  projections_eq : view.projectionObjects = projectionObjects

/-- An accepted projection is spliced. -/
theorem Projected.spliced {requestIdentity : Nat} {native changed messages : MessageList Object}
    {systemObjects front projectionObjects : List Object} {last : Object}
    {view : ProjectedView Object}
    (h : Projected requestIdentity native systemObjects (front ++ [last]) changed projectionObjects
      messages view) :
    ∃ after, Spliced native systemObjects front last changed projectionObjects messages view
      after := by
  obtain ⟨guard, hguard, hproject⟩ := h.accepted
  obtain ⟨rfl, -, hnodup⟩ := guardProjection_ok hguard
  obtain ⟨checked, hchecked, hproject⟩ := bind_ok.mp hproject
  obtain ⟨hsame, -⟩ := validateMessageList_ok.mp hchecked
  obtain rfl := Option.some.inj hsame
  obtain ⟨_, hpreserved, hproject⟩ := bind_ok.mp hproject
  obtain ⟨_, hoccurrences, hpreserved⟩ := bind_ok.mp hpreserved
  obtain ⟨_, -, horder⟩ := bind_ok.mp hpreserved
  obtain ⟨_, hobjects, hproject⟩ := bind_ok.mp hproject
  obtain ⟨current, hcurrent, hproject⟩ := bind_ok.mp hproject
  obtain ⟨start, hstart, hproject⟩ := bind_ok.mp hproject
  obtain ⟨rfl, rfl⟩ := Prod.mk.inj (pure_ok.mp hproject)
  have hfresh := (require_ok.mp hobjects).2
  -- Every preserved object occurs once, and the current ones in order.
  have hcount := count_eq_one_of_identityOccurrences (require_ok.mp hoccurrences) h.kept
  have hcurrents : ∀ target ∈ front ++ [last], changed.objects.count target = 1 :=
    fun target htarget => hcount target (List.mem_append_right _ htarget)
  have hnodup := (List.nodup_append.mp hnodup).2.1
  have hsub : front ++ [last] <+ changed.objects :=
    (pairwise_positions_iff hnodup hcurrents).mp (inOrder_iff.mp (require_ok.mp horder))
  -- The current objects are no history, so the projection keeps them.
  have hkeeps : ∀ object ∈ front ++ [last], decide (object ∉ nativeHistory native.objects
      (systemObjects ++ (front ++ [last]))) = true := by
    intro object hobject
    simp only [nativeHistory, decide_eq_true_eq, List.mem_filter, not_and, not_not]
    exact fun _ => List.mem_append_right _ hobject
  obtain ⟨before, after, shown, hsplit, hafter, hspliced, hlast, hfront⟩ :=
    splice_filter hsub hcurrents hkeeps hfresh (orMissing_ok.mp hcurrent) (orMissing_ok.mp hstart)
  refine ⟨after, hnodup, ?_, ⟨shown, hspliced, hlast, hfront⟩, ?_, hfresh, ?_, rfl, rfl, rfl, rfl,
    rfl⟩
  · rw [hsplit]
    exact behind_split (by simp) hafter
  · intro object hobject
    have habsent : projectionObjects.count object = 0 := by
      refine List.count_eq_zero.mpr fun hmem => hfresh object hmem ?_
      exact hsub.subset hobject
    show ((changed.objects.filter _).take start ++ projectionObjects ++
      (changed.objects.filter _).drop start).count object = 1
    rw [List.count_append, List.count_append, habsent, Nat.add_zero, ← List.count_append,
      List.take_append_drop, List.count_filter]
    · exact hcurrents object hobject
    · exact hkeeps object hobject
  · intro projection hprojection
    exact List.mem_append_left _ (List.mem_append_right _ hprojection)

/-- The restoration takes everything behind the last current object for appended. -/
theorem Spliced.restore {native changed messages : MessageList Object}
    {systemObjects front projectionObjects after appended : List Object} {last : Object}
    {view : ProjectedView Object}
    (h : Spliced native systemObjects front last changed projectionObjects messages view after)
    (hnew : ∀ object ∈ appended, object ∉ messages.objects) (identity : Nat) :
    let delta := after.filter (fun object => object ∉ nativeHistory native.objects
      (systemObjects ++ (front ++ [last]))) ++ appended
    restore (some ⟨identity, messages.objects ++ appended⟩) view =
      .ok (⟨identity, changed.objects ++ delta⟩, ⟨view, delta, changed.objects ++ delta⟩) := by
  intro delta
  obtain ⟨shown, hmessages, hlast, hfront⟩ := h.shown
  have hlist : messages.objects ++ appended = shown ++ last :: delta := by
    rw [hmessages, List.append_assoc, List.cons_append]
  -- The current objects still occur once each, and in order.
  have hsub : front ++ [last] <+ messages.objects ++ appended := by
    rw [hlist]
    exact hfront.append (List.cons_sublist_cons.mpr (List.nil_sublist _))
  have hcount : ∀ object ∈ front ++ [last], (messages.objects ++ appended).count object = 1 := by
    intro object hobject
    have hmem : object ∈ messages.objects := List.count_pos_iff.mp (by rw [h.count object hobject]; decide)
    rw [List.count_append, h.count object hobject,
      List.count_eq_zero.mpr fun happended => hnew object happended hmem]
  have hpositions := positions_of_count_one hcount
  have hlastPosition : (positions (messages.objects ++ appended) (front ++ [last])).getLast? =
      some shown.length := by
    rw [hpositions, List.map_append, List.map_singleton, List.getLast?_concat, hlist,
      idxOf_split hlast]
  have hprojections : ∀ projection ∈ projectionObjects, projection ∉ delta := by
    intro projection hprojection hmem
    rcases List.mem_append.mp hmem with hmem | hmem
    · refine h.fresh projection hprojection ?_
      have hbehind : projection ∈ behind changed.objects (front ++ [last]) := by
        rw [h.behind_eq]
        exact List.mem_of_mem_filter hmem
      exact (List.rtakeWhile_suffix _ _).subset hbehind
    · exact hnew projection hmem (h.present projection hprojection)
  have hdrop : (messages.objects ++ appended).drop (shown.length + 1) = delta := by
    rw [hlist, List.drop_append]
    simp
  refine bind_ok.mpr ⟨_, validateMessageList_ok.mpr ⟨rfl, by simp⟩, ?_⟩
  refine bind_ok.mpr ⟨(), require_ok.mpr h.request_eq, ?_⟩
  rw [h.current_eq, h.projections_eq, h.pre_eq]
  refine bind_ok.mpr ⟨(), require_ok.mpr ⟨by simp [hpositions], ?_⟩, ?_⟩
  · exact inOrder_iff.mpr ((pairwise_positions_iff h.nodup hcount).mpr hsub)
  refine bind_ok.mpr ⟨_, orMissing_ok.mpr hlastPosition, ?_⟩
  rw [hdrop]
  exact bind_ok.mpr ⟨(), require_ok.mpr hprojections, rfl⟩

/-- The round trip: the restoration of a projected list with new objects leaves the list before the
projection followed by the new objects, in which no projection remains and no new object is lost or
repeated; and a list that was unchanged since its guard verifies as native. -/
def RoundTrips (native changed : MessageList Object) (projectionObjects : List Object)
    (messages : MessageList Object) (view : ProjectedView Object) (identity : Nat)
    (appended : List Object) : Prop :=
  ∃ result restored, restore (some ⟨identity, messages.objects ++ appended⟩) view =
      .ok (result, restored) ∧
    result.objects = changed.objects ++ appended ∧
    (∀ projection ∈ projectionObjects, projection ∉ result.objects) ∧
    (∀ object ∈ appended, result.objects.count object = appended.count object) ∧
    (changed = native → verifyNative (some result) restored = true)

/-- Behind the last current object stands nothing but native history. -/
def NothingBehind (native : MessageList Object) (systemObjects currentObjects : List Object)
    (changed : MessageList Object) : Prop :=
  ∀ object ∈ behind changed.objects currentObjects,
    object ∈ native.objects ∧ object ∉ systemObjects

/-- A projection makes the round trip exactly when nothing that it retains stands behind the current
objects. -/
theorem projection_round_trip_iff {requestIdentity : Nat}
    {native changed messages : MessageList Object}
    {systemObjects currentObjects projectionObjects appended : List Object}
    {view : ProjectedView Object}
    (h : Projected requestIdentity native systemObjects currentObjects changed projectionObjects
      messages view)
    (hnew : ∀ object ∈ appended, object ∉ messages.objects ∧ object ∉ changed.objects)
    (identity : Nat) :
    RoundTrips native changed projectionObjects messages view identity appended ↔
      NothingBehind native systemObjects currentObjects changed := by
  obtain ⟨front, last, rfl⟩ : ∃ front last, currentObjects = front ++ [last] := by
    obtain ⟨guard, hguard, -⟩ := h.accepted
    obtain ⟨-, hcurrent, -⟩ := guardProjection_ok hguard
    obtain ⟨front, last, hsplit⟩ := (List.eq_nil_or_concat _).resolve_left hcurrent
    exact ⟨front, last, by simpa using hsplit⟩
  obtain ⟨after, hspliced⟩ := h.spliced
  have hrestore := hspliced.restore (fun object hobject => (hnew object hobject).1) identity
  -- What the projection retains behind the current objects is what comes back twice.
  have hretained : after.filter (fun object => object ∉ nativeHistory native.objects
      (systemObjects ++ (front ++ [last]))) = [] ↔
        NothingBehind native systemObjects (front ++ [last]) changed := by
    rw [NothingBehind, hspliced.behind_eq, List.filter_eq_nil_iff]
    refine forall₂_congr fun object hobject => ?_
    have hcurrent : object ∉ front ++ [last] := by
      rw [← hspliced.behind_eq] at hobject
      simpa using List.mem_rtakeWhile_imp hobject
    simp only [nativeHistory, decide_eq_true_eq, not_not, List.mem_filter, List.mem_append]
      at hcurrent ⊢
    tauto
  rw [← hretained]
  constructor
  · rintro ⟨result, restored, hresult, hobjects, -⟩
    obtain ⟨rfl, -⟩ := Prod.mk.inj (Except.ok.inj (hrestore.symm.trans hresult))
    simpa using hobjects
  · intro hnone
    rw [hnone, List.nil_append] at hrestore
    refine ⟨_, _, hrestore, rfl, ?_, ?_, ?_⟩
    · intro projection hprojection hmem
      rcases List.mem_append.mp hmem with hmem | hmem
      · exact hspliced.fresh projection hprojection hmem
      · exact (hnew projection hmem).1 (hspliced.present projection hprojection)
    · intro object hobject
      rw [List.count_append, List.count_eq_zero.mpr (hnew object hobject).2, Nat.zero_add]
    · rintro rfl
      simp [verifyNative, hspliced.native_eq]

namespace Sample

/-- A guarded list: a system message, one message of history and the current message. -/
def nativeList : MessageList Nat := ⟨1, [10, 20, 30]⟩

/-- The guarded list with a foreign object at some place. -/
def withForeign (position : Nat) : MessageList Nat := ⟨1, [10, 20, 30].insertIdx position 40⟩

/-- What the projection of the list with a foreign object shows. -/
def shownList (position : Nat) : MessageList Nat := ⟨1, ([10, 50, 30].insertIdx position 40)⟩

/-- The view of the projection of the list with a foreign object. -/
def shownView (position shownPosition : Nat) : ProjectedView Nat where
  guard := ⟨7, 1, [10, 20, 30], [20], [10], [30]⟩
  requestIdentity := 7
  messageListIdentity := 1
  preProjectionObjects := (withForeign position).objects
  projectionObjects := [50]
  projectedObjects := (shownList shownPosition).objects

/-- A foreign object before the current message. -/
theorem projected_foreign_before :
    Projected 7 nativeList [10] [30] (withForeign 1) [50] (shownList 1) (shownView 1 1) :=
  ⟨by decide, ⟨7, 1, [10, 20, 30], [20], [10], [30]⟩, by decide, by decide⟩

/-- A foreign object behind the current message. -/
theorem projected_foreign_behind :
    Projected 7 nativeList [10] [30] (withForeign 3) [50] (shownList 3) (shownView 3 3) :=
  ⟨by decide, ⟨7, 1, [10, 20, 30], [20], [10], [30]⟩, by decide, by decide⟩

end Sample

open Sample in
/-- A foreign object before the current message makes the round trip. -/
theorem projection_round_trip_before :
    RoundTrips nativeList (withForeign 1) [50] (shownList 1) (shownView 1 1) 1 [60, 70] :=
  (projection_round_trip_iff projected_foreign_before (by decide) 1).mpr (by
    intro object hobject
    have hnone : behind (withForeign 1).objects [30] = [] := by decide
    rw [hnone] at hobject
    cases hobject)

open Sample in
/-- A foreign object behind the current message comes back twice: the claim that every accepted
projection makes the round trip is false. -/
theorem projection_repeats_foreign_object :
    ¬ ∀ (native changed messages : MessageList Nat)
      (systemObjects currentObjects projectionObjects appended : List Nat)
      (view : ProjectedView Nat) (requestIdentity identity : Nat),
      Projected requestIdentity native systemObjects currentObjects changed projectionObjects
        messages view →
      (∀ object ∈ appended, object ∉ messages.objects ∧ object ∉ changed.objects) →
      RoundTrips native changed projectionObjects messages view identity appended := by
  intro h
  obtain ⟨result, restored, hresult, hobjects, -⟩ :=
    h _ _ _ _ _ _ [60] _ _ 1 projected_foreign_behind (by decide)
  have hrestore : (restore (some ⟨1, (shownList 3).objects ++ [60]⟩) (shownView 3 3)).map
      (fun pair => pair.1.objects) = .ok [10, 20, 30, 40, 40, 60] := by
    decide
  rw [hresult] at hrestore
  have hrepeated := Except.ok.inj hrestore
  simp only [hobjects] at hrepeated
  exact absurd hrepeated (by decide)

end AstrContinuum
