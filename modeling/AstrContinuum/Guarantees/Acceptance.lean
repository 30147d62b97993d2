import AstrContinuum.Runtime.Projection

/-!
# What the projection checks accept

`projection_acceptance_iff`: when the guard, the projection and the restoration accept only lists that
hold every preserved object once and in order, raise their own error on all others, and leave a list
they refuse as it was. The checks compare one sum of occurrences with the number of preserved objects,
so a missing object goes unnoticed where another one makes up for it; and the guard checks no order.
-/

namespace AstrContinuum

open Checked Positions
open Effects (perform)

variable {Object : Type} [DecidableEq Object]

/-- Every object of a group is in the list once, and they stand in their order. -/
def OnceInOrder (objects group : List Object) : Prop :=
  (∀ target ∈ group, objects.count target = 1) ∧
    (group.map fun target => objects.idxOf target).Pairwise (· ≤ ·)

/-- A list holds every preserved object once, those of a group in order. -/
def PreservedOnce (systemObjects currentObjects : List Object)
    (messages : Option (MessageList Object)) : Prop :=
  ∃ list, messages = some list ∧ OnceInOrder list.objects systemObjects ∧
    OnceInOrder list.objects currentObjects

/-- A list holds every current object once and in order, and no projection object behind them. -/
def CurrentOnce (projected : ProjectedView Object) (messages : Option (MessageList Object)) : Prop :=
  ∃ list, messages = some list ∧ OnceInOrder list.objects projected.guard.currentObjects ∧
    ∀ projection ∈ projected.projectionObjects,
      projection ∉ behind list.objects projected.guard.currentObjects

/-- An operation on a list succeeds only if the list is acceptable; otherwise it raises a
`ProjectionInvariantError`, no other exception, and the list is what it was. -/
def AcceptsOnly {α : Type} (acceptable : Option (MessageList Object) → Prop)
    (operation : EStateM ProjectionFailure (Option (MessageList Object)) α)
    (messages : Option (MessageList Object)) : Prop :=
  match operation messages with
  | .ok _ _ => acceptable messages
  | .error failure after => (∃ error, failure = .invariantError error) ∧ after = messages

/-! ## The sum of the occurrences -/

/-- The objects occur, taken together, as often as there are objects. -/
def BalancedOccurrences (objects targets : List Object) : Prop :=
  identityOccurrences objects targets = targets.length

/-- Every object is in the list. -/
def NoneMissing (objects targets : List Object) : Prop :=
  ∀ target ∈ targets, target ∈ objects

/-- There are as many positions as occurrences. -/
theorem length_positions (objects targets : List Object) :
    (positions objects targets).length = identityOccurrences objects targets := by
  simp [positions, identityOccurrences, List.length_flatMap, length_occurrences]

/-- Objects that occur once each are in order when their positions are. -/
theorem onceInOrder_of_inOrder {objects group : List Object}
    (hcount : ∀ target ∈ group, objects.count target = 1)
    (hordered : InOrder (positions objects group)) : OnceInOrder objects group := by
  rw [inOrder_iff, positions_of_count_one hcount] at hordered
  exact ⟨hcount, hordered⟩

/-- What stands in the list once and in order is found in order. -/
theorem OnceInOrder.inOrder {objects group : List Object} (h : OnceInOrder objects group) :
    InOrder (positions objects group) := by
  rw [inOrder_iff, positions_of_count_one h.1]
  exact h.2

/-- What stands in the list once is not missing. -/
theorem OnceInOrder.noneMissing {objects group : List Object} (h : OnceInOrder objects group) :
    NoneMissing objects group := by
  intro target htarget
  have hone := h.1 target htarget
  exact List.count_pos_iff.mp (by omega)

/-- Behind the last position of some objects, found in order, none of them stands. -/
theorem drop_eq_behind {objects targets : List Object} {last : Nat}
    (hordered : InOrder (positions objects targets))
    (hlast : (positions objects targets).getLast? = some last) :
    objects.drop (last + 1) = behind objects targets := by
  obtain ⟨target, htarget, hfound⟩ := mem_positions.mp (List.mem_of_getLast? hlast)
  obtain ⟨hlt, rfl⟩ := List.getElem?_eq_some_iff.mp hfound
  have hsplit : objects = objects.take last ++ objects[last] :: objects.drop (last + 1) := by
    rw [List.getElem_cons_drop, List.take_append_drop]
  have hafter : ∀ object ∈ objects.drop (last + 1), object ∉ targets := by
    intro object hobject hmem
    obtain ⟨offset, hoffset⟩ := List.getElem?_of_mem hobject
    rw [List.getElem?_drop] at hoffset
    -- The positions do not fall, so none of them is greater than the last.
    have hposition := mem_positions.mpr ⟨object, hmem, hoffset⟩
    obtain ⟨before, hpositions⟩ := List.getLast?_eq_some_iff.mp hlast
    rw [inOrder_iff, hpositions] at hordered
    rw [hpositions] at hposition
    rcases List.mem_append.mp hposition with hposition | hposition
    · have hle := (List.pairwise_append.mp hordered).2.2 _ hposition last (by simp)
      omega
    · have heq := List.mem_singleton.mp hposition
      omega
  conv_rhs => rw [hsplit]
  exact (behind_split htarget hafter).symm

/-! ## The list of the caller -/

/-- What an operation leaves of the caller's list: the new contents, or after an error the old ones. -/
def writeBack {α : Type} (result : Except ProjectionFailure (MessageList Object × α))
    (messages : Option (MessageList Object)) :
    EStateM.Result ProjectionFailure (Option (MessageList Object)) α :=
  match result with
  | .ok (list, a) => .ok a (some list)
  | .error failure => .error failure messages

omit [DecidableEq Object] in
/-- A check writes nothing. -/
theorem writeBack_bind {α β : Type} {messages : Option (MessageList Object)}
    {check : Except ProjectionFailure β}
    {next : β → Except ProjectionFailure (MessageList Object × α)}
    {nextInPlace : β → EStateM ProjectionFailure (Option (MessageList Object)) α}
    (h : ∀ b, nextInPlace b messages = writeBack (next b) messages) :
    (perform check >>= nextInPlace) messages = writeBack (check >>= next) messages := by
  cases check with
  | error failure => rfl
  | ok b => exact h b

/-- `project` writes the list once, behind all its checks. -/
theorem projectInPlace_eq (guard : ProjectionGuard Object) (projectionObjects : List Object)
    (messages : Option (MessageList Object)) :
    projectInPlace guard projectionObjects messages =
      writeBack (project messages guard projectionObjects) messages :=
  writeBack_bind fun _ => writeBack_bind fun _ => writeBack_bind fun _ => writeBack_bind fun _ =>
    writeBack_bind fun _ => rfl

/-- `restore` writes the list once, behind all its checks. -/
theorem restoreInPlace_eq (projected : ProjectedView Object)
    (messages : Option (MessageList Object)) :
    restoreInPlace projected messages = writeBack (restore messages projected) messages :=
  writeBack_bind fun _ => writeBack_bind fun _ => writeBack_bind fun _ => writeBack_bind fun _ =>
    writeBack_bind fun _ => rfl

/-- A stable error of the module. -/
def ProjectionFailure.IsInvariantError (failure : ProjectionFailure) : Prop :=
  ∃ error, failure = .invariantError error

omit [DecidableEq Object] in
/-- An operation that writes behind its checks accepts what its checks ensure. -/
theorem acceptsOnly_iff {α : Type} {acceptable : Option (MessageList Object) → Prop}
    {operation : EStateM ProjectionFailure (Option (MessageList Object)) α}
    {messages : Option (MessageList Object)}
    {result : Except ProjectionFailure (MessageList Object × α)}
    (h : operation messages = writeBack result messages) :
    AcceptsOnly acceptable operation messages ↔
      Ensures ProjectionFailure.IsInvariantError (fun _ => acceptable messages) result := by
  unfold AcceptsOnly
  rw [h]
  cases result with
  | error failure => exact and_iff_left rfl
  | ok written => rfl

/-! ## The guard -/

/-- The guard refuses what it refuses with its own error. -/
theorem guardProjection_ensures (requestIdentity : Nat) (messages : Option (MessageList Object))
    (systemObjects currentObjects : List Object) :
    Ensures ProjectionFailure.IsInvariantError
      (fun _ => ∃ list, messages = some list ∧ currentObjects ≠ [] ∧
        (systemObjects ++ currentObjects).Nodup ∧
        BalancedOccurrences list.objects (systemObjects ++ currentObjects))
      (guardProjection requestIdentity messages systemObjects currentObjects) := by
  refine .bind (.bind (.orMissing fun _ => ⟨_, rfl⟩) fun list hlist =>
    .bind (.require fun _ => ⟨_, rfl⟩) fun _ _ => .pure hlist) fun list hlist => ?_
  refine .bind (.require fun _ => ⟨_, rfl⟩) fun _ hobjects => ?_
  exact .bind (.require fun _ => ⟨_, rfl⟩) fun _ hcount =>
    .pure ⟨list, hlist, hobjects.1, hobjects.2, hcount⟩

/-- A list that passes the checks is guarded. -/
theorem guardProjection_total (requestIdentity : Nat) {list : MessageList Object}
    {systemObjects currentObjects : List Object} (hcurrent : currentObjects ≠ [])
    (hnodup : (systemObjects ++ currentObjects).Nodup)
    (hbalanced : BalancedOccurrences list.objects (systemObjects ++ currentObjects)) :
    ∃ guard, guardProjection requestIdentity (some list) systemObjects currentObjects =
      .ok guard := by
  refine ⟨⟨requestIdentity, list.identity, list.objects,
    nativeHistory list.objects (systemObjects ++ currentObjects), systemObjects, currentObjects⟩,
    bind_ok.mpr ⟨list, validateMessageList_ok.mpr ⟨rfl, by simp⟩, ?_⟩⟩
  refine bind_ok.mpr ⟨(), require_ok.mpr ⟨hcurrent, hnodup⟩, ?_⟩
  exact bind_ok.mpr ⟨(), require_ok.mpr hbalanced, rfl⟩

/-- Distinct objects that a list balances are all there, and in order. -/
def GuardNotices (systemObjects currentObjects : List Object)
    (messages : Option (MessageList Object)) : Prop :=
  ∀ list, messages = some list → currentObjects ≠ [] → (systemObjects ++ currentObjects).Nodup →
    BalancedOccurrences list.objects (systemObjects ++ currentObjects) →
      NoneMissing list.objects (systemObjects ++ currentObjects) ∧
        InOrder (positions list.objects systemObjects) ∧
        InOrder (positions list.objects currentObjects)

/-- When the guard accepts only acceptable lists. -/
theorem guard_acceptsOnly_iff (requestIdentity : Nat) (systemObjects currentObjects : List Object)
    (messages : Option (MessageList Object)) :
    AcceptsOnly (PreservedOnce systemObjects currentObjects)
        (guardInPlace requestIdentity systemObjects currentObjects) messages ↔
      GuardNotices systemObjects currentObjects messages := by
  have hensures := guardProjection_ensures requestIdentity messages systemObjects currentObjects
  have hrun : guardInPlace requestIdentity systemObjects currentObjects messages =
      perform (guardProjection requestIdentity messages systemObjects currentObjects) messages :=
    rfl
  unfold AcceptsOnly
  rw [hrun]
  constructor
  · rintro h list rfl hcurrent hnodup hbalanced
    obtain ⟨guard, hguard⟩ := guardProjection_total requestIdentity hcurrent hnodup hbalanced
    rw [hguard] at h
    obtain ⟨_, hsame, hsystem, hcurrents⟩ := h
    obtain rfl := Option.some.inj hsame
    refine ⟨fun target htarget => ?_, hsystem.inOrder, hcurrents.inOrder⟩
    rcases List.mem_append.mp htarget with htarget | htarget
    · exact hsystem.noneMissing target htarget
    · exact hcurrents.noneMissing target htarget
  · intro h
    cases hguard : guardProjection requestIdentity messages systemObjects currentObjects with
    | error failure => exact ⟨hensures.error hguard, rfl⟩
    | ok guard =>
        rw [hguard] at hensures
        obtain ⟨list, rfl, hcurrent, hnodup, hbalanced⟩ := hensures
        obtain ⟨hmissing, hsystem, hcurrents⟩ := h list rfl hcurrent hnodup hbalanced
        have hcount := count_eq_one_of_identityOccurrences hbalanced hmissing
        exact ⟨list, rfl, onceInOrder_of_inOrder (fun target htarget =>
            hcount target (List.mem_append_left _ htarget)) hsystem,
          onceInOrder_of_inOrder (fun target htarget =>
            hcount target (List.mem_append_right _ htarget)) hcurrents⟩

/-! ## The projection -/

/-- A list that passes the checks of the projection. -/
structure PassesProject (guard : ProjectionGuard Object) (projectionObjects : List Object)
    (list : MessageList Object) : Prop where
  identity : list.identity = guard.messageListIdentity
  balanced : BalancedOccurrences list.objects guard.preserved
  system : InOrder (positions list.objects guard.systemObjects)
  current : InOrder (positions list.objects guard.currentObjects)
  projections : projectionObjects.Nodup ∧
    ∀ projection ∈ projectionObjects, projection ∉ list.objects

/-- A guard that was accepted has current objects, and its history holds none of them. -/
theorem Guarded.current {requestIdentity : Nat} {native : Option (MessageList Object)}
    {guard : ProjectionGuard Object} {systemObjects currentObjects : List Object}
    (h : guardProjection requestIdentity native systemObjects currentObjects = .ok guard) :
    guard.systemObjects = systemObjects ∧ guard.currentObjects = currentObjects ∧
      currentObjects ≠ [] ∧ ∀ current ∈ currentObjects, current ∉ guard.nativeHistoryObjects := by
  have hensures := guardProjection_ensures requestIdentity native systemObjects currentObjects
  rw [h] at hensures
  obtain ⟨list, rfl, hcurrent, -⟩ := hensures
  obtain ⟨rfl, -⟩ := guardProjection_ok h
  refine ⟨rfl, rfl, hcurrent, fun current hmem hhistory => ?_⟩
  have hnot := List.of_mem_filter hhistory
  simp only [decide_eq_true_eq] at hnot
  exact hnot (List.mem_append_right _ hmem)

omit [DecidableEq Object] in
/-- What the check of a list ensures. -/
theorem validateMessageList_ensures (messages : Option (MessageList Object))
    (stage : ProjectionStage) (expectedIdentity : Option Nat) :
    Ensures ProjectionFailure.IsInvariantError
      (fun list => messages = some list ∧ ∀ identity ∈ expectedIdentity, list.identity = identity)
      (validateMessageList messages stage expectedIdentity) :=
  .bind (.orMissing fun _ => ⟨_, rfl⟩) fun _ hlist =>
    .bind (.require fun _ => ⟨_, rfl⟩) fun _ hidentity => .pure ⟨hlist, hidentity⟩

/-- What the check of the preserved objects ensures. -/
theorem validatePreserved_ensures (objects : List Object) (guard : ProjectionGuard Object)
    (stage : ProjectionStage) :
    Ensures ProjectionFailure.IsInvariantError
      (fun _ => BalancedOccurrences objects guard.preserved ∧
        InOrder (positions objects guard.systemObjects) ∧
        InOrder (positions objects guard.currentObjects))
      (validatePreserved objects guard stage) :=
  .bind (.require fun _ => ⟨_, rfl⟩) fun _ hbalanced =>
    .bind (.require fun _ => ⟨_, rfl⟩) fun _ hsystem =>
      (Ensures.require fun _ => ⟨_, rfl⟩).mono fun _ hcurrent => ⟨hbalanced, hsystem, hcurrent⟩

/-- What a projection checks, and what else it can raise. -/
theorem project_ensures (messages : Option (MessageList Object)) (guard : ProjectionGuard Object)
    (projectionObjects : List Object) :
    Ensures
      (fun failure => failure.IsInvariantError ∨
        ∃ list, messages = some list ∧ PassesProject guard projectionObjects list ∧
          ∀ current ∈ guard.currentObjects.head?,
            current ∉ list.objects ∨ current ∈ guard.nativeHistoryObjects)
      (fun _ => ∃ list, messages = some list ∧ PassesProject guard projectionObjects list)
      (project messages guard projectionObjects) := by
  refine ((validateMessageList_ensures messages _ _).weaken fun _ h => .inl h).bind
    fun list hlist => ?_
  obtain ⟨rfl, hidentity⟩ := hlist
  refine ((validatePreserved_ensures list.objects guard _).weaken fun _ h => .inl h).bind
    fun _ hpreserved => ?_
  obtain ⟨hbalanced, hsystem, hcurrent⟩ := hpreserved
  refine .bind (.require fun _ => .inl ⟨_, rfl⟩) fun _ hobjects => ?_
  have hpasses : PassesProject guard projectionObjects list :=
    ⟨hidentity _ rfl, hbalanced, hsystem, hcurrent, hobjects⟩
  refine .bind (.orMissing fun hnone => .inr ⟨list, rfl, hpasses, by simp [hnone]⟩)
    fun current hhead => ?_
  refine .bind (.orMissing fun hnone => .inr ⟨list, rfl, hpasses, ?_⟩)
    fun _ _ => .pure ⟨list, rfl, hpasses⟩
  intro other hother
  obtain rfl := Option.some.inj (hhead.symm.trans hother)
  rw [List.idxOf?_eq_none_iff, List.mem_filter] at hnone
  by_contra hnot
  rw [not_or, not_not] at hnot
  exact hnone ⟨hnot.1, by simpa using hnot.2⟩

/-- A list that passes the checks is not refused with a stable error. -/
theorem PassesProject.unrefused {guard : ProjectionGuard Object} {projectionObjects : List Object}
    {list : MessageList Object} (h : PassesProject guard projectionObjects list) :
    Ensures (fun failure => ¬ failure.IsInvariantError) (fun _ => True)
      (project (some list) guard projectionObjects) := by
  have hchecked : validateMessageList (some list) .project (some guard.messageListIdentity) =
      .ok list := validateMessageList_ok.mpr ⟨rfl, by simp [h.identity]⟩
  have hpreserved : validatePreserved list.objects guard .project = .ok () :=
    bind_ok.mpr ⟨(), require_ok.mpr h.balanced,
      bind_ok.mpr ⟨(), require_ok.mpr h.system, require_ok.mpr h.current⟩⟩
  unfold project
  rw [hchecked]
  show Ensures _ _ (validatePreserved list.objects guard .project >>= _)
  rw [hpreserved]
  show Ensures _ _ (require _ _ >>= _)
  rw [require_bind_pos h.projections]
  exact .bind (.orMissing fun _ => by simp [ProjectionFailure.IsInvariantError]) fun _ _ =>
    .bind (.orMissing fun _ => by simp [ProjectionFailure.IsInvariantError]) fun _ _ =>
      .pure trivial

/-- A list that passes the checks of the projection misses no preserved object. -/
def ProjectNotices (guard : ProjectionGuard Object) (projectionObjects : List Object)
    (messages : Option (MessageList Object)) : Prop :=
  ∀ list, messages = some list → PassesProject guard projectionObjects list →
    NoneMissing list.objects guard.preserved

/-- When the projection accepts only acceptable lists. -/
theorem project_acceptsOnly_iff {requestIdentity : Nat} {native : Option (MessageList Object)}
    {systemObjects currentObjects : List Object} {guard : ProjectionGuard Object}
    (hguard : guardProjection requestIdentity native systemObjects currentObjects = .ok guard)
    (projectionObjects : List Object) (messages : Option (MessageList Object)) :
    AcceptsOnly (PreservedOnce systemObjects currentObjects)
        (projectInPlace guard projectionObjects) messages ↔
      ProjectNotices guard projectionObjects messages := by
  obtain ⟨rfl, rfl, hcurrent, hhistory⟩ := Guarded.current hguard
  rw [acceptsOnly_iff (projectInPlace_eq guard projectionObjects messages)]
  constructor
  · rintro h list rfl hpasses
    have hunrefused := hpasses.unrefused
    cases hproject : project (some list) guard projectionObjects with
    | error failure => exact absurd (h.error hproject) (hunrefused.error hproject)
    | ok written =>
        rw [hproject] at h
        obtain ⟨_, hsame, hsystem, hcurrents⟩ := h
        obtain rfl := Option.some.inj hsame
        intro target htarget
        rcases List.mem_append.mp htarget with htarget | htarget
        · exact hsystem.noneMissing target htarget
        · exact hcurrents.noneMissing target htarget
  · intro h
    refine (project_ensures messages guard projectionObjects).weaken ?_ |>.mono ?_
    · rintro failure (hfailure | ⟨list, rfl, hpasses, hgone⟩)
      · exact hfailure
      · -- The first current object is there, so it is found.
        obtain ⟨current, rest, hcons⟩ := List.exists_cons_of_ne_nil hcurrent
        have hmem : current ∈ guard.currentObjects := by simp [hcons]
        rcases hgone current (by simp [hcons]) with hgone | hgone
        · exact absurd (h list rfl hpasses current (List.mem_append_right _ hmem)) hgone
        · exact absurd hgone (hhistory current hmem)
    · rintro - ⟨list, rfl, hpasses⟩
      have hcount := count_eq_one_of_identityOccurrences hpasses.balanced (h list rfl hpasses)
      exact ⟨list, rfl, onceInOrder_of_inOrder (fun target htarget =>
          hcount target (List.mem_append_left _ htarget)) hpasses.system,
        onceInOrder_of_inOrder (fun target htarget =>
          hcount target (List.mem_append_right _ htarget)) hpasses.current⟩

/-! ## The restoration -/

/-- A list that passes the checks of the restoration. -/
structure PassesRestore (projected : ProjectedView Object) (list : MessageList Object) : Prop where
  balanced : BalancedOccurrences list.objects projected.guard.currentObjects
  current : InOrder (positions list.objects projected.guard.currentObjects)
  projections : ∀ projection ∈ projected.projectionObjects,
    projection ∉ behind list.objects projected.guard.currentObjects

/-- What a restoration checks, where there are current objects. -/
theorem restore_ensures (messages : Option (MessageList Object)) {projected : ProjectedView Object}
    (hcurrent : projected.guard.currentObjects ≠ []) :
    Ensures ProjectionFailure.IsInvariantError
      (fun _ => ∃ list, messages = some list ∧ PassesRestore projected list)
      (restore messages projected) := by
  refine (validateMessageList_ensures messages _ _).bind fun list hlist => ?_
  obtain ⟨rfl, -⟩ := hlist
  refine .bind (.require fun _ => ⟨_, rfl⟩) fun _ _ => ?_
  refine .bind (.require fun _ => ⟨_, rfl⟩) fun _ hpositions => ?_
  obtain ⟨hlength, hordered⟩ := hpositions
  rw [length_positions] at hlength
  refine .bind (.orMissing fun hnone => ?_) fun last hlast => ?_
  · have hempty := length_positions list.objects projected.guard.currentObjects
    rw [List.getLast?_eq_none_iff.mp hnone, hlength] at hempty
    exact absurd (List.length_eq_zero_iff.mp hempty.symm) hcurrent
  · rw [drop_eq_behind hordered hlast]
    exact .bind (.require fun _ => ⟨_, rfl⟩) fun _ hprojections =>
      .pure ⟨list, rfl, hlength, hordered, hprojections⟩

/-- A list that passes the checks is restored. -/
theorem PassesRestore.accepted {projected : ProjectedView Object} {list : MessageList Object}
    (h : PassesRestore projected list) (hcurrent : projected.guard.currentObjects ≠ [])
    (hidentity : projected.requestIdentity = projected.guard.requestIdentity) :
    ∃ written, restore (some list) projected = .ok written := by
  have hchecked : validateMessageList (some list) .restore none = .ok list :=
    validateMessageList_ok.mpr ⟨rfl, by simp⟩
  have hlength := (length_positions list.objects projected.guard.currentObjects).trans h.balanced
  cases hlast : (positions list.objects projected.guard.currentObjects).getLast? with
  | none =>
      rw [List.getLast?_eq_none_iff.mp hlast] at hlength
      exact absurd (List.length_eq_zero_iff.mp hlength.symm) hcurrent
  | some last =>
      have hprojections := h.projections
      rw [← drop_eq_behind h.current hlast] at hprojections
      unfold restore
      rw [hchecked]
      show ∃ written, (require _ _ >>= _) = _
      rw [require_bind_pos hidentity]
      show ∃ written, (require _ _ >>= _) = _
      rw [require_bind_pos ⟨hlength, h.current⟩, hlast]
      show ∃ written, (require _ _ >>= _) = _
      rw [require_bind_pos hprojections]
      exact ⟨_, rfl⟩

/-- A list that passes the checks of the restoration misses no current object. -/
def RestoreNotices (projected : ProjectedView Object) (messages : Option (MessageList Object)) :
    Prop :=
  ∀ list, messages = some list → PassesRestore projected list →
    NoneMissing list.objects projected.guard.currentObjects

/-- When the restoration accepts only acceptable lists. -/
theorem restore_acceptsOnly_iff {projected : ProjectedView Object}
    (hcurrent : projected.guard.currentObjects ≠ [])
    (hidentity : projected.requestIdentity = projected.guard.requestIdentity)
    (messages : Option (MessageList Object)) :
    AcceptsOnly (CurrentOnce projected) (restoreInPlace projected) messages ↔
      RestoreNotices projected messages := by
  rw [acceptsOnly_iff (restoreInPlace_eq projected messages)]
  constructor
  · rintro h list rfl hpasses
    obtain ⟨written, hrestore⟩ := hpasses.accepted hcurrent hidentity
    rw [hrestore] at h
    obtain ⟨_, hsame, hcurrents, -⟩ := h
    obtain rfl := Option.some.inj hsame
    exact hcurrents.noneMissing
  · intro h
    refine (restore_ensures messages hcurrent).mono ?_
    rintro - ⟨list, rfl, hpasses⟩
    have hcount := count_eq_one_of_identityOccurrences hpasses.balanced (h list rfl hpasses)
    exact ⟨list, rfl, onceInOrder_of_inOrder hcount hpasses.current, hpasses.projections⟩

/-! ## The three operations -/

/-- A use of the module: the guard of a list, the projection of a list under it, and the restoration
of a list from the view. Other hooks may have changed each list before. -/
structure ProjectionUse (Object : Type) where
  requestIdentity : Nat
  systemObjects : List Object
  currentObjects : List Object
  native : Option (MessageList Object)
  changed : Option (MessageList Object)
  projectionObjects : List Object
  final : Option (MessageList Object)

namespace ProjectionUse

variable (use : ProjectionUse Object)

/-- The guard of the use, when it is accepted. -/
def guard : Except ProjectionFailure (ProjectionGuard Object) :=
  guardProjection use.requestIdentity use.native use.systemObjects use.currentObjects

/-- The view of the use, when its guard and its projection are accepted. -/
def view : Except ProjectionFailure (ProjectedView Object) := do
  let guard ← use.guard
  let (_, view) ← project use.changed guard use.projectionObjects
  pure view

/-- Every operation of the use accepts only what the preserved objects admit, and changes no list that
it refuses. -/
structure Sound : Prop where
  guard : AcceptsOnly (PreservedOnce use.systemObjects use.currentObjects)
    (guardInPlace use.requestIdentity use.systemObjects use.currentObjects) use.native
  project : ∀ guard, use.guard = .ok guard →
    AcceptsOnly (PreservedOnce use.systemObjects use.currentObjects)
      (projectInPlace guard use.projectionObjects) use.changed
  restore : ∀ view, use.view = .ok view →
    AcceptsOnly (CurrentOnce view) (restoreInPlace view) use.final

/-- No operation of the use passes over a missing object, nor the guard over an order. -/
structure Noticed : Prop where
  guard : GuardNotices use.systemObjects use.currentObjects use.native
  project : ∀ guard, use.guard = .ok guard →
    ProjectNotices guard use.projectionObjects use.changed
  restore : ∀ view, use.view = .ok view → RestoreNotices view use.final

/-- The view comes from a projection, whose guard has current objects. -/
theorem view_ok {view : ProjectedView Object} (h : use.view = .ok view) :
    view.guard.currentObjects ≠ [] ∧ view.requestIdentity = view.guard.requestIdentity := by
  obtain ⟨guard, hguard, h⟩ := bind_ok.mp h
  obtain ⟨⟨list, projected⟩, hproject, h⟩ := bind_ok.mp h
  obtain rfl := pure_ok.mp h
  obtain ⟨-, hcurrents, hcurrent, -⟩ := Guarded.current hguard
  obtain ⟨checked, -, hproject⟩ := bind_ok.mp hproject
  obtain ⟨_, -, hproject⟩ := bind_ok.mp hproject
  obtain ⟨_, -, hproject⟩ := bind_ok.mp hproject
  obtain ⟨current, -, hproject⟩ := bind_ok.mp hproject
  obtain ⟨start, -, hproject⟩ := bind_ok.mp hproject
  obtain ⟨-, rfl⟩ := Prod.mk.inj (pure_ok.mp hproject)
  exact ⟨hcurrents ▸ hcurrent, rfl⟩

end ProjectionUse

/-- A use of the projection is sound exactly when its checks pass over nothing. -/
theorem projection_acceptance_iff (use : ProjectionUse Object) : use.Sound ↔ use.Noticed := by
  have hguard := guard_acceptsOnly_iff use.requestIdentity use.systemObjects use.currentObjects
    use.native
  constructor
  · intro h
    refine ⟨hguard.mp h.guard, fun guard hok => ?_, fun view hok => ?_⟩
    · exact (project_acceptsOnly_iff hok _ _).mp (h.project guard hok)
    · obtain ⟨hcurrent, hidentity⟩ := use.view_ok hok
      exact (restore_acceptsOnly_iff hcurrent hidentity _).mp (h.restore view hok)
  · intro h
    refine ⟨hguard.mpr h.guard, fun guard hok => ?_, fun view hok => ?_⟩
    · exact (project_acceptsOnly_iff hok _ _).mpr (h.project guard hok)
    · obtain ⟨hcurrent, hidentity⟩ := use.view_ok hok
      exact (restore_acceptsOnly_iff hcurrent hidentity _).mpr (h.restore view hok)

namespace Sample

/-- A guarded list in which another hook repeats a system message over the current one. -/
def repeatedSystem : ProjectionUse Nat where
  requestIdentity := 7
  systemObjects := [10, 11]
  currentObjects := [30]
  native := some ⟨1, [10, 11, 20, 30]⟩
  changed := some ⟨1, [10, 10, 11]⟩
  projectionObjects := [50]
  final := none

end Sample

open Sample in
/-- A repeated system message makes up for the missing current one, and the projection raises
`StopIteration`: the claim that every use is sound is false. -/
theorem projection_stops_iteration : ¬ ∀ use : ProjectionUse Nat, use.Sound := by
  intro h
  have hguard : repeatedSystem.guard =
      .ok ⟨7, 1, [10, 11, 20, 30], [20], [10, 11], [30]⟩ := by
    decide
  have hproject := (h repeatedSystem).project _ hguard
  have hrun : projectInPlace ⟨7, 1, [10, 11, 20, 30], [20], [10, 11], [30]⟩
      repeatedSystem.projectionObjects repeatedSystem.changed =
      .error .stopIteration repeatedSystem.changed := by
    rfl
  unfold AcceptsOnly at hproject
  rw [hrun] at hproject
  obtain ⟨⟨error, herror⟩, -⟩ := hproject
  cases herror

end AstrContinuum
