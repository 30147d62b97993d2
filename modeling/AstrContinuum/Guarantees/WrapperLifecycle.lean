import AstrContinuum.Invariants.ThinkingWrappers
import Mathlib.Data.List.Induction

/-!
# The lifecycle of the wrappers

`wrapper_lifecycle_iff`: whatever lists the host returns, whatever writes it refuses and whatever other
code wraps in between, a call goes through one active compatibility layer at most, and a layer that is
not active hands on what it is called with. A provider that no other code has wrapped gets its
attributes back when it is omitted or when the component terminates, exactly if every attribute that is
wrapped can be given back: `_restore` deletes an attribute that `vars(provider)` did not have, which
empties a slot.
-/

namespace AstrContinuum

open Transactional

/-- Nobody else wraps an attribute of a provider in a call, and every restoration of it is let through. -/
def LifecycleCall.Keeps (provider : Nat) : LifecycleCall → Prop
  | .ensure faults visits => (faults provider).Restores ∧
      ∀ visit ∈ visits, visit.provider = provider → visit.faults.Restores
  | .ensureUnavailable => True
  | .terminate faults => (faults provider).Restores
  | .wrapForeign other _ _ => other ≠ provider

/-- A call that is to give a provider its attributes back. -/
def LifecycleCall.Leaves (provider : Nat) : LifecycleCall → Prop
  | .ensure _ visits => provider ∉ visits.map ProviderVisit.provider
  | .terminate _ => True
  | _ => False

section Runs

variable (configuredProviderIds : List String) (objects : Nat → ProviderObject)

/-- The state after some calls. -/
def lifecycleState (calls : List LifecycleCall) : CompatibilityState :=
  (compatibilitySystem configuredProviderIds objects).execute calls

/-- A further call. -/
theorem lifecycleState_concat (calls : List LifecycleCall) (call : LifecycleCall) :
    lifecycleState configuredProviderIds objects (calls ++ [call]) =
      ((lifecycleState configuredProviderIds objects calls).step configuredProviderIds call).1 := by
  unfold lifecycleState System.execute
  rw [System.trace_concat]
  rfl

/-- The guarantees of the wrappers. -/
structure WrapperGuarantees : Prop where
  oneActive : ∀ (calls : List LifecycleCall) (provider : Nat) (name : ChatAttribute)
    (value : ChatValue),
    ((lifecycleState configuredProviderIds objects calls).objects provider).get name = some value →
    (value.layers.filter (lifecycleState configuredProviderIds objects calls).active).length ≤ 1
  forwards : ∀ (Args Failure : Type) (rewriteCall : BindingRef → Args → Except Failure Args)
    (foreignCall : Nat → Args → Except Failure Args) (calls : List LifecycleCall)
    (binding : BindingRef) (name : ChatAttribute) (original : ChatValue) (args : Args),
    (lifecycleState configuredProviderIds objects calls).active binding = false →
    (ChatValue.wrapper binding name original).invoke
        (lifecycleState configuredProviderIds objects calls).active rewriteCall foreignCall args =
      original.invoke (lifecycleState configuredProviderIds objects calls).active rewriteCall
        foreignCall args
  restored : ∀ (calls : List LifecycleCall) (last : LifecycleCall) (provider : Nat),
    (∀ call ∈ calls ++ [last], call.Keeps provider) → last.Leaves provider →
    (lifecycleState configuredProviderIds objects (calls ++ [last])).objects provider =
      objects provider

variable {objects}

/-- Every state that a run reaches is sound. -/
theorem lifecycleState_sound
    (hnew : ∀ provider, (objects provider).Unwrapped) (calls : List LifecycleCall) :
    (lifecycleState configuredProviderIds objects calls).Sound := by
  refine (compatibilitySystem configuredProviderIds objects).reachable_invariant ?_ ?_
    ((compatibilitySystem configuredProviderIds objects).reachable_execute calls)
  · exact ⟨List.nodup_nil, fun _ href => absurd href Bool.false_ne_true,
      fun _ hbinding => absurd hbinding List.not_mem_nil, fun provider => (hnew provider).owned⟩
  · intro s call s' response h hstep
    obtain ⟨rfl, rfl⟩ := Prod.mk.inj (Except.ok.inj hstep)
    cases call with
    | ensure faults visits => exact .visitAll _ _ _ _ (h.disableOmitted _ _)
    | ensureUnavailable => exact h
    | terminate faults => exact h.terminate faults
    | wrapForeign provider name id => exact h.wrapForeign provider name id

/-- A provider that nobody else wraps stays restorable. -/
theorem lifecycleState_restorable {provider : Nat} {calls : List LifecycleCall}
    (hnew : ∀ provider, (objects provider).Unwrapped) (hgives : (objects provider).GivesBack)
    (hkeeps : ∀ call ∈ calls, call.Keeps provider) :
    (lifecycleState configuredProviderIds objects calls).Restorable (objects provider) provider := by
  induction calls using List.reverseRecOn with
  | nil => rfl
  | append_singleton calls call ih =>
      obtain ⟨hcalls, hcall⟩ := List.forall_mem_append.mp hkeeps
      have hprevious := ih hcalls
      have hsound := lifecycleState_sound configuredProviderIds hnew calls
      have hkeep := hcall call List.mem_cons_self
      rw [lifecycleState_concat]
      generalize lifecycleState configuredProviderIds objects calls = s at hprevious hsound ⊢
      cases call with
      | ensure faults visits =>
          exact .visitAll hgives _ hkeep.2 _ _ (hprevious.disableOmitted hgives hkeep.1)
      | ensureUnavailable => exact hprevious
      | terminate faults =>
          unfold CompatibilityState.Restorable
          rw [CompatibilityState.binding, CompatibilityState.step, CompatibilityState.bindings_terminate]
          exact hprevious.terminate hgives hsound hkeep
      | wrapForeign other name id =>
          exact hprevious.frame (CompatibilityState.wrapForeign_frame (Ne.symm hkeep) s name id)

/-- A provider whose wrapped attributes can be given back has them back when a run leaves it. -/
theorem lifecycleState_restored {provider : Nat} {calls : List LifecycleCall} {last : LifecycleCall}
    (hnew : ∀ provider, (objects provider).Unwrapped) (hgives : (objects provider).GivesBack)
    (hkeeps : ∀ call ∈ calls ++ [last], call.Keeps provider) (hleaves : last.Leaves provider) :
    (lifecycleState configuredProviderIds objects (calls ++ [last])).objects provider =
      objects provider := by
  obtain ⟨hcalls, hlast⟩ := List.forall_mem_append.mp hkeeps
  have hkeep := hlast last List.mem_cons_self
  have hsound := lifecycleState_sound configuredProviderIds hnew calls
  have hrestorable := lifecycleState_restorable configuredProviderIds hnew hgives hcalls
  rw [lifecycleState_concat]
  cases last with
  | ensure faults visits =>
      exact hrestorable.ensure_omitted hgives configuredProviderIds hkeep.1 hleaves
  | terminate faults => exact hrestorable.terminate hgives hsound hkeep
  | ensureUnavailable => exact hleaves.elim
  | wrapForeign other name id => exact hleaves.elim

/-- The host refuses the second write of an installation. -/
def secondRefused : HostFaults where
  install name := decide (name = .textChatStream)

/-- The call in which a provider is wrapped, as far as the host lets it. -/
def visitOnce (provider : Nat) (faults : HostFaults) : LifecycleCall :=
  .ensure (fun _ => {})
    [{ provider := provider, descriptor := .found "openai_chat_completion" "", faults := faults }]

/-- A provider without a binding comes to be attached if both attributes can be called. -/
theorem step_visitOnce {s : CompatibilityState} (hbindings : s.bindings = []) {provider : Nat}
    {textChat textChatStream : ChatValue}
    (hchat : (s.objects provider).get .textChat = some textChat)
    (hstream : (s.objects provider).get .textChatStream = some textChatStream)
    (hcallable : (textChat.callable && textChatStream.callable) = true) (faults : HostFaults) :
    (s.step configuredProviderIds (visitOnce provider faults)).1 =
      (s.attach faults (s.newBinding provider textChat textChatStream)).1 := by
  have hcompatible : isOpenaiCompatibleDescriptor configuredProviderIds "openai_chat_completion" "" =
      true := by simp [isOpenaiCompatibleDescriptor, nativeThinkingProviderTypes,
        openaiCompatProviderTypes]
  have hfree : s.binding provider = none := by rw [CompatibilityState.binding, hbindings]; rfl
  have hdisabled : s.disableExistingBinding faults provider = s := by
    rw [CompatibilityState.disableExistingBinding, hfree]
  have hinactive : s.hasActiveWrapper provider = false := by
    rw [CompatibilityState.hasActiveWrapper, hfree]
  have hinstall : s.install faults provider =
      s.attach faults (s.newBinding provider textChat textChatStream) := by
    rw [CompatibilityState.install, hdisabled, hchat, hstream]
    exact if_pos hcallable
  have homitted : s.disableOmitted (fun _ => {}) [provider] = s := by
    rw [CompatibilityState.disableOmitted, hbindings]
    rfl
  show (CompatibilityState.visitAll configuredProviderIds
    (s.disableOmitted (fun _ => {}) [provider]) 0
    [{ provider := provider, descriptor := .found "openai_chat_completion" "", faults := faults }]).1 = _
  rw [homitted, CompatibilityState.visitAll]
  dsimp only
  rw [hcompatible, hinactive, hinstall]
  rfl

/-- Where the second wrapper is refused, the first one is taken back, and `terminate` finds nothing. -/
theorem terminate_attach_half {s : CompatibilityState} (hbindings : s.bindings = [])
    {binding : ThinkingBinding} {half : ProviderObject}
    (hhalf : (s.objects binding.ref.provider).set .textChat (binding.watcher .textChat) = some half) :
    ((s.attach secondRefused binding).1.terminate fun _ => {}).objects binding.ref.provider =
      binding.restoreBoth secondRefused half := by
  have hfirst : CompatibilityState.setWatcher secondRefused binding (s.objects binding.ref.provider)
      .textChat = some half := hhalf
  have hsecond : CompatibilityState.setWatcher secondRefused binding half .textChatStream = none := rfl
  unfold CompatibilityState.attach
  dsimp only
  rw [hfirst]
  dsimp only
  rw [hsecond]
  simp only [CompatibilityState.terminate, CompatibilityState.deactivate, hbindings, List.foldl_nil,
    Function.update_self]

/-- Where both are set, `terminate` takes them back. -/
theorem terminate_attach_full {s : CompatibilityState} (hbindings : s.bindings = [])
    {binding : ThinkingBinding} {half full : ProviderObject}
    (hhalf : (s.objects binding.ref.provider).set .textChat (binding.watcher .textChat) = some half)
    (hfull : half.set .textChatStream (binding.watcher .textChatStream) = some full) :
    ((s.attach {} binding).1.terminate fun _ => {}).objects binding.ref.provider =
      binding.restoreBoth {} full := by
  have hfirst : CompatibilityState.setWatcher {} binding (s.objects binding.ref.provider) .textChat =
      some half := hhalf
  have hsecond : CompatibilityState.setWatcher {} binding half .textChatStream = some full := hfull
  unfold CompatibilityState.attach
  dsimp only
  rw [hfirst]
  dsimp only
  rw [hsecond]
  simp only [CompatibilityState.terminate, CompatibilityState.deactivate, hbindings, List.nil_append,
    List.foldl_cons, List.foldl_nil, Function.update_self]

/-- A run that wraps a provider once. -/
theorem lifecycleState_visitOnce {provider : Nat} {textChat textChatStream : ChatValue}
    (hchat : (objects provider).get .textChat = some textChat)
    (hstream : (objects provider).get .textChatStream = some textChatStream)
    (hcallable : (textChat.callable && textChatStream.callable) = true) (faults : HostFaults) :
    lifecycleState configuredProviderIds objects
        ([visitOnce provider faults] ++ [.terminate fun _ => {}]) =
      ((lifecycleState configuredProviderIds objects []).attach faults
        ((lifecycleState configuredProviderIds objects []).newBinding provider textChat
          textChatStream)).1.terminate fun _ => {} := by
  rw [lifecycleState_concat, ← List.nil_append [visitOnce provider faults], lifecycleState_concat,
    step_visitOnce configuredProviderIds rfl hchat hstream hcallable]
  rfl

/-- A provider that gets its attributes back after every such run can be given back what is wrapped. -/
theorem givesBack_of_restored {provider : Nat}
    (hrestored : ∀ faults : HostFaults, faults.Restores →
      (lifecycleState configuredProviderIds objects
        ([visitOnce provider faults] ++ [.terminate fun _ => {}])).objects provider =
          objects provider) :
    (objects provider).GivesBack := by
  intro name hwritten
  by_contra hnot
  obtain ⟨descriptor, hclass, hinstance, hdeleted⟩ := ProviderObject.not_returns hnot
  have hne : ChatAttribute.textChatStream ≠ .textChat := by decide
  obtain ⟨textChat, hchat, hchatCallable⟩ := hwritten.wrappable .textChat
  obtain ⟨textChatStream, hstream, hstreamCallable⟩ := hwritten.wrappable .textChatStream
  have hcallable := Bool.and_eq_true_iff.mpr ⟨hchatCallable, hstreamCallable⟩
  have hrun := lifecycleState_visitOnce configuredProviderIds hchat hstream hcallable
  generalize hbinding : (lifecycleState configuredProviderIds objects []).newBinding provider textChat
    textChatStream = binding at hrun
  have hover : binding.Over (objects provider) :=
    hbinding ▸ CompatibilityState.newBinding_over hchat hstream hcallable
  have hprovider : binding.ref.provider = provider := by
    rw [← hbinding]
    rfl
  subst hprovider
  obtain ⟨half, hhalf⟩ := ProviderObject.exists_set hwritten.settable (binding.watcher .textChat)
  cases name with
  | textChat =>
      have hleft := hrestored secondRefused fun _ => rfl
      rw [hrun] at hleft
      refine absurd ((terminate_attach_half rfl hhalf).symm.trans hleft) ?_
      exact hover.restoreBoth_ne (fun _ => rfl) hclass hinstance hdeleted
        (ProviderObject.classValues_set hhalf hclass)
  | textChatStream =>
      have hsettable := (ProviderObject.settable_set hhalf hne).trans hwritten.2.2
      obtain ⟨full, hfull⟩ := ProviderObject.exists_set hsettable (binding.watcher .textChatStream)
      have hleft := hrestored {} fun _ => rfl
      rw [hrun] at hleft
      refine absurd ((terminate_attach_full rfl hhalf hfull).symm.trans hleft) ?_
      have hsame := (ProviderObject.set_frame hhalf hne).2.trans hclass
      exact hover.restoreBoth_ne (fun _ => rfl) hclass hinstance hdeleted
        (ProviderObject.classValues_set hfull hsame)

/-- The wrappers of a new component keep their guarantees over every run if and only if every attribute
that they wrap can be given back. -/
theorem wrapper_lifecycle_iff (hnew : ∀ provider, (objects provider).Unwrapped) :
    WrapperGuarantees configuredProviderIds objects ↔ ∀ provider, (objects provider).GivesBack := by
  constructor
  · intro h provider
    refine givesBack_of_restored configuredProviderIds fun faults hfaults => ?_
    refine h.restored _ _ provider ?_ trivial
    intro call hcall
    rcases List.mem_append.mp hcall with hvisit | hlast
    · rw [List.mem_singleton.mp hvisit]
      refine ⟨fun _ => rfl, fun visit hmem _ => ?_⟩
      rw [List.mem_singleton.mp hmem]
      exact hfaults
    · rw [List.mem_singleton.mp hlast]
      exact fun _ => rfl
  · intro hgives
    constructor
    · exact fun calls _ _ _ hvalue =>
        (lifecycleState_sound configuredProviderIds hnew calls).active_layers hvalue
    · intro Args Failure rewriteCall foreignCall calls binding name original args hinactive
      rw [ChatValue.invoke, hinactive, if_neg Bool.false_ne_true]
    · exact fun calls last provider hkeeps hleaves =>
        lifecycleState_restored configuredProviderIds hnew (hgives provider) hkeeps hleaves

end Runs

/-! ## A sample -/

namespace WrapperSample

/-- Providers whose attributes are methods of their class. -/
def methods (_ : Nat) : ProviderObject where
  instanceValues := some fun _ => none
  classValues
    | .textChat => .plain (some (.function 1))
    | .textChatStream => .plain (some (.function 2))

/-- Providers that keep their attributes in `__slots__`. -/
def slots (_ : Nat) : ProviderObject where
  instanceValues := none
  classValues
    | .textChat => .managed (.slot (some (.function 1)))
    | .textChatStream => .managed (.slot (some (.function 2)))

/-- A list with one provider of a supported type. -/
def ensureOne : LifecycleCall :=
  .ensure (fun _ => {}) [{ provider := 7, descriptor := .found "openai_chat_completion" "p" }]

/-- The provider is wrapped twice, with a wrap by other code in between. -/
def calls : List LifecycleCall := [ensureOne, .wrapForeign 7 .textChat 5, ensureOne]

end WrapperSample

open WrapperSample in
/-- Methods can be given back. A provider is wrapped, wrapped by other code and wrapped anew: the new
layer is active, the old one is not. -/
theorem wrapper_lifecycle_iff_methods :
    WrapperGuarantees [] methods ∧
      ((lifecycleState [] methods calls).objects 7).get .textChat =
        some (.wrapper ⟨7, 1⟩ .textChat (.foreign 5 (.wrapper ⟨7, 0⟩ .textChat (.function 1)))) ∧
      (lifecycleState [] methods calls).active ⟨7, 1⟩ = true ∧
      (lifecycleState [] methods calls).active ⟨7, 0⟩ = false := by
  have hnew : ∀ provider, (methods provider).Unwrapped := by
    intro provider name value hvalue
    cases name with
    | textChat =>
        rcases hvalue with hown | hclass
        · cases hown
        · rw [← Option.some.inj hclass]
          rfl
    | textChatStream =>
        rcases hvalue with hown | hclass
        · cases hown
        · rw [← Option.some.inj hclass]
          rfl
  refine ⟨(wrapper_lifecycle_iff [] hnew).mpr fun provider name _ => ?_, rfl, rfl, rfl⟩
  cases name with
  | textChat => trivial
  | textChatStream => trivial

open WrapperSample in
/-- A provider with slots is wrapped and left: its slots are empty. -/
theorem slots_emptied :
    (∀ provider, (slots provider).Unwrapped) ∧ ¬ WrapperGuarantees [] slots := by
  constructor
  · intro provider name value hvalue
    cases name with
    | textChat =>
        rcases hvalue with hown | hstored | hdeleted
        · cases hown
        · rw [← Option.some.inj hstored]
          rfl
        · cases Option.some.inj hdeleted
    | textChatStream =>
        rcases hvalue with hown | hstored | hdeleted
        · cases hown
        · rw [← Option.some.inj hstored]
          rfl
        · cases Option.some.inj hdeleted
  · intro h
    have hrestored := h.restored [ensureOne] (.terminate fun _ => {}) 7 ?_ trivial
    · have hget := congrArg (fun object => object.get .textChat) hrestored
      cases hget
    · intro call hcall
      rcases List.mem_cons.mp hcall with rfl | hlast
      · refine ⟨fun _ => rfl, fun visit hvisit _ => ?_⟩
        rw [List.mem_singleton.mp hvisit]
        exact fun _ => rfl
      · rw [List.mem_singleton.mp hlast]
        exact fun _ => rfl

end AstrContinuum
