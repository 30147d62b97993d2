import AstrContinuum.Control.System
import AstrContinuum.Adapters.ProviderObjects
import Mathlib.Data.List.Nodup

/-!
# Wrappers of providers

`ProviderThinkingCompatibility` wraps `text_chat` and `text_chat_stream` of the providers of the host:
it sets attributes of objects that it does not own, and other code may wrap what it finds there. What
the host answers, and which writes it refuses, comes with every call.
-/

namespace AstrContinuum

open Transactional

/-- `_ProviderThinkingBinding`, except for `active`. -/
structure ThinkingBinding where
  ref : BindingRef
  original : ChatAttribute → ChatValue
  wasInstanceAttribute : ChatAttribute → Bool

/-- The writes that the host refuses: those of an installation and those of a restoration. -/
structure HostFaults where
  install : ChatAttribute → Bool := fun _ => false
  restore : ChatAttribute → Bool := fun _ => false

namespace ThinkingBinding

/-- `text_chat_watcher` and `text_chat_stream_watcher`. -/
def watcher (binding : ThinkingBinding) (name : ChatAttribute) : ChatValue :=
  .wrapper binding.ref name (binding.original name)

/-- `_restore`; a write that raises changes nothing. -/
def restore (binding : ThinkingBinding) (faults : HostFaults) (object : ProviderObject)
    (name : ChatAttribute) : ProviderObject :=
  if object.get name ≠ some (binding.watcher name) then object
  else if faults.restore name then object
  else if binding.wasInstanceAttribute name then
    (object.set name (binding.original name)).getD object
  else (object.delete name).getD object

/-- Both attributes are restored. -/
def restoreBoth (binding : ThinkingBinding) (faults : HostFaults) (object : ProviderObject) :
    ProviderObject :=
  binding.restore faults (binding.restore faults object .textChat) .textChatStream

end ThinkingBinding

/-- The providers, `_bindings` in the order of the insertions, `active` of every binding that was ever made,
and how many were made. -/
structure CompatibilityState where
  objects : Nat → ProviderObject
  bindings : List ThinkingBinding
  active : BindingRef → Bool
  created : Nat

/-- What `_provider_descriptor` comes to. -/
inductive DescriptorOutcome
  | raises
  | missing
  | found (providerType providerId : String)

/-- A provider of the list, with what it answers and refuses when its turn comes. -/
structure ProviderVisit where
  provider : Nat
  descriptor : DescriptorOutcome
  faults : HostFaults := {}

namespace CompatibilityState

/-- `self._bindings.get(id(provider))`. -/
def binding (s : CompatibilityState) (provider : Nat) : Option ThinkingBinding :=
  s.bindings.find? fun binding => binding.ref.provider = provider

/-- A binding is no longer active, and its provider is restored. -/
def deactivate (s : CompatibilityState) (faults : HostFaults) (binding : ThinkingBinding) :
    CompatibilityState :=
  { s with
    active := Function.update s.active binding.ref false
    objects := Function.update s.objects binding.ref.provider
      (binding.restoreBoth faults (s.objects binding.ref.provider)) }

/-- `_disable_existing_binding`. -/
def disableExistingBinding (s : CompatibilityState) (faults : HostFaults) (provider : Nat) :
    CompatibilityState :=
  match s.binding provider with
  | none => s
  | some binding =>
      { s with
        bindings := s.bindings.filter fun other => other.ref.provider ≠ provider }.deactivate
        faults binding

/-- `_has_active_wrapper`. -/
def hasActiveWrapper (s : CompatibilityState) (provider : Nat) : Bool :=
  match s.binding provider with
  | none => false
  | some binding =>
      s.active binding.ref &&
        decide ((s.objects provider).get .textChat = some (binding.watcher .textChat)) &&
        decide ((s.objects provider).get .textChatStream = some (binding.watcher .textChatStream))

/-- The binding that `_install` makes over the values of a provider. -/
def newBinding (s : CompatibilityState) (provider : Nat) (textChat textChatStream : ChatValue) :
    ThinkingBinding where
  ref := ⟨provider, s.created⟩
  original
    | .textChat => textChat
    | .textChatStream => textChatStream
  wasInstanceAttribute name := (s.objects provider).instanceHasAttribute name

/-- The wrapper of an attribute is set, unless the host or the object refuses it. -/
def setWatcher (faults : HostFaults) (binding : ThinkingBinding) (object : ProviderObject)
    (name : ChatAttribute) : Option ProviderObject :=
  if faults.install name then none else object.set name (binding.watcher name)

/-- Both wrappers are set; a refused write reverts what was set. -/
def attach (s : CompatibilityState) (faults : HostFaults) (binding : ThinkingBinding) :
    CompatibilityState × Bool :=
  let provider := binding.ref.provider
  let made := { s with active := Function.update s.active binding.ref true, created := s.created + 1 }
  match setWatcher faults binding (s.objects provider) .textChat with
  | none => (made.deactivate faults binding, false)
  | some object =>
      let made := { made with objects := Function.update s.objects provider object }
      match setWatcher faults binding object .textChatStream with
      | none => (made.deactivate faults binding, false)
      | some object =>
          ({ made with
            objects := Function.update s.objects provider object
            bindings := s.bindings ++ [binding] }, true)

/-- `_install`. -/
def install (s : CompatibilityState) (faults : HostFaults) (provider : Nat) :
    CompatibilityState × Bool :=
  let s := s.disableExistingBinding faults provider
  match (s.objects provider).get .textChat, (s.objects provider).get .textChatStream with
  | some textChat, some textChatStream =>
      if textChat.callable && textChatStream.callable then
        s.attach faults (s.newBinding provider textChat textChatStream)
      else (s, false)
  | _, _ => (s, false)

end CompatibilityState

/-- `_OPENAI_COMPAT_PROVIDER_TYPES`. -/
def openaiCompatProviderTypes : List String :=
  ["openai_chat_completion", "groq_chat_completion", "longcat_chat_completion",
    "aihubmix_chat_completion", "openrouter_chat_completion", "xai_chat_completion",
    "xiaomi_chat_completion", "zhipu_chat_completion"]

/-- `_NATIVE_THINKING_PROVIDER_TYPES`. -/
def nativeThinkingProviderTypes : List String :=
  ["anthropic_chat_completion", "googlegenai_chat_completion", "kimi_code_chat_completion",
    "minimax_token_plan", "xiaomi_token_plan"]

section Lifecycle

variable (configuredProviderIds : List String)

/-- `_is_openai_compatible_descriptor`. -/
def isOpenaiCompatibleDescriptor (providerType providerId : String) : Bool :=
  if providerType ∈ nativeThinkingProviderTypes then false
  else decide (providerType ∈ openaiCompatProviderTypes ∨ providerId ∈ configuredProviderIds)

namespace CompatibilityState

/-- The loop over the providers; it ends early, without a count, where a descriptor raises. -/
def visitAll : CompatibilityState → Nat → List ProviderVisit → CompatibilityState × Option Nat
  | s, wrapped, [] => (s, some wrapped)
  | s, wrapped, visit :: rest =>
      match visit.descriptor with
      | .raises => (s, none)
      | .missing => (s.disableExistingBinding visit.faults visit.provider).visitAll wrapped rest
      | .found providerType providerId =>
          if !isOpenaiCompatibleDescriptor configuredProviderIds providerType providerId then
            (s.disableExistingBinding visit.faults visit.provider).visitAll wrapped rest
          else if s.hasActiveWrapper visit.provider then s.visitAll wrapped rest
          else
            let (s', installed) := s.install visit.faults visit.provider
            s'.visitAll (wrapped + installed.toNat) rest

/-- The bindings of providers that are not in the list are disabled. -/
def disableOmitted (s : CompatibilityState) (faults : Nat → HostFaults) (live : List Nat) :
    CompatibilityState :=
  s.bindings.foldl (fun s binding =>
    if binding.ref.provider ∈ live then s
    else s.disableExistingBinding (faults binding.ref.provider) binding.ref.provider) s

/-- `ensure`, once the host has returned its list. -/
def ensure (s : CompatibilityState) (faults : Nat → HostFaults) (visits : List ProviderVisit) :
    CompatibilityState × Option Nat :=
  (s.disableOmitted faults (visits.map ProviderVisit.provider)).visitAll configuredProviderIds 0
    visits

/-- `terminate`. -/
def terminate (s : CompatibilityState) (faults : Nat → HostFaults) : CompatibilityState :=
  s.bindings.foldl (fun s binding => s.deactivate (faults binding.ref.provider) binding)
    { s with bindings := [] }

/-- Other code wraps what an attribute holds, where it can be set. -/
def wrapForeign (s : CompatibilityState) (provider : Nat) (name : ChatAttribute) (id : Nat) :
    CompatibilityState :=
  match (s.objects provider).get name with
  | none => s
  | some value =>
      match (s.objects provider).set name (.foreign id value) with
      | none => s
      | some object => { s with objects := Function.update s.objects provider object }

end CompatibilityState

/-- What happens to the providers. `ensureUnavailable` is `ensure` where the host has no list. -/
inductive LifecycleCall
  | ensure (faults : Nat → HostFaults) (visits : List ProviderVisit)
  | ensureUnavailable
  | terminate (faults : Nat → HostFaults)
  | wrapForeign (provider : Nat) (name : ChatAttribute) (id : Nat)

/-- One call; `ensure` returns how many providers it wrapped, or nothing where it raises. -/
def CompatibilityState.step (s : CompatibilityState) :
    LifecycleCall → CompatibilityState × Option Nat
  | .ensure faults visits => s.ensure configuredProviderIds faults visits
  | .ensureUnavailable => (s, some 0)
  | .terminate faults => (s.terminate faults, none)
  | .wrapForeign provider name id => (s.wrapForeign provider name id, none)

/-- A new `ProviderThinkingCompatibility` over the providers of the host. -/
def compatibilitySystem (objects : Nat → ProviderObject) :
    System CompatibilityState LifecycleCall (Option Nat) Empty where
  initial := ⟨objects, [], fun _ => false, 0⟩
  step s call := .ok (s.step configuredProviderIds call)

end Lifecycle

end AstrContinuum
