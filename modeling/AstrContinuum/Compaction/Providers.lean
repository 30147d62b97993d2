import AstrContinuum.Relational.Recency

/-!
# Providers of sessions

`SessionProviderRegistry` of `compaction/astrbot_backend.py` remembers for each session the provider of
its last request, or that there was none, and hands it to the compaction worker. It keeps a bounded
number of sessions, those that were used last, unless the settings name one provider for all of them. A
session is its `session_key_hash`; what a binding holds does not matter here.
-/

namespace AstrContinuum

open Relational

/-- `SessionProviderRegistry`. -/
structure SessionProviderRegistry (Binding : Type) where
  override : Option Binding
  overrideConfigured : Bool
  maxEntries : Nat
  providers : List (String × Option Binding)
  override_ok : override.isSome = true → overrideConfigured = true
  maxEntries_ok : 1 ≤ maxEntries
  distinct : DistinctKeys providers
  bounded : providers.length ≤ maxEntries

/-- What `resolve` raises. -/
def extractiveProviderUnavailable : String := "EXTRACTIVE_PROVIDER_UNAVAILABLE"

namespace SessionProviderRegistry

variable {Binding : Type}

/-- `SessionProviderRegistry(...)`. -/
def create (override : Option Binding) (overrideConfigured : Bool) (maxEntries : Nat)
    (h : 1 ≤ maxEntries) :
    SessionProviderRegistry Binding where
  override := override
  overrideConfigured := override.isSome || overrideConfigured
  maxEntries := maxEntries
  providers := []
  override_ok hsome := by rw [hsome, Bool.true_or]
  maxEntries_ok := h
  distinct := List.nodup_nil
  bounded := Nat.zero_le _

/-- `_remember_value`. -/
def rememberValue (registry : SessionProviderRegistry Binding) (key : String) (binding : Option Binding) :
    SessionProviderRegistry Binding :=
  { registry with
    providers := evict registry.maxEntries (touch key binding registry.providers)
    distinct := (registry.distinct.touch key binding).evict registry.maxEntries
    bounded := length_evict_le _ _ }

/-- `remember`. -/
def remember (registry : SessionProviderRegistry Binding) (key : String) (binding : Binding) :
    SessionProviderRegistry Binding :=
  registry.rememberValue key (some binding)

/-- `remember_unavailable`. -/
def rememberUnavailable (registry : SessionProviderRegistry Binding) (key : String) :
    SessionProviderRegistry Binding :=
  registry.rememberValue key none

/-- `self._providers.move_to_end(key)`, of a key with a binding. -/
def moveToEnd (registry : SessionProviderRegistry Binding) (key : String) (binding : Binding)
    (h : valueOf key registry.providers = some (some binding)) : SessionProviderRegistry Binding :=
  { registry with
    providers := touch key (some binding) registry.providers
    distinct := registry.distinct.touch key (some binding)
    bounded := (length_touch_le (mem_of_valueOf h) _).trans registry.bounded }

/-- `resolve`: the binding or the code of a `CompilerBackendDeferred`, and the registry after it. -/
def resolve (registry : SessionProviderRegistry Binding) (key : String) :
    Except String Binding × SessionProviderRegistry Binding :=
  if registry.overrideConfigured = true then
    match registry.override with
    | none => (.error extractiveProviderUnavailable, registry)
    | some binding => (.ok binding, registry)
  else
    match h : valueOf key registry.providers with
    | some (some binding) => (.ok binding, registry.moveToEnd key binding h)
    | _ => (.error extractiveProviderUnavailable, registry)

end SessionProviderRegistry

/-- A call on a registry. -/
inductive RegistryCall (Binding : Type)
  | remember (key : String) (binding : Binding)
  | rememberUnavailable (key : String)
  | resolve (key : String)

namespace RegistryCall

variable {Binding : Type}

/-- The session of a call. -/
def key : RegistryCall Binding → String
  | .remember key _ | .rememberUnavailable key | .resolve key => key

/-- What a call remembers for its session. -/
def value : RegistryCall Binding → Option (Option Binding)
  | .remember _ binding => some (some binding)
  | .rememberUnavailable _ => some none
  | .resolve _ => none

/-- The registry after a call. -/
def run (registry : SessionProviderRegistry Binding) : RegistryCall Binding →
    SessionProviderRegistry Binding
  | .remember key binding => registry.remember key binding
  | .rememberUnavailable key => registry.rememberUnavailable key
  | .resolve key => (registry.resolve key).2

end RegistryCall

/-- The registry after some calls. -/
def SessionProviderRegistry.after {Binding : Type} (registry : SessionProviderRegistry Binding)
    (calls : List (RegistryCall Binding)) : SessionProviderRegistry Binding :=
  calls.foldl RegistryCall.run registry

/-- What was remembered last for a session. -/
def lastRemembered {Binding : Type} (key : String) (calls : List (RegistryCall Binding)) :
    Option (Option Binding) :=
  calls.foldl (fun last call => if call.key = key then call.value.or last else last) none

end AstrContinuum
