import AstrContinuum.Compaction.Providers

/-!
# Sessions keep their providers

Over any calls on a registry of providers a session resolves to nothing but what was remembered last for
it, and it does so while fewer other sessions than the registry has room for are called
(`provider_affinity`).
-/

namespace AstrContinuum

open Relational

namespace SessionProviderRegistry

variable {Binding : Type} {registry : SessionProviderRegistry Binding} {key : String} {binding : Binding}

/-- Without an override a session resolves to a binding exactly when the registry has it. -/
theorem resolve_ok_iff (hoverride : registry.overrideConfigured = false) :
    (registry.resolve key).1 = .ok binding ↔ valueOf key registry.providers = some (some binding) := by
  unfold resolve
  rw [if_neg (by rw [hoverride]; exact Bool.false_ne_true)]
  split
  · rename_i found hfound
    show (Except.ok found : Except String Binding) = .ok binding ↔ _
    rw [hfound]
    constructor
    · intro hsame
      rw [Except.ok.inj hsame]
    · intro hsame
      rw [Option.some.inj (Option.some.inj hsame)]
  · rename_i hnone
    constructor
    · intro hsame
      cases hsame
    · intro hsome
      exact absurd hsome (hnone binding)

/-- With one, every session resolves to it. -/
theorem resolve_override (hoverride : registry.overrideConfigured = true) (key : String) :
    registry.resolve key =
      ((registry.override.map Except.ok).getD (.error extractiveProviderUnavailable), registry) := by
  unfold resolve
  rw [if_pos hoverride]
  cases registry.override with
  | none => rfl
  | some binding => rfl

/-- After resolving a session, its entry is the newest one. -/
theorem resolve_providers (registry : SessionProviderRegistry Binding) (key : String)
    (hoverride : registry.overrideConfigured = false) :
    (registry.resolve key).2.providers = registry.providers ∧
        (∀ binding, valueOf key registry.providers ≠ some (some binding)) ∨
      ∃ binding, valueOf key registry.providers = some (some binding) ∧
        (registry.resolve key).2.providers = touch key (some binding) registry.providers := by
  unfold resolve
  rw [if_neg (by rw [hoverride]; exact Bool.false_ne_true)]
  split
  · rename_i found hfound
    exact .inr ⟨found, hfound, rfl⟩
  · rename_i hnone
    exact .inl ⟨rfl, fun binding hsome => hnone binding hsome⟩

/-- Resolving keeps the settings. -/
theorem resolve_settings (registry : SessionProviderRegistry Binding) (key : String) :
    (registry.resolve key).2.overrideConfigured = registry.overrideConfigured ∧
      (registry.resolve key).2.override = registry.override ∧
      (registry.resolve key).2.maxEntries = registry.maxEntries := by
  unfold resolve
  split_ifs
  · split <;> exact ⟨rfl, rfl, rfl⟩
  · split <;> exact ⟨rfl, rfl, rfl⟩

end SessionProviderRegistry

namespace RegistryCall

variable {Binding : Type} {registry : SessionProviderRegistry Binding} {key : String}
  {value : Option Binding}

/-- A call keeps the settings. -/
theorem run_settings (call : RegistryCall Binding) (registry : SessionProviderRegistry Binding) :
    (call.run registry).overrideConfigured = registry.overrideConfigured ∧
      (call.run registry).override = registry.override ∧
      (call.run registry).maxEntries = registry.maxEntries := by
  cases call with
  | remember key binding => exact ⟨rfl, rfl, rfl⟩
  | rememberUnavailable key => exact ⟨rfl, rfl, rfl⟩
  | resolve key => exact registry.resolve_settings key

/-- What a call remembers is the newest entry. -/
theorem run_remembers {call : RegistryCall Binding} (hcall : call.value = some value) :
    (call.run registry).providers = evict registry.maxEntries
      (touch call.key value registry.providers) := by
  cases call with
  | remember key binding =>
      obtain rfl := Option.some.inj hcall
      rfl
  | rememberUnavailable key =>
      obtain rfl := Option.some.inj hcall
      rfl
  | resolve key => cases hcall

/-- The entries after a call are those before it, but for what the call remembers for its session. -/
theorem mem_run (hoverride : registry.overrideConfigured = false) {call : RegistryCall Binding}
    (hmem : (key, value) ∈ (call.run registry).providers) :
    call.key = key ∧ call.value = some value ∨
      (key, value) ∈ registry.providers ∧ (call.key = key → call.value = none) := by
  cases hvalue : call.value with
  | some remembered =>
      rw [run_remembers hvalue] at hmem
      rcases mem_touch.mp (List.mem_of_mem_drop hmem) with ⟨hold, hkey⟩ | hnew
      · exact .inr ⟨hold, fun hsame => absurd hsame.symm hkey⟩
      · obtain ⟨rfl, rfl⟩ := Prod.mk.inj hnew
        exact .inl ⟨rfl, rfl⟩
  | none =>
      refine .inr ⟨?_, fun _ => rfl⟩
      cases call with
      | remember other binding => cases hvalue
      | rememberUnavailable other => cases hvalue
      | resolve other =>
          change (key, value) ∈ (registry.resolve other).2.providers at hmem
          rcases registry.resolve_providers other hoverride with ⟨hsame, -⟩ | ⟨binding, hfound, hsame⟩
          · rwa [hsame] at hmem
          · rw [hsame] at hmem
            rcases mem_touch.mp hmem with ⟨hold, -⟩ | hnew
            · exact hold
            · obtain ⟨rfl, rfl⟩ := Prod.mk.inj hnew
              exact mem_of_valueOf hfound

/-- A call that remembers nothing for a session keeps its entry, if few other sessions are newer. -/
theorem run_holds {binding : Binding} {newer : Finset String}
    (hoverride : registry.overrideConfigured = false)
    (hroom : newer.card < registry.maxEntries) {call : RegistryCall Binding}
    (hcall : call.key = key ∧ call.value = none ∨ call.key ≠ key ∧ call.key ∈ newer)
    (h : Holds key (some binding) newer registry.providers) :
    Holds key (some binding) newer (call.run registry).providers := by
  cases hvalue : call.value with
  | some remembered =>
      rcases hcall with ⟨-, hnone⟩ | ⟨hother, hnewer⟩
      · rw [hvalue] at hnone
        cases hnone
      · rw [run_remembers hvalue]
        exact (h.touch hother hnewer remembered).evict (registry.distinct.touch _ _) hroom
  | none =>
      cases call with
      | remember other found => cases hvalue
      | rememberUnavailable other => cases hvalue
      | resolve other =>
          show Holds key (some binding) newer (registry.resolve other).2.providers
          rcases registry.resolve_providers other hoverride with ⟨hsame, -⟩ | ⟨found, hfound, hsame⟩
          · rw [hsame]
            exact h
          · rw [hsame]
            rcases hcall with ⟨hkey, -⟩ | ⟨hother, hnewer⟩
            · -- resolving the session itself makes its entry the newest again
              obtain rfl : other = key := hkey
              rw [valueOf_of_mem registry.distinct h.mem] at hfound
              rw [← Option.some.inj hfound]
              exact holds_touch _ _ _ _
            · exact h.touch hother hnewer _

end RegistryCall

section Runs

variable {Binding : Type} {registry : SessionProviderRegistry Binding} {key : String}

/-- Calls keep the settings, the override among them. -/
theorem after_settings (registry : SessionProviderRegistry Binding)
    (calls : List (RegistryCall Binding)) :
    (registry.after calls).overrideConfigured = registry.overrideConfigured ∧
      (registry.after calls).override = registry.override ∧
      (registry.after calls).maxEntries = registry.maxEntries := by
  induction calls generalizing registry with
  | nil => exact ⟨rfl, rfl, rfl⟩
  | cons call calls ih =>
      obtain ⟨hconfigured, hoverride, hentries⟩ := ih (call.run registry)
      obtain ⟨hconfigured', hoverride', hentries'⟩ := call.run_settings registry
      exact ⟨hconfigured.trans hconfigured', hoverride.trans hoverride', hentries.trans hentries'⟩

/-- One call more. -/
theorem after_append (registry : SessionProviderRegistry Binding) (calls : List (RegistryCall Binding))
    (call : RegistryCall Binding) : registry.after (calls ++ [call]) = call.run
      (registry.after calls) := by
  unfold SessionProviderRegistry.after
  rw [List.foldl_append]
  rfl

/-- What is remembered last, with one call more. -/
theorem lastRemembered_append (calls : List (RegistryCall Binding)) (call : RegistryCall Binding) :
    lastRemembered key (calls ++ [call]) =
      if call.key = key then call.value.or (lastRemembered key calls) else lastRemembered key calls := by
  unfold lastRemembered
  rw [List.foldl_append]
  rfl

/-- Every entry is what was remembered last for its session, or stood there before all calls. -/
theorem mem_after (hoverride : registry.overrideConfigured = false) {value : Option Binding}
    (calls : List (RegistryCall Binding)) (hmem : (key, value) ∈ (registry.after calls).providers) :
    (lastRemembered key calls).or (valueOf key registry.providers) = some value := by
  -- by the last call: either it remembers the entry, or the entry stood there before it
  induction calls using List.reverseRecOn generalizing value with
  | nil => exact valueOf_of_mem registry.distinct hmem
  | append_singleton calls call ih =>
      rw [after_append] at hmem
      rw [lastRemembered_append]
      have hconfigured := (after_settings registry calls).1.trans hoverride
      rcases RegistryCall.mem_run hconfigured hmem with ⟨hkey, hvalue⟩ | ⟨hold, hnone⟩
      · rw [if_pos hkey, hvalue]
        rfl
      · split_ifs with hkey
        · rw [hnone hkey, Option.none_or]
          exact ih hold
        · exact ih hold

/-- An entry survives calls for fewer other sessions than there is room for. -/
theorem holds_after {binding : Binding} {newer : Finset String}
    (hoverride : registry.overrideConfigured = false)
    (hroom : newer.card < registry.maxEntries) {later : List (RegistryCall Binding)}
    (hlater : ∀ call ∈ later, call.key = key ∧ call.value = none ∨ call.key ≠ key ∧ call.key ∈ newer)
    (h : Holds key (some binding) newer registry.providers) :
    Holds key (some binding) newer (registry.after later).providers := by
  induction later generalizing registry with
  | nil => exact h
  | cons call later ih =>
      obtain ⟨hconfigured, -, hentries⟩ := call.run_settings registry
      refine ih (hconfigured.trans hoverride) (hentries.symm ▸ hroom)
        (fun next hnext => hlater next (List.mem_cons_of_mem _ hnext)) ?_
      exact RegistryCall.run_holds hoverride hroom (hlater call List.mem_cons_self) h

/-- What is remembered or resolved becomes the newest entry. -/
theorem holds_last {binding : Binding} {newer : Finset String}
    (hoverride : registry.overrideConfigured = false) (hroom : newer.card < registry.maxEntries)
    {last : RegistryCall Binding}
    (hlast : last = .remember key binding ∨
      last = .resolve key ∧ (registry.resolve key).1 = .ok binding) :
    Holds key (some binding) newer (last.run registry).providers := by
  rcases hlast with rfl | ⟨rfl, hresolved⟩
  · have hvalue : (RegistryCall.remember key binding).value = some (some binding) := rfl
    rw [RegistryCall.run_remembers hvalue]
    exact (holds_touch key (some binding) _ _).evict (registry.distinct.touch _ _) hroom
  · have hfound := (SessionProviderRegistry.resolve_ok_iff hoverride).mp hresolved
    show Holds _ _ _ (registry.resolve key).2.providers
    rcases registry.resolve_providers key hoverride with ⟨-, hnone⟩ | ⟨found, hsome, hsame⟩
    · exact absurd hfound (hnone binding)
    · rw [hsame, Option.some.inj (hsome.symm.trans hfound)]
      exact holds_touch _ _ _ _

/-- It is resolved after calls for fewer other sessions than there is room for. -/
theorem resolve_later {binding : Binding} (hoverride : registry.overrideConfigured = false)
    {last : RegistryCall Binding}
    (hlast : last = .remember key binding ∨
      last = .resolve key ∧ (registry.resolve key).1 = .ok binding)
    {later : List (RegistryCall Binding)} (hlater : ∀ call ∈ later, call.key = key → call.value = none)
    (hroom : ((later.map RegistryCall.key).toFinset.erase key).card < registry.maxEntries) :
    (((last.run registry).after later).resolve key).1 = .ok binding := by
  obtain ⟨hconfigured, -, hentries⟩ := last.run_settings registry
  have hothers : ∀ call ∈ later, call.key = key ∧ call.value = none ∨
      call.key ≠ key ∧ call.key ∈ (later.map RegistryCall.key).toFinset.erase key := by
    intro call hcall
    by_cases hkey : call.key = key
    · exact .inl ⟨hkey, hlater call hcall hkey⟩
    · exact .inr ⟨hkey, Finset.mem_erase.mpr ⟨hkey, List.mem_toFinset.mpr (List.mem_map_of_mem hcall)⟩⟩
  have hstill := holds_after (hconfigured.trans hoverride) (hentries.symm ▸ hroom) hothers
    (holds_last hoverride hroom hlast)
  have hsettings := (after_settings (last.run registry) later).1
  exact (SessionProviderRegistry.resolve_ok_iff (hsettings.trans (hconfigured.trans hoverride))).mpr
    (valueOf_of_mem (SessionProviderRegistry.distinct _) hstill.mem)

end Runs

/-- What a registry guarantees after some calls. -/
structure ProviderAffinity {Binding : Type} (registry : SessionProviderRegistry Binding)
    (calls : List (RegistryCall Binding)) : Prop where
  /-- The override of the registry answers for every session. -/
  overridden : registry.overrideConfigured = true → ∀ key, ((registry.after calls).resolve key).1 =
    ((registry.override.map Except.ok).getD (.error extractiveProviderUnavailable))
  /-- A session resolves to what was remembered last for it, never to an older binding. -/
  fresh : registry.overrideConfigured = false → ∀ key binding,
    ((registry.after calls).resolve key).1 = .ok binding →
      (lastRemembered key calls).or (valueOf key registry.providers) = some (some binding)
  /-- What was just remembered is resolved. -/
  remembered : registry.overrideConfigured = false → ∀ key binding,
    ((registry.after (calls ++ [.remember key binding])).resolve key).1 = .ok binding
  /-- A session that was just resolved, or remembered, is resolved again after calls for fewer other
  sessions than there is room for, unless one of them remembers something else for it. -/
  kept : registry.overrideConfigured = false → ∀ key binding (last : RegistryCall Binding),
    last = .remember key binding ∨
        last = .resolve key ∧ ((registry.after calls).resolve key).1 = .ok binding →
      ∀ later : List (RegistryCall Binding), (∀ call ∈ later, call.key = key → call.value = none) →
        ((later.map RegistryCall.key).toFinset.erase key).card < registry.maxEntries →
          ((registry.after (calls ++ [last] ++ later)).resolve key).1 = .ok binding

/-- Sessions keep their providers over any calls. -/
theorem provider_affinity {Binding : Type} (registry : SessionProviderRegistry Binding)
    (calls : List (RegistryCall Binding)) : ProviderAffinity registry calls := by
  obtain ⟨hconfigured, hkept, hentries⟩ := after_settings registry calls
  refine ⟨fun hoverride key => ?_, fun hoverride key binding hresolved => ?_,
    fun hoverride key binding => ?_, fun hoverride key binding last hlast later hlater hroom => ?_⟩
  · rw [SessionProviderRegistry.resolve_override (hconfigured.trans hoverride), hkept]
  · have hfound := (SessionProviderRegistry.resolve_ok_iff (hconfigured.trans hoverride)).mp hresolved
    exact mem_after hoverride calls (mem_of_valueOf hfound)
  · have hnone : ∀ call ∈ ([] : List (RegistryCall Binding)), call.key = key → call.value = none :=
      fun _ hcall => absurd hcall List.not_mem_nil
    rw [after_append]
    exact resolve_later (hconfigured.trans hoverride) (.inl rfl) hnone
      (Nat.lt_of_lt_of_le Nat.zero_lt_one (registry.after calls).maxEntries_ok)
  · have hafter : registry.after (calls ++ [last] ++ later) =
        (last.run (registry.after calls)).after later := by
      rw [← after_append]
      exact List.foldl_append
    rw [hafter]
    exact resolve_later (hconfigured.trans hoverride) hlast hlater (hentries.symm ▸ hroom)

end AstrContinuum
