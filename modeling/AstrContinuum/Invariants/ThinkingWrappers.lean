import AstrContinuum.Adapters.ThinkingWrappers
import Mathlib.Order.Basic

/-!
# Invariants of the wrappers

`Sound` holds of every reachable state: a provider has one binding at most, an active layer is that of a
binding in the table, and the layers of a call chain belong to its provider and were made one after the
other. `Restorable` says what a provider looks like whose attributes nobody else has wrapped, where taking
a wrapper back leaves what was there.
-/

namespace AstrContinuum

/-! ## Values -/

/-- The layers of a value belong to one provider. They were made before `bound`, the inner ones first. -/
def ChatValue.Owned (provider bound : Nat) (value : ChatValue) : Prop :=
  value.layers.Pairwise (fun outer inner => inner.serial < outer.serial) ∧
    ∀ layer ∈ value.layers, layer.provider = provider ∧ layer.serial < bound

namespace ChatValue.Owned

variable {provider bound later : Nat} {value : ChatValue}

/-- More bindings may have been made. -/
theorem mono (h : value.Owned provider bound) (hle : bound ≤ later) : value.Owned provider later :=
  ⟨h.1, fun layer hlayer => ⟨(h.2 layer hlayer).1, Nat.lt_of_lt_of_le (h.2 layer hlayer).2 hle⟩⟩

/-- A wrapper is a new layer. -/
theorem wrapper (h : value.Owned provider bound) (hlt : bound < later) (name : ChatAttribute) :
    (ChatValue.wrapper ⟨provider, bound⟩ name value).Owned provider later := by
  refine ⟨List.pairwise_cons.mpr ⟨fun layer hlayer => (h.2 layer hlayer).2, h.1⟩, ?_⟩
  refine List.forall_mem_cons.mpr ⟨⟨rfl, hlt⟩, fun layer hlayer => ?_⟩
  exact ⟨(h.2 layer hlayer).1, Nat.lt_trans (h.2 layer hlayer).2 hlt⟩

end ChatValue.Owned

/-! ## Objects -/

/-- No value of a provider goes through a wrapper. -/
def ProviderObject.Unwrapped (object : ProviderObject) : Prop :=
  ∀ name value, object.Holds name value → value.layers = []

/-- The layers of the values of a provider belong to it. -/
def ProviderObject.Owned (provider bound : Nat) (object : ProviderObject) : Prop :=
  ∀ name value, object.Holds name value → value.Owned provider bound

namespace ProviderObject

variable {provider bound later : Nat} {object written : ProviderObject} {name other : ChatAttribute}
  {value found : ChatValue}

/-- A provider without wrappers has no foreign layers. -/
theorem Unwrapped.owned (h : object.Unwrapped) : object.Owned provider bound := by
  intro name value hvalue
  unfold ChatValue.Owned
  rw [h name value hvalue]
  exact ⟨List.Pairwise.nil, fun _ hlayer => absurd hlayer List.not_mem_nil⟩

namespace Owned

/-- More bindings may have been made. -/
theorem mono (h : object.Owned provider bound) (hle : bound ≤ later) :
    object.Owned provider later :=
  fun name value hvalue => (h name value hvalue).mono hle

/-- A value of the provider is set. -/
theorem set (h : object.Owned provider bound) (hset : object.set name value = some written)
    (hvalue : value.Owned provider bound) : written.Owned provider bound := by
  intro other found hfound
  rcases holds_of_set hset hfound with rfl | hold
  · exact hvalue
  · exact h other found hold

/-- A value is deleted. -/
theorem delete (h : object.Owned provider bound) (hdelete : object.delete name = some written) :
    written.Owned provider bound :=
  fun other found hfound => h other found (holds_of_delete hdelete hfound)

end Owned

end ProviderObject

namespace ThinkingBinding

variable {bound : Nat} {binding : ThinkingBinding} {object : ProviderObject}

/-- The layers below a binding belong to its provider and were made before it. -/
def Owned (bound : Nat) (binding : ThinkingBinding) : Prop :=
  binding.ref.serial < bound ∧
    ∀ name, (binding.original name).Owned binding.ref.provider binding.ref.serial

/-- A restoration leaves an object alone, sets what the attribute held, or deletes the wrapper. -/
theorem restore_cases (binding : ThinkingBinding) (faults : HostFaults) (object : ProviderObject)
    (name : ChatAttribute) :
    binding.restore faults object name = object ∨
      object.set name (binding.original name) = some (binding.restore faults object name) ∨
      object.delete name = some (binding.restore faults object name) := by
  unfold ThinkingBinding.restore
  split
  · exact .inl rfl
  · split
    · exact .inl rfl
    · split
      · cases object.set name (binding.original name) with
        | none => exact .inl rfl
        | some written => exact .inr (.inl rfl)
      · cases object.delete name with
        | none => exact .inl rfl
        | some written => exact .inr (.inr rfl)

/-- A restoration leaves the values of the provider. -/
theorem Owned.restore (h : binding.Owned bound) (hobject : object.Owned binding.ref.provider bound)
    (faults : HostFaults) (name : ChatAttribute) :
    (binding.restore faults object name).Owned binding.ref.provider bound := by
  rcases binding.restore_cases faults object name with hsame | hset | hdelete
  · rwa [hsame]
  · exact hobject.set hset ((h.2 name).mono (Nat.le_of_lt h.1))
  · exact hobject.delete hdelete

/-- Both restorations do. -/
theorem Owned.restoreBoth (h : binding.Owned bound)
    (hobject : object.Owned binding.ref.provider bound) (faults : HostFaults) :
    (binding.restoreBoth faults object).Owned binding.ref.provider bound :=
  h.restore (h.restore hobject faults .textChat) faults .textChatStream

/-- The wrappers of a binding belong to its provider. -/
theorem Owned.watcher (h : binding.Owned bound) (name : ChatAttribute) :
    (binding.watcher name).Owned binding.ref.provider bound :=
  (h.2 name).wrapper h.1 name

end ThinkingBinding

/-! ## Sound states -/

/-- What holds of the table, the flags and the values in every reachable state. -/
structure CompatibilityState.Sound (s : CompatibilityState) : Prop where
  providers : (s.bindings.map fun binding => binding.ref.provider).Nodup
  active : ∀ ref, s.active ref = true → ∃ binding ∈ s.bindings, binding.ref = ref
  bindings : ∀ binding ∈ s.bindings, binding.Owned s.created
  objects : ∀ provider, (s.objects provider).Owned provider s.created

namespace CompatibilityState

variable {s s' : CompatibilityState} {binding : ThinkingBinding} {provider : Nat}

/-- The binding of a provider is in the table. -/
theorem binding_eq_some (h : s.binding provider = some binding) :
    binding ∈ s.bindings ∧ binding.ref.provider = provider :=
  ⟨List.mem_of_find?_eq_some h, of_decide_eq_true (List.find?_some h :)⟩

/-- A provider without a binding is not in the table. -/
theorem binding_eq_none :
    s.binding provider = none ↔ ∀ binding ∈ s.bindings, binding.ref.provider ≠ provider := by
  simp [CompatibilityState.binding]

/-- A disabled provider has no binding. -/
theorem binding_disableExistingBinding_self (s : CompatibilityState) (faults : HostFaults)
    (provider : Nat) : (s.disableExistingBinding faults provider).binding provider = none := by
  unfold disableExistingBinding
  cases hbinding : s.binding provider with
  | none => exact hbinding
  | some binding =>
      refine binding_eq_none.mpr fun other hother => ?_
      exact of_decide_eq_true (List.mem_filter.mp hother).2

/-- A wrapper that is set was refused by nobody. -/
theorem setWatcher_eq_some {faults : HostFaults} {object written : ProviderObject}
    {name : ChatAttribute} (h : setWatcher faults binding object name = some written) :
    faults.install name = false ∧ object.set name (binding.watcher name) = some written := by
  unfold setWatcher at h
  split at h
  · cases h
  · exact ⟨Bool.eq_false_iff.mpr ‹_›, h⟩

namespace Sound

/-- A state that makes no binding and keeps those whose layers are active is sound. -/
theorem changed (h : s.Sound) (hbindings : s'.bindings.Sublist s.bindings)
    (hcreated : s.created ≤ s'.created)
    (hactive : ∀ binding ∈ s.bindings, s'.active binding.ref = true → binding ∈ s'.bindings)
    (hflags : ∀ ref, s'.active ref = true → s.active ref = true)
    (hobjects : ∀ provider, (s'.objects provider).Owned provider s'.created) : s'.Sound where
  providers := h.providers.sublist (hbindings.map _)
  active := by
    intro ref href
    obtain ⟨binding, hbinding, rfl⟩ := h.active ref (hflags ref href)
    exact ⟨binding, hactive binding hbinding href, rfl⟩
  bindings := fun binding hbinding =>
    have howned := h.bindings binding (hbindings.subset hbinding)
    ⟨Nat.lt_of_lt_of_le howned.1 hcreated, howned.2⟩
  objects := hobjects

/-- One object is replaced. -/
theorem update_objects (h : ∀ provider, (s.objects provider).Owned provider s.created) {later : Nat}
    (hle : s.created ≤ later) {object : ProviderObject} (hobject : object.Owned provider later)
    (other : Nat) :
    (Function.update s.objects provider object other).Owned other later := by
  by_cases hother : other = provider
  · subst hother
    rwa [Function.update_self]
  · rw [Function.update_of_ne hother]
    exact (h other).mono hle

/-- `_disable_existing_binding` keeps a state sound. -/
theorem disableExistingBinding (h : s.Sound) (faults : HostFaults) (provider : Nat) :
    (s.disableExistingBinding faults provider).Sound := by
  unfold CompatibilityState.disableExistingBinding
  cases hbinding : s.binding provider with
  | none => exact h
  | some binding =>
      obtain ⟨hmem, hprovider⟩ := binding_eq_some hbinding
      have howned := h.bindings binding hmem
      dsimp only
      refine h.changed List.filter_sublist (Nat.le_refl s.created) ?_ ?_ ?_
      · -- a binding that leaves the table is the one whose flag is cleared
        intro other hother hactive
        refine List.mem_filter.mpr ⟨hother, decide_eq_true fun hsame => ?_⟩
        obtain rfl : other = binding :=
          List.inj_on_of_nodup_map h.providers hother hmem (hsame.trans hprovider.symm)
        simp [deactivate] at hactive
      · intro ref href
        by_cases hsame : ref = binding.ref
        · subst hsame
          simp [deactivate] at href
        · simpa [deactivate, Function.update_of_ne hsame] using href
      · exact update_objects h.objects (Nat.le_refl s.created)
          (howned.restoreBoth (h.objects _) faults)

/-- An attempt to attach wrappers to a provider without a binding keeps a state sound. -/
theorem attach (h : s.Sound) (faults : HostFaults)
    (hfree : s.binding binding.ref.provider = none) (howned : binding.Owned (s.created + 1)) :
    (s.attach faults binding).1.Sound := by
  have hobject := (h.objects binding.ref.provider).mono (Nat.le_succ s.created)
  have hcleared : ∀ ref, Function.update (Function.update s.active binding.ref true) binding.ref
      false ref = true → s.active ref = true := by
    intro ref href
    by_cases hsame : ref = binding.ref
    · subst hsame
      simp at href
    · simpa [Function.update_of_ne hsame] using href
  unfold CompatibilityState.attach
  dsimp only
  split
  · refine h.changed (List.Sublist.refl _) (Nat.le_succ _) (fun _ hmem _ => hmem) hcleared ?_
    exact update_objects h.objects (Nat.le_succ _) (howned.restoreBoth hobject faults)
  · rename_i half hhalf
    have hset := hobject.set (setWatcher_eq_some hhalf).2 (howned.watcher .textChat)
    split
    · refine h.changed (List.Sublist.refl _) (Nat.le_succ _) (fun _ hmem _ => hmem) hcleared ?_
      simp only [deactivate, Function.update_self, Function.update_idem]
      exact update_objects h.objects (Nat.le_succ _) (howned.restoreBoth hset faults)
    · rename_i full hfull
      have hboth := hset.set (setWatcher_eq_some hfull).2 (howned.watcher .textChatStream)
      constructor
      · rw [List.map_append, List.map_singleton]
        refine h.providers.append (List.nodup_singleton _) ?_
        rw [List.disjoint_singleton]
        intro hmem
        obtain ⟨other, hother, hsame⟩ := List.mem_map.mp hmem
        exact binding_eq_none.mp hfree other hother hsame
      · intro ref href
        by_cases hsame : ref = binding.ref
        · exact ⟨binding, List.mem_append_right _ List.mem_cons_self, hsame.symm⟩
        · simp only [Function.update_of_ne hsame] at href
          obtain ⟨other, hother, rfl⟩ := h.active ref href
          exact ⟨other, List.mem_append_left _ hother, rfl⟩
      · intro other hother
        rcases List.mem_append.mp hother with hold | hnew
        · exact ⟨Nat.lt_succ_of_lt (h.bindings other hold).1, (h.bindings other hold).2⟩
        · exact List.mem_singleton.mp hnew ▸ howned
      · exact update_objects h.objects (Nat.le_succ _) hboth

/-- The new binding of a provider has its layers below it. -/
theorem newBinding_owned (h : s.Sound) {textChat textChatStream : ChatValue}
    (htextChat : (s.objects provider).get .textChat = some textChat)
    (htextChatStream : (s.objects provider).get .textChatStream = some textChatStream) :
    (s.newBinding provider textChat textChatStream).Owned (s.created + 1) := by
  refine ⟨Nat.lt_succ_self _, fun name => ?_⟩
  cases name with
  | textChat => exact h.objects provider _ _ (ProviderObject.holds_of_get htextChat)
  | textChatStream => exact h.objects provider _ _ (ProviderObject.holds_of_get htextChatStream)

/-- `_install` keeps a state sound. -/
theorem install (h : s.Sound) (faults : HostFaults) (provider : Nat) :
    (s.install faults provider).1.Sound := by
  have hdisabled := h.disableExistingBinding faults provider
  have hfree := binding_disableExistingBinding_self s faults provider
  unfold CompatibilityState.install
  dsimp only
  generalize s.disableExistingBinding faults provider = cleared at hdisabled hfree ⊢
  split
  · rename_i textChat textChatStream htextChat htextChatStream
    split
    · exact hdisabled.attach faults hfree (hdisabled.newBinding_owned htextChat htextChatStream)
    · exact hdisabled
  · exact hdisabled

/-- The loop over the providers keeps a state sound. -/
theorem visitAll (configuredProviderIds : List String) (visits : List ProviderVisit) :
    ∀ (s : CompatibilityState) (wrapped : Nat), s.Sound →
      (s.visitAll configuredProviderIds wrapped visits).1.Sound := by
  induction visits with
  | nil => exact fun _ _ h => h
  | cons visit rest ih =>
      intro s wrapped h
      unfold CompatibilityState.visitAll
      split
      · exact h
      · exact ih _ _ (h.disableExistingBinding _ _)
      · split
        · exact ih _ _ (h.disableExistingBinding _ _)
        · split
          · exact ih _ _ h
          · exact ih _ _ (h.install _ _)

/-- Disabling the bindings of omitted providers keeps a state sound. -/
theorem disableOmitted (h : s.Sound) (faults : Nat → HostFaults) (live : List Nat) :
    (s.disableOmitted faults live).Sound := by
  unfold CompatibilityState.disableOmitted
  generalize s.bindings = snapshot
  induction snapshot generalizing s with
  | nil => exact h
  | cons binding rest ih =>
      rw [List.foldl_cons]
      split
      · exact ih h
      · exact ih (h.disableExistingBinding _ _)

/-- Where every active layer is one of some bindings, deactivating these leaves a sound state. -/
theorem foldl_deactivate (faults : Nat → HostFaults) (snapshot : List ThinkingBinding) :
    ∀ s : CompatibilityState, s.bindings = [] → (∀ binding ∈ snapshot, binding.Owned s.created) →
      (∀ provider, (s.objects provider).Owned provider s.created) →
      (∀ ref, s.active ref = true → ∃ binding ∈ snapshot, binding.ref = ref) →
      (snapshot.foldl
        (fun s binding => s.deactivate (faults binding.ref.provider) binding) s).Sound := by
  induction snapshot with
  | nil =>
      intro s hempty _ hobjects hactive
      refine ⟨?_, fun ref href => ?_, fun binding hbinding => ?_, hobjects⟩
      · rw [List.foldl_nil, hempty]
        exact List.nodup_nil
      · obtain ⟨binding, hbinding, _⟩ := hactive ref href
        exact absurd hbinding List.not_mem_nil
      · rw [List.foldl_nil, hempty] at hbinding
        exact absurd hbinding List.not_mem_nil
  | cons binding rest ih =>
      intro s hempty howned hobjects hactive
      obtain ⟨hfirst, hrest⟩ := List.forall_mem_cons.mp howned
      refine ih _ hempty hrest ?_ fun ref href => ?_
      · exact update_objects hobjects (Nat.le_refl s.created) (hfirst.restoreBoth (hobjects _) _)
      · by_cases hsame : ref = binding.ref
        · subst hsame
          simp [deactivate] at href
        · simp only [deactivate, Function.update_of_ne hsame] at href
          obtain ⟨other, hother, rfl⟩ := hactive ref href
          rcases List.mem_cons.mp hother with rfl | hmem
          · exact absurd rfl hsame
          · exact ⟨other, hmem, rfl⟩

/-- `terminate` leaves a sound state. -/
theorem terminate (h : s.Sound) (faults : Nat → HostFaults) : (s.terminate faults).Sound :=
  foldl_deactivate faults s.bindings { s with bindings := [] } rfl h.bindings h.objects h.active

/-- A wrap by other code keeps a state sound. -/
theorem wrapForeign (h : s.Sound) (provider : Nat) (name : ChatAttribute) (id : Nat) :
    (s.wrapForeign provider name id).Sound := by
  unfold CompatibilityState.wrapForeign
  split
  · exact h
  · rename_i value hvalue
    split
    · exact h
    · rename_i object hset
      refine h.changed (List.Sublist.refl _) (Nat.le_refl s.created) (fun _ hmem _ => hmem)
        (fun _ href => href) ?_
      -- a foreign function has the layers of what it wraps
      have hforeign : (ChatValue.foreign id value).Owned provider s.created :=
        h.objects provider name value (ProviderObject.holds_of_get hvalue)
      exact update_objects h.objects (Nat.le_refl s.created) ((h.objects provider).set hset hforeign)

/-- A chain has one active layer at most. -/
theorem active_layers (h : s.Sound) {name : ChatAttribute} {value : ChatValue}
    (hvalue : (s.objects provider).get name = some value) :
    (value.layers.filter s.active).length ≤ 1 := by
  obtain ⟨hsorted, howned⟩ := h.objects provider _ _ (ProviderObject.holds_of_get hvalue)
  have hactive {ref : BindingRef} (href : ref ∈ value.layers.filter s.active) :
      ∃ binding ∈ s.bindings, binding.ref = ref ∧ binding.ref.provider = provider := by
    obtain ⟨hmem, hflag⟩ := List.mem_filter.mp href
    obtain ⟨binding, hbinding, rfl⟩ := h.active ref hflag
    exact ⟨binding, hbinding, rfl, (howned _ hmem).1⟩
  cases hlayers : value.layers.filter s.active with
  | nil => exact Nat.zero_le _
  | cons outer rest =>
      cases rest with
      | nil => exact Nat.le_refl _
      | cons inner rest =>
          -- both belong to the one binding of the provider, but were made one after the other
          rw [hlayers] at hactive
          obtain ⟨first, hfirst, rfl, hfirstProvider⟩ := hactive List.mem_cons_self
          obtain ⟨second, hsecond, rfl, hsecondProvider⟩ :=
            hactive (List.mem_cons_of_mem _ List.mem_cons_self)
          obtain rfl := List.inj_on_of_nodup_map h.providers hfirst hsecond
            (hfirstProvider.trans hsecondProvider.symm)
          have hlt := hsorted.sublist (List.filter_sublist (p := s.active))
          rw [hlayers] at hlt
          exact absurd (List.rel_of_pairwise_cons hlt List.mem_cons_self) (Nat.lt_irrefl _)

end Sound

end CompatibilityState

/-! ## Restorable providers -/

/-- The host lets both attributes be restored. -/
def HostFaults.Restores (faults : HostFaults) : Prop :=
  ∀ name, faults.restore name = false

namespace ProviderObject

/-- Both attributes can be called. -/
def Wrappable (object : ProviderObject) : Prop :=
  ∀ name, ∃ value, object.get name = some value ∧ value.callable = true

/-- `_install` comes to set an attribute; it sets `text_chat` first. -/
def Written (object : ProviderObject) : ChatAttribute → Prop
  | .textChat => object.Wrappable ∧ object.settable .textChat = true
  | .textChatStream =>
      object.Wrappable ∧ object.settable .textChat = true ∧ object.settable .textChatStream = true

/-- What is wrapped can be called. -/
theorem Written.wrappable {object : ProviderObject} {name : ChatAttribute} (h : object.Written name) :
    object.Wrappable := by
  cases name with
  | textChat => exact h.1
  | textChatStream => exact h.1

/-- And `text_chat` can be set. -/
theorem Written.settable {object : ProviderObject} {name : ChatAttribute} (h : object.Written name) :
    object.settable .textChat = true := by
  cases name with
  | textChat => exact h.2
  | textChatStream => exact h.2.1

/-- Every attribute that is wrapped can be given back. -/
def GivesBack (object : ProviderObject) : Prop :=
  ∀ name, object.Written name → object.Returns name

end ProviderObject

namespace ThinkingBinding

/-- The binding was made over the attributes of an object. -/
structure Over (binding : ThinkingBinding) (object : ProviderObject) : Prop where
  original : ∀ name, object.get name = some (binding.original name)
  callable : ∀ name, (binding.original name).callable = true
  wasInstanceAttribute : ∀ name,
    binding.wasInstanceAttribute name = object.instanceHasAttribute name

variable {binding : ThinkingBinding} {object written half full : ProviderObject} {faults : HostFaults}
  {name other : ChatAttribute}

/-- A wrapper is not what it wraps. -/
theorem original_ne_watcher (binding : ThinkingBinding) (name : ChatAttribute) :
    binding.original name ≠ binding.watcher name := by
  intro hsame
  have hlayers := congrArg (fun value => value.layers.length) hsame
  simp [watcher, ChatValue.layers] at hlayers

/-- A restoration concerns no other attribute. -/
theorem restore_frame (binding : ThinkingBinding) (faults : HostFaults) (object : ProviderObject)
    (hne : other ≠ name) :
    (binding.restore faults object name).own other = object.own other ∧
      (binding.restore faults object name).classValues other = object.classValues other := by
  rcases binding.restore_cases faults object name with hsame | hset | hdelete
  · rw [hsame]
    exact ⟨rfl, rfl⟩
  · exact ProviderObject.set_frame hset hne
  · exact ProviderObject.delete_frame hdelete hne

/-- An attribute that holds no wrapper is left alone. -/
theorem restore_self (hget : object.get name = some (binding.original name)) (faults : HostFaults) :
    binding.restore faults object name = object := by
  unfold restore
  rw [if_pos]
  rw [hget]
  exact fun hsame => binding.original_ne_watcher name (Option.some.inj hsame)

/-- An attribute that is given back gets what it held. -/
theorem restore_set (hget : object.get name = some (binding.original name))
    (hinstance : binding.wasInstanceAttribute name = object.instanceHasAttribute name)
    (hreturns : object.Returns name) (hfaults : faults.Restores)
    (hset : object.set name (binding.watcher name) = some written) :
    binding.restore faults written name = object := by
  unfold restore
  rw [if_neg (not_not_intro (ProviderObject.get_set hset)), hfaults name, if_neg Bool.false_ne_true,
    hinstance]
  cases hown : object.instanceHasAttribute name with
  | true => rw [if_pos rfl, ProviderObject.set_back hset hget hown, Option.getD_some]
  | false =>
      rw [if_neg Bool.false_ne_true, ProviderObject.delete_back hset hreturns hown, Option.getD_some]

/-- What becomes of a wrapper that a descriptor holds, where `vars(provider)` does not have the name. -/
theorem restore_managed {descriptor : ManagedAttribute}
    (hclass : object.classValues name = .managed descriptor)
    (hstored : descriptor.stored = some (binding.watcher name))
    (hinstance : binding.wasInstanceAttribute name = false) (hfaults : faults.Restores) :
    (binding.restore faults object name).classValues name =
      .managed { descriptor with stored := descriptor.deleted.getD descriptor.stored } := by
  have hget : object.get name = some (binding.watcher name) := by
    rw [ProviderObject.get, hclass]
    exact hstored
  unfold restore
  rw [if_neg (not_not_intro hget), hfaults name, if_neg Bool.false_ne_true, hinstance,
    if_neg Bool.false_ne_true, ProviderObject.delete, hclass]
  dsimp only
  cases hdeleted : descriptor.deleted with
  | none =>
      rw [Option.map_none, Option.getD_none, Option.getD_none, hclass, ← hdeleted]
  | some left => exact Function.update_self _ _ _

/-- The same after both restorations. -/
theorem restoreBoth_managed {descriptor : ManagedAttribute}
    (hclass : object.classValues name = .managed descriptor)
    (hstored : descriptor.stored = some (binding.watcher name))
    (hinstance : binding.wasInstanceAttribute name = false) (hfaults : faults.Restores) :
    (binding.restoreBoth faults object).classValues name =
      .managed { descriptor with stored := descriptor.deleted.getD descriptor.stored } := by
  have hne : ChatAttribute.textChat ≠ .textChatStream := by decide
  unfold restoreBoth
  cases name with
  | textChat =>
      rw [(binding.restore_frame faults _ hne).2]
      exact restore_managed hclass hstored hinstance hfaults
  | textChatStream =>
      refine restore_managed ?_ hstored hinstance hfaults
      rw [(binding.restore_frame faults _ (Ne.symm hne)).2, hclass]

namespace Over

/-- A binding is made over attributes that can be called. -/
theorem wrappable (h : binding.Over object) : object.Wrappable :=
  fun name => ⟨binding.original name, h.original name, h.callable name⟩

/-- Nothing is restored of an object without wrappers. -/
theorem restoreBoth_self (h : binding.Over object) (faults : HostFaults) :
    binding.restoreBoth faults object = object := by
  unfold restoreBoth
  rw [restore_self (h.original .textChat), restore_self (h.original .textChatStream)]

/-- A wrapper that was set alone is taken back. -/
theorem restoreBoth_half (h : binding.Over object) (hgives : object.GivesBack)
    (hfaults : faults.Restores)
    (hhalf : object.set .textChat (binding.watcher .textChat) = some half) :
    binding.restoreBoth faults half = object := by
  have hreturns := hgives .textChat ⟨h.wrappable, ProviderObject.settable_of_set hhalf⟩
  unfold restoreBoth
  rw [restore_set (h.original _) (h.wasInstanceAttribute _) hreturns hfaults hhalf,
    restore_self (h.original .textChatStream)]

/-- Both attributes get back what they held. -/
theorem restoreBoth_full (h : binding.Over object) (hgives : object.GivesBack)
    (hfaults : faults.Restores)
    (hhalf : object.set .textChat (binding.watcher .textChat) = some half)
    (hfull : half.set .textChatStream (binding.watcher .textChatStream) = some full) :
    binding.restoreBoth faults full = object := by
  have hne : ChatAttribute.textChatStream ≠ .textChat := by decide
  have hsettable := ProviderObject.settable_of_set hhalf
  have hstream := ProviderObject.settable_of_set hfull
  rw [ProviderObject.settable_set hhalf hne] at hstream
  -- the wrapper that was set first is taken back first
  obtain ⟨second, hsecond, hboth⟩ := ProviderObject.set_comm hhalf hfull hne
  obtain ⟨hown, hclass⟩ := ProviderObject.set_frame hsecond (Ne.symm hne)
  have hget := (ProviderObject.get_congr hown hclass).trans (h.original .textChat)
  have hinstance : second.instanceHasAttribute .textChat = object.instanceHasAttribute .textChat :=
    congrArg Option.isSome hown
  have hreturns := (ProviderObject.returns_congr hown hclass).mpr
    (hgives .textChat ⟨h.wrappable, hsettable⟩)
  unfold restoreBoth
  rw [restore_set hget ((h.wasInstanceAttribute _).trans hinstance.symm) hreturns hfaults hboth,
    restore_set (h.original _) (h.wasInstanceAttribute _)
      (hgives .textChatStream ⟨h.wrappable, hsettable, hstream⟩) hfaults hsecond]

/-- An attribute that cannot be given back is not what it was. -/
theorem restoreBoth_ne (h : binding.Over object) (hfaults : faults.Restores)
    {descriptor : ManagedAttribute} (hclass : object.classValues name = .managed descriptor)
    (hinstance : object.instanceHasAttribute name = false)
    (hdeleted : descriptor.deleted ≠ some descriptor.stored)
    (hwritten : written.classValues name =
      .managed { descriptor with stored := some (binding.watcher name) }) :
    binding.restoreBoth faults written ≠ object := by
  intro hsame
  have hleft := restoreBoth_managed hwritten rfl ((h.wasInstanceAttribute name).trans hinstance) hfaults
  rw [hsame, hclass] at hleft
  have hstored := congrArg ManagedAttribute.stored (ClassValue.managed.inj hleft)
  dsimp only at hstored
  cases hvalue : descriptor.deleted with
  | none =>
      -- the wrapper stays
      have hget := h.original name
      rw [ProviderObject.get, hclass] at hget
      dsimp only at hget
      rw [hvalue, Option.getD_none, hget] at hstored
      exact binding.original_ne_watcher name (Option.some.inj hstored)
  | some left =>
      rw [hvalue, Option.getD_some] at hstored
      exact hdeleted (hvalue.trans (congrArg some hstored.symm))

end Over

end ThinkingBinding

/-- A provider has the attributes of `object`, or a binding over them is installed. -/
def CompatibilityState.Restorable (object : ProviderObject) (provider : Nat)
    (s : CompatibilityState) : Prop :=
  match s.binding provider with
  | none => s.objects provider = object
  | some binding => binding.Over object ∧ ∃ half,
      object.set .textChat (binding.watcher .textChat) = some half ∧
        half.set .textChatStream (binding.watcher .textChatStream) = some (s.objects provider)

namespace CompatibilityState

variable {s : CompatibilityState} {faults : HostFaults} {object : ProviderObject} {provider other : Nat}

/-- A new binding is made over the attributes of its provider. -/
theorem newBinding_over {textChat textChatStream : ChatValue}
    (hchat : (s.objects provider).get .textChat = some textChat)
    (hstream : (s.objects provider).get .textChatStream = some textChatStream)
    (hcallable : (textChat.callable && textChatStream.callable) = true) :
    (s.newBinding provider textChat textChatStream).Over (s.objects provider) := by
  obtain ⟨hchatCallable, hstreamCallable⟩ := Bool.and_eq_true_iff.mp hcallable
  refine ⟨fun name => ?_, fun name => ?_, fun _ => rfl⟩
  · cases name with
    | textChat => exact hchat
    | textChatStream => exact hstream
  · cases name with
    | textChat => exact hchatCallable
    | textChatStream => exact hstreamCallable

/-- Disabling a provider concerns no other provider. -/
theorem disableExistingBinding_frame (hne : provider ≠ other) (s : CompatibilityState)
    (faults : HostFaults) :
    (s.disableExistingBinding faults other).binding provider = s.binding provider ∧
      (s.disableExistingBinding faults other).objects provider = s.objects provider := by
  unfold disableExistingBinding
  cases hbinding : s.binding other with
  | none => exact ⟨rfl, rfl⟩
  | some binding =>
      obtain ⟨_, hprovider⟩ := binding_eq_some hbinding
      constructor
      · show List.find? _ (List.filter _ s.bindings) = List.find? _ s.bindings
        rw [List.find?_filter]
        congr 1
        funext candidate
        by_cases hcandidate : candidate.ref.provider = provider
        · simp [hcandidate, hne]
        · simp [hcandidate]
      · exact Function.update_of_ne (hprovider ▸ hne) _ _

/-- Installing wrappers concerns no other provider. -/
theorem install_frame (hne : provider ≠ other) (s : CompatibilityState) (faults : HostFaults) :
    (s.install faults other).1.binding provider = s.binding provider ∧
      (s.install faults other).1.objects provider = s.objects provider := by
  obtain ⟨hbinding, hobject⟩ := disableExistingBinding_frame hne s faults
  unfold install
  dsimp only
  generalize s.disableExistingBinding faults other = cleared at hbinding hobject ⊢
  rw [← hbinding, ← hobject]
  split
  · split
    · unfold attach
      dsimp only
      split
      · exact ⟨rfl, Function.update_of_ne hne _ _⟩
      · split
        · refine ⟨rfl, ?_⟩
          simp only [deactivate, newBinding, Function.update_of_ne hne]
        · refine ⟨?_, Function.update_of_ne hne _ _⟩
          show List.find? _ (cleared.bindings ++ [_]) = List.find? _ cleared.bindings
          rw [List.find?_append, List.find?_singleton, newBinding]
          simp [Ne.symm hne]
    · exact ⟨rfl, rfl⟩
  · exact ⟨rfl, rfl⟩

namespace Restorable

/-- What concerns other providers keeps a provider restorable. -/
theorem frame {s' : CompatibilityState} (h : s.Restorable object provider)
    (hframe : s'.binding provider = s.binding provider ∧ s'.objects provider = s.objects provider) :
    s'.Restorable object provider := by
  unfold Restorable at h ⊢
  rwa [hframe.1, hframe.2]

/-- A provider without a binding has its attributes. -/
theorem restored (h : s.Restorable object provider) (hfree : s.binding provider = none) :
    s.objects provider = object := by
  unfold Restorable at h
  rwa [hfree] at h

/-- A disabled provider is restored. -/
theorem disableExistingBinding (h : s.Restorable object provider) (hgives : object.GivesBack)
    (hfaults : faults.Restores) :
    (s.disableExistingBinding faults provider).Restorable object provider := by
  have hfree := binding_disableExistingBinding_self s faults provider
  unfold Restorable
  rw [hfree]
  show (s.disableExistingBinding faults provider).objects provider = object
  unfold CompatibilityState.disableExistingBinding
  unfold Restorable at h
  cases hbinding : s.binding provider with
  | none => rwa [hbinding] at h
  | some binding =>
      rw [hbinding] at h
      obtain ⟨hover, half, hhalf, hfull⟩ := h
      obtain ⟨_, rfl⟩ := binding_eq_some hbinding
      simp only [deactivate, Function.update_self]
      exact hover.restoreBoth_full hgives hfaults hhalf hfull

/-- A provider with new wrappers is restorable, and one that refused them as well. -/
theorem install (h : s.Restorable object provider) (hgives : object.GivesBack)
    (hfaults : faults.Restores) : (s.install faults provider).1.Restorable object provider := by
  have hfree := binding_disableExistingBinding_self s faults provider
  have hobject := (h.disableExistingBinding hgives hfaults).restored hfree
  unfold CompatibilityState.install
  dsimp only
  generalize s.disableExistingBinding faults provider = cleared at hfree hobject ⊢
  have hcleared : cleared.Restorable object provider := by
    unfold Restorable
    rwa [hfree]
  split
  · rename_i textChat textChatStream htextChat htextChatStream
    split
    · rename_i hcallable
      have hover := newBinding_over htextChat htextChatStream hcallable
      rw [hobject] at hover
      generalize hnew : cleared.newBinding provider textChat textChatStream = binding at hover ⊢
      have hprovider : binding.ref.provider = provider := by rw [← hnew]; rfl
      have hreverted {made : CompatibilityState} (hbindings : made.bindings = cleared.bindings)
          (hback : binding.restoreBoth faults (made.objects provider) = object) :
          (made.deactivate faults binding).Restorable object provider := by
        have hnone : (made.deactivate faults binding).binding provider = none := by
          show List.find? _ made.bindings = none
          rw [hbindings]
          exact hfree
        unfold Restorable
        rw [hnone]
        simpa only [deactivate, hprovider, Function.update_self] using hback
      unfold attach
      dsimp only
      rw [hprovider, hobject]
      split
      · refine hreverted rfl ?_
        show binding.restoreBoth faults (cleared.objects provider) = object
        rw [hobject]
        exact hover.restoreBoth_self faults
      · rename_i half hhalf
        have hhalf := (setWatcher_eq_some hhalf).2
        split
        · refine hreverted rfl ?_
          simp only [Function.update_self]
          exact hover.restoreBoth_half hgives hfaults hhalf
        · rename_i full hfull
          have hfound : List.find? (fun candidate => decide (candidate.ref.provider = provider))
              (cleared.bindings ++ [binding]) = some binding := by
            have hnone : List.find? (fun candidate => decide (candidate.ref.provider = provider))
              cleared.bindings = none := hfree
            rw [List.find?_append, List.find?_singleton]
            simp [hnone, hprovider]
          unfold Restorable
          simp only [CompatibilityState.binding, hfound, Function.update_self]
          exact ⟨hover, half, hhalf, (setWatcher_eq_some hfull).2⟩
    · exact hcleared
  · exact hcleared

/-- The loop over the providers keeps a provider restorable. -/
theorem visitAll (hgives : object.GivesBack) (configuredProviderIds : List String)
    {visits : List ProviderVisit}
    (hfaults : ∀ visit ∈ visits, visit.provider = provider → visit.faults.Restores) :
    ∀ (s : CompatibilityState) (wrapped : Nat), s.Restorable object provider →
      (s.visitAll configuredProviderIds wrapped visits).1.Restorable object provider := by
  induction visits with
  | nil => exact fun _ _ h => h
  | cons visit rest ih =>
      intro s wrapped h
      obtain ⟨hvisit, hrest⟩ := List.forall_mem_cons.mp hfaults
      have hdisabled : (s.disableExistingBinding visit.faults visit.provider).Restorable object
          provider := by
        by_cases hsame : visit.provider = provider
        · subst hsame
          exact h.disableExistingBinding hgives (hvisit rfl)
        · exact h.frame (disableExistingBinding_frame (Ne.symm hsame) s visit.faults)
      have hinstalled : (s.install visit.faults visit.provider).1.Restorable object provider := by
        by_cases hsame : visit.provider = provider
        · subst hsame
          exact h.install hgives (hvisit rfl)
        · exact h.frame (install_frame (Ne.symm hsame) s visit.faults)
      unfold CompatibilityState.visitAll
      split
      · exact h
      · exact ih hrest _ _ hdisabled
      · split
        · exact ih hrest _ _ hdisabled
        · split
          · exact ih hrest _ _ h
          · exact ih hrest _ _ hinstalled

end Restorable

/-- The loop over the providers leaves a provider alone that it does not meet. -/
theorem visitAll_frame (configuredProviderIds : List String) {visits : List ProviderVisit}
    (homitted : provider ∉ visits.map ProviderVisit.provider) :
    ∀ (s : CompatibilityState) (wrapped : Nat),
      (s.visitAll configuredProviderIds wrapped visits).1.binding provider = s.binding provider ∧
        (s.visitAll configuredProviderIds wrapped visits).1.objects provider =
          s.objects provider := by
  induction visits with
  | nil => exact fun _ _ => ⟨rfl, rfl⟩
  | cons visit rest ih =>
      intro s wrapped
      rw [List.map_cons, List.mem_cons, not_or] at homitted
      obtain ⟨hne, hrest⟩ := homitted
      have hdisabled := disableExistingBinding_frame hne s visit.faults
      have hinstalled := install_frame hne s visit.faults
      unfold visitAll
      split
      · exact ⟨rfl, rfl⟩
      · rw [← hdisabled.1, ← hdisabled.2]
        exact ih hrest _ _
      · split
        · rw [← hdisabled.1, ← hdisabled.2]
          exact ih hrest _ _
        · split
          · exact ih hrest _ _
          · rw [← hinstalled.1, ← hinstalled.2]
            exact ih hrest _ _

/-- A step of the loop over the bindings of omitted providers. -/
theorem Restorable.disableOmitted_step {faults : Nat → HostFaults} {live : List Nat}
    (hgives : object.GivesBack) (hfaults : (faults provider).Restores) (binding : ThinkingBinding)
    (h : s.Restorable object provider) :
    (if binding.ref.provider ∈ live then s
      else s.disableExistingBinding (faults binding.ref.provider)
        binding.ref.provider).Restorable object provider := by
  split
  · exact h
  · by_cases hsame : binding.ref.provider = provider
    · rw [hsame]
      exact h.disableExistingBinding hgives hfaults
    · exact h.frame (disableExistingBinding_frame (Ne.symm hsame) s _)

/-- Disabling the bindings of omitted providers keeps a provider restorable. -/
theorem Restorable.disableOmitted {faults : Nat → HostFaults} {live : List Nat}
    (hgives : object.GivesBack) (hfaults : (faults provider).Restores)
    (h : s.Restorable object provider) :
    (s.disableOmitted faults live).Restorable object provider := by
  unfold CompatibilityState.disableOmitted
  generalize s.bindings = snapshot
  induction snapshot generalizing s with
  | nil => exact h
  | cons binding rest ih => exact ih (h.disableOmitted_step hgives hfaults binding)

/-- An omitted provider has no binding afterwards. -/
theorem binding_disableOmitted (s : CompatibilityState) (faults : Nat → HostFaults)
    {live : List Nat} (homitted : provider ∉ live) :
    (s.disableOmitted faults live).binding provider = none := by
  have hloop : ∀ (snapshot : List ThinkingBinding) (s : CompatibilityState),
      (s.binding provider = none ∨ ∃ binding ∈ snapshot, binding.ref.provider = provider) →
      (snapshot.foldl (fun s binding =>
        if binding.ref.provider ∈ live then s
        else s.disableExistingBinding (faults binding.ref.provider)
          binding.ref.provider) s).binding provider = none := by
    intro snapshot
    induction snapshot with
    | nil =>
        rintro s (hfree | ⟨_, hmem, _⟩)
        · exact hfree
        · exact absurd hmem List.not_mem_nil
    | cons binding rest ih =>
        intro s hpending
        rw [List.foldl_cons]
        apply ih
        by_cases hsame : binding.ref.provider = provider
        · rw [if_neg (hsame ▸ homitted), hsame]
          exact .inl (binding_disableExistingBinding_self s _ provider)
        · rcases hpending with hfree | ⟨other, hother, hprovider⟩
          · left
            split
            · exact hfree
            · rwa [(disableExistingBinding_frame (Ne.symm hsame) s _).1]
          · rcases List.mem_cons.mp hother with rfl | hrest
            · exact absurd hprovider hsame
            · exact .inr ⟨other, hrest, hprovider⟩
  refine hloop s.bindings s ?_
  cases hbinding : s.binding provider with
  | none => exact .inl rfl
  | some binding =>
      obtain ⟨hmem, hprovider⟩ := binding_eq_some hbinding
      exact .inr ⟨binding, hmem, hprovider⟩

/-- The objects after some bindings with different providers were deactivated. -/
theorem objects_foldl_deactivate (faults : Nat → HostFaults) {snapshot : List ThinkingBinding}
    (hproviders : (snapshot.map fun binding => binding.ref.provider).Nodup) :
    ∀ s : CompatibilityState,
      (snapshot.foldl (fun s binding => s.deactivate (faults binding.ref.provider) binding)
          s).objects provider =
        match snapshot.find? fun binding => binding.ref.provider = provider with
        | none => s.objects provider
        | some binding => binding.restoreBoth (faults provider) (s.objects provider) := by
  induction snapshot with
  | nil => exact fun _ => rfl
  | cons binding rest ih =>
      intro s
      obtain ⟨hnew, hrest⟩ := List.nodup_cons.mp hproviders
      rw [List.foldl_cons, ih hrest]
      by_cases hsame : binding.ref.provider = provider
      · subst hsame
        have hnone : rest.find? (fun other =>
            decide (other.ref.provider = binding.ref.provider)) = none := by
          rw [List.find?_eq_none]
          intro other hother hprovider
          exact hnew (List.mem_map.mpr ⟨other, hother, of_decide_eq_true hprovider⟩)
        simp only [hnone, List.find?_cons, decide_true]
        exact Function.update_self _ _ _
      · rw [List.find?_cons_of_neg (by simpa using hsame)]
        have hobject : (s.deactivate (faults binding.ref.provider) binding).objects provider =
            s.objects provider := Function.update_of_ne (Ne.symm hsame) _ _
        rw [hobject]

/-- `terminate` leaves no bindings. -/
theorem bindings_terminate (s : CompatibilityState) (faults : Nat → HostFaults) :
    (s.terminate faults).bindings = [] := by
  have hloop : ∀ (snapshot : List ThinkingBinding) (s : CompatibilityState),
      (snapshot.foldl (fun s binding => s.deactivate (faults binding.ref.provider) binding)
        s).bindings = s.bindings := by
    intro snapshot
    induction snapshot with
    | nil => exact fun _ => rfl
    | cons binding rest ih => exact fun s => ih _
  exact hloop s.bindings { s with bindings := [] }

/-- A wrap by other code concerns no other provider. -/
theorem wrapForeign_frame (hne : provider ≠ other) (s : CompatibilityState) (name : ChatAttribute)
    (id : Nat) :
    (s.wrapForeign other name id).binding provider = s.binding provider ∧
      (s.wrapForeign other name id).objects provider = s.objects provider := by
  unfold wrapForeign
  split
  · exact ⟨rfl, rfl⟩
  · split
    · exact ⟨rfl, rfl⟩
    · exact ⟨rfl, Function.update_of_ne hne _ _⟩

/-- `terminate` restores a provider. -/
theorem Restorable.terminate (h : s.Restorable object provider) (hgives : object.GivesBack)
    (hsound : s.Sound) {faults : Nat → HostFaults} (hfaults : (faults provider).Restores) :
    (s.terminate faults).objects provider = object := by
  unfold CompatibilityState.terminate
  rw [objects_foldl_deactivate faults hsound.providers]
  unfold Restorable CompatibilityState.binding at h
  revert h
  cases s.bindings.find? fun binding => binding.ref.provider = provider with
  | none => exact id
  | some binding =>
      rintro ⟨hover, half, hhalf, hfull⟩
      exact hover.restoreBoth_full hgives hfaults hhalf hfull

/-- A list that omits a provider restores it. -/
theorem Restorable.ensure_omitted (h : s.Restorable object provider) (hgives : object.GivesBack)
    (configuredProviderIds : List String) {faults : Nat → HostFaults}
    (hfaults : (faults provider).Restores) {visits : List ProviderVisit}
    (homitted : provider ∉ visits.map ProviderVisit.provider) :
    (s.ensure configuredProviderIds faults visits).1.objects provider = object := by
  unfold CompatibilityState.ensure
  rw [(visitAll_frame configuredProviderIds homitted _ 0).2]
  exact (h.disableOmitted hgives hfaults).restored (binding_disableOmitted s faults homitted)

end CompatibilityState

end AstrContinuum
