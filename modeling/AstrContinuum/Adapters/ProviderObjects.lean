import Mathlib.Logic.Function.Basic

/-!
# Providers as objects

The two attributes of a provider that are wrapped, and what they hold. A provider is an object with
values of its own, in `vars(provider)` where it has such a dictionary, and those of its class, among
them slots and properties. Setting an attribute and deleting it again need not leave what was there:
`Returns` says where taking a wrapper back does.
-/

namespace AstrContinuum

/-- The attributes that are wrapped. -/
inductive ChatAttribute
  | textChat
  | textChatStream
deriving DecidableEq

/-- A binding, as the functions that close over it know it: its provider, and when it was made. -/
structure BindingRef where
  provider : Nat
  serial : Nat
deriving DecidableEq

/-- What an attribute holds: something that cannot be called, a function of the host, a function of other
code around the former value, or a wrapper that `_install` made for a binding. -/
inductive ChatValue
  | data (id : Nat)
  | function (id : Nat)
  | foreign (id : Nat) (inner : ChatValue)
  | wrapper (binding : BindingRef) (name : ChatAttribute) (original : ChatValue)
deriving DecidableEq

namespace ChatValue

/-- `callable(value)`. -/
def callable : ChatValue → Bool
  | .data _ => false
  | _ => true

/-- The compatibility layers of the call chain, outermost first. -/
def layers : ChatValue → List BindingRef
  | .data _ | .function _ => []
  | .foreign _ inner => inner.layers
  | .wrapper binding _ original => binding :: original.layers

/-- A call: the function of the host that it reaches, with the arguments that reach it. A layer rewrites
them while its binding is active (`_rewrite_call`, which may raise). A call of what cannot be called
raises a `TypeError`. -/
def invoke {Args Failure : Type} (active : BindingRef → Bool)
    (rewriteCall : BindingRef → Args → Except Failure Args)
    (foreignCall : Nat → Args → Except Failure Args) :
    ChatValue → Args → Except (Option Failure) (Nat × Args)
  | .data _, _ => .error none
  | .function id, args => .ok (id, args)
  | .foreign id inner, args =>
      match foreignCall id args with
      | .ok forwarded => inner.invoke active rewriteCall foreignCall forwarded
      | .error failure => .error (some failure)
  | .wrapper binding _ original, args =>
      if active binding then
        match rewriteCall binding args with
        | .ok rewritten => original.invoke active rewriteCall foreignCall rewritten
        | .error failure => .error (some failure)
      else original.invoke active rewriteCall foreignCall args

end ChatValue

/-- A slot, a property or another data descriptor of the class, for one provider: the value that it gives,
whether it can be set, and what a deletion leaves, where it does not raise. -/
structure ManagedAttribute where
  stored : Option ChatValue
  settable : Bool
  deleted : Option (Option ChatValue)

/-- A member of `__slots__`. -/
def ManagedAttribute.slot (stored : Option ChatValue) : ManagedAttribute where
  stored := stored
  settable := true
  deleted := some none

/-- What the class of a provider has under a name: a value, such as a method, or a data descriptor. -/
inductive ClassValue
  | plain (value : Option ChatValue)
  | managed (descriptor : ManagedAttribute)

/-- A provider object: the values of `vars(provider)`, where it has a `__dict__`, and those of its
class. -/
structure ProviderObject where
  instanceValues : Option (ChatAttribute → Option ChatValue)
  classValues : ChatAttribute → ClassValue

namespace ProviderObject

/-- The value of a name in `vars(provider)`. -/
def own (object : ProviderObject) (name : ChatAttribute) : Option ChatValue :=
  object.instanceValues.bind fun values => values name

/-- `_instance_has_attribute`; there is nothing in the `vars` of an object without a `__dict__`. -/
def instanceHasAttribute (object : ProviderObject) (name : ChatAttribute) : Bool :=
  (object.own name).isSome

/-- `getattr(provider, name)`; there is no value where it raises. A data descriptor comes before a value
of the instance, and this before one of the class. -/
def get (object : ProviderObject) (name : ChatAttribute) : Option ChatValue :=
  match object.classValues name with
  | .plain value => object.own name <|> value
  | .managed descriptor => descriptor.stored

/-- `setattr(provider, name, value)`; there is no result where it raises. -/
def set (object : ProviderObject) (name : ChatAttribute) (value : ChatValue) : Option ProviderObject :=
  match object.classValues name with
  | .plain _ => object.instanceValues.map fun values =>
      { object with instanceValues := some (Function.update values name (some value)) }
  | .managed descriptor =>
      if descriptor.settable then
        some { object with
          classValues := Function.update object.classValues name
            (.managed { descriptor with stored := some value }) }
      else none

/-- `delattr(provider, name)`; there is no result where it raises. -/
def delete (object : ProviderObject) (name : ChatAttribute) : Option ProviderObject :=
  match object.classValues name with
  | .plain _ =>
      if object.instanceHasAttribute name then object.instanceValues.map fun values =>
        { object with instanceValues := some (Function.update values name none) }
      else none
  | .managed descriptor => descriptor.deleted.map fun left =>
      { object with
        classValues := Function.update object.classValues name
          (.managed { descriptor with stored := left }) }

/-- An attribute can be set. -/
def settable (object : ProviderObject) (name : ChatAttribute) : Bool :=
  match object.classValues name with
  | .plain _ => object.instanceValues.isSome
  | .managed descriptor => descriptor.settable

/-- A provider has a value, or a deletion brings it back. -/
def Holds (object : ProviderObject) (name : ChatAttribute) (value : ChatValue) : Prop :=
  object.own name = some value ∨
    match object.classValues name with
    | .plain inherited => inherited = some value
    | .managed descriptor => descriptor.stored = some value ∨ descriptor.deleted = some (some value)

/-- Taking a wrapper back leaves what was there. With a descriptor this is so where `vars(provider)` has
the name as well, so that the original is set, or where a deletion brings the original back. -/
def Returns (object : ProviderObject) (name : ChatAttribute) : Prop :=
  match object.classValues name with
  | .plain _ => True
  | .managed descriptor =>
      object.instanceHasAttribute name = true ∨ descriptor.deleted = some descriptor.stored

variable {object written both : ProviderObject} {name other : ChatAttribute} {value found : ChatValue}

/-- A write goes to the instance, or to a descriptor that can be set. -/
theorem set_eq_some (h : object.set name value = some written) :
    (∃ inherited values, object.classValues name = .plain inherited ∧
      object.instanceValues = some values ∧
      written =
        { object with instanceValues := some (Function.update values name (some value)) }) ∨
    ∃ descriptor, object.classValues name = .managed descriptor ∧ descriptor.settable = true ∧
      written =
        { object with
          classValues := Function.update object.classValues name
            (.managed { descriptor with stored := some value }) } := by
  unfold set at h
  cases hclass : object.classValues name with
  | plain inherited =>
      rw [hclass] at h
      obtain ⟨values, hvalues, rfl⟩ := Option.map_eq_some_iff.mp h
      exact .inl ⟨inherited, values, rfl, hvalues, rfl⟩
  | managed descriptor =>
      rw [hclass] at h
      dsimp only at h
      split at h
      · exact .inr ⟨descriptor, rfl, ‹_›, (Option.some.inj h).symm⟩
      · cases h

/-- A deletion empties the instance, or leaves what a descriptor says. -/
theorem delete_eq_some (h : object.delete name = some written) :
    (∃ inherited values, object.classValues name = .plain inherited ∧
      object.instanceValues = some values ∧
      written = { object with instanceValues := some (Function.update values name none) }) ∨
    ∃ descriptor left, object.classValues name = .managed descriptor ∧
      descriptor.deleted = some left ∧
      written =
        { object with
          classValues := Function.update object.classValues name
            (.managed { descriptor with stored := left }) } := by
  unfold delete at h
  cases hclass : object.classValues name with
  | plain inherited =>
      rw [hclass] at h
      dsimp only at h
      split at h
      · obtain ⟨values, hvalues, rfl⟩ := Option.map_eq_some_iff.mp h
        exact .inl ⟨inherited, values, rfl, hvalues, rfl⟩
      · cases h
  | managed descriptor =>
      rw [hclass] at h
      obtain ⟨left, hleft, rfl⟩ := Option.map_eq_some_iff.mp h
      exact .inr ⟨descriptor, left, rfl, hleft, rfl⟩

/-- What was set is there. -/
theorem get_set (h : object.set name value = some written) : written.get name = some value := by
  rcases set_eq_some h with ⟨inherited, values, hclass, -, rfl⟩ | ⟨descriptor, -, -, rfl⟩
  · simp [get, own, hclass]
  · simp [get]

/-- A write concerns no other attribute. -/
theorem set_frame (h : object.set name value = some written) (hne : other ≠ name) :
    written.own other = object.own other ∧ written.classValues other = object.classValues other := by
  rcases set_eq_some h with ⟨inherited, values, -, hvalues, rfl⟩ | ⟨descriptor, -, -, rfl⟩
  · simp [own, hvalues, Function.update_of_ne hne]
  · exact ⟨rfl, Function.update_of_ne hne _ _⟩

/-- Neither does a deletion. -/
theorem delete_frame (h : object.delete name = some written) (hne : other ≠ name) :
    written.own other = object.own other ∧ written.classValues other = object.classValues other := by
  rcases delete_eq_some h with ⟨inherited, values, -, hvalues, rfl⟩ | ⟨descriptor, left, -, -, rfl⟩
  · simp [own, hvalues, Function.update_of_ne hne]
  · exact ⟨rfl, Function.update_of_ne hne _ _⟩

/-- What a provider gives is one of its values. -/
theorem holds_of_get (h : object.get name = some value) : object.Holds name value := by
  unfold get at h
  unfold Holds
  cases hclass : object.classValues name with
  | plain inherited =>
      rw [hclass] at h
      cases hown : object.own name with
      | none =>
          rw [hown] at h
          exact .inr h
      | some found =>
          rw [hown] at h
          exact .inl h
  | managed descriptor =>
      rw [hclass] at h
      exact .inr (.inl h)

/-- A write brings in the value that is set. -/
theorem holds_of_set (hset : object.set name value = some written) (h : written.Holds other found) :
    found = value ∨ object.Holds other found := by
  by_cases hother : other = name
  · subst hother
    rcases set_eq_some hset with ⟨inherited, values, hclass, hvalues, rfl⟩ | ⟨descriptor, hclass, -, rfl⟩
    · rcases h with hown | hrest
      · simp only [own, Option.bind_some, Function.update_self, Option.some.injEq] at hown
        exact .inl hown.symm
      · exact .inr (.inr hrest)
    · unfold Holds at h ⊢
      simp only [Function.update_self, Option.some.injEq] at h
      rw [hclass]
      rcases h with hown | hstored | hdeleted
      · exact .inr (.inl hown)
      · exact .inl hstored.symm
      · exact .inr (.inr (.inr hdeleted))
  · obtain ⟨hown, hclass⟩ := set_frame hset hother
    unfold Holds at h ⊢
    rw [hown, hclass] at h
    exact .inr h

/-- A deletion brings in nothing. -/
theorem holds_of_delete (hdelete : object.delete name = some written)
    (h : written.Holds other found) : object.Holds other found := by
  by_cases hother : other = name
  · subst hother
    rcases delete_eq_some hdelete with
      ⟨inherited, values, hclass, hvalues, rfl⟩ | ⟨descriptor, left, hclass, hleft, rfl⟩
    · rcases h with hown | hrest
      · simp [own] at hown
      · exact .inr hrest
    · unfold Holds at h ⊢
      simp only [Function.update_self] at h
      rw [hclass]
      rcases h with hown | hstored | hdeleted
      · exact .inl hown
      · exact .inr (.inr (hstored ▸ hleft))
      · exact .inr (.inr hdeleted)
  · obtain ⟨hown, hclass⟩ := delete_frame hdelete hother
    unfold Holds at h ⊢
    rwa [hown, hclass] at h

/-- An attribute that was set can be set. -/
theorem settable_of_set (h : object.set name value = some written) : object.settable name = true := by
  unfold settable
  rcases set_eq_some h with ⟨inherited, values, hclass, hvalues, -⟩ | ⟨descriptor, hclass, hsettable, -⟩
  · rw [hclass]
    simp [hvalues]
  · rw [hclass]
    exact hsettable

/-- An attribute that can be set takes every value. -/
theorem exists_set (h : object.settable name = true) (value : ChatValue) :
    ∃ written, object.set name value = some written := by
  unfold settable at h
  unfold set
  cases hclass : object.classValues name with
  | plain inherited =>
      rw [hclass] at h
      obtain ⟨values, hvalues⟩ := Option.isSome_iff_exists.mp h
      exact ⟨_, Option.map_eq_some_iff.mpr ⟨values, hvalues, rfl⟩⟩
  | managed descriptor =>
      rw [hclass] at h
      exact ⟨_, if_pos h⟩

/-- A write does not change whether another attribute can be set. -/
theorem settable_set (h : object.set name value = some written) (hne : other ≠ name) :
    written.settable other = object.settable other := by
  unfold settable
  rcases set_eq_some h with ⟨inherited, values, -, hvalues, rfl⟩ | ⟨descriptor, -, -, rfl⟩
  · simp [hvalues]
  · dsimp only
    rw [Function.update_of_ne hne]

/-- What an attribute gives depends on its own values. -/
theorem get_congr (hown : written.own name = object.own name)
    (hclass : written.classValues name = object.classValues name) :
    written.get name = object.get name := by
  unfold get
  rw [hown, hclass]

/-- So does whether it can be given back. -/
theorem returns_congr (hown : written.own name = object.own name)
    (hclass : written.classValues name = object.classValues name) :
    written.Returns name ↔ object.Returns name := by
  unfold Returns instanceHasAttribute
  rw [hown, hclass]

/-- A write to the instance. -/
theorem set_plain {values : ChatAttribute → Option ChatValue} {classes : ChatAttribute → ClassValue}
    {inherited : Option ChatValue} (hclass : classes name = .plain inherited) :
    (ProviderObject.mk (some values) classes).set name value =
      some ⟨some (Function.update values name (some value)), classes⟩ := by
  simp only [set, hclass, Option.map_some]

/-- A write to a descriptor. -/
theorem set_managed {values : Option (ChatAttribute → Option ChatValue)}
    {classes : ChatAttribute → ClassValue} {descriptor : ManagedAttribute}
    (hclass : classes name = .managed descriptor) (hsettable : descriptor.settable = true) :
    (ProviderObject.mk values classes).set name value =
      some ⟨values, Function.update classes name
        (.managed { descriptor with stored := some value })⟩ := by
  simp only [set, hclass, hsettable, if_true]

/-- Writes of two attributes commute. -/
theorem set_comm (hfirst : object.set name value = some written)
    (hsecond : written.set other found = some both) (hne : other ≠ name) :
    ∃ second, object.set other found = some second ∧ second.set name value = some both := by
  have hframe := (set_frame hfirst hne).2
  cases object with | mk values classes =>
  rcases set_eq_some hfirst with
    ⟨_, own, hname, rfl, rfl⟩ | ⟨descriptor, hname, hsettable, rfl⟩
  · rcases set_eq_some hsecond with
      ⟨_, own', hother, hown, rfl⟩ | ⟨descriptor', hother, hsettable', rfl⟩
    · obtain rfl := Option.some.inj hown
      refine ⟨_, set_plain hother, (set_plain hname).trans ?_⟩
      rw [Function.update_comm hne]
    · exact ⟨_, set_managed hother hsettable',
        set_plain ((Function.update_of_ne (Ne.symm hne) _ _).trans hname)⟩
  · rcases set_eq_some hsecond with
      ⟨_, own', hother, rfl, rfl⟩ | ⟨descriptor', hother, hsettable', rfl⟩
    · exact ⟨_, set_plain (hframe.symm.trans hother), set_managed hname hsettable⟩
    · refine ⟨_, set_managed (hframe.symm.trans hother) hsettable', (set_managed ?_ hsettable).trans ?_⟩
      · rwa [Function.update_of_ne (Ne.symm hne)]
      · rw [Function.update_comm hne]

/-- Where `vars(provider)` has the name, setting the original gives the object back. -/
theorem set_back (hset : object.set name value = some written) (hget : object.get name = some found)
    (hinstance : object.instanceHasAttribute name = true) : written.set name found = some object := by
  cases object with | mk values classes =>
  unfold get at hget
  rcases set_eq_some hset with ⟨_, own, hclass, rfl, rfl⟩ | ⟨descriptor, hclass, hsettable, rfl⟩
  · obtain ⟨original, horiginal⟩ := Option.isSome_iff_exists.mp hinstance
    rw [hclass, horiginal] at hget
    obtain rfl := Option.some.inj hget
    rw [set_plain hclass, Function.update_idem, ← horiginal]
    exact congrArg (fun own => some (ProviderObject.mk (some own) classes))
      (Function.update_eq_self name own)
  · rw [hclass] at hget
    dsimp only at hget
    simp only [set, Function.update_self, Function.update_idem]
    rw [if_pos hsettable, ← hget, ← hclass, Function.update_eq_self]

/-- Elsewhere a deletion does, where the attribute can be given back. -/
theorem delete_back (hset : object.set name value = some written) (hreturns : object.Returns name)
    (hinstance : object.instanceHasAttribute name = false) : written.delete name = some object := by
  cases object with | mk values classes =>
  unfold Returns at hreturns
  rcases set_eq_some hset with ⟨_, own, hclass, rfl, rfl⟩ | ⟨descriptor, hclass, hsettable, rfl⟩
  · have hown : own name = none := by simpa [instanceHasAttribute, ProviderObject.own] using hinstance
    unfold delete
    dsimp only at hclass ⊢
    rw [hclass]
    dsimp only
    rw [if_pos (by simp [instanceHasAttribute, ProviderObject.own]), Option.map_some,
      Function.update_idem, ← hown, Function.update_eq_self]
  · rw [hclass, hinstance] at hreturns
    have hdeleted := hreturns.resolve_left Bool.false_ne_true
    simp only [delete, Function.update_self, hdeleted, Option.map_some, Function.update_idem]
    rw [← hdeleted, ← hclass, Function.update_eq_self]

/-- A descriptor holds what was set. -/
theorem classValues_set {descriptor : ManagedAttribute} (hset : object.set name value = some written)
    (hclass : object.classValues name = .managed descriptor) :
    written.classValues name = .managed { descriptor with stored := some value } := by
  rcases set_eq_some hset with ⟨_, _, hplain, -, -⟩ | ⟨found, hfound, -, rfl⟩
  · rw [hclass] at hplain
    cases hplain
  · obtain rfl := ClassValue.managed.inj (hclass.symm.trans hfound)
    exact Function.update_self _ _ _

/-- An attribute that cannot be given back is that of a descriptor alone, and a deletion loses what it
holds or raises. -/
theorem not_returns (h : ¬ object.Returns name) :
    ∃ descriptor, object.classValues name = .managed descriptor ∧
      object.instanceHasAttribute name = false ∧ descriptor.deleted ≠ some descriptor.stored := by
  unfold Returns at h
  cases hclass : object.classValues name with
  | plain value =>
      rw [hclass] at h
      exact absurd trivial h
  | managed descriptor =>
      rw [hclass] at h
      obtain ⟨hinstance, hdeleted⟩ := not_or.mp h
      exact ⟨descriptor, rfl, Bool.eq_false_iff.mpr hinstance, hdeleted⟩

end ProviderObject

end AstrContinuum
