import Mathlib.Data.List.Forall2

/-!
# Checked computations

Vocabulary for code that either returns a value or raises. A computation is an `Except`, a guard
that raises is `require`, and `bind_ok` takes a successful `do` block apart statement by
statement. `forEach` is the checked left fold behind every loop that threads a state, and
`forEach_invariant` is its induction rule. `Approximates` compares two computations of which one may
raise more often.
-/

namespace Checked

variable {ε α β σ : Type}

/-- Raise `error` unless `condition` holds. -/
def require (condition : Prop) [Decidable condition] (error : ε) : Except ε Unit :=
  if condition then .ok () else .error error

/-- A guard passes exactly when its condition holds. -/
@[simp] theorem require_ok {condition : Prop} [Decidable condition] {error : ε} {u : Unit} :
    require condition error = .ok u ↔ condition := by
  by_cases h : condition <;> simp [require, h]

/-- A guard whose condition holds lets the computation go on. -/
theorem require_bind_pos {condition : Prop} [Decidable condition] {error : ε}
    {f : Unit → Except ε α} (h : condition) : (require condition error >>= f) = f () := by
  simp [require, h, bind, Except.bind]

/-- A guard whose condition fails raises its error. -/
theorem require_bind_neg {condition : Prop} [Decidable condition] {error : ε}
    {f : Unit → Except ε α} (h : ¬ condition) :
    (require condition error >>= f) = .error error := by
  simp [require, h, bind, Except.bind]

/-- A sequence returns exactly when both parts do. -/
theorem bind_ok {x : Except ε α} {f : α → Except ε β} {b : β} :
    (x >>= f) = .ok b ↔ ∃ a, x = .ok a ∧ f a = .ok b := by
  cases x with
  | error e => simp [bind, Except.bind]
  | ok a => simp [bind, Except.bind]

/-- `pure` returns its argument. -/
@[simp] theorem pure_ok {a b : α} : (pure a : Except ε α) = .ok b ↔ a = b := by
  simp [pure, Except.pure]

/-- A sequence that ends in `pure` returns exactly when its first part does. -/
theorem exists_bind_pure_ok {x : Except ε α} {f : α → β} :
    (∃ b, (x >>= fun a => pure (f a)) = .ok b) ↔ ∃ a, x = .ok a := by
  cases x with
  | error e => simp [bind, Except.bind]
  | ok a => simp [bind, Except.bind]

/-- A computation is ok exactly when it returns a value. -/
theorem isOk_iff {x : Except ε α} : x.isOk = true ↔ ∃ a, x = .ok a := by
  cases x <;> simp [Except.isOk, Except.toBool]

/-- A raised error never equals a returned value. -/
@[simp] theorem throw_ok {e : ε} {b : α} : (throw e : Except ε α) ≠ .ok b := by
  simp [throw, throwThe, MonadExceptOf.throw]

/-- Replace the error of a failing computation, as `except ...: raise other from None` does. -/
def orRaise (x : Except ε α) (error : ε) : Except ε α :=
  match x with
  | .ok a => .ok a
  | .error _ => .error error

/-- Replacing the error changes no success. -/
@[simp] theorem orRaise_ok {x : Except ε α} {error : ε} {a : α} :
    orRaise x error = .ok a ↔ x = .ok a := by
  cases x <;> simp [orRaise]

/-- The value of an optional row, or an error when there is none. -/
def orMissing (x : Option α) (error : ε) : Except ε α :=
  match x with
  | some a => .ok a
  | none => .error error

/-- A row is found exactly when the option holds it. -/
@[simp] theorem orMissing_ok {x : Option α} {error : ε} {a : α} :
    orMissing x error = .ok a ↔ x = some a := by
  cases x <;> simp [orMissing]

/-- A mapped result is a value exactly when the computation returned one. -/
theorem map_ok {x : Except ε α} {f : α → β} {b : β} :
    x.map f = .ok b ↔ ∃ a, x = .ok a ∧ f a = b := by
  cases x <;> simp [Except.map]

/-- Translating the error changes no success. -/
@[simp] theorem mapError_ok {δ : Type} {x : Except ε α} {f : ε → δ} {a : α} :
    x.mapError f = .ok a ↔ x = .ok a := by
  cases x <;> simp [Except.mapError]

/-- A mapped list is the list of the results, all of them values. -/
theorem mapM_ok {f : α → Except ε β} {items : List α} {results : List β} :
    items.mapM f = .ok results ↔ List.Forall₂ (fun a b => f a = .ok b) items results := by
  induction items generalizing results with
  | nil =>
      rw [List.mapM_nil, pure_ok, List.forall₂_nil_left_iff]
      exact eq_comm
  | cons a rest ih =>
      rw [List.mapM_cons, bind_ok]
      constructor
      · rintro ⟨b, hb, h⟩
        obtain ⟨bs, hbs, h⟩ := bind_ok.mp h
        obtain rfl : b :: bs = results := by simpa using h
        exact .cons hb (ih.mp hbs)
      · rintro (_ | ⟨hb, hrest⟩)
        exact ⟨_, hb, bind_ok.mpr ⟨_, ih.mpr hrest, rfl⟩⟩

/-- Every element of the second list is related to one of the first. -/
theorem exists_of_forall₂ {R : α → β → Prop} {items : List α} {results : List β}
    (h : List.Forall₂ R items results) {b : β} (hb : b ∈ results) : ∃ a ∈ items, R a b := by
  induction h with
  | nil => cases hb
  | cons ha _ ih =>
      rcases List.mem_cons.mp hb with rfl | hb
      · exact ⟨_, List.mem_cons_self, ha⟩
      · obtain ⟨a, hmem, ha⟩ := ih hb
        exact ⟨a, List.mem_cons_of_mem _ hmem, ha⟩

/-- Every element of a mapped list has its result. -/
theorem exists_result_of_mapM {f : α → Except ε β} {items : List α} {results : List β}
    (h : items.mapM f = .ok results) {a : α} (ha : a ∈ items) : ∃ b ∈ results, f a = .ok b :=
  exists_of_forall₂ (mapM_ok.mp h).flip ha

/-- Every result of a mapped list comes from an element. -/
theorem exists_item_of_mapM {f : α → Except ε β} {items : List α} {results : List β}
    (h : items.mapM f = .ok results) {b : β} (hb : b ∈ results) : ∃ a ∈ items, f a = .ok b :=
  exists_of_forall₂ (mapM_ok.mp h) hb

/-- A mapped list succeeds when every element does, and its results take over a relation. -/
theorem mapM_forall₂ {γ : Type} {f : β → Except ε γ} {P : α → γ → Prop} {origins : List α}
    {items : List β} (h : List.Forall₂ (fun a b => ∃ c, f b = .ok c ∧ P a c) origins items) :
    ∃ results, items.mapM f = .ok results ∧ List.Forall₂ P origins results := by
  induction h with
  | nil => exact ⟨[], rfl, .nil⟩
  | cons hfirst _ ih =>
      obtain ⟨c, hc, hpost⟩ := hfirst
      obtain ⟨results, hresults, hall⟩ := ih
      refine ⟨c :: results, ?_, .cons hpost hall⟩
      rw [List.mapM_cons]
      exact bind_ok.mpr ⟨c, hc, bind_ok.mpr ⟨results, hresults, rfl⟩⟩

/-- A mapped list succeeds when every element does, and relates elements to results. -/
theorem mapM_total {f : α → Except ε β} {P : α → β → Prop} {items : List α}
    (h : ∀ a ∈ items, ∃ b, f a = .ok b ∧ P a b) :
    ∃ results, items.mapM f = .ok results ∧ List.Forall₂ P items results :=
  mapM_forall₂ (List.forall₂_same.mpr h)

/-- Run `body` on every element from the left, threading the state; the first error stops. -/
def forEach (body : σ → α → Except ε σ) : σ → List α → Except ε σ
  | state, [] => .ok state
  | state, a :: rest => body state a >>= fun next => forEach body next rest

@[simp] theorem forEach_nil (body : σ → α → Except ε σ) (state : σ) :
    forEach body state [] = .ok state := rfl

@[simp] theorem forEach_cons (body : σ → α → Except ε σ) (state : σ) (a : α) (rest : List α) :
    forEach body state (a :: rest) = body state a >>= fun next => forEach body next rest := rfl

/-- What every iteration preserves holds after the loop. -/
theorem forEach_invariant {body : σ → α → Except ε σ} (P : σ → Prop) {items : List α}
    {state final : σ} (hstep : ∀ s a s', a ∈ items → P s → body s a = .ok s' → P s')
    (hstart : P state) (h : forEach body state items = .ok final) : P final := by
  induction items generalizing state with
  | nil =>
      obtain rfl : state = final := by simpa using h
      exact hstart
  | cons a rest ih =>
      obtain ⟨next, hnext, hrest⟩ := bind_ok.mp h
      exact ih (fun s b s' hb => hstep s b s' (List.mem_cons_of_mem _ hb))
        (hstep state a next List.mem_cons_self hstart hnext) hrest

/-- A loop whose every iteration either returns under an invariant of the remaining elements or
raises on a bad one: it returns exactly when no element is bad. -/
theorem forEach_cases {body : σ → α → Except ε σ} (P : List α → σ → Prop) (bad : α → Bool)
    (hstep : ∀ a rest s, P (a :: rest) s →
      if bad a then ∃ e, body s a = .error e else ∃ s', body s a = .ok s' ∧ P rest s')
    {items : List α} {state : σ} (hstart : P items state) :
    if items.any bad then ∃ e, forEach body state items = .error e
    else ∃ final, forEach body state items = .ok final ∧ P [] final := by
  induction items generalizing state with
  | nil => exact ⟨state, rfl, hstart⟩
  | cons a rest ih =>
      have ha := hstep a rest state hstart
      cases hbad : bad a with
      | true =>
          rw [hbad, if_pos rfl] at ha
          obtain ⟨e, he⟩ := ha
          simp [hbad, he, bind, Except.bind]
      | false =>
          rw [hbad, if_neg (by decide)] at ha
          obtain ⟨next, hnext, hP⟩ := ha
          simpa [hbad, hnext, bind, Except.bind] using ih hP

/-! ## Pre- and postconditions -/

/-- A computation that returns a value with the property `post`, or raises an error that `allowed`
admits. -/
def Ensures (allowed : ε → Prop) (post : α → Prop) (x : Except ε α) : Prop :=
  match x with
  | .ok a => post a
  | .error e => allowed e

namespace Ensures

variable {allowed : ε → Prop} {post : α → Prop}

/-- A computation that is known to return. -/
theorem of_ok {x : Except ε α} {a : α} (h : x = .ok a) (hpost : post a) :
    Ensures allowed post x := by
  subst h
  exact hpost

/-- A computation that may raise nothing returns. -/
theorem returns {x : Except ε α} (h : Ensures (fun _ => False) post x) :
    ∃ a, x = .ok a ∧ post a := by
  cases x with
  | error e => exact h.elim
  | ok a => exact ⟨a, rfl, h⟩

/-- What a computation ensures about the errors it raises. -/
theorem error {x : Except ε α} (h : Ensures allowed post x) {e : ε} (he : x = .error e) :
    allowed e := by
  subst he
  exact h

/-- A weaker postcondition. -/
theorem mono {x : Except ε α} {post' : α → Prop} (h : Ensures allowed post x)
    (hpost : ∀ a, post a → post' a) : Ensures allowed post' x := by
  cases x with
  | error e => exact h
  | ok a => exact hpost a h

/-- More errors may be admitted. -/
theorem weaken {x : Except ε α} {allowed' : ε → Prop} (h : Ensures allowed post x)
    (hallowed : ∀ e, allowed e → allowed' e) : Ensures allowed' post x := by
  cases x with
  | error e => exact hallowed e h
  | ok a => exact h

/-- `pure` ensures what its argument satisfies. -/
theorem pure {a : α} (h : post a) : Ensures allowed post (Pure.pure a) :=
  h

/-- A sequence ensures what its second part does on the results of the first. -/
theorem bind {x : Except ε α} {f : α → Except ε β} {result : β → Prop}
    (hx : Ensures allowed post x) (hf : ∀ a, post a → Ensures allowed result (f a)) :
    Ensures allowed result (x >>= f) := by
  cases x with
  | error e => exact hx
  | ok a => exact hf a hx

/-- A guard ensures its condition when its error is admitted. -/
theorem require {condition : Prop} [Decidable condition] {e : ε} (h : ¬ condition → allowed e) :
    Ensures allowed (fun _ => condition) (Checked.require condition e) := by
  unfold Checked.require
  split
  · next hc => exact hc
  · next hc => exact h hc

/-- A lookup ensures that the row was found when its error is admitted. -/
theorem orMissing {x : Option α} {e : ε} (h : x = none → allowed e) :
    Ensures allowed (fun a => x = some a) (Checked.orMissing x e) := by
  cases x with
  | none => exact h rfl
  | some a => exact rfl

/-- A mapped result. -/
theorem map {x : Except ε α} {f : α → β} {result : β → Prop} (h : Ensures allowed post x)
    (hf : ∀ a, post a → result (f a)) : Ensures allowed result (x.map f) := by
  cases x with
  | error e => exact h
  | ok a => exact hf a h

/-- A loop ensures what its invariant says of the empty rest. -/
theorem forEach {body : σ → α → Except ε σ} (P : List α → σ → Prop)
    (hstep : ∀ a rest s, P (a :: rest) s → Ensures allowed (P rest) (body s a))
    {items : List α} {state : σ} (hstart : P items state) :
    Ensures allowed (P []) (Checked.forEach body state items) := by
  induction items generalizing state with
  | nil => exact hstart
  | cons a rest ih => exact (hstep a rest state hstart).bind fun next hnext => ih hnext

/-- A mapped list ensures what is ensured of every element. -/
theorem mapM {f : α → Except ε β} {result : β → Prop} {items : List α}
    (h : ∀ a ∈ items, Ensures allowed result (f a)) :
    Ensures allowed (fun results => ∀ b ∈ results, result b) (items.mapM f) := by
  induction items with
  | nil => exact nofun
  | cons a rest ih =>
      rw [List.mapM_cons]
      refine (h a List.mem_cons_self).bind fun b hb => ?_
      refine (ih fun c hc => h c (List.mem_cons_of_mem _ hc)).bind fun bs hbs => ?_
      exact List.forall_mem_cons.mpr ⟨hb, hbs⟩

end Ensures

/-! ## Computations with more failures -/

/-- `y` returns whatever `x` returns; `x` may raise where `y` does not. -/
def Approximates (x y : Except ε α) : Prop :=
  ∀ a, x = .ok a → y = .ok a

/-- Every computation approximates itself. -/
theorem Approximates.refl (x : Except ε α) : Approximates x x :=
  fun _ h => h

/-- A sequence of approximations approximates the sequence. -/
theorem Approximates.bind {x y : Except ε α} {f g : α → Except ε β} (h : Approximates x y)
    (hnext : ∀ a, Approximates (f a) (g a)) : Approximates (x >>= f) (y >>= g) := by
  intro b hb
  obtain ⟨a, ha, hb⟩ := bind_ok.mp hb
  exact bind_ok.mpr ⟨a, h a ha, hnext a b hb⟩

/-- A loop over approximations approximates the loop. -/
theorem Approximates.forEach {body body' : σ → α → Except ε σ}
    (h : ∀ s a, Approximates (body s a) (body' s a)) (state : σ) (items : List α) :
    Approximates (forEach body state items) (forEach body' state items) := by
  induction items generalizing state with
  | nil => exact .refl _
  | cons a rest ih => exact (h state a).bind fun next => ih next

end Checked
