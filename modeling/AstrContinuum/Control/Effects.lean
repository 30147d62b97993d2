import AstrContinuum.Control.Checked

/-!
# Computations that raise and keep a state

Code that raises while it updates an object keeps the update. Such a computation is an `EStateM`:
the state survives a raised error. `attempt` is a `try` block, `perform` runs a computation that
has no state, and `Returns` is the partial-correctness judgement: every returned value has the
stated property, whatever the state. Its rules follow the shape of the computation.
-/

namespace Effects

variable {ε σ α β : Type}

/-- Run a stateless computation. -/
def perform (x : Except ε α) : EStateM ε σ α := fun s =>
  match x with
  | .ok a => .ok a s
  | .error e => .error e s

/-- The value or the error of a result, without its state. -/
def outcome : EStateM.Result ε σ α → Except ε α
  | .ok a _ => .ok a
  | .error e _ => .error e

/-- The state of a result. -/
def finalState : EStateM.Result ε σ α → σ
  | .ok _ s => s
  | .error _ s => s

/-- A result with a property of its value is a returned value with that property. -/
theorem exists_ok_of_any {r : EStateM.Result ε σ α} {p : α → Bool}
    (h : (outcome r).toOption.any p = true) : ∃ a s, r = .ok a s ∧ p a = true := by
  cases r with
  | ok a s => exact ⟨a, s, rfl, h⟩
  | error e s => cases h

/-- A `try` block: `handler` takes over at the state in which `x` raised. -/
def attempt (x : EStateM ε σ α) (handler : ε → EStateM ε σ α) : EStateM ε σ α := fun s =>
  match x s with
  | .ok a s' => .ok a s'
  | .error e s' => handler e s'

/-- A sequence returns exactly when both parts do. -/
theorem bind_ok {x : EStateM ε σ α} {f : α → EStateM ε σ β} {s s' : σ} {b : β} :
    (x >>= f) s = .ok b s' ↔ ∃ a s₁, x s = .ok a s₁ ∧ f a s₁ = .ok b s' := by
  show EStateM.bind x f s = .ok b s' ↔ _
  unfold EStateM.bind
  cases x s with
  | ok a s₁ => simp
  | error e s₁ => simp

/-- A stateless computation returns its value and leaves the state. -/
theorem perform_ok {x : Except ε α} {s s' : σ} {a : α} :
    perform x s = .ok a s' ↔ x = .ok a ∧ s = s' := by
  cases x <;> simp [perform]

/-! ## Properties of the returned value -/

/-- Every value that `x` returns has the property `post`. -/
def Returns (x : EStateM ε σ α) (post : α → Prop) : Prop :=
  ∀ s a s', x s = .ok a s' → post a

/-- A property of the returned value may be weakened. -/
theorem Returns.mono {x : EStateM ε σ α} {post weaker : α → Prop} (h : Returns x post)
    (hweaker : ∀ a, post a → weaker a) : Returns x weaker :=
  fun s a s' ha => hweaker a (h s a s' ha)

/-- `pure` returns its argument. -/
theorem Returns.pure {a : α} {post : α → Prop} (h : post a) :
    Returns (Pure.pure a : EStateM ε σ α) post := by
  intro s b s' hb
  obtain ⟨rfl, -⟩ : a = b ∧ s = s' := by simpa [Pure.pure, EStateM.pure] using hb
  exact h

/-- A raised error returns nothing. -/
theorem Returns.throw {e : ε} {post : α → Prop} :
    Returns (MonadExcept.throw e : EStateM ε σ α) post := by
  intro s b s' hb
  cases hb

/-- A stateless computation returns what it returns. -/
theorem Returns.perform {x : Except ε α} {post : α → Prop} (h : ∀ a, x = .ok a → post a) :
    Returns (perform x : EStateM ε σ α) post :=
  fun _ a _ ha => h a (perform_ok.mp ha).1

/-- The first part of a sequence hands its property to the second. -/
theorem Returns.bind {x : EStateM ε σ α} {f : α → EStateM ε σ β} {mid : α → Prop}
    {post : β → Prop} (h : Returns x mid) (hnext : ∀ a, mid a → Returns (f a) post) :
    Returns (x >>= f) post := by
  intro s b s' hb
  obtain ⟨a, s₁, ha, hb⟩ := bind_ok.mp hb
  exact hnext a (h s a s₁ ha) s₁ b s' hb

/-- A sequence whose first part says nothing. -/
theorem Returns.after {x : EStateM ε σ α} {f : α → EStateM ε σ β} {post : β → Prop}
    (hnext : ∀ a, Returns (f a) post) : Returns (x >>= f) post := by
  have hfirst : Returns x fun _ => True := fun _ _ _ _ => trivial
  exact hfirst.bind fun a _ => hnext a

/-- Both branches of a choice return values with the property. -/
theorem Returns.ite {condition : Prop} [Decidable condition] {x y : EStateM ε σ α}
    {post : α → Prop} (hx : condition → Returns x post) (hy : ¬ condition → Returns y post) :
    Returns (if condition then x else y) post := by
  by_cases h : condition
  · simpa [h] using hx h
  · simpa [h] using hy h

/-- A loop keeps what every iteration keeps; the invariant names the items that are done. -/
theorem Returns.foldlM {f : β → α → EStateM ε σ β} (inv : List α → β → Prop) {items : List α}
    {init : β} (hinit : inv [] init)
    (hstep : ∀ done a b, a ∈ items → inv done b → Returns (f b a) (inv (done ++ [a]))) :
    Returns (items.foldlM f init) (inv items) := by
  suffices h : ∀ rest done b, (∀ a ∈ rest, a ∈ items) → inv done b →
      Returns (rest.foldlM f b) (inv (done ++ rest)) from
    h items [] init (fun _ ha => ha) hinit
  intro rest
  induction rest with
  | nil =>
      intro done b _ hb
      rw [List.append_nil]
      exact Returns.pure hb
  | cons a rest ih =>
      intro done b hitems hb
      rw [List.foldlM_cons, List.append_cons]
      have ha := hstep done a b (hitems a List.mem_cons_self) hb
      exact ha.bind fun next hnext =>
        ih (done ++ [a]) next (fun item hitem => hitems item (List.mem_cons_of_mem _ hitem)) hnext

/-! ## Properties of both ends -/

/-- From the state `s`, the computation returns a value and a state with the property `post`, or it
raises an error with the property `raises`. -/
def Yields (raises : ε → Prop) (post : α → σ → Prop) (x : EStateM ε σ α) (s : σ) : Prop :=
  match x s with
  | .ok a s' => post a s'
  | .error e _ => raises e

namespace Yields

variable {raises : ε → Prop} {post : α → σ → Prop} {s : σ}

/-- A returned value has its property. -/
theorem ok {x : EStateM ε σ α} (h : Yields raises post x s) {a : α} {s' : σ}
    (hx : x s = .ok a s') : post a s' := by
  simpa [Yields, hx] using h

/-- A raised error has its property. -/
theorem error {x : EStateM ε σ α} (h : Yields raises post x s) {e : ε} {s' : σ}
    (hx : x s = .error e s') : raises e := by
  simpa [Yields, hx] using h

/-- A computation yields what it does. -/
theorem self (x : EStateM ε σ α) (s : σ) :
    Yields (fun e => ∃ s', x s = .error e s') (fun a s' => x s = .ok a s') x s := by
  unfold Yields
  cases hx : x s with
  | ok a s' => rfl
  | error e s' => exact ⟨s', rfl⟩

/-- Both properties may be weakened. -/
theorem weaken {x : EStateM ε σ α} {raises' : ε → Prop} {weaker : α → σ → Prop}
    (h : Yields raises post x s) (hraises : ∀ e, raises e → raises' e)
    (hweaker : ∀ a s', post a s' → weaker a s') : Yields raises' weaker x s := by
  unfold Yields at h ⊢
  cases hx : x s with
  | ok a s' =>
      rw [hx] at h
      exact hweaker a s' h
  | error e s' =>
      rw [hx] at h
      exact hraises e h

/-- The property of what is returned may be weakened. -/
theorem mono {x : EStateM ε σ α} {weaker : α → σ → Prop} (h : Yields raises post x s)
    (hweaker : ∀ a s', post a s' → weaker a s') : Yields raises weaker x s :=
  h.weaken (fun _ he => he) hweaker

/-- `pure` returns its argument and leaves the state. -/
theorem pure {a : α} (h : post a s) : Yields raises post (Pure.pure a : EStateM ε σ α) s := h

/-- `throw` raises its argument. -/
theorem throw {e : ε} (h : raises e) :
    Yields raises post (MonadExcept.throw e : EStateM ε σ α) s := h

/-- A stateless computation yields what it ensures, in the same state. -/
theorem ensured {x : Except ε α} {result : α → Prop} (h : Checked.Ensures raises result x) :
    Yields raises (fun a s' => result a ∧ s' = s) (Effects.perform x : EStateM ε σ α) s := by
  cases x with
  | ok a => exact ⟨h, rfl⟩
  | error e => exact h

/-- The first part of a sequence hands its property to the second. -/
theorem bind {x : EStateM ε σ α} {f : α → EStateM ε σ β} {last : β → σ → Prop}
    (h : Yields raises post x s) (hnext : ∀ a s', post a s' → Yields raises last (f a) s') :
    Yields raises last (x >>= f) s := by
  show Yields raises last (EStateM.bind x f) s
  unfold Yields at h
  cases hx : x s with
  | ok a s' =>
      rw [hx] at h
      have := hnext a s' h
      simpa only [Yields, EStateM.bind, hx] using this
  | error e s' =>
      rw [hx] at h
      simpa only [Yields, EStateM.bind, hx] using h

/-- A sequence whose first part says nothing. -/
theorem after {x : EStateM ε σ α} {f : α → EStateM ε σ β} {last : β → σ → Prop}
    (hnext : ∀ a s', Yields (fun _ => True) last (f a) s') :
    Yields (fun _ => True) last (x >>= f) s :=
  ((self x s).weaken (fun _ _ => trivial) fun _ _ h => h).bind fun a s' _ => hnext a s'

/-- A first part that is known to return is passed. -/
theorem returned {x : EStateM ε σ α} {f : α → EStateM ε σ β} {last : β → σ → Prop} {a : α} {s' : σ}
    (hx : x s = .ok a s') (hnext : Yields raises last (f a) s') : Yields raises last (x >>= f) s := by
  show Yields raises last (EStateM.bind x f) s
  simpa only [Yields, EStateM.bind, hx] using hnext

/-- A stateless computation that returns is passed. -/
theorem performed {x : Except ε α} {f : α → EStateM ε σ β} {last : β → σ → Prop} {a : α}
    (hx : x = .ok a) (hnext : Yields raises last (f a) s) :
    Yields raises last (Effects.perform x >>= f) s := by
  subst hx
  exact hnext

/-- Both branches of a choice have the property. -/
theorem ite {condition : Prop} [Decidable condition] {x y : EStateM ε σ α}
    (hx : condition → Yields raises post x s) (hy : ¬ condition → Yields raises post y s) :
    Yields raises post (if condition then x else y) s := by
  by_cases h : condition
  · simpa [h] using hx h
  · simpa [h] using hy h

/-- What the body of a `try` block raises is handed to the handler. -/
theorem attempt {x : EStateM ε σ α} {handler : ε → EStateM ε σ α} {thrown : ε → Prop}
    (h : Yields thrown post x s)
    (hhandler : ∀ e s', thrown e → Yields raises post (handler e) s') :
    Yields raises post (Effects.attempt x handler) s := by
  unfold Yields at h ⊢
  unfold Effects.attempt
  cases hx : x s with
  | ok a s' =>
      rw [hx] at h
      exact h
  | error e s' =>
      rw [hx] at h
      exact hhandler e s' h

end Yields

/-! ## Two computations in step -/

/-- Two results are in step: the same value in related states, or the same error in states that
`broken` relates. -/
def InStep {τ : Type} (related : σ → τ → Prop) (broken : ε → σ → τ → Prop) :
    EStateM.Result ε σ α → EStateM.Result ε τ α → Prop
  | .ok a s, .ok b t => a = b ∧ related s t
  | .error e s, .error e' t => e = e' ∧ broken e s t
  | _, _ => False

/-- From related states, the two computations have results in step unless the second ends in a bad state.
What is bad stays bad. -/
structure Matches {τ : Type} (related : σ → τ → Prop) (broken : ε → σ → τ → Prop) (bad : τ → Prop)
    (x : EStateM ε σ α) (y : EStateM ε τ α) : Prop where
  inStep : ∀ s t, related s t → ¬ bad (finalState (y t)) → InStep related broken (x s) (y t)
  stays : ∀ t, bad t → bad (finalState (y t))

namespace Matches

variable {τ : Type} {related : σ → τ → Prop} {broken : ε → σ → τ → Prop} {bad : τ → Prop}
  {x : EStateM ε σ α} {y : EStateM ε τ α}

/-- What follows when the first computation returns. -/
theorem ok (h : Matches related broken bad x y) {s s' : σ} {t : τ} (hst : related s t)
    (hbad : ¬ bad (finalState (y t))) {a : α} (hx : x s = .ok a s') :
    ∃ t', y t = .ok a t' ∧ related s' t' := by
  have hstep := h.inStep s t hst hbad
  rw [hx] at hstep
  cases hy : y t with
  | ok b t' =>
      rw [hy] at hstep
      obtain ⟨rfl, hrelated⟩ := hstep
      exact ⟨t', rfl, hrelated⟩
  | error e t' => exact (hy ▸ hstep).elim

/-- What follows when the first computation raises. -/
theorem error (h : Matches related broken bad x y) {s s' : σ} {t : τ} (hst : related s t)
    (hbad : ¬ bad (finalState (y t))) {e : ε} (hx : x s = .error e s') :
    ∃ t', y t = .error e t' ∧ broken e s' t' := by
  have hstep := h.inStep s t hst hbad
  rw [hx] at hstep
  cases hy : y t with
  | ok b t' => exact (hy ▸ hstep).elim
  | error e' t' =>
      rw [hy] at hstep
      obtain ⟨rfl, hbroken⟩ := hstep
      exact ⟨t', rfl, hbroken⟩

/-- `pure` matches itself. -/
theorem pure (a : α) :
    Matches related broken bad (Pure.pure a : EStateM ε σ α) (Pure.pure a : EStateM ε τ α) :=
  ⟨fun _ _ hst _ => ⟨rfl, hst⟩, fun _ ht => ht⟩

/-- `throw` matches itself. -/
theorem throw {e : ε} (h : ∀ s t, related s t → broken e s t) :
    Matches related broken bad (MonadExcept.throw e : EStateM ε σ α)
      (MonadExcept.throw e : EStateM ε τ α) :=
  ⟨fun s t hst _ => ⟨rfl, h s t hst⟩, fun _ ht => ht⟩

/-- A stateless computation matches itself. -/
theorem perform {z : Except ε α} {raises : ε → Prop} {post : α → Prop}
    (hz : Checked.Ensures raises post z) (h : ∀ e, raises e → ∀ s t, related s t → broken e s t) :
    Matches related broken bad (Effects.perform z : EStateM ε σ α) (Effects.perform z) := by
  cases z with
  | ok a => exact .pure a
  | error e => exact .throw (h e hz)

/-- Sequences of matching parts match. -/
theorem bind {f : α → EStateM ε σ β} {g : α → EStateM ε τ β} (h : Matches related broken bad x y)
    (hnext : ∀ a, Matches related broken bad (f a) (g a)) :
    Matches related broken bad (x >>= f) (y >>= g) := by
  have hrest : ∀ t, bad (finalState (y t)) → bad (finalState (EStateM.bind y g t)) := by
    intro t ht
    unfold EStateM.bind
    cases hy : y t with
    | ok a t' =>
        rw [hy] at ht
        exact (hnext a).stays t' ht
    | error e t' =>
        rw [hy] at ht
        exact ht
  refine ⟨fun s t hst hbad => ?_, fun t ht => hrest t (h.stays t ht)⟩
  change ¬ bad (finalState (EStateM.bind y g t)) at hbad
  have hfirst : ¬ bad (finalState (y t)) := fun ht => hbad (hrest t ht)
  show InStep related broken (EStateM.bind x f s) (EStateM.bind y g t)
  unfold EStateM.bind at hbad ⊢
  cases hx : x s with
  | ok a s' =>
      obtain ⟨t', hy, hst'⟩ := h.ok hst hfirst hx
      rw [hy] at hbad ⊢
      exact (hnext a).inStep s' t' hst' hbad
  | error e s' =>
      obtain ⟨t', hy, hbroken⟩ := h.error hst hfirst hx
      rw [hy]
      exact ⟨rfl, hbroken⟩

/-- Both branches of a choice match. -/
theorem ite {condition : Prop} [Decidable condition] {x' : EStateM ε σ α} {y' : EStateM ε τ α}
    (h : Matches related broken bad x y) (h' : Matches related broken bad x' y') :
    Matches related broken bad (if condition then x else x') (if condition then y else y') := by
  by_cases hc : condition
  · simpa [hc] using h
  · simpa [hc] using h'

/-- `try` blocks with matching bodies match when their handlers are in step from broken states and leave
the state. -/
theorem attempt {f : ε → EStateM ε σ α} {g : ε → EStateM ε τ α} (h : Matches related broken bad x y)
    (hhandler : ∀ e s t, broken e s t → InStep related broken (f e s) (g e t))
    (hleaves : ∀ e t, finalState (g e t) = t) :
    Matches related broken bad (Effects.attempt x f) (Effects.attempt y g) := by
  have hsame : ∀ t, finalState (Effects.attempt y g t) = finalState (y t) := by
    intro t
    unfold Effects.attempt
    cases y t with
    | ok b t' => rfl
    | error e t' => exact hleaves e t'
  refine ⟨fun s t hst hbad => ?_, fun t ht => hsame t ▸ h.stays t ht⟩
  rw [hsame] at hbad
  unfold Effects.attempt
  cases hx : x s with
  | ok a s' =>
      obtain ⟨t', hy, hst'⟩ := h.ok hst hbad hx
      rw [hy]
      exact ⟨rfl, hst'⟩
  | error e s' =>
      obtain ⟨t', hy, hbroken⟩ := h.error hst hbad hx
      rw [hy]
      exact hhandler e s' t' hbroken

end Matches

/-! ## Properties of the state an error leaves -/

/-- From the state `s`, the computation returns a value and a state with the property `post`, or it
raises an error and leaves a state with the property `raises`. -/
def Ends (raises : ε → σ → Prop) (post : α → σ → Prop) (x : EStateM ε σ α) (s : σ) : Prop :=
  match x s with
  | .ok a s' => post a s'
  | .error e s' => raises e s'

namespace Ends

variable {raises : ε → σ → Prop} {post : α → σ → Prop} {s : σ}

/-- A returned value has its property. -/
theorem ok {x : EStateM ε σ α} (h : Ends raises post x s) {a : α} {s' : σ} (hx : x s = .ok a s') :
    post a s' := by
  simpa [Ends, hx] using h

/-- A raised error has its property. -/
theorem error {x : EStateM ε σ α} (h : Ends raises post x s) {e : ε} {s' : σ}
    (hx : x s = .error e s') : raises e s' := by
  simpa [Ends, hx] using h

/-- Both properties may be weakened. -/
theorem weaken {x : EStateM ε σ α} {raises' : ε → σ → Prop} {weaker : α → σ → Prop}
    (h : Ends raises post x s) (hraises : ∀ e s', raises e s' → raises' e s')
    (hweaker : ∀ a s', post a s' → weaker a s') : Ends raises' weaker x s := by
  unfold Ends at h ⊢
  cases hx : x s with
  | ok a s' =>
      rw [hx] at h
      exact hweaker a s' h
  | error e s' =>
      rw [hx] at h
      exact hraises e s' h

/-- `pure` returns its argument and leaves the state. -/
theorem pure {a : α} (h : post a s) : Ends raises post (Pure.pure a : EStateM ε σ α) s := h

/-- `throw` raises its argument and leaves the state. -/
theorem throw {e : ε} (h : raises e s) :
    Ends raises post (MonadExcept.throw e : EStateM ε σ α) s := h

/-- The first part of a sequence hands its property to the second. -/
theorem bind {x : EStateM ε σ α} {f : α → EStateM ε σ β} {last : β → σ → Prop}
    (h : Ends raises post x s) (hnext : ∀ a s', post a s' → Ends raises last (f a) s') :
    Ends raises last (x >>= f) s := by
  show Ends raises last (EStateM.bind x f) s
  unfold Ends at h
  cases hx : x s with
  | ok a s' =>
      rw [hx] at h
      have := hnext a s' h
      simpa only [Ends, EStateM.bind, hx] using this
  | error e s' =>
      rw [hx] at h
      simpa only [Ends, EStateM.bind, hx] using h

/-- A stateless computation that returns is passed. -/
theorem performed {x : Except ε α} {f : α → EStateM ε σ β} {last : β → σ → Prop} {a : α}
    (hx : x = .ok a) (hnext : Ends raises last (f a) s) :
    Ends raises last (Effects.perform x >>= f) s := by
  subst hx
  exact hnext

/-- Both branches of a choice have the property. -/
theorem ite {condition : Prop} [Decidable condition] {x y : EStateM ε σ α}
    (hx : condition → Ends raises post x s) (hy : ¬ condition → Ends raises post y s) :
    Ends raises post (if condition then x else y) s := by
  by_cases h : condition
  · simpa [h] using hx h
  · simpa [h] using hy h

/-- A loop ends with what its invariant says of the empty rest. -/
theorem foldlM {f : β → α → EStateM ε σ β} (inv : List α → β → σ → Prop)
    (hstep : ∀ a rest b s, inv (a :: rest) b s → Ends raises (inv rest) (f b a) s)
    {items : List α} {init : β} (hinit : inv items init s) :
    Ends raises (inv []) (items.foldlM f init) s := by
  induction items generalizing init s with
  | nil => exact pure hinit
  | cons a rest ih =>
      rw [List.foldlM_cons]
      exact (hstep a rest init s hinit).bind fun next s' hnext => ih hnext

end Ends

end Effects
