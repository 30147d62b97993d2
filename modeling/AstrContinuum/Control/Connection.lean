import AstrContinuum.Control.Checked

/-!
# Connections and transactions

A connection to a transactional store, statement by statement. The durable database is what any
later connection reads; an open transaction works on a copy, which a commit makes durable and a
rollback drops. Outside a transaction every statement commits by itself, so a transaction that is
lost halfway is visible here.

Besides its own failures a statement can meet an outage (a full disk, an input/output error), which
undoes the statement only or rolls the whole transaction back. `Follows` compares a session with a
computation on the database: whatever the outages, the session returns what the computation returns,
fails as it fails, or is stopped by an outage, and the durable database stays where it was.
`run_transaction` turns this into atomicity.
-/

namespace Connections

open Checked

variable {σ ε α β γ δ : Type}

/-- How far an outage reaches: the statement is undone, or the whole transaction is. -/
inductive Outage
  | statement
  | transaction
deriving DecidableEq

/-- Which statements of a session meet an outage, by their number. -/
abbrev Outages := Nat → Option Outage

/-- What a session raises: a failure of the program, an outage, or the misuse of a savepoint or a
transaction. -/
inductive Raised (ε : Type)
  | failure (error : ε)
  | outage (outage : Outage)
  | operational
deriving DecidableEq

/-- An open transaction: its working copy, the copies kept at its savepoints, innermost first, and
whether `BEGIN` opened it. -/
structure Transaction (σ : Type) where
  working : σ
  savepoints : List (String × σ)
  explicit : Bool

/-- A connection. -/
structure Connection (σ : Type) where
  durable : σ
  transaction : Option (Transaction σ)
  executed : Nat

/-- A fresh connection to a database. -/
def Connection.idle (db : σ) : Connection σ :=
  ⟨db, none, 0⟩

/-- The connection after `ROLLBACK`. -/
def Connection.rolledBack (c : Connection σ) : Connection σ :=
  { c with transaction := none }

/-- Code that talks to the store. -/
abbrev Session (ε σ α : Type) := EStateM (Raised ε) (Connection σ) α

/-! ## Statements -/

variable (outages : Outages)

/-- One statement: it meets its outage, or runs `f`. -/
def perform (f : Connection σ → Except (Raised ε) (Connection σ × α)) : Session ε σ α := fun c =>
  let c := { c with executed := c.executed + 1 }
  match outages c.executed with
  | some .statement => .error (.outage .statement) c
  | some .transaction => .error (.outage .transaction) c.rolledBack
  | none =>
      match f c with
      | .ok (c', a) => .ok a c'
      | .error e => .error e c

/-- A statement on the database: on the working copy of the open transaction, else on the durable
database. -/
def execute (f : σ → Except ε (σ × α)) : Session ε σ α :=
  perform outages fun c =>
    match c.transaction with
    | some t =>
        match f t.working with
        | .ok (db, a) => .ok ({ c with transaction := some { t with working := db } }, a)
        | .error e => .error (.failure e)
    | none =>
        match f c.durable with
        | .ok (db, a) => .ok ({ c with durable := db }, a)
        | .error e => .error (.failure e)

/-- A query. -/
def read (f : σ → Except ε α) : Session ε σ α :=
  execute outages fun db => (f db).map fun a => (db, a)

/-- A statement that returns nothing. -/
def write (f : σ → Except ε σ) : Session ε σ Unit :=
  execute outages fun db => (f db).map fun db => (db, ())

/-- `BEGIN IMMEDIATE`. -/
def begin : Session ε σ Unit :=
  perform outages fun c =>
    match c.transaction with
    | some _ => .error .operational
    | none => .ok ({ c with transaction := some ⟨c.durable, [], true⟩ }, ())

/-- `COMMIT`, when a transaction is open. -/
def commit : Session ε σ Unit :=
  perform outages fun c =>
    match c.transaction with
    | some t => .ok ({ c with durable := t.working, transaction := none }, ())
    | none => .ok (c, ())

/-- `ROLLBACK`, when a transaction is open. -/
def rollback : Session ε σ Unit :=
  perform outages fun c => .ok (c.rolledBack, ())

/-- `SAVEPOINT`. Outside a transaction it opens one. -/
def savepoint (name : String) : Session ε σ Unit :=
  perform outages fun c =>
    match c.transaction with
    | some t =>
        .ok ({ c with
          transaction := some { t with savepoints := (name, t.working) :: t.savepoints } }, ())
    | none =>
        .ok ({ c with transaction := some ⟨c.durable, [(name, c.durable)], false⟩ }, ())

/-- `ROLLBACK TO`: back to the innermost savepoint of the name, which stays. -/
def rollbackTo (name : String) : Session ε σ Unit :=
  perform outages fun c =>
    match c.transaction with
    | some t =>
        match t.savepoints.dropWhile fun entry => entry.1 ≠ name with
        | (_, db) :: _ =>
            .ok ({ c with
              transaction := some { t with
                working := db
                savepoints := t.savepoints.dropWhile fun entry => entry.1 ≠ name } }, ())
        | [] => .error .operational
    | none => .error .operational

/-- `RELEASE`: the innermost savepoint of the name and those inside it are forgotten. The release of
the savepoint that opened the transaction commits. -/
def release (name : String) : Session ε σ Unit :=
  perform outages fun c =>
    match c.transaction with
    | some t =>
        match t.savepoints.dropWhile fun entry => entry.1 ≠ name with
        | [] => .error .operational
        | _ :: rest =>
            if rest = [] ∧ t.explicit = false then
              .ok ({ c with durable := t.working, transaction := none }, ())
            else .ok ({ c with transaction := some { t with savepoints := rest } }, ())
    | none => .error .operational

/-! ## Blocks -/

/-- A computation that executes no statement. -/
def lift (x : Except ε α) : Session ε σ α := fun c =>
  match x with
  | .ok a => .ok a c
  | .error e => .error (.failure e) c

/-- A `try` block whose `except` clause takes the failures that `caught` selects. -/
def catching (caught : ε → Bool) (x : Session ε σ α) : Session ε σ (Option α) := fun c =>
  match x c with
  | .ok a c' => .ok (some a) c'
  | .error (.failure e) c' => if caught e then .ok none c' else .error (.failure e) c'
  | .error e c' => .error e c'

/-- Raise an error after a cleanup, whose own error replaces it. -/
def raiseAfter (cleanup : Session ε σ Unit) (e : Raised ε) : Session ε σ α := fun c =>
  match cleanup c with
  | .ok _ c' => .error e c'
  | .error e' c' => .error e' c'

/-- `try: x except BaseException: cleanup; raise`. -/
def onError (x : Session ε σ α) (cleanup : Session ε σ Unit) : Session ε σ α := fun c =>
  match x c with
  | .ok a c' => .ok a c'
  | .error e c' => raiseAfter cleanup e c'

/-- `try: x finally: cleanup`. -/
def always (x : Session ε σ α) (cleanup : Session ε σ Unit) : Session ε σ α := fun c =>
  match x c with
  | .ok a c' =>
      match cleanup c' with
      | .ok _ c'' => .ok a c''
      | .error e c'' => .error e c''
  | .error e c' => raiseAfter cleanup e c'

/-- `if connection.in_transaction: connection.rollback()`. -/
def rollbackOpen : Session ε σ Unit := fun c =>
  match c.transaction with
  | some _ => rollback outages c
  | none => .ok () c

/-- A block inside a transaction: it commits, or is rolled back on any error. -/
def transaction (body : Session ε σ α) : Session ε σ α :=
  always (do
    begin outages
    let a ← onError body (rollback outages)
    commit outages
    pure a) (rollbackOpen outages)

/-! ## Sessions that follow a computation -/

/-- How a session may stop: with the failure of the computation `f` or at an outage, and with the
durable database still `db`. -/
def Stops (db : σ) (f : Except ε β) : Raised ε → Connection σ → Prop
  | .failure e, c => c.durable = db ∧ f = .error e
  | .outage o, c => c.durable = db ∧ ∃ n, outages n = some o
  | .operational, _ => False

/-- Inside the open transaction `t` the session `x` follows the computation `f`: its results are
related by `R`, its failures are the same, an outage may stop it, and the durable database stays. -/
def Follows (R : α → Transaction σ → β → Prop) (x : Session ε σ α) (t : Transaction σ)
    (f : Except ε β) : Prop :=
  ∀ c : Connection σ, c.transaction = some t →
    match x c with
    | .ok a c' => c'.durable = c.durable ∧
        ∃ t' b, c'.transaction = some t' ∧ f = .ok b ∧ R a t' b
    | .error e c' => Stops outages c.durable f e c'

namespace Follows

variable {outages} {R : α → Transaction σ → β → Prop} {S : γ → Transaction σ → δ → Prop}
  {t : Transaction σ}

/-- `pure` returns its argument. -/
theorem pure {a : α} {b : β} (h : R a t b) :
    Follows outages R (Pure.pure a : Session ε σ α) t (.ok b) :=
  fun _ hc => ⟨rfl, t, b, hc, rfl, h⟩

/-- Sequences follow sequences. -/
theorem bind {x : Session ε σ α} {f : Except ε β} {y : α → Session ε σ γ} {g : β → Except ε δ}
    (hx : Follows outages R x t f)
    (hy : ∀ a t' b, R a t' b → Follows outages S (y a) t' (g b)) :
    Follows outages S (x >>= y) t (f >>= g) := by
  intro c hc
  have hfirst := hx c hc
  show match EStateM.bind x y c with | .ok a c' => _ | .error e c' => _
  unfold EStateM.bind
  cases hrun : x c with
  | ok a c₁ =>
      rw [hrun] at hfirst
      obtain ⟨hdurable, t', b, hc₁, rfl, hR⟩ := hfirst
      have hsecond := hy a t' b hR c₁ hc₁
      rw [hdurable] at hsecond
      exact hsecond
  | error e c₁ =>
      rw [hrun] at hfirst
      cases e with
      | failure e =>
          obtain ⟨hdurable, rfl⟩ := hfirst
          exact ⟨hdurable, rfl⟩
      | outage o => exact hfirst
      | operational => exact hfirst

/-- The computation may go on to rearrange its result. -/
theorem rearrange {x : Session ε σ α} {f : Except ε β} {k : β → δ}
    {S : α → Transaction σ → δ → Prop} (hx : Follows outages R x t f)
    (hk : ∀ a t' b, R a t' b → S a t' (k b)) :
    Follows outages S x t (f >>= fun b => Pure.pure (k b)) := by
  rw [← bind_pure x]
  exact hx.bind fun a t' b hR => pure (hk a t' b hR)

/-- A session step that the computation does not have. -/
theorem step {P : α → Transaction σ → Unit → Prop} {x : Session ε σ α} {y : α → Session ε σ γ}
    {g : Except ε δ} (hx : Follows outages P x t (.ok ()))
    (hy : ∀ a t', P a t' () → Follows outages S (y a) t' g) : Follows outages S (x >>= y) t g :=
  bind (g := fun _ => g) hx fun a t' _ hP => hy a t' hP

/-- A computation without statements follows itself. -/
theorem lift {x : Except ε α} :
    Follows outages (fun a t' b => t' = t ∧ a = b) (lift x : Session ε σ α) t x := by
  intro c hc
  cases x with
  | error e => exact ⟨rfl, rfl⟩
  | ok a => exact ⟨rfl, t, a, hc, rfl, rfl, rfl⟩

/-- A statement inside the transaction meets its outage or does what it says. -/
theorem perform {f : Connection σ → Except (Raised ε) (Connection σ × α)} {g : Except ε β}
    (h : ∀ c : Connection σ, c.transaction = some t →
      (∃ c' a t' b, f c = .ok (c', a) ∧ g = .ok b ∧ c'.durable = c.durable ∧
        c'.transaction = some t' ∧ R a t' b) ∨
      ∃ e, f c = .error (.failure e) ∧ g = .error e) :
    Follows outages R (perform outages f) t g := by
  intro c hc
  simp only [Connections.perform]
  cases houtage : outages (c.executed + 1) with
  | some o => cases o <;> exact ⟨rfl, _, houtage⟩
  | none =>
      rcases h { c with executed := c.executed + 1 } hc with
        ⟨c', a, t', b, hrun, hg, hdurable, hc', hR⟩ | ⟨e, hrun, hg⟩
      · simp only [hrun]
        exact ⟨hdurable, t', b, hc', hg, hR⟩
      · simp only [hrun]
        exact ⟨rfl, hg⟩

/-- A statement works on the working copy. -/
theorem execute {f : σ → Except ε (σ × α)} :
    Follows outages (fun a t' b => t' = { t with working := b.1 } ∧ a = b.2) (execute outages f) t
      (f t.working) := by
  refine perform fun c hc => ?_
  simp only [hc]
  cases hrun : f t.working with
  | error e => exact .inr ⟨e, rfl, rfl⟩
  | ok result => exact .inl ⟨_, _, _, result, rfl, rfl, rfl, rfl, rfl, rfl⟩

/-- A query leaves the transaction. -/
theorem read {f : σ → Except ε α} :
    Follows outages (fun a t' b => t' = t ∧ a = b) (read outages f) t (f t.working) := by
  unfold Connections.read Connections.execute
  refine perform fun c hc => ?_
  simp only [hc]
  cases hrun : f t.working with
  | error e => exact .inr ⟨e, rfl, rfl⟩
  | ok a => exact .inl ⟨_, _, t, a, rfl, rfl, rfl, rfl, rfl, rfl⟩

/-- A write replaces the working copy. -/
theorem write {f : σ → Except ε σ} :
    Follows outages (fun _ t' b => t' = { t with working := b }) (write outages f) t
      (f t.working) := by
  unfold Connections.write Connections.execute
  refine perform fun c hc => ?_
  simp only [hc]
  cases hrun : f t.working with
  | error e => exact .inr ⟨e, rfl, rfl⟩
  | ok db => exact .inl ⟨_, _, _, db, rfl, rfl, rfl, rfl, rfl⟩

/-- A caught write: the failures that are caught leave the working copy. -/
theorem catching_write {f : σ → Except ε σ} {caught : ε → Bool} {g : Except ε β}
    {P : Option Unit → Transaction σ → β → Prop}
    (hok : ∀ db, f t.working = .ok db → ∃ b, g = .ok b ∧ P (some ()) { t with working := db } b)
    (hcaught : ∀ e, f t.working = .error e → caught e = true → ∃ b, g = .ok b ∧ P none t b)
    (hraised : ∀ e, f t.working = .error e → caught e = false → g = .error e) :
    Follows outages P (catching caught (Connections.write outages f)) t g := by
  intro c hc
  simp only [catching, Connections.write, Connections.execute, Connections.perform, hc]
  cases houtage : outages (c.executed + 1) with
  | some o => cases o <;> exact ⟨rfl, _, houtage⟩
  | none =>
      cases hrun : f t.working with
      | ok db =>
          obtain ⟨b, hb, hP⟩ := hok db hrun
          exact ⟨rfl, _, b, rfl, hb, hP⟩
      | error e =>
          cases hcatch : caught e with
          | true =>
              obtain ⟨b, hb, hP⟩ := hcaught e hrun hcatch
              simp only [Except.map, hcatch, if_true, true_and]
              exact ⟨t, b, rfl, hb, hP⟩
          | false =>
              simp only [Except.map, hcatch]
              exact ⟨rfl, hraised e hrun hcatch⟩

/-- A savepoint keeps the working copy. -/
theorem savepoint {name : String} :
    Follows outages (fun _ t' _ => t' = { t with savepoints := (name, t.working) :: t.savepoints })
      (savepoint outages name : Session ε σ Unit) t (.ok ()) := by
  refine perform fun c hc => .inl ?_
  simp [hc]

/-- Back to the innermost savepoint. -/
theorem rollbackTo {name : String} {db : σ} {rest : List (String × σ)}
    (h : t.savepoints = (name, db) :: rest) :
    Follows outages (fun _ t' _ => t' = { t with working := db })
      (rollbackTo outages name : Session ε σ Unit) t (.ok ()) := by
  refine perform fun c hc => .inl ?_
  simp only [hc, h, List.dropWhile_cons]
  simp

/-- The innermost savepoint of an explicit transaction is forgotten. -/
theorem release {name : String} {db : σ} {rest : List (String × σ)}
    (h : t.savepoints = (name, db) :: rest) (hexplicit : t.explicit = true) :
    Follows outages (fun _ t' _ => t' = { t with savepoints := rest })
      (release outages name : Session ε σ Unit) t (.ok ()) := by
  refine perform fun c hc => .inl ?_
  simp only [hc, h, List.dropWhile_cons]
  simp [hexplicit]

end Follows

/-! ## Atomicity -/

variable {outages}

/-- The durable database decides how a session has stopped. -/
theorem Stops.of_durable {db : σ} {f : Except ε β} {e : Raised ε} {c c' : Connection σ}
    (h : Stops outages db f e c) (hdurable : c'.durable = c.durable) : Stops outages db f e c' := by
  cases e with
  | failure e => exact ⟨hdurable.trans h.1, h.2⟩
  | outage o => exact ⟨hdurable.trans h.1, h.2⟩
  | operational => exact h

/-- A session that has stopped left the durable database. -/
theorem Stops.durable {db : σ} {f : Except ε β} {e : Raised ε} {c : Connection σ}
    (h : Stops outages db f e c) : c.durable = db := by
  cases e with
  | failure e => exact h.1
  | outage o => exact h.1
  | operational => exact h.elim

/-- A cleanup only rolls back: it leaves the durable database, and can only meet an outage. -/
def RollsBack (outages : Outages) (cleanup : Session ε σ Unit) : Prop :=
  ∀ c, match cleanup c with
    | .ok _ c' => c'.durable = c.durable
    | .error e c' => c'.durable = c.durable ∧ ∃ o n, e = .outage o ∧ outages n = some o

/-- An error raised after a rollback stops the session. -/
theorem Stops.raiseAfter {db : σ} {f : Except ε β} {e : Raised ε} {c : Connection σ}
    {cleanup : Session ε σ Unit} (h : Stops outages db f e c)
    (hcleanup : RollsBack outages cleanup) :
    ∃ e' c', (raiseAfter cleanup e c : EStateM.Result (Raised ε) (Connection σ) α) = .error e' c' ∧
      Stops outages db f e' c' := by
  have hrun := hcleanup c
  unfold Connections.raiseAfter
  cases hresult : cleanup c with
  | ok u c' =>
      rw [hresult] at hrun
      exact ⟨e, c', rfl, h.of_durable hrun⟩
  | error e' c' =>
      rw [hresult] at hrun
      obtain ⟨hdurable, o, n, rfl, hn⟩ := hrun
      exact ⟨_, c', rfl, hdurable.trans h.durable, n, hn⟩

/-- `ROLLBACK` rolls back. -/
theorem rollback_rollsBack : RollsBack outages (rollback outages : Session ε σ Unit) := by
  intro c
  simp only [rollback, perform]
  cases houtage : outages (c.executed + 1) with
  | some o => cases o <;> exact ⟨rfl, _, _, rfl, houtage⟩
  | none => exact rfl

/-- So does closing the connection. -/
theorem rollbackOpen_rollsBack : RollsBack outages (rollbackOpen outages : Session ε σ Unit) := by
  intro c
  unfold rollbackOpen
  cases hc : c.transaction with
  | none => exact rfl
  | some t => exact rollback_rollsBack c

/-- A block that is rolled back on any error follows what it follows. -/
theorem Follows.onError {R : α → Transaction σ → β → Prop} {x : Session ε σ α}
    {t : Transaction σ} {f : Except ε β} (hx : Follows outages R x t f) :
    Follows outages R (onError x (rollback outages)) t f := by
  intro c hc
  have hrun := hx c hc
  simp only [Connections.onError]
  cases hresult : x c with
  | ok a c' =>
      rw [hresult] at hrun
      exact hrun
  | error e c' =>
      rw [hresult] at hrun
      obtain ⟨e', c'', hraise, hstops⟩ := Stops.raiseAfter (α := α) hrun rollback_rollsBack
      simp only [hraise]
      exact hstops

/-- What a transaction leaves of a computation on `db`: its result is durable, or the database is
as before, and a failure is the failure of the computation. -/
def Atomic (outages : Outages) (R : α → Transaction σ → β → Prop) (db : σ) (f : Except ε β)
    (result : EStateM.Result (Raised ε) (Connection σ) α) : Prop :=
  match result with
  | .ok a c => ∃ t b, f = .ok b ∧ R a t b ∧ c.durable = t.working
  | .error e c => Stops outages db f e c

/-- A transaction opens on the durable database, or an outage prevents it. -/
theorem begin_cases (outages : Outages) (db : σ) :
    (∃ c, (begin outages : Session ε σ Unit) (.idle db) = .ok () c ∧ c.durable = db ∧
      c.transaction = some ⟨db, [], true⟩) ∨
    ∃ o n c, (begin outages : Session ε σ Unit) (.idle db) = .error (.outage o) c ∧
      c.durable = db ∧ outages n = some o := by
  simp only [begin, perform, Connection.idle]
  cases houtage : outages (0 + 1) with
  | some o => cases o <;> exact .inr ⟨_, _, _, rfl, rfl, houtage⟩
  | none => exact .inl ⟨_, rfl, rfl, rfl⟩

/-- A commit makes the working copy durable, or an outage prevents it. -/
theorem commit_cases (outages : Outages) {t : Transaction σ} {c : Connection σ}
    (hc : c.transaction = some t) :
    (∃ c', (commit outages : Session ε σ Unit) c = .ok () c' ∧ c'.durable = t.working ∧
      c'.transaction = none) ∨
    ∃ o n c', (commit outages : Session ε σ Unit) c = .error (.outage o) c' ∧
      c'.durable = c.durable ∧ outages n = some o := by
  simp only [commit, perform, hc]
  cases houtage : outages (c.executed + 1) with
  | some o => cases o <;> exact .inr ⟨_, _, _, rfl, rfl, houtage⟩
  | none => exact .inl ⟨_, rfl, rfl, rfl⟩

/-- The block of a transaction commits the result of its body, or stops. -/
theorem block_cases {R : α → Transaction σ → β → Prop} {body : Session ε σ α} {db : σ}
    {f : Except ε β} (h : Follows outages R body ⟨db, [], true⟩ f) :
    match (do
        begin outages
        let a ← onError body (rollback outages)
        commit outages
        pure a : Session ε σ α) (.idle db) with
    | .ok a c => c.transaction = none ∧ ∃ t b, f = .ok b ∧ R a t b ∧ c.durable = t.working
    | .error e c => Stops outages db f e c := by
  simp only [bind, EStateM.bind]
  rcases begin_cases (ε := ε) outages db with
    ⟨c, hbegin, hdurable, hc⟩ | ⟨o, n, c, hbegin, hdurable, hn⟩
  · simp only [hbegin]
    have hbody := h.onError c hc
    cases hresult : onError body (rollback outages) c with
    | ok a c' =>
        rw [hresult] at hbody
        obtain ⟨hdurable', t, b, hc', hf, hR⟩ := hbody
        rcases commit_cases (ε := ε) outages hc' with
          ⟨c'', hcommit, hdone, hclosed⟩ | ⟨o, n, c'', hcommit, hdone, hn⟩
        · simp only [hcommit]
          exact ⟨hclosed, t, b, hf, hR, hdone⟩
        · simp only [hcommit]
          exact ⟨hdone.trans (hdurable'.trans hdurable), n, hn⟩
    | error e c' =>
        rw [hresult, hdurable] at hbody
        exact hbody
  · simp only [hbegin]
    exact ⟨hdurable, n, hn⟩

/-- Transactions are atomic: whatever the outages, a transaction whose body follows `f` leaves the
whole result of `f` or the database as it was. -/
theorem run_transaction {R : α → Transaction σ → β → Prop} {body : Session ε σ α} {db : σ}
    {f : Except ε β} (h : Follows outages R body ⟨db, [], true⟩ f) :
    Atomic outages R db f (transaction outages body (.idle db)) := by
  have hblock := block_cases h
  simp only [transaction, always]
  cases hresult : (do
      begin outages
      let a ← onError body (rollback outages)
      commit outages
      pure a : Session ε σ α) (.idle db) with
  | ok a c =>
      rw [hresult] at hblock
      simp only [rollbackOpen, hblock.1]
      exact hblock.2
  | error e c =>
      rw [hresult] at hblock
      obtain ⟨e', c', hraise, hstops⟩ :=
        Stops.raiseAfter (α := α) hblock rollbackOpen_rollsBack
      simp only [hraise]
      exact hstops

end Connections
