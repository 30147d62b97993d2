import AstrContinuum.Control.Connection
import AstrContinuum.Control.Effects

/-!
# Processes

A process opens one connection after the other on a store; what one of them committed stays when a later
one raises. `Inside` judges a session inside an open transaction by the working copy that it leaves, whatever
it raises otherwise and whatever the outages. A transaction commits such a copy or leaves the database
(`transaction_inside`), also where the session changes the policy of the connection around it
(`startupExclusive_inside`).
-/

namespace Connections

variable {σ ε α β : Type}

/-- What a connection meets: the error with which it is refused, its outages, and whether an error on it is
reported as a busy database. -/
structure Circumstances (ε : Type) where
  refused : Option (Raised ε)
  outages : Outages
  busy : Bool

/-- A store, and how many connections a process has opened on it. -/
structure Host (σ : Type) where
  database : σ
  opened : Nat

/-- Code that opens connections. -/
abbrev Process (ε σ α : Type) := EStateM (Raised ε) (Host σ) α

/-- A session on a new connection. -/
def connect (world : Nat → Circumstances ε) (session : Outages → Session ε σ α) : Process ε σ α :=
  fun host =>
    match (world host.opened).refused with
    | some e => .error e ⟨host.database, host.opened + 1⟩
    | none =>
        match session (world host.opened).outages (.idle host.database) with
        | .ok a c => .ok a ⟨c.durable, host.opened + 1⟩
        | .error e c => .error e ⟨c.durable, host.opened + 1⟩

/-- A block whose errors are replaced. -/
def reraise (replace : Raised ε → Raised ε) (x : Session ε σ α) : Session ε σ α := fun c =>
  match x c with
  | .ok a c' => .ok a c'
  | .error e c' => .error (replace e) c'

/-- A block on a connection, which is closed after it. -/
def connection (outages : Outages) (body : Session ε σ α) : Session ε σ α :=
  always body (rollbackOpen outages)

/-- A statement that concerns the connection only. -/
def pragma (outages : Outages) : Session ε σ Unit :=
  perform outages fun c => .ok (c, ())

/-- Foreign keys are not checked any more, where this is asked for. -/
def relax (outages : Outages) (enforce : Bool) : Session ε σ Unit :=
  if enforce = false then (do pragma outages; pragma outages) else pure ()

/-- Foreign keys are checked again, unless the transaction is still open. -/
def restore (outages : Outages) (enforce : Bool) : Session ε σ Unit := fun c =>
  if enforce = false ∧ c.transaction.isNone then
    (do pragma outages; pragma outages : Session ε σ Unit) c
  else .ok () c

/-- A transaction before which the checks of foreign keys may be switched off. -/
def startupExclusive (outages : Outages) (enforce : Bool) (body : Session ε σ α) : Session ε σ α :=
  connection outages (do
    relax outages enforce
    begin outages
    always (do
      let a ← onError body (rollback outages)
      commit outages
      pure a) (restore outages enforce))

/-! ## Sequences -/

/-- A first part that returns is passed. -/
theorem run_bind {x : Session ε σ α} {f : α → Session ε σ β} {c c' : Connection σ} {a : α}
    (h : x c = .ok a c') : (x >>= f) c = f a c' := by
  show EStateM.bind x f c = f a c'
  rw [EStateM.bind, h]

/-- A first part that raises ends the sequence. -/
theorem run_bind_error {x : Session ε σ α} {f : α → Session ε σ β} {c c' : Connection σ} {e : Raised ε}
    (h : x c = .error e c') : (x >>= f) c = .error e c' := by
  show EStateM.bind x f c = .error e c'
  rw [EStateM.bind, h]

/-! ## Sessions inside a transaction -/

/-- Inside an open transaction whose working copy is `db`, the session leaves a working copy with the
property, or it raises; the durable database stays. -/
def Inside (post : α → σ → Prop) (x : Session ε σ α) (db : σ) : Prop :=
  ∀ (c : Connection σ) (t : Transaction σ), c.transaction = some t → t.working = db →
    match x c with
    | .ok a c' => c'.durable = c.durable ∧ ∃ t', c'.transaction = some t' ∧ post a t'.working
    | .error _ c' => c'.durable = c.durable

namespace Inside

variable {post : α → σ → Prop} {db : σ} {outages : Outages}

/-- `pure` leaves the working copy. -/
theorem pure {a : α} (h : post a db) : Inside post (Pure.pure a : Session ε σ α) db :=
  fun _ t hc hdb => ⟨rfl, t, hc, hdb ▸ h⟩

/-- The first part of a sequence hands its working copy to the second. -/
theorem bind {x : Session ε σ α} {f : α → Session ε σ β} {last : β → σ → Prop}
    (h : Inside post x db) (hnext : ∀ a db', post a db' → Inside last (f a) db') :
    Inside last (x >>= f) db := by
  intro c t hc hdb
  have hfirst := h c t hc hdb
  show match EStateM.bind x f c with | .ok a c' => _ | .error _ c' => _
  unfold EStateM.bind
  cases hx : x c with
  | error e c' =>
      rw [hx] at hfirst
      exact hfirst
  | ok a c' =>
      rw [hx] at hfirst
      obtain ⟨hdurable, t', hc', hpost⟩ := hfirst
      have hsecond := hnext a t'.working hpost c' t' hc' rfl
      rw [hdurable] at hsecond
      exact hsecond

/-- A computation without statements leaves the working copy. -/
theorem lift (post : α → σ → Prop) {x : Except ε α} (h : ∀ a, x = .ok a → post a db) :
    Inside post (Connections.lift x : Session ε σ α) db := by
  intro c t hc hdb
  cases x with
  | ok a => exact ⟨rfl, t, hc, hdb ▸ h a rfl⟩
  | error e => exact rfl

/-- A statement works on the working copy, or meets an outage. -/
theorem execute (post : α → σ → Prop) {f : σ → Except ε (σ × α)} (h : ∀ db' a, f db = .ok (db', a) → post a db') :
    Inside post (Connections.execute outages f) db := by
  intro c t hc hdb
  simp only [Connections.execute, Connections.perform]
  cases houtage : outages (c.executed + 1) with
  | some o => cases o <;> exact rfl
  | none =>
      subst hdb
      simp only [hc]
      cases hrun : f t.working with
      | error e => exact rfl
      | ok result => exact ⟨rfl, _, rfl, h result.1 result.2 hrun⟩

/-- A query leaves the working copy. -/
theorem read (post : α → σ → Prop) {f : σ → Except ε α} (h : ∀ a, f db = .ok a → post a db) :
    Inside post (Connections.read outages f) db := by
  refine execute post fun db' a hf => ?_
  obtain ⟨b, hb, hpair⟩ := Checked.map_ok.mp hf
  obtain ⟨rfl, rfl⟩ := Prod.mk.inj hpair
  exact h b hb

/-- A write replaces the working copy. -/
theorem write (post : Unit → σ → Prop) {f : σ → Except ε σ}
    (h : ∀ db', f db = .ok db' → post () db') :
    Inside post (Connections.write outages f) db := by
  refine execute post fun db' a hf => ?_
  obtain ⟨b, hb, hpair⟩ := Checked.map_ok.mp hf
  obtain ⟨rfl, -⟩ := Prod.mk.inj hpair
  exact h b hb

/-- A computation without statements, with what it returns. -/
theorem lift_ok (x : Except ε α) :
    Inside (fun a db' => db' = db ∧ x = .ok a) (Connections.lift x : Session ε σ α) db :=
  lift _ fun _ h => ⟨rfl, h⟩

/-- A query, with what it returns. -/
theorem read_ok (f : σ → Except ε α) :
    Inside (fun a db' => db' = db ∧ f db = .ok a) (Connections.read outages f) db :=
  read _ fun _ h => ⟨rfl, h⟩

/-- A write, with what it leaves. -/
theorem write_ok (f : σ → Except ε σ) :
    Inside (fun _ db' => f db = .ok db') (Connections.write outages f) db :=
  write _ fun _ h => h

/-- What a session leaves when it returns. -/
theorem of_ok {x : Session ε σ α} (h : Inside post x db) {c c' : Connection σ} {t : Transaction σ} {a : α}
    (hc : c.transaction = some t) (hdb : t.working = db) (hrun : x c = .ok a c') :
    c'.durable = c.durable ∧ ∃ t', c'.transaction = some t' ∧ post a t'.working := by
  have hresult := h c t hc hdb
  rw [hrun] at hresult
  exact hresult

/-- Replacing an error changes nothing else. -/
theorem reraise {replace : Raised ε → Raised ε} {x : Session ε σ α} (h : Inside post x db) :
    Inside post (Connections.reraise replace x) db := by
  intro c t hc hdb
  have hrun := h c t hc hdb
  unfold Connections.reraise
  cases hx : x c with
  | ok a c' =>
      rw [hx] at hrun
      exact hrun
  | error e c' =>
      rw [hx] at hrun
      exact hrun

/-- The property may be weakened. -/
theorem mono {x : Session ε σ α} {weaker : α → σ → Prop} (h : Inside post x db)
    (hweaker : ∀ a db', post a db' → weaker a db') : Inside weaker x db := by
  intro c t hc hdb
  have hrun := h c t hc hdb
  cases hx : x c with
  | error e c' =>
      rw [hx] at hrun
      exact hrun
  | ok a c' =>
      rw [hx] at hrun
      obtain ⟨hdurable, t', hc', hpost⟩ := hrun
      exact ⟨hdurable, t', hc', hweaker a _ hpost⟩

end Inside

/-! ## Transactions -/

/-- An error after a cleanup that rolls back leaves the durable database. -/
theorem RollsBack.raiseAfter {outages : Outages} {cleanup : Session ε σ Unit} (h : RollsBack outages cleanup)
    (e : Raised ε) (c : Connection σ) :
    ∃ e' c', (raiseAfter cleanup e c : EStateM.Result (Raised ε) (Connection σ) α) = .error e' c' ∧
      c'.durable = c.durable := by
  have hrun := h c
  unfold Connections.raiseAfter
  cases hresult : cleanup c with
  | ok u c' =>
      rw [hresult] at hrun
      exact ⟨e, c', rfl, hrun⟩
  | error e' c' =>
      rw [hresult] at hrun
      exact ⟨e', c', rfl, hrun.1⟩

variable (outages : Outages)

/-- On a connection without a transaction, `BEGIN` opens one or meets an outage. -/
theorem begin_closed {c : Connection σ} (hc : c.transaction = none) :
    (∃ c', (begin outages : Session ε σ Unit) c = .ok () c' ∧ c'.durable = c.durable ∧
      c'.transaction = some ⟨c.durable, [], true⟩) ∨
    ∃ e c', (begin outages : Session ε σ Unit) c = .error e c' ∧ c'.durable = c.durable := by
  simp only [begin, perform]
  cases houtage : outages (c.executed + 1) with
  | some o => cases o <;> exact .inr ⟨_, _, rfl, rfl⟩
  | none =>
      simp only [hc]
      exact .inl ⟨_, rfl, rfl, rfl⟩

/-- The body of an open transaction is committed, and the transaction is closed, or the durable database
stays. -/
theorem body_cases {post : α → σ → Prop} {body : Session ε σ α} {db : σ} (h : Inside post body db)
    {c : Connection σ} {t : Transaction σ} (hc : c.transaction = some t) (hdb : t.working = db) :
    match (do
        let a ← onError body (rollback outages)
        commit outages
        pure a : Session ε σ α) c with
    | .ok a c' => c'.transaction = none ∧ post a c'.durable
    | .error _ c' => c'.durable = c.durable := by
  have hbody := h c t hc hdb
  have hrollback : RollsBack outages (rollback outages : Session ε σ Unit) := rollback_rollsBack
  simp only [Bind.bind, EStateM.bind, onError]
  cases hx : body c with
  | error e c' =>
      rw [hx] at hbody
      obtain ⟨e', c'', hraise, hdurable⟩ :=
        hrollback.raiseAfter (α := α) e c'
      simp only [hraise]
      exact hdurable.trans hbody
  | ok a c' =>
      rw [hx] at hbody
      obtain ⟨hdurable, t', hc', hpost⟩ := hbody
      rcases commit_cases (ε := ε) outages hc' with
        ⟨c'', hcommit, hdone, hclosed⟩ | ⟨o, n, c'', hcommit, hdone, -⟩
      · simp only [hcommit]
        exact ⟨hclosed, hdone ▸ hpost⟩
      · simp only [hcommit]
        exact hdone.trans hdurable

/-- A transaction commits what its body leaves, or leaves the database. -/
theorem transaction_inside {post : α → σ → Prop} {body : Session ε σ α} {db : σ}
    (h : Inside post body db) :
    match transaction outages body (.idle db) with
    | .ok a c => post a c.durable
    | .error _ c => c.durable = db := by
  have hclose : RollsBack outages (rollbackOpen outages : Session ε σ Unit) := rollbackOpen_rollsBack
  have hblock : match (do
      begin outages
      let a ← onError body (rollback outages)
      commit outages
      pure a : Session ε σ α) (.idle db) with
      | .ok a c => c.transaction = none ∧ post a c.durable
      | .error _ c => c.durable = db := by
    rcases begin_closed outages (ε := ε) (show (Connection.idle db).transaction = none from rfl) with
      ⟨c, hbegin, hdurable, hc⟩ | ⟨e, c, hbegin, hdurable⟩
    · have hbody := body_cases outages h hc rfl
      rw [hdurable] at hbody
      rw [run_bind hbegin]
      exact hbody
    · rw [run_bind_error hbegin]
      exact hdurable
  simp only [transaction, always]
  cases hresult : (do
      begin outages
      let a ← onError body (rollback outages)
      commit outages
      pure a : Session ε σ α) (.idle db) with
  | ok a c =>
      rw [hresult] at hblock
      simp only [rollbackOpen, hblock.1]
      exact hblock.2
  | error e c =>
      rw [hresult] at hblock
      obtain ⟨e', c', hraise, hdurable⟩ := hclose.raiseAfter (α := α) e c
      simp only [hraise]
      exact hdurable.trans hblock

/-! ## Transactions under another policy -/

/-- The database and its transaction are left. -/
def Quiet (x : Session ε σ α) : Prop :=
  ∀ c : Connection σ, c.transaction = none →
    match x c with
    | .ok _ c' => c'.durable = c.durable ∧ c'.transaction = none
    | .error _ c' => c'.durable = c.durable ∧ c'.transaction = none

/-- A statement that concerns the connection is quiet. -/
theorem pragma_quiet : Quiet (pragma outages : Session ε σ Unit) := by
  intro c hc
  simp only [pragma, perform]
  cases houtage : outages (c.executed + 1) with
  | some o =>
      cases o with
      | statement => exact ⟨rfl, hc⟩
      | transaction => exact ⟨rfl, rfl⟩
  | none => exact ⟨rfl, hc⟩

/-- So is a query. -/
theorem read_quiet (f : σ → Except ε α) : Quiet (read outages f) := by
  intro c hc
  simp only [read, execute, perform]
  cases houtage : outages (c.executed + 1) with
  | some o =>
      cases o with
      | statement => exact ⟨rfl, hc⟩
      | transaction => exact ⟨rfl, rfl⟩
  | none =>
      simp only [hc]
      cases f c.durable with
      | ok a => exact ⟨rfl, rfl⟩
      | error e => exact ⟨rfl, rfl⟩

/-- So is a computation without statements. -/
theorem lift_quiet (x : Except ε α) : Quiet (lift x : Session ε σ α) := by
  intro c hc
  cases x with
  | ok a => exact ⟨rfl, hc⟩
  | error e => exact ⟨rfl, hc⟩

/-- A sequence of quiet sessions is. -/
theorem Quiet.bind {x : Session ε σ α} {f : α → Session ε σ β} (hx : Quiet x)
    (hf : ∀ a, Quiet (f a)) : Quiet (x >>= f) := by
  intro c hc
  have hfirst := hx c hc
  cases hrun : x c with
  | error e c' =>
      rw [hrun] at hfirst
      rw [run_bind_error hrun]
      exact hfirst
  | ok a c' =>
      rw [hrun] at hfirst
      have hsecond := hf a c' hfirst.2
      rw [hfirst.1] at hsecond
      rw [run_bind hrun]
      exact hsecond

/-- Changing the policy is quiet. -/
theorem relax_quiet (enforce : Bool) : Quiet (relax outages enforce : Session ε σ Unit) := by
  unfold relax
  split
  · exact (pragma_quiet outages).bind fun _ => pragma_quiet outages
  · exact fun c hc => ⟨rfl, hc⟩

/-- After a closed transaction, restoring it is. -/
theorem restore_quiet (enforce : Bool) : Quiet (restore outages enforce : Session ε σ Unit) := by
  intro c hc
  have hrelax := relax_quiet outages enforce (ε := ε) c hc
  have hsame : (restore outages enforce : Session ε σ Unit) c = relax outages enforce c := by
    unfold restore relax
    rw [hc]
    cases enforce <;> rfl
  rw [hsame]
  exact hrelax

/-- Restoring the policy leaves the durable database. -/
theorem restore_durable (enforce : Bool) (c : Connection σ) :
    match (restore outages enforce : Session ε σ Unit) c with
    | .ok _ c' => c'.durable = c.durable
    | .error _ c' => c'.durable = c.durable := by
  cases hc : c.transaction with
  | none =>
      have hquiet := restore_quiet outages enforce (ε := ε) c hc
      cases hrun : (restore outages enforce : Session ε σ Unit) c with
      | ok u c' =>
          rw [hrun] at hquiet
          exact hquiet.1
      | error e c' =>
          rw [hrun] at hquiet
          exact hquiet.1
  | some t =>
      have hopen : (restore outages enforce : Session ε σ Unit) c = .ok () c := by
        unfold restore
        exact if_neg fun h => by rw [hc] at h; exact Bool.false_ne_true h.2
      rw [hopen]

/-- An open transaction, after which the policy is restored, commits what its body leaves, or leaves the
database. The policy may fail to be restored after the commit. -/
theorem restored_cases (enforce : Bool) {post : α → σ → Prop} {body : Session ε σ α} {db : σ}
    (h : Inside post body db) {c : Connection σ} {t : Transaction σ} (hc : c.transaction = some t)
    (hdb : t.working = db) :
    match always (do
        let a ← onError body (rollback outages)
        commit outages
        pure a) (restore outages enforce) c with
    | .ok a c' => c'.transaction = none ∧ post a c'.durable
    | .error _ c' => c'.durable = c.durable ∨ ∃ a, post a c'.durable := by
  have hbody := body_cases outages h hc hdb
  simp only [always]
  cases hrun : (do
      let a ← onError body (rollback outages)
      commit outages
      pure a : Session ε σ α) c with
  | ok a c' =>
      rw [hrun] at hbody
      have hquiet := restore_quiet outages enforce (ε := ε) c' hbody.1
      cases hrestore : (restore outages enforce : Session ε σ Unit) c' with
      | ok u c'' =>
          rw [hrestore] at hquiet
          simp only [hrestore]
          exact ⟨hquiet.2, hquiet.1 ▸ hbody.2⟩
      | error e c'' =>
          rw [hrestore] at hquiet
          simp only [hrestore]
          exact .inr ⟨a, hquiet.1 ▸ hbody.2⟩
  | error e c' =>
      rw [hrun] at hbody
      have hdurable := restore_durable outages enforce (ε := ε) c'
      simp only [raiseAfter]
      cases hrestore : (restore outages enforce : Session ε σ Unit) c' with
      | ok u c'' =>
          rw [hrestore] at hdurable
          exact .inl (hdurable.trans hbody)
      | error e' c'' =>
          rw [hrestore] at hdurable
          exact .inl (hdurable.trans hbody)

/-- A transaction under another policy commits what its body leaves, or leaves the database; it may also
raise after the commit. -/
theorem startupExclusive_inside (enforce : Bool) {post : α → σ → Prop} {body : Session ε σ α} {db : σ}
    (h : Inside post body db) :
    match startupExclusive outages enforce body (.idle db) with
    | .ok a c => post a c.durable
    | .error _ c => c.durable = db ∨ ∃ a, post a c.durable := by
  have hblock : match (do
      relax outages enforce
      begin outages
      always (do
        let a ← onError body (rollback outages)
        commit outages
        pure a) (restore outages enforce) : Session ε σ α) (.idle db) with
      | .ok a c => c.transaction = none ∧ post a c.durable
      | .error _ c => c.durable = db ∨ ∃ a, post a c.durable := by
    have hfirst := relax_quiet outages enforce (ε := ε) (.idle db) rfl
    cases hrun : (relax outages enforce : Session ε σ Unit) (.idle db) with
    | error e c =>
        rw [hrun] at hfirst
        rw [run_bind_error hrun]
        exact .inl hfirst.1
    | ok u c =>
        rw [hrun] at hfirst
        obtain ⟨hdurable, hclosed⟩ := hfirst
        rw [run_bind hrun]
        rcases begin_closed outages (ε := ε) hclosed with
          ⟨c', hbegin, hsame, hc'⟩ | ⟨e, c', hbegin, hsame⟩
        · have hrest := restored_cases outages enforce h hc' hdurable
          rw [hsame, hdurable] at hrest
          rw [run_bind hbegin]
          exact hrest
        · rw [run_bind_error hbegin]
          exact .inl (hsame.trans hdurable)
  have hclose : RollsBack outages (rollbackOpen outages : Session ε σ Unit) := rollbackOpen_rollsBack
  unfold startupExclusive connection
  rw [always]
  generalize (do
      relax outages enforce
      begin outages
      always (do
        let a ← onError body (rollback outages)
        commit outages
        pure a) (restore outages enforce) : Session ε σ α) (.idle db) = result at hblock ⊢
  cases result with
  | ok a c =>
      simp only [rollbackOpen, hblock.1]
      exact hblock.2
  | error e c =>
      obtain ⟨e', c', hraise, hdurable⟩ := hclose.raiseAfter (α := α) e c
      simp only [hraise, hdurable]
      exact hblock

/-! ## Connections of a process -/

/-- A transaction on a new connection commits what its body leaves, or leaves the database. -/
theorem connect_transaction {world : Nat → Circumstances ε} {post : α → σ → Prop}
    {body : Outages → Session ε σ α} {host : Host σ}
    (h : ∀ outages, Inside post (body outages) host.database) :
    Effects.Ends (fun _ host' => host'.database = host.database)
      (fun a host' => post a host'.database)
      (connect world fun outages => transaction outages (body outages)) host := by
  unfold Effects.Ends connect
  cases (world host.opened).refused with
  | some e => exact rfl
  | none =>
      have hrun := transaction_inside (world host.opened).outages (h (world host.opened).outages)
      dsimp only
      cases hresult : transaction (world host.opened).outages (body (world host.opened).outages)
          (.idle host.database) with
      | ok a c =>
          rw [hresult] at hrun
          exact hrun
      | error e c =>
          rw [hresult] at hrun
          exact hrun

/-- So does a transaction under another policy, which may raise after the commit. -/
theorem connect_startupExclusive {world : Nat → Circumstances ε} {post : α → σ → Prop}
    {enforce : Bool} {body : Outages → Session ε σ α} {host : Host σ}
    (h : ∀ outages, Inside post (body outages) host.database) :
    Effects.Ends
      (fun _ host' => host'.database = host.database ∨ ∃ a, post a host'.database)
      (fun a host' => post a host'.database)
      (connect world fun outages => startupExclusive outages enforce (body outages)) host := by
  unfold Effects.Ends connect
  cases (world host.opened).refused with
  | some e => exact .inl rfl
  | none =>
      have hrun := startupExclusive_inside (world host.opened).outages enforce
        (h (world host.opened).outages)
      dsimp only
      cases hresult : startupExclusive (world host.opened).outages enforce
          (body (world host.opened).outages) (.idle host.database) with
      | ok a c =>
          rw [hresult] at hrun
          exact hrun
      | error e c =>
          rw [hresult] at hrun
          exact hrun

/-- A quiet session on a new connection leaves the database. -/
theorem connect_quiet {world : Nat → Circumstances ε} {session : Outages → Session ε σ α}
    (h : ∀ outages, Quiet (session outages)) (host : Host σ) :
    (Effects.finalState (connect world (fun outages => connection outages (session outages)) host)).database
      = host.database := by
  unfold connect
  cases (world host.opened).refused with
  | some e => exact rfl
  | none =>
      dsimp only
      generalize (world host.opened).outages = outages
      have hrun := h outages (.idle host.database) rfl
      have hclose : RollsBack outages (rollbackOpen outages : Session ε σ Unit) := rollbackOpen_rollsBack
      simp only [connection, always]
      cases hresult : session outages (.idle host.database) with
      | ok a c =>
          rw [hresult] at hrun
          simp only [rollbackOpen, hrun.2]
          exact hrun.1
      | error e c =>
          rw [hresult] at hrun
          obtain ⟨e', c', hraise, hdurable⟩ := hclose.raiseAfter (α := α) e c
          simp only [hraise]
          exact hdurable.trans hrun.1

/-! ## Kept properties -/

/-- A session inside a transaction keeps the property of the working copy. -/
def Maintains (P : σ → Prop) (x : Session ε σ α) : Prop :=
  ∀ db, P db → Inside (fun _ => P) x db

namespace Maintains

variable {P : σ → Prop} {outages : Outages}

/-- So does a sequence. -/
theorem bind {x : Session ε σ α} {f : α → Session ε σ β} (hx : Maintains P x)
    (hf : ∀ a, Maintains P (f a)) : Maintains P (x >>= f) :=
  fun db hdb => (hx db hdb).bind fun a db' hdb' => hf a db' hdb'

/-- A computation without statements keeps it. -/
theorem lift {x : Except ε α} : Maintains P (Connections.lift x : Session ε σ α) :=
  fun _ hdb => Inside.lift _ fun _ _ => hdb

/-- A query keeps it. -/
theorem read {f : σ → Except ε α} : Maintains P (Connections.read outages f) :=
  fun _ hdb => Inside.read _ fun _ _ => hdb

/-- A write that keeps it where it succeeds. -/
theorem write {f : σ → Except ε σ} (h : ∀ db db', P db → f db = .ok db' → P db') :
    Maintains P (Connections.write outages f) :=
  fun db hdb => Inside.write _ fun db' hdb' => h db db' hdb hdb'

end Maintains

/-- Whether it returns or raises, the process keeps the property of the database. -/
def Keeps (P : σ → Prop) (x : Process ε σ α) : Prop :=
  ∀ host, P host.database → P (Effects.finalState (x host)).database

namespace Keeps

variable {P : σ → Prop} {world : Nat → Circumstances ε}

/-- A process that opens no connection keeps it. -/
theorem pure {a : α} : Keeps P (Pure.pure a : Process ε σ α) :=
  fun _ h => h

/-- So does a sequence. -/
theorem bind {x : Process ε σ α} {f : α → Process ε σ β} (hx : Keeps P x)
    (hf : ∀ a, Keeps P (f a)) : Keeps P (x >>= f) := by
  intro host h
  have hfirst := hx host h
  show P (Effects.finalState (EStateM.bind x f host)).database
  unfold EStateM.bind
  cases hrun : x host with
  | ok a host' =>
      rw [hrun] at hfirst
      exact hf a host' hfirst
  | error e host' =>
      rw [hrun] at hfirst
      exact hfirst

/-- A process that keeps it ends with it. -/
theorem ends {x : Process ε σ α} {raises : Raised ε → Host σ → Prop} {host : Host σ} (h : Keeps P x)
    (hraises : ∀ e host', P host'.database → raises e host') (hdb : P host.database) :
    Effects.Ends raises (fun _ host' => P host'.database) x host := by
  have hkept := h host hdb
  unfold Effects.Ends
  cases hrun : x host with
  | ok a host' =>
      rw [hrun] at hkept
      exact hkept
  | error e host' =>
      rw [hrun] at hkept
      exact hraises e host' hkept

/-- So does a quiet session on a new connection. -/
theorem connection {session : Outages → Session ε σ α} (h : ∀ outages, Quiet (session outages)) :
    Keeps P (connect world fun outages => Connections.connection outages (session outages)) :=
  fun host hdb => (connect_quiet h host).symm ▸ hdb

/-- So does a transaction whose body keeps it. -/
theorem transaction {body : Outages → Session ε σ α} (h : ∀ outages, Maintains P (body outages)) :
    Keeps P (connect world fun outages => Connections.transaction outages (body outages)) := by
  intro host hdb
  have hrun := @connect_transaction σ ε α world (fun _ => P) body host fun outages =>
    h outages host.database hdb
  unfold Effects.Ends at hrun
  cases hresult : connect world (fun outages => Connections.transaction outages (body outages)) host with
  | ok a host' =>
      rw [hresult] at hrun
      exact hrun
  | error e host' =>
      rw [hresult] at hrun
      exact (show host'.database = host.database from hrun).symm ▸ hdb

/-- So does such a transaction under another policy. -/
theorem startupExclusive {body : Outages → Session ε σ α} {enforce : Bool}
    (h : ∀ outages, Maintains P (body outages)) :
    Keeps P (connect world fun outages =>
      Connections.startupExclusive outages enforce (body outages)) := by
  intro host hdb
  have hrun := @connect_startupExclusive σ ε α world (fun _ => P) enforce body host
    fun outages => h outages host.database hdb
  unfold Effects.Ends at hrun
  cases hresult : connect world (fun outages =>
      Connections.startupExclusive outages enforce (body outages)) host with
  | ok a host' =>
      rw [hresult] at hrun
      exact hrun
  | error e host' =>
      rw [hresult] at hrun
      rcases hrun with hsame | ⟨_, hkept⟩
      · exact (show host'.database = host.database from hsame).symm ▸ hdb
      · exact hkept

end Keeps

/-! ## What a process leaves -/

/-- From the database `db` the process returns and leaves a database with the property `post`, or it raises
and leaves one with the property `P`. -/
def Leaves (P : σ → Prop) (post : α → σ → Prop) (x : Process ε σ α) (db : σ) : Prop :=
  ∀ opened, Effects.Ends (fun _ host => P host.database) (fun a host => post a host.database) x ⟨db, opened⟩

namespace Leaves

variable {P : σ → Prop} {post : α → σ → Prop} {db : σ} {world : Nat → Circumstances ε}

/-- `pure` leaves the database. -/
theorem pure {a : α} (h : post a db) : Leaves P post (Pure.pure a : Process ε σ α) db :=
  fun _ => h

/-- The first part of a sequence hands its database to the second. -/
theorem bind {x : Process ε σ α} {f : α → Process ε σ β} {last : β → σ → Prop} (h : Leaves P post x db)
    (hnext : ∀ a db', post a db' → Leaves P last (f a) db') : Leaves P last (x >>= f) db := by
  intro opened
  exact (h opened).bind fun a host hpost => hnext a host.database hpost host.opened

/-- Both properties may be weakened. -/
theorem weaken {x : Process ε σ α} {P' : σ → Prop} {weaker : α → σ → Prop} (h : Leaves P post x db)
    (hraises : ∀ db', P db' → P' db') (hweaker : ∀ a db', post a db' → weaker a db') :
    Leaves P' weaker x db := by
  intro opened
  have hrun := h opened
  unfold Effects.Ends at hrun ⊢
  cases hresult : x ⟨db, opened⟩ with
  | error e host =>
      rw [hresult] at hrun
      exact hraises _ hrun
  | ok a host =>
      rw [hresult] at hrun
      exact hweaker a _ hrun

/-- A process that keeps a property leaves it. -/
theorem of_keeps {x : Process ε σ α} (h : Keeps P x) (hdb : P db) : Leaves P (fun _ => P) x db := by
  intro opened
  exact h.ends (fun _ _ hkept => hkept) hdb

/-- A query on a connection of its own leaves the database. -/
theorem read {f : σ → Except ε α} (hdb : P db) :
    Leaves P (fun a db' => db' = db ∧ f db = .ok a)
      (connect world fun outages => connection outages (Connections.read outages f)) db := by
  intro opened
  unfold Effects.Ends connect
  cases (world opened).refused with
  | some e => exact hdb
  | none =>
      dsimp only
      generalize (world opened).outages = outages
      have hquiet := read_quiet outages f (.idle db) rfl
      have hclose : RollsBack outages (rollbackOpen outages : Session ε σ Unit) := rollbackOpen_rollsBack
      simp only [connection, always]
      cases hresult : Connections.read outages f (.idle db) with
      | error e c =>
          rw [hresult] at hquiet
          obtain ⟨e', c', hraise, hdurable⟩ := hclose.raiseAfter (α := α) e c
          simp only [hraise]
          rw [hdurable, hquiet.1]
          exact hdb
      | ok a c =>
          rw [hresult] at hquiet
          simp only [rollbackOpen, hquiet.2]
          refine ⟨hquiet.1, ?_⟩
          simp only [Connections.read, execute, perform, Connection.idle] at hresult
          cases houtage : outages 1 with
          | some o =>
              cases o with
              | statement => simp [houtage] at hresult
              | transaction => simp [houtage] at hresult
          | none =>
              simp only [Nat.zero_add, houtage] at hresult
              cases hf : f db with
              | error e => simp [hf, Except.map] at hresult
              | ok b =>
                  simp only [hf, Except.map] at hresult
                  injection hresult with hvalue
                  rw [hvalue]

/-- A transaction on a connection of its own commits what its body leaves. -/
theorem transaction {body : Outages → Session ε σ α} (h : ∀ outages, Inside post (body outages) db) (hdb : P db) :
    Leaves P post (connect world fun outages => Connections.transaction outages (body outages)) db := by
  intro opened
  have hrun := @connect_transaction σ ε α world post body ⟨db, opened⟩ h
  unfold Effects.Ends at hrun ⊢
  cases hresult : connect world (fun outages => Connections.transaction outages (body outages)) ⟨db, opened⟩ with
  | ok a host =>
      rw [hresult] at hrun
      exact hrun
  | error e host =>
      rw [hresult] at hrun
      exact show P host.database from (show host.database = db from hrun).symm ▸ hdb

/-- So does one under another policy, which may raise after the commit. -/
theorem startupExclusive {body : Outages → Session ε σ α} {enforce : Bool}
    (h : ∀ outages, Inside post (body outages) db) (hdb : P db) (hpost : ∀ a db', post a db' → P db') :
    Leaves P post
      (connect world fun outages => Connections.startupExclusive outages enforce (body outages)) db := by
  intro opened
  have hrun := @connect_startupExclusive σ ε α world post enforce body ⟨db, opened⟩ h
  unfold Effects.Ends at hrun ⊢
  cases hresult : connect world (fun outages =>
      Connections.startupExclusive outages enforce (body outages)) ⟨db, opened⟩ with
  | ok a host =>
      rw [hresult] at hrun
      exact hrun
  | error e host =>
      rw [hresult] at hrun
      rcases hrun with hsame | ⟨a, hcommitted⟩
      · exact show P host.database from (show host.database = db from hsame).symm ▸ hdb
      · exact hpost a _ hcommitted

end Leaves

end Connections
