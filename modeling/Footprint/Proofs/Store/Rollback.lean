import Footprint.Proofs.Exchange.Reachable
import Footprint.Proofs.Store.Update
import Footprint.Store.Session

namespace Footprint.Session

open Table

variable {α β : Type} {s : Store} {now : Instant} {author trade : Uuid}

/-- The transaction is still open. -/
def stillOpen (s w : Store) : Connection := ⟨s, some w⟩

/-- The transaction is committed. -/
def committed (_ w : Store) : Connection := ⟨w, none⟩

/-- From within a transaction `x` succeeds as `g` does and fails as `g` does. `after` is the
connection it leaves behind when it succeeds; a failure leaves the committed tables alone. -/
def Runs (after : Store → Store → Connection) (x : Session α) (g : StateT Store (Except Error) α) :
    Prop :=
  ∀ s w : Store,
    match g.run w with
    | .ok (a, w') => x.run.run (stillOpen s w) = (.ok a, after s w')
    | .error e => ∃ w', x.run.run (stillOpen s w) = (.error e, stillOpen s w')

/-- A call does what `g` does, or fails and leaves all tables as they were. -/
def Atomic (x : Session α) (g : Store → Except Error (α × Store)) : Prop :=
  ∀ s : Store, x.call s =
    match g s with
    | .ok (a, s') => (.ok a, s')
    | .error e => (.error e, s)

theorem run_bind_ok {x : Session α} {f : α → Session β} {c c' : Connection} {a : α}
    (h : x.run.run c = (.ok a, c')) : (x >>= f).run.run c = (f a).run.run c' := by
  rw [ExceptT.run_bind, StateT.run_bind, h]
  rfl

theorem run_bind_error {x : Session α} {f : α → Session β} {c c' : Connection} {e : Error}
    (h : x.run.run c = (.error e, c')) : (x >>= f).run.run c = (.error e, c') := by
  rw [ExceptT.run_bind, StateT.run_bind, h]
  rfl

theorem run_statement (g : StateT Store (Except Error) α) (c : Connection) :
    (statement g).run.run c =
      match g.run c.tables with
      | .ok (a, s) => (.ok a, c.put s)
      | .error e => (.error e, c) := by
  have hget : (get : Session Connection).run.run c = (.ok c, c) := rfl
  rw [statement, run_bind_ok hget]
  cases g.run c.tables <;> rfl

variable {after : Store → Store → Connection}

theorem runs_pure (a : α) : Runs stillOpen (pure a) (pure a) :=
  fun _ _ => rfl

theorem runs_statement (g : StateT Store (Except Error) α) : Runs stillOpen (statement g) g := by
  intro s w
  have hrun := run_statement g (stillOpen s w)
  have htables : (stillOpen s w).tables = w := rfl
  rw [htables] at hrun
  cases h : g.run w with
  | ok r =>
    rw [h] at hrun
    exact hrun
  | error e =>
    rw [h] at hrun
    exact ⟨w, hrun⟩

theorem runs_commit : Runs committed commit (pure ()) :=
  fun _ _ => rfl

/-- What the pieces of a transaction do, the transaction does. -/
theorem Runs.bind {x : Session α} {g : StateT Store (Except Error) α} {f : α → Session β}
    {k : α → StateT Store (Except Error) β} (hx : Runs stillOpen x g)
    (hf : ∀ a, Runs after (f a) (k a)) : Runs after (x >>= f) (g >>= k) := by
  intro s w
  rw [StateT.run_bind]
  have hx := hx s w
  cases h : g.run w with
  | error e =>
    rw [h] at hx
    obtain ⟨w', hw'⟩ := hx
    exact ⟨w', run_bind_error hw'⟩
  | ok r =>
    rw [h] at hx
    have hf := hf r.1 s r.2
    rw [← run_bind_ok hx] at hf
    exact hf

theorem Runs.forM {f : α → Session Unit} {k : α → StateT Store (Except Error) Unit}
    (h : ∀ a, Runs stillOpen (f a) (k a)) (as : List α) :
    Runs stillOpen (as.forM f) (as.forM k) := by
  induction as with
  | nil => exact runs_pure ()
  | cons a as ih =>
    rw [List.forM_eq_forM, List.forM_eq_forM, List.forM_cons, List.forM_cons]
    exact (h a).bind fun _ => ih

/-- A call that opens a transaction first and commits it last takes place as a whole or not at
all. -/
theorem Runs.atomic {x : Session α} {g : StateT Store (Except Error) α} (h : Runs committed x g) :
    Atomic (openTransaction >>= fun _ => x) g.run := by
  intro s
  have hopen : openTransaction.run.run ⟨s, none⟩ = (.ok (), stillOpen s s) := rfl
  have hx := h s s
  rw [call, run_bind_ok hopen]
  cases hg : g.run s with
  | ok r =>
    rw [hg] at hx
    rw [hx]
    rfl
  | error e =>
    rw [hg] at hx
    obtain ⟨w', hw'⟩ := hx
    rw [hw']
    rfl

theorem atomic_statement (g : StateT Store (Except Error) α) : Atomic (statement g) g.run := by
  intro s
  have hrun := run_statement g ⟨s, none⟩
  have htables : (⟨s, none⟩ : Connection).tables = s := rfl
  rw [htables] at hrun
  rw [call, hrun]
  cases g.run s <;> rfl

/-- Without a transaction `x` only reads. -/
def Reads (x : Session α) (read : Store → Except Error α) : Prop :=
  ∀ s : Store, x.run.run ⟨s, none⟩ = (read s, ⟨s, none⟩)

theorem reads_except (r : Except Error α) : Reads (liftExcept r) fun _ => r := by
  intro s
  cases r <;> rfl

theorem reads_query (read : Store → α) : Reads (query read) fun s => .ok (read s) :=
  fun _ => rfl

/-- What a call reads before it writes does not matter to the tables. -/
theorem Atomic.after_reading {x : Session α} {read : Store → Except Error α} {f : α → Session β}
    {k : α → Store → Except Error (β × Store)} (hx : Reads x read)
    (hf : ∀ a, Atomic (f a) (k a)) : Atomic (x >>= f) fun s => read s >>= fun a => k a s := by
  intro s
  have hx := hx s
  cases h : read s with
  | error e =>
    rw [h] at hx
    simp only [call, run_bind_error hx, h]
    rfl
  | ok a =>
    rw [h] at hx
    have hfa := hf a s
    simp only [call, run_bind_ok hx, h, ok_bind]
    exact hfa

theorem Atomic.returning {x : Session α} {g : Store → Except Error (α × Store)} (h : Atomic x g)
    (b : β) : Atomic (x >>= fun _ => pure b) fun s => (g s).map fun r => (b, r.2) := by
  intro s
  have hx := h s
  rcases hrun : x.run.run ⟨s, none⟩ with ⟨result, c⟩
  simp only [call, hrun] at hx
  cases result with
  | ok a =>
    simp only [call, run_bind_ok hrun]
    cases hg : g s with
    | ok r =>
      simp only [hg, Prod.mk.injEq] at hx
      exact Prod.ext rfl hx.2
    | error e => simp [hg] at hx
  | error e =>
    simp only [call, run_bind_error hrun]
    cases hg : g s with
    | ok r => simp [hg] at hx
    | error e' =>
      simp only [hg, Prod.mk.injEq, Except.error.injEq] at hx
      exact Prod.ext (congrArg Except.error hx.1) hx.2

theorem Atomic.succeeds_or_keeps {x : Session α} {g : Store → Except Error (α × Store)}
    (h : Atomic x g) (s : Store) :
    (∃ a s', g s = .ok (a, s') ∧ x.call s = (.ok a, s')) ∨
      ∃ e, g s = .error e ∧ x.call s = (.error e, s) := by
  have hcall := h s
  cases hg : g s with
  | ok r =>
    rw [hg] at hcall
    exact Or.inl ⟨r.1, r.2, rfl, hcall⟩
  | error e =>
    rw [hg] at hcall
    exact Or.inr ⟨e, rfl, hcall⟩

theorem Atomic.congr {x : Session α} {g k : Store → Except Error (α × Store)} (h : Atomic x g)
    (hgk : ∀ s, g s = k s) : Atomic x k := by
  intro s
  rw [← hgk s]
  exact h s

theorem runs_update (change : Store → Store) : Runs stillOpen (update change) (modify change) :=
  runs_statement _

theorem run_forM_modify {change : α → Store → Store} (as : List α) (w : Store) :
    (as.forM fun a => (modify (change a) : StateT Store (Except Error) Unit)).run w =
      .ok ((), as.foldl (fun w a => change a w) w) := by
  induction as generalizing w with
  | nil => rfl
  | cons a as ih =>
    rw [List.forM_eq_forM, List.forM_cons, ← List.forM_eq_forM, StateT.run_bind]
    exact ih (change a w)

theorem runs_dropParts (traces : List Uuid) :
    Runs stillOpen (dropParts now author traces) (modify (Store.dropParts now author traces)) := by
  cases traces with
  | nil =>
    intro s w
    have hdrop : w.dropParts now author [] = w := by
      simp [Store.dropParts, updateWhere, deleteWhere]
    change _ = ((Except.ok (), stillOpen s (w.dropParts now author [])))
    rw [hdrop]
    rfl
  | cons trace traces =>
    exact (runs_update _).bind fun _ => (runs_update _).bind fun _ => runs_update _

theorem foldl_writePart (ps : List Part) (w : Store) :
    ps.foldl (fun w p => { w with parts := Store.writePart now w.parts p }) w =
      { w with parts := ps.foldl (Store.writePart now) w.parts } := by
  induction ps generalizing w with
  | nil => rfl
  | cons p ps ih => rw [List.foldl_cons, ih, List.foldl_cons]

theorem atomic_putAssembly (a : Assembly) (removed : List Uuid) :
    Atomic (putAssembly now a removed) fun s => (s.putAssembly now a removed).map ((), ·) := by
  refine Atomic.congr (Runs.atomic ((runs_dropParts removed).bind fun _ => (runs_update _).bind
    fun _ => (Runs.forM (fun _ => runs_update _) a.children).bind fun _ => (runs_update _).bind
      fun _ => (runs_statement _).bind fun _ => runs_commit)) fun s => ?_
  simp only [StateT.run_bind, StateT.run_modify, run_forM_modify, foldl_writePart, pure_bind,
    ok_bind, StateT.run_pure]
  simp only [StateT.run, Store.putAssembly, Assembly.parts, List.foldl_cons]
  cases insertAll (fun r q : PlacementRecord => decide (q.trace = r.trace)) _
    (Store.placementsOf now a) <;> rfl

theorem atomic_removeAssembly (a : Assembly) :
    Atomic (removeAssembly now a) fun s => .ok ((), s.removeAssembly now a) :=
  ((runs_dropParts a.traces).bind fun _ => runs_commit).atomic

theorem runs_completeStatus (status : Status) :
    Runs stillOpen (completeStatus now status) (modify fun s =>
      { s with statuses := Store.reviseStatus now none s.statuses status }) :=
  (runs_statement _).bind fun _ => runs_pure ()

theorem foldl_reviseStatus (completed : List Status) (w : Store) :
    completed.foldl
        (fun w status =>
          { w with statuses := Store.reviseStatus now none w.statuses status }) w =
      { w with statuses := completed.foldl (Store.reviseStatus now none) w.statuses } := by
  induction completed generalizing w with
  | nil => rfl
  | cons status completed ih => rw [List.foldl_cons, ih, List.foldl_cons]

theorem atomic_addFigures (fs : List Figure) (completed : List Status) :
    Atomic (addFigures now fs completed) fun s => (s.addFigures now fs completed).map ((), ·) := by
  cases fs with
  | nil => exact fun _ => rfl
  | cons first fs =>
    refine Atomic.congr (Atomic.after_reading (reads_except _) fun records =>
      Runs.atomic ((runs_statement _).bind fun _ =>
        (Runs.forM runs_completeStatus completed).bind fun _ => runs_commit)) fun s => ?_
    rw [Store.addFigures]
    cases (first :: fs).mapM (Store.recordOf now) with
    | error e => rfl
    | ok records =>
      simp only [StateT.run_bind, run_forM_modify, foldl_reviseStatus, ok_bind, StateT.run_pure]
      simp only [StateT.run]
      cases insertAll FigureRecord.clash s.figures records <;> rfl

/-- What revising a figure does to the tables. -/
def figureRevision (now : Instant) (f : Figure) : StateT Store (Except Error) Unit := fun w =>
  (Store.reviseFigure now w.figures f).map fun figures => ((), { w with figures := figures })

theorem runs_reviseFigure (f : Figure) :
    Runs stillOpen (reviseFigure now f) (figureRevision now f) := by
  intro s w
  simp only [StateT.run, figureRevision, Store.reviseFigure, reviseFigure]
  cases f.setId with
  | none => exact ⟨w, rfl⟩
  | some setId => exact runs_update _ s w

theorem run_forM_figureRevision (fs : List Figure) (w : Store) :
    (fs.forM (figureRevision now)).run w =
      (fs.foldlM (Store.reviseFigure now) w.figures).map fun figures =>
        ((), { w with figures := figures }) := by
  induction fs generalizing w with
  | nil => rfl
  | cons f fs ih =>
    rw [List.forM_eq_forM, List.forM_cons, ← List.forM_eq_forM, StateT.run_bind,
      List.foldlM_cons, StateT.run, figureRevision]
    cases Store.reviseFigure now w.figures f with
    | error e => rfl
    | ok figures => exact ih { w with figures := figures }

theorem atomic_reviseFigures (fs : List Figure) :
    Atomic (reviseFigures now fs) fun s => (s.reviseFigures now fs).map ((), ·) := by
  refine Atomic.congr (Runs.atomic ((Runs.forM runs_reviseFigure fs).bind fun _ => runs_commit))
    fun s => ?_
  rw [StateT.run_bind, run_forM_figureRevision, Store.reviseFigures]
  cases fs.foldlM (Store.reviseFigure now) s.figures <;> rfl

theorem atomic_openTrade (t : Trade) (status : Status) :
    Atomic (openTrade now t status author) fun s =>
      (s.openTrade now t status author).map ((), ·) := by
  refine Atomic.congr (Runs.atomic ((runs_statement _).bind fun _ => (runs_statement _).bind
    fun _ => runs_commit)) fun s => ?_
  simp only [StateT.run_bind, StateT.run_pure]
  simp only [StateT.run, Store.openTrade]
  have hkey : (StatusRecord.ofStatus now author t status).trade = status.trade := rfl
  cases insertAll (fun r q : TradeRecord => decide (q.id = r.id)) s.trades
    [TradeRecord.ofTrade now author t] with
  | none =>
    cases insertAll (fun r q : StatusRecord => decide (q.id = r.id)) s.statuses
      [StatusRecord.ofStatus now author t status] <;> rfl
  | some trades =>
    simp only [ok_bind, hkey]
    cases insertAll (fun r q : StatusRecord => decide (q.id = r.id)) s.statuses
      [StatusRecord.ofStatus now author t status] with
    | none => rfl
    | some statuses =>
      dsimp only
      cases trades.any fun r => decide (r.id = status.trade) <;> rfl

/-- The transaction is committed if the status is still pending, and fails otherwise. -/
theorem runs_closeWith (status : Status) (event : Event) :
    Runs committed (closeWith now author trade status event) fun w =>
      (w.reviseWith now author trade status event w.trades w.statuses).map ((), ·) := by
  intro s w
  have hwrite : (writeStatus now (some author) status).run.run (stillOpen s w) =
      (.ok (w.statuses.any (Store.awaits status.id)), stillOpen s
        { w with statuses := Store.reviseStatus now (some author) w.statuses status }) := rfl
  rw [closeWith, run_bind_ok hwrite]
  simp only [StateT.run, Store.reviseWith]
  cases hany : w.statuses.any (Store.awaits status.id) with
  | true => rfl
  | false =>
    have hsame : Store.reviseStatus now (some author) w.statuses status = w.statuses :=
      updateWhere_eq_self (by simpa using hany)
    rw [hsame]
    exact ⟨w, rfl⟩

theorem atomic_reviseTrade (t : Trade) (status : Status) :
    Atomic (reviseTrade now t status author) fun s =>
      (s.reviseTrade now t status author).map ((), ·) :=
  ((runs_update _).bind fun _ => (runs_update _).bind fun _ =>
    runs_closeWith status .update).atomic

theorem atomic_answerTrade (trace : Uuid) (status : Status) :
    Atomic (answerTrade now trade trace status author) fun s =>
      (s.answerTrade now trade trace status author).map ((), ·) :=
  ((runs_update _).bind fun _ => runs_closeWith status .answer).atomic

theorem atomic_deleteTrade :
    Atomic (deleteTrade now trade author) fun s => .ok ((), s.deleteTrade now trade author) :=
  ((runs_update _).bind fun _ => (runs_update _).bind fun _ => runs_commit).atomic

/-- No transaction is needed for the one statement that may change a table. -/
theorem atomic_endRequest (progress : Progress) (event : Event) (reply : Option String) :
    Atomic (endRequest now author trade progress event reply) fun s =>
      (s.endRequest now author trade progress event reply).map ((), ·) := by
  intro s
  have hwrite : (endPending now author trade progress reply).run.run ⟨s, none⟩ =
      (.ok (s.statuses.any (StatusRecord.isOpenFor trade)),
        { committed :=
            { s with
              statuses := updateWhere (StatusRecord.isOpenFor trade)
                (StatusRecord.ended now author progress reply) s.statuses }
          working := none }) := rfl
  rw [call, endRequest, run_bind_ok hwrite]
  cases hany : s.statuses.any (StatusRecord.isOpenFor trade) with
  | true =>
    beta_reduce
    rw [Store.endRequest_eq_ok.2 ⟨List.any_eq_true.1 hany, rfl⟩]
    rfl
  | false =>
    have hnone : ∀ r ∈ s.statuses, r.isOpenFor trade = false := by simpa using hany
    beta_reduce
    rw [Store.endRequest_eq_error (by simpa using hnone), updateWhere_eq_self hnone]
    rfl

/-- A write is carried out as a whole or not at all, whatever its arguments. -/
theorem atomic_write (now : Instant) (w : Write) :
    Atomic (w.session now) fun s => (s.apply now w).map ((), ·) := by
  cases w with
  | putAssembly a removed => exact atomic_putAssembly a removed
  | removeAssembly a => exact atomic_removeAssembly a
  | addFigures fs completed => exact atomic_addFigures fs completed
  | reviseFigures fs => exact atomic_reviseFigures fs
  | certify trace certificates =>
    exact atomic_statement fun s => .ok ((), s.certify now trace certificates)
  | openTrade t status author => exact atomic_openTrade t status
  | reviseTrade t status author => exact atomic_reviseTrade t status
  | answerTrade trade trace status author => exact atomic_answerTrade trace status
  | cancelTrade trade reply author => exact atomic_endRequest .cancelled .cancel reply
  | rejectTrade trade reply author => exact atomic_endRequest .rejected .reject reply
  | deleteTrade trade author => exact atomic_deleteTrade

theorem atomic_operation (limits : TextLimits) (caller : Uuid) (op : Exchange.Operation) :
    Atomic (op.session limits now caller) (op.run limits now caller) := by
  refine Atomic.congr (Atomic.after_reading (reads_query (op.plan limits now caller))
    fun planned => Atomic.after_reading (reads_except planned) fun p =>
      (atomic_write now p.1).returning p.2) fun s => ?_
  rw [Exchange.Operation.run, Plan.run, ok_bind]
  cases op.plan limits now caller s with
  | error e => rfl
  | ok p =>
    simp only [ok_bind]
    cases s.apply now p.1 <;> rfl

/-- A call whose plan is refused is told so. -/
theorem call_of_plan_error {limits : TextLimits} {caller : Uuid} {op : Exchange.Operation}
    {e : Error} (h : op.plan limits now caller s = .error e) :
    (op.session limits now caller).call s = (.error e, s) := by
  have hrun : op.run limits now caller s = .error e := by
    rw [Exchange.Operation.run, Plan.run, h]
    rfl
  have hcall : Atomic (op.session limits now caller) _ := atomic_operation limits caller op
  rw [hcall s, hrun]

/-- A call whose plan is carried out gets the result that was planned. -/
theorem call_of_plan_ok {limits : TextLimits} {caller : Uuid} {op : Exchange.Operation}
    {write : Write} {reply : Exchange.Reply} {s' : Store}
    (hplan : op.plan limits now caller s = .ok (write, reply)) (happly : s.apply now write = .ok s') :
    (op.session limits now caller).call s = (.ok reply, s') := by
  have hrun := Exchange.Operation.run_eq_ok.2 ⟨write, hplan, happly⟩
  have hcall : Atomic (op.session limits now caller) _ := atomic_operation limits caller op
  rw [hcall s, hrun]

/-- Whatever the store and the arguments, a write or an operation that fails leaves all tables as
they were, and one that succeeds leaves the store that `apply` or `run` gives. -/
theorem failed_calls_change_nothing (s : Store) (now : Instant) :
    (∀ w : Write,
      (∃ s', s.apply now w = .ok s' ∧ (w.session now).call s = (.ok (), s')) ∨
        ∃ e, s.apply now w = .error e ∧ (w.session now).call s = (.error e, s)) ∧
    ∀ (limits : TextLimits) (caller : Uuid) (op : Exchange.Operation),
      (∃ reply s', op.run limits now caller s = .ok (reply, s') ∧
        (op.session limits now caller).call s = (.ok reply, s')) ∨
        ∃ e, op.run limits now caller s = .error e ∧
          (op.session limits now caller).call s = (.error e, s) := by
  refine ⟨fun w => ?_, fun limits caller op =>
    (atomic_operation limits caller op).succeeds_or_keeps s⟩
  obtain ⟨_, s', h, hcall⟩ | ⟨e, h, hcall⟩ := (atomic_write now w).succeeds_or_keeps s
  · obtain ⟨_, hs', heq⟩ := exceptMap_eq_ok.1 h
    cases heq
    exact Or.inl ⟨s', hs', hcall⟩
  · exact Or.inr ⟨e, exceptMap_eq_error.1 h, hcall⟩

/-- A trade whose status would take the identifier of another one is in the table when the status
is refused, and is rolled back. -/
example :
    let t : Trade := ⟨.v4 50, ⟨1⟩, ⟨2⟩, .v4 10, none⟩
    let status : Status :=
      ⟨.v4 31, .v4 50, .pending, .unterminated, none, none, .footprint, "2024-04-01", 0, 0, ⟨0, 0⟩⟩
    let session := (Write.openTrade t status ⟨1⟩).session ⟨0, 0⟩
    let s := Exchange.sampleAnswered
    (s.apply ⟨0, 0⟩ (.openTrade t status ⟨1⟩)).isOk = false ∧
      (session.run.run ⟨s, none⟩).2.working.map (·.trades.length) = some 2 ∧
      s.trades.length = 1 ∧ (session.call s).2 = s := by
  decide +kernel

end Footprint.Session
