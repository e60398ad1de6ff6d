import Footprint.Proofs.Exchange.Refused
import Footprint.Proofs.Store.Rollback

namespace Footprint

open Exchange

/-- What the caller is told and the store that is left. -/
def Exchange.Call.served (c : Call) (s : Store) : Except Error Reply × Store :=
  (c.op.session c.limits c.now c.caller).call s

variable {c : Call} {s s' : Store} {reply : Reply} {write : Write}

/-- A call that is told its result has made the store that is left. -/
theorem run_of_served (h : c.served s = (.ok reply, s')) :
    c.op.run c.limits c.now c.caller s = .ok (reply, s') := by
  have hcall : Session.Atomic (c.op.session c.limits c.now c.caller) _ :=
    Session.atomic_operation c.limits c.caller c.op
  rw [Call.served, hcall s] at h
  split at h
  · rename_i hrun
    obtain ⟨hreply, rfl⟩ := Prod.mk.inj h
    rw [hrun, Except.ok.inj hreply]
  · cases (Prod.mk.inj h).1

theorem after_of_served (h : c.served s = (.ok reply, s')) : c.after s = s' := by
  rw [Call.after, run_of_served h]

theorem reachable_of_served (hs : Reachable s) (hfresh : c.Fresh s)
    (h : c.served s = (.ok reply, s')) : Reachable s' :=
  after_of_served h ▸ hs.call c hfresh

/-- In a reachable store what is planned can be carried out. -/
theorem exists_served_of_plan (hs : Reachable s) (hfresh : c.Fresh s)
    (hplan : c.op.plan c.limits c.now c.caller s = .ok (write, reply)) :
    ∃ s', s.apply c.now write = .ok s' ∧ c.served s = (.ok reply, s') := by
  obtain ⟨s', happly⟩ := (fulfils_of_fresh hs hfresh).written _ _ hplan
  exact ⟨s', happly, Session.call_of_plan_ok hplan happly⟩

section

variable {α : Type} {plan : Plan α} {f : α → Reply} {a : α} {e : Error}
variable (hop : c.op.plan c.limits c.now c.caller = Operation.withReply f plan)
include hop

theorem served_of_plan_error (hplan : plan s = .error e) : c.served s = (.error e, s) := by
  refine Session.call_of_plan_error ?_
  rw [hop, Operation.withReply, hplan]
  rfl

theorem served_of_plan_ok (hplan : plan s = .ok (write, a)) (happly : s.apply c.now write = .ok s') :
    c.served s = (.ok (f a), s') := by
  refine Session.call_of_plan_ok ?_ happly
  rw [hop]
  exact Operation.withReply_eq_ok.2 ⟨a, hplan, rfl⟩

theorem exists_served_of_planned (hs : Reachable s) (hfresh : c.Fresh s)
    (hplan : plan s = .ok (write, a)) :
    ∃ s', s.apply c.now write = .ok s' ∧ c.served s = (.ok (f a), s') := by
  refine exists_served_of_plan hs hfresh ?_
  rw [hop]
  exact Operation.withReply_eq_ok.2 ⟨a, hplan, rfl⟩

end

/-- A call succeeds if and only if it is told so. -/
theorem succeeds_iff_served : c.Succeeds s ↔ ∃ reply, (c.served s).1 = .ok reply := by
  have hcall : Session.Atomic (c.op.session c.limits c.now c.caller) _ :=
    Session.atomic_operation c.limits c.caller c.op
  rw [Call.Succeeds, Call.served, hcall s]
  cases c.op.run c.limits c.now c.caller s <;> simp

theorem succeeds_of_ok (h : c.served s = (.ok reply, s')) : c.Succeeds s :=
  succeeds_iff_served.2 ⟨reply, congrArg Prod.fst h⟩

/-- A call that does not succeed is told an error and changes nothing. -/
theorem served_of_not_succeeds (h : ¬ c.Succeeds s) : ∃ e, c.served s = (.error e, s) := by
  have hcall : Session.Atomic (c.op.session c.limits c.now c.caller) _ :=
    Session.atomic_operation c.limits c.caller c.op
  rw [Call.served, hcall s]
  cases hrun : c.op.run c.limits c.now c.caller s with
  | ok result => exact absurd ⟨result, hrun⟩ h
  | error e => exact ⟨e, rfl⟩

theorem not_succeeds_of_error {e : Error} (h : c.served s = (.error e, s)) : ¬ c.Succeeds s := by
  rw [succeeds_iff_served, h]
  rintro ⟨reply, hreply⟩
  cases hreply

end Footprint
