import Footprint.Proofs.Exchange.Reachable

namespace Footprint.Exchange

/-- An accepted call, its reply, and the stores before and after it. -/
structure Step where
  call : Call
  reply : Reply
  before : Store
  after : Store

/-- The step that a call makes; none when it is refused. -/
def Call.step? (c : Call) (s : Store) : Option Step :=
  match c.op.run c.limits c.now c.caller s with
  | .ok (reply, s') => some ⟨c, reply, s, s'⟩
  | .error _ => none

/-- The steps of a run, in their order. -/
def history (s : Store) : List Call → List Step
  | [] => []
  | c :: cs => (c.step? s).toList ++ history (c.after s) cs

variable {s : Store} {steps : List Step} {cs : List Call}

theorem Call.step?_cases (c : Call) (s : Store) :
    (c.step? s = none ∧ c.after s = s) ∨
      ∃ reply, c.step? s = some ⟨c, reply, s, c.after s⟩ ∧
        Accepted c.limits c.now c.caller s c.op reply (c.after s) := by
  rw [Call.step?, Call.after]
  cases h : c.op.run c.limits c.now c.caller s with
  | error e => exact Or.inl ⟨rfl, rfl⟩
  | ok result => exact Or.inr ⟨result.1, rfl, accepted_of_run h⟩

/-- What holds of a store and the steps that led to it, and survives every accepted call with its
step, holds after every run. -/
theorem history_induct {P : Store → List Step → Prop}
    (accepted : ∀ {s : Store} {steps : List Step} {reply : Reply} (c : Call), Reachable s →
      c.Fresh s → P s steps → Accepted c.limits c.now c.caller s c.op reply (c.after s) →
      P (c.after s) (steps ++ [⟨c, reply, s, c.after s⟩]))
    (hs : Reachable s) (h : P s steps) (hfresh : freshAlong s cs) :
    P (runAll cs s) (steps ++ history s cs) := by
  induction cs generalizing s steps with
  | nil =>
    rw [history, List.append_nil]
    exact h
  | cons c cs ih =>
    rw [freshAlong, Bool.and_eq_true, decide_eq_true_eq] at hfresh
    have hs' := hs.call c hfresh.1
    have hstep : P (c.after s) (steps ++ (c.step? s).toList) := by
      rcases c.step?_cases s with ⟨hnone, hsame⟩ | ⟨reply, hsome, haccepted⟩
      · rw [hnone, hsame, Option.toList_none, List.append_nil]
        exact h
      · rw [hsome]
        exact accepted c hs hfresh.1 h haccepted
    rw [history, ← List.append_assoc]
    exact ih hs' hstep hfresh.2

end Footprint.Exchange
