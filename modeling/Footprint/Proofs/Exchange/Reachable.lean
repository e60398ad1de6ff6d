import Footprint.Proofs.Exchange.Accepted
import Mathlib.Logic.Relation

namespace Footprint

/-- The identifiers by which rows are known. -/
def Store.keys (s : Store) : List Uuid :=
  s.parts.map (·.trace) ++ s.figures.map (·.setId) ++ s.trades.map (·.id) ++ s.statuses.map (·.id)

namespace Exchange

/-- The identifiers that an operation gives away if it is accepted. -/
def Operation.minted : Operation → List Uuid
  | .putAssembly ids draft =>
    let named := (draft.parent.toList ++ draft.children).map (·.trace)
    ((assignTraces ids named).zip named).filterMap fun (trace, name) =>
      if name.isNone then some trace else none
  | op@(.putFigures id _) => if op.registers.isSome then [id] else []
  | .putRequest tradeId statusId r => if r.trade.isNone then [tradeId, statusId] else []
  | _ => []

/-- An operation with its caller, its time and the limits it is run with. -/
structure Call where
  limits : TextLimits
  now : Instant
  caller : Uuid
  op : Operation

namespace Call

/-- The store after a call; a refused call changes nothing. -/
def after (c : Call) (s : Store) : Store :=
  match c.op.run c.limits c.now c.caller s with
  | .ok (_, s') => s'
  | .error _ => s

/-- What the call gives away is new and not nil. The program gives away identifiers of version 4, but
their version does not matter. -/
def Fresh (c : Call) (s : Store) : Prop :=
  c.op.minted.Nodup ∧ ∀ id ∈ c.op.minted, id ≠ Uuid.nil ∧ id ∉ s.keys

instance (c : Call) (s : Store) : Decidable (c.Fresh s) :=
  inferInstanceAs (Decidable (c.op.minted.Nodup ∧ ∀ id ∈ c.op.minted, id ≠ Uuid.nil ∧ id ∉ s.keys))

/-- Whether the call is accepted. -/
def Succeeds (c : Call) (s : Store) : Prop :=
  ∃ result, c.op.run c.limits c.now c.caller s = .ok result

/-- A call is refused and changes nothing, or it is accepted. -/
theorem after_cases (c : Call) (s : Store) :
    (¬ c.Succeeds s ∧ c.after s = s) ∨
      c.Succeeds s ∧ ∃ reply, Accepted c.limits c.now c.caller s c.op reply (c.after s) := by
  rw [Succeeds, after]
  cases h : c.op.run c.limits c.now c.caller s with
  | error e => simp
  | ok result =>
    obtain ⟨reply, s'⟩ := result
    exact Or.inr ⟨⟨_, rfl⟩, reply, accepted_of_run h⟩

theorem after_eq (c : Call) (s : Store) :
    c.after s = s ∨ ∃ reply, Accepted c.limits c.now c.caller s c.op reply (c.after s) :=
  (c.after_cases s).imp And.right And.right

end Call

/-- The store after a list of calls. -/
def runAll (cs : List Call) (s : Store) : Store :=
  cs.foldl (fun s c => c.after s) s

/-- Whether every call of a list is fresh when its turn comes. -/
def freshAlong (s : Store) : List Call → Bool
  | [] => true
  | c :: cs => decide (c.Fresh s) && freshAlong (c.after s) cs

theorem runAll_append (cs ds : List Call) (s : Store) :
    runAll (cs ++ ds) s = runAll ds (runAll cs s) :=
  List.foldl_append ..

theorem freshAlong_append (cs ds : List Call) (s : Store) :
    freshAlong s (cs ++ ds) = (freshAlong s cs && freshAlong (runAll cs s) ds) := by
  induction cs generalizing s with
  | nil => rfl
  | cons c cs ih =>
    rw [List.cons_append, freshAlong, freshAlong, ih, Bool.and_assoc]
    rfl

inductive Reachable : Store → Prop
  | empty : Reachable Store.empty
  | call {s : Store} (c : Call) (h : Reachable s) (fresh : c.Fresh s) : Reachable (c.after s)

/-- A store that fresh calls make of another one. -/
def Leads : Store → Store → Prop :=
  Relation.ReflTransGen fun s s' => ∃ c : Call, c.Fresh s ∧ c.after s = s'

theorem Leads.call {s s' : Store} (h : Leads s s') (c : Call) (hfresh : c.Fresh s') :
    Leads s (c.after s') :=
  h.tail ⟨c, hfresh, rfl⟩

theorem Leads.calls {s s' : Store} (h : Leads s s') {cs : List Call} (hfresh : freshAlong s' cs) :
    Leads s (runAll cs s') := by
  induction cs generalizing s' with
  | nil => exact h
  | cons c cs ih =>
    rw [freshAlong, Bool.and_eq_true, decide_eq_true_eq] at hfresh
    exact ih (h.call c hfresh.1) hfresh.2

namespace Reachable

/-- Only the calls that are accepted count. -/
theorem induct_after {P : Store → Prop} (empty : P Store.empty)
    (accepted : ∀ {s : Store} {reply : Reply} (c : Call), Reachable s → c.Fresh s → c.Succeeds s →
      P s → Accepted c.limits c.now c.caller s c.op reply (c.after s) → P (c.after s))
    {s : Store} (h : Reachable s) : P s := by
  induction h with
  | empty => exact empty
  | @call s c h hfresh ih =>
    rcases c.after_cases s with ⟨-, hsame⟩ | ⟨hsucceeds, reply, haccepted⟩
    · rw [hsame]
      exact ih
    · exact accepted c h hfresh hsucceeds ih haccepted

/-- What holds of the empty store and survives every accepted operation holds of every reachable
store. -/
theorem induct {P : Store → Prop} (empty : P Store.empty)
    (accepted : ∀ {s s' : Store} {reply : Reply} (c : Call), Reachable s → c.Fresh s → P s →
      Accepted c.limits c.now c.caller s c.op reply s' → P s') {s : Store} (h : Reachable s) :
    P s :=
  h.induct_after empty fun c hs hfresh _ ih haccepted => accepted c hs hfresh ih haccepted

theorem calls {s : Store} (h : Reachable s) {cs : List Call} (hfresh : freshAlong s cs) :
    Reachable (runAll cs s) := by
  induction cs generalizing s with
  | nil => exact h
  | cons c cs ih =>
    rw [freshAlong, Bool.and_eq_true, decide_eq_true_eq] at hfresh
    exact ih (h.call c hfresh.1) hfresh.2

end Reachable

def sampleDraft (operator : Uuid) (terminal : Bool) : AssemblyDraft where
  parent := some
    { trace := none
      operator := operator
      plant := some ⟨3⟩
      name := "part"
      supportName := none
      terminal := terminal
      amount := none
      amountUnit := none }
  children := []

def sampleFigures (trace : Uuid) : List Figure :=
  FigureKind.inputs.map fun kind =>
    { setId := none
      trace := trace
      emission := none
      unit := some .kilogram
      kind := kind
      ratingKind := kind.ratingKind
      rating := .empty
      certificates := [] }

def sampleCall (caller : Uuid) (op : Operation) : Call :=
  ⟨Settings.default.trade, ⟨0, 0⟩, caller, op⟩

/-- Operator 1 asks for the figures of its part 10, and operator 2 answers with its part 20. -/
def sampleCalls : List Call :=
  [ sampleCall ⟨1⟩ (.putAssembly [.v4 10] (sampleDraft ⟨1⟩ false)),
    sampleCall ⟨2⟩ (.putAssembly [.v4 20] (sampleDraft ⟨2⟩ true)),
    sampleCall ⟨1⟩ (.putRequest (.v4 30) (.v4 31) ⟨none, ⟨1⟩, ⟨2⟩, .v4 10, none, "2024-04-01"⟩),
    sampleCall ⟨2⟩ (.answer (.v4 30) (.v4 20)) ]

/-- The request is answered and waits for figures. -/
def sampleAnswered : Store :=
  runAll sampleCalls Store.empty

/-- The part of operator 1. -/
def samplePart : Part :=
  ⟨.v4 10, ⟨1⟩, ⟨3⟩, "part", none, false, none, none⟩

/-- Operator 2 registers figures for the part it answered with. -/
def sampleRegistration : Call :=
  sampleCall ⟨2⟩ (.putFigures (.v4 40) (sampleFigures (.v4 20)))

theorem reachable_sampleAnswered : Reachable sampleAnswered :=
  Reachable.empty.calls (by decide +kernel)

theorem reachable_sampleRegistration : Reachable (sampleRegistration.after sampleAnswered) :=
  reachable_sampleAnswered.call sampleRegistration (by decide +kernel)

end Exchange

end Footprint
