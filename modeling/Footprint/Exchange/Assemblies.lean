import Footprint.Exchange.Plan
import Footprint.Rules.Assembly

namespace Footprint.Exchange

/-- The traces of the parts of an assembly: the named ones and, for the others, new ones in
order. -/
def assignTraces : List Uuid → List (Option Uuid) → List Uuid
  | _, [] => []
  | ids, some trace :: rest => trace :: assignTraces ids rest
  | [], none :: rest => Uuid.nil :: assignTraces [] rest
  | id :: ids, none :: rest => id :: assignTraces ids rest

/-- Whether a part that has a place may take this slot: a parent stays a parent and a child stays
with its parent. -/
def keepsPlace (parent : Uuid) (p : Placement) : Slot → Bool
  | .parent => p.isParent
  | .child _ => p.parent = parent

/-- A named trace has to be a live part of the caller that is free or in its slot already. -/
def checkNamed (s : Store) (caller parent : Uuid) (slot : Slot) (trace : Uuid) :
    Except Error Unit := do
  match ← s.part? caller trace with
  | none => .error (.partNotFound trace)
  | some _ =>
    match s.placement? trace with
    | none => .ok ()
    | some p => if keepsPlace parent p slot then .ok () else refuseWith (.otherAssembly trace)

/-- The part a draft describes, under the trace assigned to it. -/
def partOfDraft (s : Store) (caller parent : Uuid) (slot : Slot) (d : PartDraft) (trace : Uuid) :
    Except Error Part := do
  if d.trace.isSome then checkNamed s caller parent slot trace
  match d.plant with
  | none => refuseWith .plantMissing
  | some plant =>
    .ok
      { trace := trace
        operator := caller
        plant := plant
        name := d.name
        supportName := d.supportName
        terminal := d.terminal
        amount := d.amount
        amountUnit := d.amountUnit }

/-- The amount of a parent is nobody's use of it and is dropped. -/
def maskAmount (p : Part) : Part :=
  { p with amount := none, amountUnit := none }

def partsOfDrafts (s : Store) (caller parent : Uuid) : Nat → List PartDraft → List Uuid →
    Except Error (List Part)
  | index, d :: ds, trace :: traces => do
    let p ← partOfDraft s caller parent (.child index) d trace
    let ps ← partsOfDrafts s caller parent (index + 1) ds traces
    .ok (p :: ps)
  | _, _, _ => .ok []

/-- Whether a live trade asks for the part or is answered with it. -/
def isTraded (s : Store) (trace : Uuid) : Bool :=
  (s.requestFor? trace).isSome || !(s.tradesAnsweredWith trace).isEmpty

/-- Refuses to lose a part that is traded. -/
def requireUntraded (s : Store) (trace : Uuid) : Except Error Unit :=
  if isTraded s trace then .error (.partInUse trace) else .ok ()

/-- The present children of a parent that are not among the new ones. -/
def droppedTraces (existing : Option Assembly) (children : List Part) : List Uuid :=
  match existing with
  | some a =>
    (a.children.map (·.trace)).filter fun trace => !(children.map (·.trace)).contains trace
  | none => []

/-- Registers an assembly of the caller or changes it. New parts get identifiers from `ids`, the
parent first; children left out are removed. -/
def putAssembly (ids : List Uuid) (caller : Uuid) (draft : AssemblyDraft) : Plan Assembly :=
  fun s => do
    refuse (Rules.assembly caller draft)
    match draft.parent with
    | none => refuseWith .parentMissing
    | some d =>
      match assignTraces ids ((d :: draft.children).map (·.trace)) with
      | [] => .error .brokenKey
      | trace :: traces =>
        let parent ← partOfDraft s caller trace .parent d trace
        let children ← partsOfDrafts s caller trace 0 draft.children traces
        let existing ← s.assembly? caller trace
        let removed := droppedTraces existing children
        removed.forM (requireUntraded s)
        let a : Assembly := ⟨maskAmount parent, children⟩
        .ok (.putAssembly a removed, a)

/-- Removes a parent of the caller and its children, unless one of them is traded. -/
def removeAssembly (caller parent : Uuid) : Plan Unit := fun s => do
  match ← s.assembly? caller parent with
  | none => .error (.partNotFound parent)
  | some a =>
    a.traces.forM (requireUntraded s)
    .ok (.removeAssembly a, ())

end Footprint.Exchange
