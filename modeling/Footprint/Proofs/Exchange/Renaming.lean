import Footprint.Exchange.Operation
import Mathlib.Data.List.Basic

namespace Footprint

open Exchange

def PartDraft.mapTrace (f : Uuid → Uuid) (d : PartDraft) : PartDraft :=
  { d with trace := d.trace.map f }

def Figure.mapTrace (f : Uuid → Uuid) (row : Figure) : Figure :=
  { row with trace := f row.trace }

def AssemblyDraft.mapTraces (f : Uuid → Uuid) (draft : AssemblyDraft) : AssemblyDraft :=
  ⟨draft.parent.map (·.mapTrace f), draft.children.map (·.mapTrace f)⟩

/-- The traces that a submitted assembly names, the parent's first. -/
def AssemblyDraft.named (draft : AssemblyDraft) : List Uuid :=
  (draft.parent.toList ++ draft.children).filterMap (·.trace)

namespace Exchange.Operation

/-- The traces that the arguments name. -/
def traces : Operation → List Uuid
  | putAssembly _ draft => draft.named
  | removeAssembly parent => [parent]
  | putFigures _ fs => fs.map (·.trace)
  | certify trace _ => [trace]
  | putRequest _ _ r => [r.requesterPart]
  | answer _ trace => [trace]
  | cancel _ _ | reject _ _ | deleteTrade _ => []

/-- The operation with other traces in its arguments. -/
def mapTraces (f : Uuid → Uuid) : Operation → Operation
  | putAssembly ids draft => putAssembly ids (draft.mapTraces f)
  | removeAssembly parent => removeAssembly (f parent)
  | putFigures id fs => putFigures id (fs.map (·.mapTrace f))
  | certify trace certificates => certify (f trace) certificates
  | putRequest tradeId statusId r =>
    putRequest tradeId statusId { r with requesterPart := f r.requesterPart }
  | answer trade trace => answer trade (f trace)
  | op => op

end Exchange.Operation

def Violation.mapTraces (f : Uuid → Uuid) : Violation → Violation
  | repeatedTrace slot trace => repeatedTrace slot (f trace)
  | otherAssembly trace => otherAssembly (f trace)
  | nothingToCertify trace => nothingToCertify (f trace)
  | requestForTerminal trace => requestForTerminal (f trace)
  | requestedAlready trace => requestedAlready (f trace)
  | violation => violation

/-- The refusal of the same under other traces. -/
def Error.mapTraces (f : Uuid → Uuid) : Error → Error
  | invalid violations => invalid (violations.map (·.mapTraces f))
  | inconsistent field trace => inconsistent field (f trace)
  | duplicateFigures trace => duplicateFigures (f trace)
  | partNotFound trace => partNotFound (f trace)
  | partInUse trace => partInUse (f trace)
  | e => e

/-- The renaming tells the given traces apart. -/
def TellsApart (f : Uuid → Uuid) (traces : List Uuid) : Prop :=
  ∀ a ∈ traces, ∀ b ∈ traces, f a = f b → a = b

theorem TellsApart.subset {f : Uuid → Uuid} {traces others : List Uuid} (h : TellsApart f traces)
    (hsubset : others ⊆ traces) : TellsApart f others :=
  fun a ha b hb => h a (hsubset ha) b (hsubset hb)

theorem TellsApart.eq_iff {f : Uuid → Uuid} {traces : List Uuid} (h : TellsApart f traces) {a b : Uuid}
    (ha : a ∈ traces) (hb : b ∈ traces) : f a = f b ↔ a = b :=
  ⟨h a ha b hb, congrArg f⟩

namespace Rules

variable {f : Uuid → Uuid} {caller : Uuid}

theorem map_require (g : Violation → Violation) (holds : Bool) (violation : Violation) :
    (require holds violation).map g = require holds (g violation) := by
  cases holds <;> rfl

theorem map_optionalNumber (field : String) (x : Option Float) :
    (optionalNumber field x).map (·.mapTraces f) = optionalNumber field x := by
  cases x with
  | none => rfl
  | some x =>
    simp only [optionalNumber, Option.map_some, Option.getD_some, number]
    split
    · rw [map_require]
      rfl
    · rfl

theorem map_draft (slot : Slot) (d : PartDraft) :
    (draft caller slot d).map (·.mapTraces f) = draft caller slot d := by
  simp only [draft, List.map_append, map_require, map_optionalNumber]
  rfl

theorem map_request (r : TradeRequest) :
    (request caller r).map (·.mapTraces f) = request caller r := by
  simp only [request, List.map_append, map_require]
  rfl

theorem map_length (field : String) (text : Option String) (limit : Nat) :
    (length field text limit).map (·.mapTraces f) = length field text limit := by
  cases text with
  | none => rfl
  | some text =>
    rw [length, map_require]
    rfl

theorem childDrafts_mapTraces {index : Nat} {seen : List Uuid} {ds : List PartDraft}
    (h : TellsApart f (seen ++ ds.filterMap (·.trace))) :
    childDrafts caller index (seen.map f) (ds.map (·.mapTrace f)) =
      (childDrafts caller index seen ds).map (·.mapTraces f) := by
  induction ds generalizing index seen with
  | nil => rfl
  | cons d ds ih =>
    have hseen : (d.mapTrace f).trace.toList ++ seen.map f = (d.trace.toList ++ seen).map f := by
      cases htrace : d.trace <;> simp [PartDraft.mapTrace, htrace]
    have hnamed : (d :: ds).filterMap (·.trace) = d.trace.toList ++ ds.filterMap (·.trace) := by
      cases htrace : d.trace <;> simp [htrace]
    have hrest : TellsApart f ((d.trace.toList ++ seen) ++ ds.filterMap (·.trace)) := by
      refine h.subset fun a ha => ?_
      simp only [hnamed, List.mem_append] at ha ⊢
      tauto
    rw [List.map_cons, childDrafts, childDrafts, hseen, ih hrest, List.map_append, List.map_append,
      map_draft]
    congr 2
    cases htrace : d.trace with
    | none => simp [PartDraft.mapTrace, htrace]
    | some name =>
      have hname : name ∈ seen ++ (d :: ds).filterMap (·.trace) := by simp [htrace]
      have hsame : (seen.map f).contains (f name) = seen.contains name := by
        rw [Bool.eq_iff_iff, List.contains_iff_mem, List.contains_iff_mem, List.mem_map]
        constructor
        · rintro ⟨a, ha, heq⟩
          rwa [← (h.eq_iff (List.mem_append_left _ ha) hname).1 heq]
        · exact fun hmem => ⟨name, hmem, rfl⟩
      simp only [PartDraft.mapTrace, htrace, Option.map_some, hsame, map_require]
      rfl

/-- The rules do not look at a trace but to tell it from others, so a renaming that keeps traces
apart changes no violation but in the traces it names. -/
theorem assembly_mapTraces {draft : AssemblyDraft} (h : TellsApart f draft.named) :
    assembly caller (draft.mapTraces f) = (assembly caller draft).map (·.mapTraces f) := by
  have hnamed : (draft.parent.bind (·.trace)).toList ++ draft.children.filterMap (·.trace) =
      draft.named := by
    cases hparent : draft.parent with
    | none => simp [AssemblyDraft.named, hparent]
    | some d => cases htrace : d.trace <;> simp [AssemblyDraft.named, hparent, htrace]
  have hseen : ((draft.mapTraces f).parent.bind (·.trace)).toList =
      (draft.parent.bind (·.trace)).toList.map f := by
    cases hparent : draft.parent with
    | none => simp [AssemblyDraft.mapTraces, hparent]
    | some d =>
      cases htrace : d.trace <;>
        simp [AssemblyDraft.mapTraces, PartDraft.mapTrace, hparent, htrace]
  rw [assembly, assembly, List.map_append, hseen]
  congr 1
  · cases hparent : draft.parent with
    | none => simp [AssemblyDraft.mapTraces, hparent, Violation.mapTraces]
    | some d =>
      rw [map_draft]
      simp only [AssemblyDraft.mapTraces, hparent, Option.map_some]
      rfl
  · exact childDrafts_mapTraces (hnamed ▸ h)

theorem kinds_mapTraces (fs : List Figure) :
    kinds (fs.map (·.mapTrace f)) = (kinds fs).map (·.mapTraces f) := by
  simp only [kinds, List.map_append, map_require, List.map_flatMap, List.countP_map,
    List.filter_map, List.map_map, List.length_map, Function.comp_def]
  rfl

theorem sharedFields_mapTraces {first : Figure} {fs : List Figure}
    (h : TellsApart f ((first :: fs).map (·.trace))) :
    sharedFields (first.mapTrace f) (fs.map (·.mapTrace f)) =
      (sharedFields first fs).map (·.mapTraces f) := by
  have htraces : (fs.map (·.mapTrace f)).all (fun row => row.trace = (first.mapTrace f).trace) =
      fs.all fun row => row.trace = first.trace := by
    rw [List.all_map, Bool.eq_iff_iff, List.all_eq_true, List.all_eq_true]
    refine forall₂_congr fun row hrow => ?_
    have hmem : row.trace ∈ (first :: fs).map (·.trace) :=
      List.mem_map_of_mem (List.mem_cons_of_mem _ hrow)
    rw [Function.comp_apply, decide_eq_true_eq, decide_eq_true_eq]
    exact h.eq_iff hmem (List.mem_map_of_mem List.mem_cons_self)
  simp only [sharedFields, htraces, List.map_append, map_require, List.all_map, Function.comp_def]
  rfl

theorem figure_mapTraces (row : Figure) :
    figure (row.mapTrace f) = (figure row).map (·.mapTraces f) := by
  simp only [figure, List.map_append, map_require, map_optionalNumber, List.map_flatMap]
  rfl

theorem stage_mapTraces (place : Stage) (fs : List Figure) :
    stage place (fs.map (·.mapTrace f)) = (stage place fs).map (·.mapTraces f) := by
  have hrows : ofStage place (fs.map (·.mapTrace f)) = (ofStage place fs).map (·.mapTrace f) := by
    rw [ofStage, List.filter_map, ofStage]
    rfl
  have hsum (rows : List Figure) :
      emissionSum (rows.map (·.mapTrace f)) = emissionSum rows := by
    rw [emissionSum, List.filterMap_map, emissionSum]
    rfl
  rw [stage, stage, hrows]
  cases ofStage place fs with
  | nil => rfl
  | cons head tail =>
    have hsum := hsum (head :: tail)
    have hagree : ((head :: tail).map (·.mapTrace f)).all
          (fun row => row.rating.agrees (head.mapTrace f).rating) =
        (head :: tail).all fun row => row.rating.agrees head.rating := by
      rw [List.all_map]
      rfl
    rw [List.map_cons] at hsum hagree
    simp only [List.map_cons, hsum, hagree, List.map_append, map_require]
    rfl

theorem figures_mapTraces {fs : List Figure} (h : TellsApart f (fs.map (·.trace))) :
    figures (fs.map (·.mapTrace f)) = (figures fs).map (·.mapTraces f) := by
  cases fs with
  | nil => rfl
  | cons first rest =>
    have hshared : sharedFields (first.mapTrace f) ((first :: rest).map (·.mapTrace f)) =
        (sharedFields first (first :: rest)).map (·.mapTraces f) :=
      sharedFields_mapTraces (h.subset (by simp))
    have hrows : ((first :: rest).map (·.mapTrace f)).flatMap figure =
        ((first :: rest).flatMap figure).map (·.mapTraces f) := by
      rw [List.flatMap_map, List.map_flatMap]
      simp only [figure_mapTraces]
    simp only [figures, List.map_append, ← kinds_mapTraces, ← stage_mapTraces, ← hrows, ← hshared]
    rfl

end Rules

end Footprint
