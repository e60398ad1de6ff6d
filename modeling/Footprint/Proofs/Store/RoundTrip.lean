import Footprint.Proofs.Part.Put
import Footprint.Proofs.Rules.Legal

namespace Footprint

open Enumerated

/-- The figure as its columns keep it. -/
def Figure.stored (f : Figure) : Figure :=
  { f with emission := f.emission.map storedNumber, rating := f.rating.stored }

variable {now : Instant} {x : Float} {o : Option Float} {f : Figure} {p : Part}

theorem storedNumber_eq_ite (x : Float) : storedNumber x = if x = -0 then 0 else x := by
  have hbits : x.toBits = 0x8000000000000000 ↔ x = -0 := by
    constructor
    · intro h
      rw [← Float.ofBits_toBits x, h]
      decide +kernel
    · rintro rfl
      decide +kernel
  simp only [storedNumber, hbits]

theorem storedNumber_beq (hx : x ≠ Float.nan) : storedNumber x == x := by
  rw [storedNumber_eq_ite]
  split
  · rename_i hzero
    rw [hzero]
    decide +kernel
  · exact Float.beq_self_iff.2 hx

theorem sameValue_map_stored (h : ∀ x ∈ o, x ≠ Float.nan) :
    Rating.sameValue (o.map storedNumber) o := by
  cases o with
  | none => rfl
  | some x => exact storedNumber_beq (h x rfl)

theorem FigureRecord.figure_ofFigure {id : Uuid} (hid : f.setId = some id) :
    (ofFigure now id f).figure = .ok f.stored :=
  figure_eq_ok.2 ⟨rfl, rfl, rfl, Json.readList_quoteList f.certificates, hid, rfl, rfl, rfl⟩

theorem FigureRecord.unit_ofFigure {id : Uuid} :
    (ofFigure now id f).unit = "" ↔ f.unit = none := by
  cases hunit : f.unit with
  | none => simp [ofFigure, hunit]
  | some u => simp [ofFigure, hunit, DeclaredUnit.literal_ne_empty u]

theorem PartRecord.part_ofPart : (ofPart now p).part = .ok p.stored :=
  part_eq_ok.2 ⟨rfl, rfl, rfl, rfl, rfl, rfl, rfl, rfl⟩

theorem PartRecord.amountUnit_ofPart (unit : Option AmountUnit) :
    (ofPart now p).amountUnit = unit.map literal ↔ p.amountUnit = unit := by
  rw [ofPart, Option.map_inj_right literal_injective]

theorem Figure.agrees_stored (h : ∀ number ∈ f.numbers, number.2 ≠ Float.nan) :
    Rating.sameValue f.stored.emission f.emission ∧ f.stored.rating.agrees f.rating := by
  have hvalue : ∀ x ∈ f.numbers.map (·.2), x ≠ Float.nan := List.forall_mem_map.2 h
  rw [Figure.values_numbers] at hvalue
  simp only [Rating.agrees, Bool.and_eq_true]
  refine ⟨?_, ⟨?_, ?_⟩, ?_⟩ <;>
    exact sameValue_map_stored fun x hx => hvalue x (by simp [Option.mem_def.1 hx])

theorem Store.recordOf_eq {id : Uuid} (hid : f.setId = some id) :
    recordOf now f = .ok (FigureRecord.ofFigure now id f) := by
  rw [recordOf, hid]

theorem Store.writePart_eq_append {table : List PartRecord} (h : ∀ r ∈ table, r.trace ≠ p.trace) :
    writePart now table p = table ++ [PartRecord.ofPart now p] := by
  rw [writePart, if_neg]
  simpa using h

/-- A figure of a set, a part under a new trace and a status are read from their rows as they were
written, but for the sign of a zero. The row of a figure without unit has the empty text for it; the
row of a part has none, and the empty text for a unit that is not set. -/
theorem rows_lossless (now : Instant) :
    (∀ x, storedNumber x = if x = -0 then 0 else x) ∧
      (∀ (f : Figure) (id : Uuid), f.setId = some id →
        (∀ number ∈ f.numbers, number.2 ≠ Float.nan) →
        ∃ r : FigureRecord, Store.recordOf now f = .ok r ∧ r.figure = .ok f.stored ∧
          Rating.sameValue f.stored.emission f.emission ∧ f.stored.rating.agrees f.rating ∧
          (r.unit = "" ↔ f.unit = none)) ∧
      (∀ (table : List PartRecord) (p : Part), (∀ r ∈ table, r.trace ≠ p.trace) →
        (∀ x ∈ p.amount, x ≠ Float.nan) →
        ∃ r : PartRecord, Store.writePart now table p = table ++ [r] ∧ r.part = .ok p.stored ∧
          Rating.sameValue p.stored.amount p.amount ∧
          (r.amountUnit = none ↔ p.amountUnit = none) ∧
          (r.amountUnit = some "" ↔ p.amountUnit = some .notSet)) ∧
      ∀ (s : Store) (t : Trade) (status : Status) (author : Uuid),
        ((∃ s', s.openTrade now t status author = .ok s') ↔
          (∀ r ∈ s.trades, r.id ≠ t.id) ∧ (∀ r ∈ s.statuses, r.id ≠ status.id) ∧
            (t.id = status.trade ∨ ∃ r ∈ s.trades, r.id = status.trade)) ∧
        ∀ s' : Store, s.openTrade now t status author = .ok s' →
          ∃ r : StatusRecord, s'.statuses = s.statuses ++ [r] ∧ r.status = .ok status := by
  refine ⟨storedNumber_eq_ite, fun f id hid hnumbers => ?_, fun table p hnew hamount => ?_,
    fun s t status author => ⟨?_, fun s' h => ?_⟩⟩
  · obtain ⟨hemission, hrating⟩ := Figure.agrees_stored hnumbers
    exact ⟨_, Store.recordOf_eq hid, FigureRecord.figure_ofFigure hid, hemission, hrating,
      FigureRecord.unit_ofFigure⟩
  · exact ⟨_, Store.writePart_eq_append hnew, PartRecord.part_ofPart,
      sameValue_map_stored hamount, PartRecord.amountUnit_ofPart none,
      PartRecord.amountUnit_ofPart (some .notSet)⟩
  · simp only [Store.openTrade_eq_ok_iff, exists_and_left, exists_eq, and_true]
  · obtain ⟨-, -, -, rfl⟩ := Store.openTrade_eq_ok_iff.1 h
    exact ⟨_, rfl, StatusRecord.status_ofStatus⟩

end Footprint
