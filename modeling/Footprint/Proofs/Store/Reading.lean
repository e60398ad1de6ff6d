import Footprint.Exchange.Assemblies
import Footprint.Proofs.Refusal

namespace Footprint

open Enumerated

theorem readLiteral_eq_ok [Enumerated α] {field s : String} {a : α} :
    readLiteral field s = .ok a ↔ s = literal a := by
  rw [eq_comm (a := s), ← ofLiteral?_eq_some_iff, readLiteral]
  cases (ofLiteral? s : Option α) <;> simp

theorem readOptionalLiteral_eq_ok [Enumerated α] {field : String} {s : Option String}
    {a : Option α} : readOptionalLiteral field s = .ok a ↔ s = a.map literal := by
  cases s with
  | none => cases a <;> simp [readOptionalLiteral]
  | some s =>
    simp only [readOptionalLiteral, exceptMap_eq_ok, readLiteral_eq_ok]
    cases a <;> simp

theorem readLiteral_eq_error [Enumerated α] {field s : String} {e : Error} :
    (readLiteral field s : Except Error α) = .error e ↔
      (∀ a : α, literal a ≠ s) ∧ e = .unknownLiteral field s := by
  have hnone : (ofLiteral? s : Option α) = none ↔ ∀ a : α, literal a ≠ s := by
    rw [Option.eq_none_iff_forall_ne_some]
    simp only [ne_eq, ofLiteral?_eq_some_iff]
  rw [← hnone, readLiteral]
  cases (ofLiteral? s : Option α) <;> simp [eq_comm]

theorem readOptionalLiteral_eq_error [Enumerated α] {field : String} {s : Option String}
    {e : Error} : (readOptionalLiteral field s : Except Error (Option α)) = .error e ↔
      ∃ text, s = some text ∧ (∀ a : α, literal a ≠ text) ∧ e = .unknownLiteral field text := by
  cases s with
  | none => simp [readOptionalLiteral]
  | some text =>
    rw [readOptionalLiteral, exceptMap_eq_error, readLiteral_eq_error]
    simp

theorem PartRecord.part_eq_ok {r : PartRecord} {p : Part} :
    r.part = .ok p ↔
      p.trace = r.trace ∧ p.operator = r.operator ∧ p.plant = r.plant ∧ p.name = r.name ∧
      p.supportName = r.supportName ∧ p.terminal = r.terminal ∧ p.amount = r.amount ∧
      r.amountUnit = p.amountUnit.map literal := by
  rw [part, bind_eq_ok]
  simp only [readOptionalLiteral_eq_ok, Except.ok.injEq]
  constructor
  · rintro ⟨unit, h, rfl⟩
    simp [h]
  · rintro ⟨h₁, h₂, h₃, h₄, h₅, h₆, h₇, h₈⟩
    exact ⟨p.amountUnit, h₈, by ext1 <;> simp [*]⟩

@[simp] theorem TradeRecord.trade_id (r : TradeRecord) : r.trade.id = r.id := rfl

theorem StatusRecord.status_eq_ok {r : StatusRecord} {st : Status} :
    r.status = .ok st ↔
      r.progress = literal st.progress ∧ r.tree = literal st.tree ∧ r.kind = literal st.kind ∧
      st.id = r.id ∧ st.trade = r.trade ∧ st.message = r.message ∧ st.reply = r.reply ∧
      st.dueDate = r.dueDate ∧ st.completedCount = r.completedCount ∧
      st.tradesCount = r.tradesCount ∧ st.requestedAt = r.requestedAt := by
  simp only [status, bind_eq_ok, readLiteral_eq_ok, Except.ok.injEq]
  constructor
  · rintro ⟨progress, h₁, tree, h₂, kind, h₃, rfl⟩
    simp [h₁, h₂, h₃]
  · rintro ⟨h₁, h₂, h₃, h⟩
    exact ⟨st.progress, h₁, st.tree, h₂, st.kind, h₃, by ext1 <;> simp [h]⟩

theorem StatusRecord.isPending_iff {r : StatusRecord} :
    r.isPending ↔ r.progress = literal Progress.pending ∧ r.isLive := by
  simp [isPending]

theorem StatusRecord.status_ofStatus {now : Instant} {author : Uuid} {t : Trade} {st : Status} :
    (StatusRecord.ofStatus now author t st).status = .ok st :=
  status_eq_ok.2 ⟨rfl, rfl, rfl, rfl, rfl, rfl, rfl, rfl, rfl, rfl, rfl⟩

theorem FigureRecord.readUnit_eq_ok {s : String} {unit : Option DeclaredUnit} :
    readUnit s = .ok unit ↔ s = (unit.map literal).getD "" := by
  by_cases hs : s.isEmpty
  · have hempty : s = "" := by simpa using hs
    rw [readUnit, if_pos hs]
    cases unit with
    | none => simp [hempty]
    | some u => simp [hempty, (DeclaredUnit.literal_ne_empty u).symm]
  · have hne : s ≠ "" := by simpa using hs
    simp only [readUnit, if_neg hs, exceptMap_eq_ok, readLiteral_eq_ok]
    cases unit <;> simp [hne]

theorem FigureRecord.readCertificates_eq_ok {s : String} {certificates : List String} :
    readCertificates s = .ok certificates ↔ Json.readList s = some certificates := by
  rw [readCertificates]
  cases Json.readList s <;> simp

theorem FigureRecord.figure_eq_ok {r : FigureRecord} {f : Figure} :
    r.figure = .ok f ↔
      r.unit = (f.unit.map literal).getD "" ∧ r.kind = literal f.kind ∧
      r.ratingKind = literal f.ratingKind ∧ Json.readList r.certificates = some f.certificates ∧
      f.setId = some r.setId ∧ f.trace = r.trace ∧ f.emission = r.emission ∧
      f.rating = ⟨r.technological, r.geographical, r.temporal⟩ := by
  simp only [figure, bind_eq_ok, readUnit_eq_ok, readLiteral_eq_ok, readCertificates_eq_ok,
    Except.ok.injEq]
  constructor
  · rintro ⟨unit, h₁, kind, h₂, ratingKind, h₃, certificates, h₄, rfl⟩
    simp [h₁, h₂, h₃, h₄]
  · rintro ⟨h₁, h₂, h₃, h₄, h⟩
    exact ⟨f.unit, h₁, f.kind, h₂, f.ratingKind, h₃, f.certificates, h₄,
      by ext1 <;> simp [h]⟩

namespace Store

variable {s : Store}

theorem part?_eq_some {operator trace : Uuid} {p : Part}
    (h : s.part? operator trace = .ok (some p)) :
    ∃ r ∈ s.parts, r.trace = trace ∧ r.operator = operator ∧ r.isLive ∧ r.part = .ok p := by
  obtain ⟨r, hr, hread⟩ := readOptional_eq_ok_some.1 h
  have hfound := List.find?_some hr
  simp only [Bool.and_eq_true, decide_eq_true_eq] at hfound
  exact ⟨r, List.mem_of_find?_eq_some hr, hfound.1.1, hfound.1.2, hfound.2, hread⟩

/-- Whether any figures are kept for a trace. -/
def hasFigures (s : Store) (trace : Uuid) : Bool :=
  s.figures.any fun r => r.trace = trace

theorem hasFigures_iff {trace : Uuid} : s.hasFigures trace ↔ ∃ r ∈ s.figures, r.trace = trace := by
  simp [hasFigures]

theorem trace_ne_of_blank {trace : Uuid} (h : s.hasFigures trace = false) {r : FigureRecord}
    (hr : r ∈ s.figures) : r.trace ≠ trace := by
  rintro rfl
  rw [hasFigures_iff.2 ⟨r, hr, rfl⟩] at h
  cases h

theorem figuresOf_eq_ok {trace : Uuid} {fs : List Figure} :
    s.figuresOf trace = .ok fs ↔
      ∃ unsorted, List.Forall₂ (fun r f => r.figure = .ok f)
        (s.figures.filter fun r => r.trace = trace) unsorted ∧
        fs = unsorted.mergeSort fun f g => f.kind.rank ≤ g.kind.rank := by
  simp only [figuresOf, bind_eq_ok, mapM_eq_ok_iff, Except.ok.injEq, eq_comm (b := fs)]

theorem isEmpty_of_figuresOf {trace : Uuid} {fs : List Figure} (h : s.figuresOf trace = .ok fs) :
    fs.isEmpty = !s.hasFigures trace := by
  obtain ⟨unsorted, hread, rfl⟩ := figuresOf_eq_ok.1 h
  have hlength := hread.length_eq
  rw [Bool.eq_iff_iff, List.isEmpty_iff_length_eq_zero, List.length_mergeSort, ← hlength,
    List.length_eq_zero_iff, List.filter_eq_nil_iff, hasFigures]
  simp

theorem trade?_eq_some {id : Uuid} {t : Trade} (h : s.trade? id = some t) :
    ∃ r ∈ s.trades, r.id = id ∧ r.isLive ∧ r.trade = t := by
  obtain ⟨r, hr, rfl⟩ := Option.map_eq_some_iff.1 h
  have hfound := List.find?_some hr
  simp only [Bool.and_eq_true, decide_eq_true_eq] at hfound
  exact ⟨r, List.mem_of_find?_eq_some hr, hfound.1, hfound.2, rfl⟩

theorem requestFor?_eq_some {trace : Uuid} {t : Trade} (h : s.requestFor? trace = some t) :
    ∃ r ∈ s.trades, r.requesterPart = trace ∧ r.isLive ∧ r.trade = t := by
  obtain ⟨r, hr, rfl⟩ := Option.map_eq_some_iff.1 h
  have hfound := List.find?_some hr
  simp only [Bool.and_eq_true, decide_eq_true_eq] at hfound
  exact ⟨r, List.mem_of_find?_eq_some hr, hfound.1, hfound.2, rfl⟩

theorem requestFor?_eq_none {trace : Uuid} :
    s.requestFor? trace = none ↔ ∀ r ∈ s.trades, r.isLive → r.requesterPart ≠ trace := by
  simp only [requestFor?, Option.map_eq_none_iff, List.find?_eq_none, Bool.and_eq_true,
    decide_eq_true_eq, not_and]
  exact ⟨fun h r hr hlive htrace => h r hr htrace hlive,
    fun h r hr htrace hlive => h r hr hlive htrace⟩

theorem mem_tradesAnsweredWith {trace : Uuid} {t : Trade} :
    t ∈ s.tradesAnsweredWith trace ↔
      ∃ r ∈ s.trades, r.supplierPart = some trace ∧ r.isLive ∧ r.trade = t := by
  simp only [tradesAnsweredWith, List.mem_map, List.mem_mergeSort, List.mem_filter,
    Bool.and_eq_true, decide_eq_true_eq, and_assoc]

theorem isTraded_eq_false {trace : Uuid} :
    Exchange.isTraded s trace = false ↔
      ∀ t ∈ s.trades, t.isLive → t.requesterPart ≠ trace ∧ t.supplierPart ≠ some trace := by
  have hnone : s.tradesAnsweredWith trace = [] ↔
      ∀ t ∈ s.trades, t.isLive → t.supplierPart ≠ some trace := by
    rw [List.eq_nil_iff_forall_not_mem]
    simp only [mem_tradesAnsweredWith]
    exact ⟨fun h t ht hl hs => h t.trade ⟨t, ht, hs, hl, rfl⟩,
      fun h _ ⟨t, ht, hs, hl, _⟩ => h t ht hl hs⟩
  simp only [Exchange.isTraded, Bool.or_eq_false_iff, Bool.not_eq_false', List.isEmpty_iff, hnone,
    Option.isSome_eq_false_iff, Option.isNone_iff_eq_none, requestFor?_eq_none]
  exact ⟨fun ⟨h, h'⟩ t ht hl => ⟨h t ht hl, h' t ht hl⟩,
    fun h => ⟨fun t ht hl => (h t ht hl).1, fun t ht hl => (h t ht hl).2⟩⟩

theorem isTraded_iff {trace : Uuid} :
    Exchange.isTraded s trace ↔
      ∃ t ∈ s.trades, t.isLive ∧ (t.requesterPart = trace ∨ t.supplierPart = some trace) := by
  rw [← Bool.not_eq_false, isTraded_eq_false]
  push Not
  simp only [or_iff_not_imp_left, ne_eq]

theorem statusOf?_eq_some {trade : Uuid} {st : Status} (h : s.statusOf? trade = .ok (some st)) :
    ∃ r ∈ s.statuses, r.trade = trade ∧ r.isLive ∧ r.status = .ok st := by
  obtain ⟨r, hr, hread⟩ := readOptional_eq_ok_some.1 h
  have hfound := List.find?_some hr
  simp only [Bool.and_eq_true, decide_eq_true_eq] at hfound
  exact ⟨r, List.mem_of_find?_eq_some hr, hfound.1, hfound.2, hread⟩

theorem statusOf?_eq_none {trade : Uuid} (h : s.statusOf? trade = .ok none) :
    ∀ r ∈ s.statuses, r.trade = trade → r.isLive = false := by
  intro r hr htrade
  have hno := List.find?_eq_none.1 (readOptional_eq_ok_none.1 h) r hr
  simpa [htrade] using hno

end Store

theorem trace_of_part? {s : Store} {operator trace : Uuid} {p : Part}
    (h : s.part? operator trace = .ok (some p)) : p.trace = trace ∧ p.operator = operator := by
  obtain ⟨r, -, htrace, hoperator, -, hread⟩ := Store.part?_eq_some h
  obtain ⟨htrace', hoperator', -⟩ := PartRecord.part_eq_ok.1 hread
  exact ⟨htrace'.trans htrace, hoperator'.trans hoperator⟩

end Footprint
