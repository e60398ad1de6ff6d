import Footprint.Proofs.Exchange.Totals
import Footprint.Proofs.Figure.Stated
import Footprint.Proofs.Part.Forest
import Footprint.Proofs.Trade.Delivery

namespace Footprint

open Table Enumerated Exchange

/-- The operator has a live part, the figures of which are stated for it directly or come from
others. -/
def Store.HasPart (s : Store) (operator trace : Uuid) (terminal : Bool) : Prop :=
  ∃ r ∈ s.parts, r.trace = trace ∧ r.operator = operator ∧ r.isLive ∧ r.terminal = terminal

instance (s : Store) (operator trace : Uuid) (terminal : Bool) :
    Decidable (s.HasPart operator trace terminal) :=
  inferInstanceAs (Decidable (∃ r ∈ s.parts, _))

def Store.Heads (s : Store) (trace : Uuid) : Prop :=
  ∃ q ∈ s.placements, q.trace = trace ∧ q.parent = Uuid.nil

instance (s : Store) (trace : Uuid) : Decidable (s.Heads trace) :=
  inferInstanceAs (Decidable (∃ q ∈ s.placements, _))

def Store.HasChild (s : Store) (trace : Uuid) : Prop :=
  ∃ q ∈ s.placements, q.parent = trace

instance (s : Store) (trace : Uuid) : Decidable (s.HasChild trace) :=
  inferInstanceAs (Decidable (∃ q ∈ s.placements, _))

/-- The four figures that are stated for a part, in canonical order. -/
def inputsOf (g : FigureKind → Figure) : List Figure :=
  [g .preProduction, g .mainProduction, g .preComponent, g .mainComponent]

/-- A figure worked out from a set, with all that the first figure of the set shares with the
others and with the rating that such figures have. -/
def Figure.shownAs (first : Figure) (kind : FigureKind) (ratingKind : RatingKind)
    (emission : Option Float) : Figure :=
  { first with
    emission := emission
    kind := kind
    ratingKind := ratingKind
    rating := ⟨some 2.1, some 0.0, none⟩ }

/-- The four totals of a part with the figures `g`. -/
def totalsOf (g : FigureKind → Figure) (pre main : Float) : List Figure :=
  let first := g .preProduction
  [ first.shownAs .preProductionTotal .preProcessingTotal (g .preProduction).emission,
    first.shownAs .mainProductionTotal .mainProcessingTotal (g .mainProduction).emission,
    first.shownAs .preComponentTotal .preProcessingTotal (some pre),
    first.shownAs .mainComponentTotal .mainProcessingTotal (some main) ]

/-- The two figures that a requester sees of a supplier's figures `g`. -/
def responsesOf (g : FigureKind → Figure) (trace : Uuid) : List Figure :=
  let first := { g .preProduction with setId := none, trace := trace }
  [ first.shownAs .preProductionResponse .preProcessingResponse (g .preProduction).emission,
    first.shownAs .mainProductionResponse .mainProcessingResponse (g .mainProduction).emission ]

/-- The two figures, without any value, of a part that nobody was asked about. -/
def unrequestedOf (trace : Uuid) : List Figure :=
  [ { setId := none
      trace := trace
      emission := none
      unit := none
      kind := .preProductionResponse
      ratingKind := .preProcessingResponse
      rating := ⟨none, none, none⟩
      certificates := [] },
    { setId := none
      trace := trace
      emission := none
      unit := none
      kind := .mainProductionResponse
      ratingKind := .mainProcessingResponse
      rating := ⟨none, none, none⟩
      certificates := [] } ]

/-- The canonical vector of a trace. There may be none, when figures cannot be read. -/
inductive Canonical (s : Store) (operator trace : Uuid) : List Figure → Prop
  | unowned (part : ∀ terminal, ¬ s.HasPart operator trace terminal) : Canonical s operator trace []
  | unstated {terminal} (part : s.HasPart operator trace terminal)
      (own : terminal ∨ s.HasChild trace) (figures : s.hasFigures trace = false) :
      Canonical s operator trace []
  | terminal {g} (part : s.HasPart operator trace true) (single : ¬ s.Heads trace)
      (stated : Stated s trace g) : Canonical s operator trace (inputsOf g)
  | terminalHead {g} (part : s.HasPart operator trace true) (head : s.Heads trace)
      (stated : Stated s trace g) :
      Canonical s operator trace (inputsOf g ++ totalsOf g 0 0)
  | parent {g children components} (part : s.HasPart operator trace false)
      (child : s.HasChild trace) (stated : Stated s trace g)
      (read : s.children trace = .ok children)
      (added : children.foldlM (addChild s trace (g .preProduction).unit) ⟨0, 0⟩ = .ok components) :
      Canonical s operator trace (inputsOf g ++
        totalsOf g (fiveDecimals components.pre) (fiveDecimals components.main))
  | unrequested (part : s.HasPart operator trace false) (childless : ¬ s.HasChild trace)
      (trade : ∀ t ∈ s.trades, t.isLive → t.requesterPart ≠ trace) :
      Canonical s operator trace (unrequestedOf trace)
  | unanswered {t} (part : s.HasPart operator trace false) (childless : ¬ s.HasChild trace)
      (trade : t ∈ s.trades) (live : t.isLive) (requests : t.requesterPart = trace)
      (answer : t.supplierPart = none) : Canonical s operator trace []
  | unsupplied {t source} (part : s.HasPart operator trace false) (childless : ¬ s.HasChild trace)
      (trade : t ∈ s.trades) (live : t.isLive) (requests : t.requesterPart = trace)
      (answer : t.supplierPart = some source) (figures : s.hasFigures source = false) :
      Canonical s operator trace []
  | supplied {t source g} (part : s.HasPart operator trace false)
      (childless : ¬ s.HasChild trace) (trade : t ∈ s.trades) (live : t.isLive)
      (requests : t.requesterPart = trace) (answer : t.supplierPart = some source)
      (stated : Stated s source g) : Canonical s operator trace (responsesOf g trace)

variable {s : Store} {operator trace : Uuid} {p : Part} {v : List Figure} {terminal : Bool}
variable {g : FigureKind → Figure}

theorem inputs_map (g : FigureKind → Figure) : FigureKind.inputs.map g = inputsOf g := rfl

theorem derive_eq_shownAs (first : Figure) (kind : FigureKind) (emission : Option Float) :
    first.derive kind emission = first.shownAs kind kind.ratingKind emission := rfl

theorem blankResponses_eq (trace : Uuid) : blankResponses trace = unrequestedOf trace := rfl

theorem hasPart_of_part? (h : s.part? operator trace = .ok (some p)) :
    s.HasPart operator trace p.terminal := by
  obtain ⟨r, hr, htrace, hoperator, hlive, hread⟩ := Store.part?_eq_some h
  obtain ⟨-, -, -, -, -, hterminal, -⟩ := PartRecord.part_eq_ok.1 hread
  exact ⟨r, hr, htrace, hoperator, hlive, hterminal.symm⟩

theorem Store.HasPart.exists_part (h : s.HasPart operator trace terminal) (hs : Reachable s) :
    ∃ p, s.part? operator trace = .ok (some p) ∧ p.terminal = terminal := by
  obtain ⟨r, hr, rfl, rfl, hlive, rfl⟩ := h
  obtain ⟨p, hread⟩ := ((Coherent.of_reachable hs).parts r hr).exists_part
  obtain ⟨-, -, -, -, -, hterminal, -⟩ := PartRecord.part_eq_ok.1 hread
  exact ⟨p, part?_of_mem hs hr hlive hread, hterminal⟩

theorem isParent_iff_heads (h : Arranged s) : s.isParent trace ↔ s.Heads trace := by
  constructor
  · intro hparent
    obtain ⟨placement, hplacement, hnil⟩ : ∃ placement, s.placement? trace = some placement ∧
        placement.isParent := by
      simpa [Store.isParent, Option.getD_eq_iff] using hparent
    obtain ⟨q, hq, rfl⟩ := Option.map_eq_some_iff.1 hplacement
    exact ⟨q, List.mem_of_find?_eq_some hq, by simpa using List.find?_some hq,
      of_decide_eq_true hnil⟩
  · rintro ⟨q, hq, rfl, hnil⟩
    rw [isParent_of_mem h hq]
    exact decide_eq_true hnil

theorem classOf_terminal (h : p.terminal = true) :
    classOf s p = .ok (.terminal (s.isParent p.trace)) := by
  simp [classOf, h]

/-- A part that others stand under heads them. -/
theorem isParent_of_hasChild (hs : Reachable s) (hpart : s.part? operator trace = .ok (some p))
    (hchild : s.HasChild trace) : s.isParent trace := by
  have harranged := Arranged.of_reachable hs
  obtain ⟨q, hq, hunder⟩ := hchild
  obtain ⟨r, hr, htrace, -⟩ := Store.part?_eq_some hpart
  have hnamed : q.parent ≠ Uuid.nil := by
    rw [hunder, ← htrace]
    exact harranged.named r hr
  obtain ⟨top, htop, htoptrace, hnil⟩ :=
    ((Rooted.of_reachable hs).grounded.rooted q hq).resolve_left hnamed
  exact (isParent_iff_heads harranged).2 ⟨top, htop, htoptrace.trans hunder, hnil⟩

theorem classOf_of_child (hs : Reachable s) (hpart : s.part? operator trace = .ok (some p))
    (hterminal : p.terminal = false) (hchild : s.HasChild trace) :
    ∃ children, s.children trace = .ok children ∧ classOf s p = .ok (.parent children) := by
  obtain ⟨a, ha⟩ := (Coherent.of_reachable hs).exists_assembly? operator trace
  obtain ⟨a, rfl⟩ := exists_of_assembly? ha hpart (isParent_of_hasChild hs hpart hchild)
  obtain ⟨hpart', -, hread⟩ := assembly?_eq_some ha
  obtain rfl : p = a.parent := by simpa using hpart.symm.trans hpart'
  obtain ⟨q, hq, hunder⟩ := hchild
  obtain ⟨child, hmem, -⟩ :=
    ((Rooted.of_reachable hs).mem_children_iff hread).2 ⟨q, hq, rfl, hunder⟩
  exact ⟨a.children, hread, classOf_parent ha hterminal (List.ne_nil_of_mem hmem)⟩

theorem classOf_of_childless (hs : Reachable s) (hpart : s.part? operator trace = .ok (some p))
    (hterminal : p.terminal = false) (hchildless : ¬ s.HasChild trace) :
    classOf s p = .ok .imported := by
  obtain ⟨htrace, hoperator⟩ := trace_of_part? hpart
  obtain ⟨a, ha⟩ := (Coherent.of_reachable hs).exists_assembly? operator trace
  have hnone : (a.map (·.children)).getD [] = [] := by
    cases a with
    | none => rfl
    | some a =>
      obtain ⟨-, -, hread⟩ := assembly?_eq_some ha
      refine List.eq_nil_iff_forall_not_mem.2 fun child hmem => hchildless ?_
      obtain ⟨q, hq, -, hunder⟩ :=
        ((Rooted.of_reachable hs).mem_children_iff hread).1 ⟨child, hmem, rfl⟩
      exact ⟨q, hq, hunder⟩
  rw [classOf, htrace, hoperator, ha, ok_bind, hnone]
  simp [hterminal]

theorem exists_imported (hs : Reachable s) (hhas : s.HasPart operator trace false)
    (hchildless : ¬ s.HasChild trace) :
    ∃ p, s.part? operator trace = .ok (some p) ∧ classOf s p = .ok .imported := by
  obtain ⟨p, hpart, hterminal⟩ := hhas.exists_part hs
  exact ⟨p, hpart, classOf_of_childless hs hpart hterminal hchildless⟩

theorem fiveDecimals_zero : fiveDecimals 0 = 0 := by
  decide +kernel

theorem totalled_ofKinds (hkind : ∀ k ∈ FigureKind.inputs, (g k).kind = k)
    (components : Components) : totalled (.ofKinds g) components =
      inputsOf g ++
        totalsOf g (fiveDecimals components.pre) (fiveDecimals components.main) := by
  have hpre := FigureSet.emission?_ofKinds hkind (k := .preProduction) (by decide)
  have hmain := FigureSet.emission?_ofKinds hkind (k := .mainProduction) (by decide)
  rw [totalled, hpre, hmain, FigureSet.figures_ofKinds, FigureSet.driver_ofKinds, inputs_map]
  simp only [derive_eq_shownAs]
  rfl

theorem responses_ofKinds (hkind : ∀ k ∈ FigureKind.inputs, (g k).kind = k) :
    responses (.ofKinds g) trace = responsesOf g trace := by
  have hpre := FigureSet.emission?_ofKinds hkind (k := .preProduction) (by decide)
  have hmain := FigureSet.emission?_ofKinds hkind (k := .mainProduction) (by decide)
  have htwo : responses (.ofKinds g) trace =
      [responseFigure (.ofKinds g) trace .preProduction .preProductionResponse,
        responseFigure (.ofKinds g) trace .mainProduction .mainProductionResponse] := rfl
  rw [htwo, responseFigure, responseFigure, hpre, hmain, derive_eq_shownAs, derive_eq_shownAs]
  rfl

/-- What is shown of a set that is read. -/
theorem map_storedSet_eq_ok (hs : Reachable s) {f : FigureSet → List Figure} :
    ((storedSet s trace).map fun o => o.map f).map (·.getD []) = .ok v ↔
      s.hasFigures trace = false ∧ v = [] ∨ ∃ g, Stated s trace g ∧ v = f (.ofKinds g) := by
  simp only [exceptMap_eq_ok, storedSet_eq_ok (Submitted.of_reachable hs)]
  constructor
  · rintro ⟨_, ⟨o, ⟨hnone, rfl⟩ | ⟨g, hstated, rfl⟩, rfl⟩, rfl⟩
    · exact Or.inl ⟨hnone, rfl⟩
    · exact Or.inr ⟨g, hstated, rfl⟩
  · rintro (⟨hnone, rfl⟩ | ⟨g, hstated, rfl⟩)
    · exact ⟨none, ⟨none, Or.inl ⟨hnone, rfl⟩, rfl⟩, rfl⟩
    · exact ⟨_, ⟨_, Or.inr ⟨g, hstated, rfl⟩, rfl⟩, rfl⟩

theorem vector_terminal_eq_ok (hs : Reachable s) (hpart : s.part? operator trace = .ok (some p))
    (hterminal : p.terminal = true) :
    vector s operator trace = .ok v ↔ s.hasFigures trace = false ∧ v = [] ∨
      ∃ g, Stated s trace g ∧
        v = if s.isParent trace then totalled (.ofKinds g) ⟨0, 0⟩ else inputsOf g := by
  rw [vector_eq hpart, partFigures?_terminal (classOf_terminal hterminal), (trace_of_part? hpart).1]
  exact map_storedSet_eq_ok hs

theorem vector_components_eq_ok (hs : Reachable s) (hpart : s.part? operator trace = .ok (some p))
    {children : List Part} (hclass : classOf s p = .ok (.parent children)) :
    vector s operator trace = .ok v ↔ s.hasFigures trace = false ∧ v = [] ∨
      ∃ g components, Stated s trace g ∧
        children.foldlM (addChild s trace (g .preProduction).unit) ⟨0, 0⟩ = .ok components ∧
        v = totalled (.ofKinds g) components := by
  have hsubmitted := Submitted.of_reachable hs
  rw [vector_of_parent hpart hclass, storedSet_eq_none hsubmitted]
  simp only [storedSet_eq_some hsubmitted]
  refine or_congr_right ⟨?_, ?_⟩
  · rintro ⟨_, components, ⟨g, hstated, rfl⟩, hadded⟩
    exact ⟨g, components, hstated, hadded⟩
  · rintro ⟨g, components, hstated, hadded⟩
    exact ⟨_, components, ⟨g, hstated, rfl⟩, hadded⟩

theorem vector_unrequested (hpart : s.part? operator trace = .ok (some p))
    (hclass : classOf s p = .ok .imported) (hrequest : s.requestFor? trace = none) :
    vector s operator trace = .ok (unrequestedOf trace) := by
  rw [vector_eq hpart, partFigures?_imported hclass, (trace_of_part? hpart).1, if_pos hrequest,
    ← blankResponses_eq]
  rfl

theorem vector_unanswered (hpart : s.part? operator trace = .ok (some p))
    (hclass : classOf s p = .ok .imported) {t : Trade} (hrequest : s.requestFor? trace = some t)
    (hanswer : t.supplierPart = none) : vector s operator trace = .ok [] := by
  rw [vector_eq hpart, partFigures?_imported hclass, (trace_of_part? hpart).1, hrequest,
    if_neg (Option.some_ne_none t), suppliedSet, hrequest, Option.bind_some, hanswer]
  rfl

theorem vector_answered_eq_ok (hs : Reachable s) (hpart : s.part? operator trace = .ok (some p))
    (hclass : classOf s p = .ok .imported) {t : Trade} (hrequest : s.requestFor? trace = some t)
    {source : Uuid} (hanswer : t.supplierPart = some source) :
    vector s operator trace = .ok v ↔ s.hasFigures source = false ∧ v = [] ∨
      ∃ g, Stated s source g ∧ v = responses (.ofKinds g) trace := by
  rw [vector_eq hpart, partFigures?_imported hclass, (trace_of_part? hpart).1, hrequest,
    if_neg (Option.some_ne_none t), suppliedSet, hrequest, Option.bind_some, hanswer]
  exact map_storedSet_eq_ok hs

theorem canonical_of_terminal (hs : Reachable s) (hpart : s.part? operator trace = .ok (some p))
    (hterminal : p.terminal = true) (h : vector s operator trace = .ok v) :
    Canonical s operator trace v := by
  have hhas := hasPart_of_part? hpart
  have hheads : s.isParent trace ↔ s.Heads trace :=
    isParent_iff_heads (Arranged.of_reachable hs)
  rw [hterminal] at hhas
  rcases (vector_terminal_eq_ok hs hpart hterminal).1 h with ⟨hnone, rfl⟩ | ⟨g, hstated, rfl⟩
  · exact .unstated hhas (Or.inl rfl) hnone
  · split
    · rename_i hparent
      rw [totalled_ofKinds hstated.kind, fiveDecimals_zero]
      exact .terminalHead hhas (hheads.1 hparent) hstated
    · rename_i hparent
      exact .terminal hhas (mt hheads.2 hparent) hstated

theorem canonical_of_imported (hs : Reachable s) (hpart : s.part? operator trace = .ok (some p))
    (hterminal : p.terminal = false) (hchildless : ¬ s.HasChild trace)
    (h : vector s operator trace = .ok v) : Canonical s operator trace v := by
  have hhas := hasPart_of_part? hpart
  rw [hterminal] at hhas
  have hclass := classOf_of_childless hs hpart hterminal hchildless
  cases hrequest : s.requestFor? trace with
  | none =>
    cases h.symm.trans (vector_unrequested hpart hclass hrequest)
    exact .unrequested hhas hchildless (Store.requestFor?_eq_none.1 hrequest)
  | some t =>
    obtain ⟨r, hr, hrequests, hlive, rfl⟩ := Store.requestFor?_eq_some hrequest
    cases hanswer : r.supplierPart with
    | none =>
      cases h.symm.trans (vector_unanswered hpart hclass hrequest hanswer)
      exact .unanswered hhas hchildless hr hlive hrequests hanswer
    | some source =>
      rcases (vector_answered_eq_ok hs hpart hclass hrequest hanswer).1 h with
        ⟨hnone, rfl⟩ | ⟨g, hstated, rfl⟩
      · exact .unsupplied hhas hchildless hr hlive hrequests hanswer hnone
      · rw [responses_ofKinds hstated.kind]
        exact .supplied hhas hchildless hr hlive hrequests hanswer hstated

theorem canonical_of_vector (hs : Reachable s) (h : vector s operator trace = .ok v) :
    Canonical s operator trace v := by
  obtain ⟨o, hpart⟩ := (Coherent.of_reachable hs).exists_part? operator trace
  cases o with
  | none =>
    rw [vector, hpart] at h
    cases h
    refine .unowned fun terminal hhas => ?_
    obtain ⟨p, hpart', -⟩ := hhas.exists_part hs
    cases hpart.symm.trans hpart'
  | some p =>
    cases hterminal : p.terminal with
    | true => exact canonical_of_terminal hs hpart hterminal h
    | false =>
      by_cases hchild : s.HasChild trace
      · have hhas := hasPart_of_part? hpart
        rw [hterminal] at hhas
        obtain ⟨children, hread, hclass⟩ := classOf_of_child hs hpart hterminal hchild
        rcases (vector_components_eq_ok hs hpart hclass).1 h with
          ⟨hnone, rfl⟩ | ⟨g, components, hstated, hadded, rfl⟩
        · exact .unstated hhas (Or.inr hchild) hnone
        · rw [totalled_ofKinds hstated.kind]
          exact .parent hhas hchild hstated hread hadded
      · exact canonical_of_imported hs hpart hterminal hchild h

theorem Canonical.vector_eq (hs : Reachable s) (h : Canonical s operator trace v) :
    vector s operator trace = .ok v := by
  have harranged := Arranged.of_reachable hs
  cases h with
  | unowned hnone =>
    obtain ⟨o, hpart⟩ := (Coherent.of_reachable hs).exists_part? operator trace
    cases o with
    | none => rw [vector, hpart, ok_bind]
    | some p => exact absurd (hasPart_of_part? hpart) (hnone _)
  | @unstated terminal hhas hown hfigures =>
    obtain ⟨p, hpart, hterminal⟩ := hhas.exists_part hs
    cases hcase : p.terminal with
    | true => exact (vector_terminal_eq_ok hs hpart hcase).2 (Or.inl ⟨hfigures, rfl⟩)
    | false =>
      have hchild : s.HasChild trace := hown.resolve_left (by simp [← hterminal, hcase])
      obtain ⟨children, -, hclass⟩ := classOf_of_child hs hpart hcase hchild
      exact (vector_components_eq_ok hs hpart hclass).2 (Or.inl ⟨hfigures, rfl⟩)
  | @terminal g hhas hsingle hstated =>
    obtain ⟨p, hpart, hterminal⟩ := hhas.exists_part hs
    refine (vector_terminal_eq_ok hs hpart hterminal).2 (Or.inr ⟨g, hstated, ?_⟩)
    rw [if_neg (mt (isParent_iff_heads harranged).1 hsingle)]
  | @terminalHead g hhas hhead hstated =>
    obtain ⟨p, hpart, hterminal⟩ := hhas.exists_part hs
    refine (vector_terminal_eq_ok hs hpart hterminal).2 (Or.inr ⟨g, hstated, ?_⟩)
    rw [if_pos ((isParent_iff_heads harranged).2 hhead), totalled_ofKinds hstated.kind,
      fiveDecimals_zero]
  | @parent g children components hhas hchild hstated hread hadded =>
    obtain ⟨p, hpart, hterminal⟩ := hhas.exists_part hs
    obtain ⟨children', hread', hclass⟩ := classOf_of_child hs hpart hterminal hchild
    cases hread.symm.trans hread'
    refine (vector_components_eq_ok hs hpart hclass).2 (Or.inr ⟨g, components, hstated, hadded, ?_⟩)
    rw [totalled_ofKinds hstated.kind]
  | unrequested hhas hchildless htrade =>
    obtain ⟨p, hpart, hclass⟩ := exists_imported hs hhas hchildless
    exact vector_unrequested hpart hclass (Store.requestFor?_eq_none.2 htrade)
  | unanswered hhas hchildless ht hlive hrequests hanswer =>
    obtain ⟨p, hpart, hclass⟩ := exists_imported hs hhas hchildless
    exact vector_unanswered hpart hclass (requestFor?_of_mem hs ht hlive hrequests) hanswer
  | unsupplied hhas hchildless ht hlive hrequests hanswer hfigures =>
    obtain ⟨p, hpart, hclass⟩ := exists_imported hs hhas hchildless
    have hrequest := requestFor?_of_mem hs ht hlive hrequests
    exact (vector_answered_eq_ok hs hpart hclass hrequest hanswer).2 (Or.inl ⟨hfigures, rfl⟩)
  | @supplied t source g hhas hchildless ht hlive hrequests hanswer hstated =>
    obtain ⟨p, hpart, hclass⟩ := exists_imported hs hhas hchildless
    have hrequest := requestFor?_of_mem hs ht hlive hrequests
    rw [vector_answered_eq_ok hs hpart hclass hrequest hanswer, ← responses_ofKinds hstated.kind]
    exact Or.inr ⟨g, hstated, rfl⟩

theorem vector_eq_ok_iff (hs : Reachable s) :
    vector s operator trace = .ok v ↔ Canonical s operator trace v :=
  ⟨canonical_of_vector hs, fun h => h.vector_eq hs⟩

/-- In a reachable store the figures for a list of traces cannot be read exactly when those of some
trace cannot, and the first such trace gives the error. Otherwise the result is the canonical
vectors of the traces in the order asked for. -/
theorem figures_canonical (hs : Reachable s) (operator : Uuid) (traces : List Uuid) :
    (∀ e, figuresFor s operator traces = .error e ↔
      ∃ before trace after, traces = before ++ trace :: after ∧
        (∀ t ∈ before, ∃ v, vector s operator t = .ok v) ∧ vector s operator trace = .error e) ∧
    ∀ fs, figuresFor s operator traces = .ok fs ↔
      ∃ vectors, List.Forall₂ (Canonical s operator) traces vectors ∧ fs = vectors.flatten := by
  constructor
  · intro e
    rw [← mapM_eq_error_iff, figuresFor, bind_eq_error]
    refine ⟨fun h => h.resolve_right ?_, Or.inl⟩
    rintro ⟨_, _, h⟩
    cases h
  · intro fs
    simp only [figuresFor_eq_ok, mapM_eq_ok_iff, vector_eq_ok_iff hs, eq_comm (a := fs)]

/-- The store in which operator 1 has part 10 and has not asked anybody about it. -/
def samplePartStore : Store :=
  runAll (sampleCalls.take 1) Store.empty

/-- The component's set, twice, and nothing for a trace that is nobody's. A part that nobody was
asked about has two figures without any value. -/
theorem figures_canonical_component :
    (∃ v, figuresFor componentStore ⟨1⟩ [.v4 11, ⟨9⟩, .v4 11] = .ok (v ++ v) ∧
      v.map (·.kind) = [.preProduction, .mainProduction, .preComponent, .mainComponent]) ∧
      figuresFor samplePartStore ⟨1⟩ [.v4 10] =
        .ok
          [⟨none, .v4 10, none, none, .preProductionResponse, .preProcessingResponse,
              ⟨none, none, none⟩, []⟩,
            ⟨none, .v4 10, none, none, .mainProductionResponse, .mainProcessingResponse,
              ⟨none, none, none⟩, []⟩] := by
  constructor
  · obtain ⟨set, hset, -⟩ := kilogram_of_componentStore (.v4 11) (by decide +kernel)
    obtain ⟨g, hstated, -⟩ :=
      (storedSet_eq_some (Submitted.of_reachable reachable_componentStore)).1 hset
    have hcomponent : Canonical componentStore ⟨1⟩ (.v4 11) (inputsOf g) :=
      .terminal (by decide +kernel) (by decide +kernel) hstated
    have hnobody : Canonical componentStore ⟨1⟩ ⟨9⟩ [] := .unowned (by decide +kernel)
    refine ⟨inputsOf g, ?_, ?_⟩
    · exact ((figures_canonical reachable_componentStore ⟨1⟩ [.v4 11, ⟨9⟩, .v4 11]).2 _).2
        ⟨_, .cons hcomponent (.cons hnobody (.cons hcomponent .nil)), by simp⟩
    · rw [← inputs_map, List.map_map]
      exact (List.map_congr_left hstated.kind).trans (List.map_id _)
  · have hreach : Reachable samplePartStore := Reachable.empty.calls (by decide +kernel)
    have hblank : Canonical samplePartStore ⟨1⟩ (.v4 10) (unrequestedOf (.v4 10)) :=
      .unrequested (by decide +kernel) (by decide +kernel) (by decide +kernel)
    exact ((figures_canonical hreach ⟨1⟩ [.v4 10]).2 _).2
      ⟨_, .cons hblank .nil, (List.append_nil _).symm⟩

end Footprint
