import Footprint.Proofs.Exchange.Canonical

namespace Footprint

open Table Enumerated Exchange

/-- A figure of a supplier's part as it is seen for the part of the requester. -/
def Figure.handedDown (f : Figure) (trace : Uuid) (kind : FigureKind) : Figure where
  setId := none
  trace := trace
  emission := f.emission
  unit := f.unit
  kind := kind
  ratingKind := kind.ratingKind
  rating := .fixed
  certificates := f.certificates

/-- The rows that show the set, one of either kind, as rows for the trace. -/
def Mirrors (fs seen : List Figure) (trace : Uuid) : Prop :=
  ∃ pre main, (fs.filter fun f => f.kind = .preProduction) = [pre] ∧
    (fs.filter fun f => f.kind = .mainProduction) = [main] ∧
    seen = [pre.handedDown trace .preProductionResponse,
      main.handedDown trace .mainProductionResponse]

variable {s : Store} {operator trace source : Uuid} {t : TradeRecord} {g : FigureKind → Figure}
variable {fs v : List Figure} {f : Figure}

theorem isTotal_of_totalsOf {pre main : Float} (h : f ∈ totalsOf g pre main) : f.kind.isTotal := by
  simp only [totalsOf, List.mem_cons, List.not_mem_nil, or_false] at h
  rcases h with rfl | rfl | rfl | rfl <;> rfl

/-- A set is shown together with figures that are none of the set's own kinds. -/
theorem Canonical.exists_stated (h : Canonical s operator trace v)
    (hpre : ∃ f ∈ v, f.kind = .preProduction) :
    ∃ g derived, v = inputsOf g ++ derived ∧ Stated s trace g ∧
      ∀ f ∈ derived, f.kind.isTotal := by
  obtain ⟨f, hf, hkind⟩ := hpre
  cases h with
  | unowned | unstated | unanswered | unsupplied => cases hf
  | terminal _ _ hstated => exact ⟨_, [], (List.append_nil _).symm, hstated, by simp⟩
  | terminalHead _ _ hstated | parent _ _ hstated =>
    exact ⟨_, _, rfl, hstated, fun _ => isTotal_of_totalsOf⟩
  | unrequested | supplied =>
    -- All that such a part is shown with are responses.
    simp only [unrequestedOf, responsesOf, List.mem_cons, List.not_mem_nil, or_false] at hf
    rcases hf with rfl | rfl <;> cases hkind

theorem filter_kind_inputs (hkind : ∀ k ∈ FigureKind.inputs, (g k).kind = k)
    (hfs : ∀ f ∈ fs, f.kind.isTotal) {k : FigureKind} (hk : k ∈ FigureKind.inputs) :
    ((inputsOf g ++ fs).filter fun f => f.kind = k) = [g k] := by
  have hnone : (fs.filter fun f => f.kind = k) = [] := by
    refine List.filter_eq_nil_iff.2 fun f hf hsame => ?_
    have htotal := hfs f hf
    rw [of_decide_eq_true hsame] at htotal
    revert hk htotal
    cases k <;> decide
  have hinputs : (FigureKind.inputs.filter fun l => (g l).kind = k) = [k] := by
    rw [List.filter_congr fun l hl => by rw [hkind l hl]]
    revert hk
    cases k <;> decide
  rw [List.filter_append, hnone, List.append_nil, ← inputs_map, List.filter_map]
  exact congrArg (List.map g) hinputs

/-- What a set shares is the same whichever row it is taken from. -/
theorem responsesOf_eq (h : Stated s source g) :
    responsesOf g trace = [(g .preProduction).handedDown trace .preProductionResponse,
      (g .mainProduction).handedDown trace .mainProductionResponse] := by
  have hunit : (g .preProduction).unit = (g .mainProduction).unit :=
    eq_of_beq (h.shared .unit (by decide) .mainProduction (by decide))
  have hcertificates : (g .preProduction).certificates = (g .mainProduction).certificates :=
    eq_of_beq (h.shared .certificates (by decide) .mainProduction (by decide))
  simp [responsesOf, Figure.shownAs, Figure.handedDown, FigureKind.ratingKind, Rating.fixed, hunit,
    hcertificates]

/-- In a reachable store, take an answered live trade for a part that its requester has no
components of and does not state figures for. When the supplier reads a figure of the part in
answer, the requester reads the production figures of that set for its own part, with the unit and
the certificates of the set, and nothing else. When there are no figures of the part in answer, the
requester reads none. -/
theorem ends_agree (hs : Reachable s) (ht : t ∈ s.trades) (hlive : t.isLive)
    (hpart : s.HasPart t.requester t.requesterPart false)
    (hchildless : ¬ s.HasChild t.requesterPart) (hanswer : t.supplierPart = some source) :
    (∀ supplier fs, figuresFor s supplier [source] = .ok fs →
      (∃ f ∈ fs, f.kind = .preProduction) →
      ∃ seen, figuresFor s t.requester [t.requesterPart] = .ok seen ∧
        Mirrors fs seen t.requesterPart) ∧
    (s.hasFigures source = false → figuresFor s t.requester [t.requesterPart] = .ok []) := by
  constructor
  · intro supplier fs hread hpre
    rw [figuresFor_singleton, vector_eq_ok_iff hs] at hread
    obtain ⟨g, derived, rfl, hstated, htotals⟩ := hread.exists_stated hpre
    have hseen : Canonical s t.requester t.requesterPart (responsesOf g t.requesterPart) :=
      .supplied hpart hchildless ht hlive rfl hanswer hstated
    refine ⟨_, figuresFor_singleton.trans (hseen.vector_eq hs), _, _, ?_, ?_,
      responsesOf_eq hstated⟩
    · exact filter_kind_inputs hstated.kind htotals (by decide)
    · exact filter_kind_inputs hstated.kind htotals (by decide)
  · intro hnone
    have hseen : Canonical s t.requester t.requesterPart [] :=
      .unsupplied hpart hchildless ht hlive rfl hanswer hnone
    exact figuresFor_singleton.trans (hseen.vector_eq hs)

/-- Nothing is seen of the sample's request once it is answered, and the numbers once they are
registered. -/
theorem ends_agree_measured :
    figuresFor sampleAnswered ⟨1⟩ [.v4 10] = .ok [] ∧
      ∃ fs seen, figuresFor (measuredRegistration.after sampleAnswered) ⟨2⟩ [.v4 20] = .ok fs ∧
        figuresFor (measuredRegistration.after sampleAnswered) ⟨1⟩ [.v4 10] = .ok seen ∧
        Mirrors fs seen (.v4 10) ∧ ∀ f ∈ fs, f.kind = .preProduction → f.emission = some 1.5 := by
  have hreach : Reachable (measuredRegistration.after sampleAnswered) :=
    reachable_sampleAnswered.call measuredRegistration (by decide +kernel)
  have hcoherent := Coherent.of_reachable hreach
  constructor
  · obtain ⟨t, ht, hlive, hpart, hchildless, hends⟩ : ∃ t ∈ sampleAnswered.trades, t.isLive ∧
        sampleAnswered.HasPart t.requester t.requesterPart false ∧
        ¬ sampleAnswered.HasChild t.requesterPart ∧
        t.supplierPart = some (.v4 20) ∧ t.requester = ⟨1⟩ ∧ t.requesterPart = .v4 10 := by
      decide +kernel
    have hagree := ends_agree reachable_sampleAnswered ht hlive hpart hchildless hends.1
    rw [hends.2.1, hends.2.2] at hagree
    exact hagree.2 (by decide +kernel)
  · obtain ⟨t, ht, hlive, hpart, hchildless, hends⟩ :
        ∃ t ∈ (measuredRegistration.after sampleAnswered).trades, t.isLive ∧
        (measuredRegistration.after sampleAnswered).HasPart t.requester t.requesterPart false ∧
        ¬ (measuredRegistration.after sampleAnswered).HasChild t.requesterPart ∧
        t.supplierPart = some (.v4 20) ∧ t.requester = ⟨1⟩ ∧ t.requesterPart = .v4 10 := by
      decide +kernel
    have hrows : ∀ r ∈ (measuredRegistration.after sampleAnswered).figures,
        r.certificates = "[]" ∧ (r.kind = literal FigureKind.preProduction →
          r.emission = some 1.5) := by decide +kernel
    obtain ⟨set, hset⟩ : ∃ set, storedSet (measuredRegistration.after sampleAnswered) (.v4 20) =
        .ok (some set) :=
      hcoherent.exists_storedSet
        (fun r hr q hq _ _ => (hrows r hr).1.trans (hrows q hq).1.symm) (by decide +kernel)
    obtain ⟨g, hstated, rfl⟩ := (storedSet_eq_some (Submitted.of_reachable hreach)).1 hset
    have hmade : (measuredRegistration.after sampleAnswered).HasPart ⟨2⟩ (.v4 20) true := by
      decide +kernel
    have hread := (Canonical.terminalHead hmade (by decide +kernel) hstated).vector_eq hreach
    rw [← figuresFor_singleton] at hread
    have hpre := hstated.kind .preProduction (by decide)
    have hagree := ends_agree hreach ht hlive hpart hchildless hends.1
    rw [hends.2.1, hends.2.2] at hagree
    obtain ⟨seen, hseen, hmirrors⟩ := hagree.1 _ _ hread
      ⟨g .preProduction, by simp [inputsOf], hpre⟩
    refine ⟨_, _, hread, hseen, hmirrors, fun f hf hkind => ?_⟩
    have hinput : f ∈ inputsOf g := by
      refine (List.mem_append.1 hf).resolve_right fun htotal => ?_
      have hderived := isTotal_of_totalsOf htotal
      rw [hkind] at hderived
      cases hderived
    obtain ⟨r, hr, -, hfigure⟩ := (hcoherent.mem_storedSet hset).1 hinput
    obtain ⟨-, hliteral, -, -, -, -, hemission, -⟩ := FigureRecord.figure_eq_ok.1 hfigure
    exact hemission.trans ((hrows r hr).2 (hkind ▸ hliteral))

end Footprint
