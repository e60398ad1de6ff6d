import Footprint.Proofs.Figure.Shown
import Footprint.Proofs.Trade.Progress
import Mathlib.Data.List.Pairwise

namespace Footprint

open Table Enumerated Exchange

/-- Figures of a supplier reach the operator through the trade on the part `d`: as response figures
of the part, or within the totals of its parent. -/
inductive Delivers (s : Store) (operator d : Uuid) : Prop
  | responses {traces fs f} (read : figuresFor s operator traces = .ok fs) (mem : f ∈ fs)
      (trace : f.trace = d) (response : f.kind.isResponse) (unit : f.unit ≠ none)
  | component {traces fs f a child set} (read : figuresFor s operator traces = .ok fs)
      (mem : f ∈ fs) (total : f.kind.isTotal)
      (assembly : s.assembly? operator f.trace = .ok (some a)) (summed : a.parent.terminal = false)
      (child_mem : child ∈ a.children) (trace : child.trace = d) (imported : child.terminal = false)
      (share : contribution s child = .ok (some set))

/-- The trade that an operation ends without an answer, and how. -/
def Exchange.Operation.ends : Operation → Option (Uuid × Progress)
  | .cancel trade _ => some (trade, .cancelled)
  | .reject trade _ => some (trade, .rejected)
  | _ => none

/-- At some time before, the trade was ended in this way while it was answered with a part that had
no figures. -/
def EndedUnsupplied (s : Store) (trade trace : Uuid) (progress : Progress) : Prop :=
  ∃ before, ∃ c : Call, Reachable before ∧ c.Fresh before ∧ c.Succeeds before ∧
    c.op.ends = some (trade, progress) ∧
    (∃ t ∈ before.trades, t.id = trade ∧ t.isLive ∧ t.supplierPart = some trace) ∧
    before.hasFigures trace = false ∧ Leads (c.after before) s

/-- And after that figures were registered for the part. -/
def SuppliedAfterEnd (s : Store) (trade trace : Uuid) (progress : Progress) : Prop :=
  ∃ later, ∃ c : Call, EndedUnsupplied later trade trace progress ∧ c.Fresh later ∧
    c.Succeeds later ∧ c.op.registers = some trace ∧ Leads (c.after later) s

theorem Exchange.Operation.registers_of_ends {op : Operation} {e : Uuid × Progress}
    (h : op.ends = some e) : op.registers = none := by
  cases op with
  | cancel => rfl
  | reject => rfl
  | _ => cases h

variable {limits : TextLimits} {now : Instant} {caller : Uuid} {s s' : Store} {op : Operation}
variable {reply : Reply} {p p' : TradeRecord × StatusRecord} {trade trace operator d : Uuid}
variable {progress : Progress}

theorem supplied_of_delivers (h : Coherent s) (hd : Delivers s operator d) :
    ∃ set, suppliedSet s d = .ok (some set) := by
  cases hd with
  | component _ _ _ _ _ _ htrace himported hshare =>
    rw [contribution, himported, htrace] at hshare
    exact ⟨_, hshare⟩
  | @responses traces fs f hread hmem htrace hresponse hunit =>
    obtain ⟨_, -, p, v, -, hshown, hf⟩ := shown_of_figuresFor hread hmem
    -- Stored figures are of input kinds, so only a supplier's are left.
    have hstored {set : FigureSet} (hset : storedSet s p.trace = .ok (some set)) :
        f ∉ set.figures := by
      intro hf
      have hinput := (FigureKind.isInput_iff _).2 (h.input_of_storedSet hset hf).1
      simp [FigureKind.isInput, hresponse] at hinput
    have htotalled {set : FigureSet} {components : Components}
        (hset : storedSet s p.trace = .ok (some set)) : f ∉ totalled set components := by
      intro hf
      rcases kind_of_totalled hf with hf | ⟨htotal, -⟩
      · exact hstored hset hf
      · cases hkind : f.kind <;> simp [hkind, FigureKind.isTotal, FigureKind.isResponse] at *
    cases hshown with
    | terminal _ hset =>
      split at hf
      · exact absurd hf (htotalled hset)
      · exact absurd hf (hstored hset)
    | blank => exact absurd (kind_of_blankResponses hf).2.2 hunit
    | supplied _ hset =>
      rw [(kind_of_responses hf).2.1] at htrace
      rw [← htrace]
      exact ⟨_, hset⟩
    | parent _ hset _ => exact absurd hf (htotalled hset)

theorem trade_of_supplied (h : Coherent s) {set : FigureSet}
    (hset : suppliedSet s d = .ok (some set)) :
    ∃ t ∈ s.trades, t.isLive ∧ t.requesterPart = d ∧
      ∃ trace, t.supplierPart = some trace ∧ s.hasFigures trace := by
  obtain ⟨_, part, hrequest, hpart, hset⟩ := suppliedSet_eq_some hset
  obtain ⟨t, ht, htrace, hlive, rfl⟩ := Store.requestFor?_eq_some hrequest
  exact ⟨t, ht, hlive, htrace, part, hpart, (h.isSome_of_storedSet hset).symm⟩

/-- Live trades are for different parts. -/
theorem pairwise_requesterPart (h : Reachable s) :
    s.trades.Pairwise fun t q => t.isLive → q.isLive → t.requesterPart ≠ q.requesterPart := by
  refine h.induct (P := fun s => s.trades.Pairwise fun t q => t.isLive → q.isLive →
    t.requesterPart ≠ q.requesterPart) List.Pairwise.nil ?_
  intro s s' reply c hs _ ih haccepted
  have hpaired := Store.Paired.of_reachable hs
  cases evolves_of_accepted hpaired haccepted with
  | moved f g htrades _ hmoves =>
    have hback {t : TradeRecord} (ht : t ∈ s.trades) :
        ((f t).isLive → t.isLive) ∧ (f t).requesterPart = t.requesterPart := by
      obtain ⟨r, hp⟩ := hpaired.exists_status ht
      exact ⟨(hmoves _ hp).live, (hmoves _ hp).requesterPart⟩
    rw [htrades, List.pairwise_map]
    refine ih.imp_of_mem fun ht hq hother hlive hlive' => ?_
    rw [(hback ht).2, (hback hq).2]
    exact hother ((hback ht).1 hlive) ((hback hq).1 hlive')
  | opened _ htrades _ _ _ hrequestable =>
    rw [htrades, List.pairwise_append]
    refine ⟨ih, List.pairwise_singleton _ _, fun t ht q hq hlive _ => ?_⟩
    rw [List.mem_singleton.1 hq]
    exact Store.requestFor?_eq_none.1 hrequestable.first t ht hlive

theorem eq_of_requesterPart (h : Reachable s) {t q : TradeRecord} (ht : t ∈ s.trades)
    (hq : q ∈ s.trades) (hlive : t.isLive) (hlive' : q.isLive)
    (hpart : t.requesterPart = q.requesterPart) : t = q := by
  by_contra hne
  have : Std.Symm fun t q : TradeRecord =>
      t.isLive → q.isLive → t.requesterPart ≠ q.requesterPart :=
    ⟨fun _ _ hother hlive hlive' hpart => hother hlive' hlive hpart.symm⟩
  exact (pairwise_requesterPart h).forall ht hq hne hlive hlive' hpart

theorem requestFor?_of_mem (h : Reachable s) {t : TradeRecord} (ht : t ∈ s.trades)
    (hlive : t.isLive) (hpart : t.requesterPart = d) : s.requestFor? d = some t.trade := by
  have hfind : s.trades.find? (fun r => r.requesterPart = d && r.isLive) = some t := by
    refine find?_of_unique ht (by simp [hpart, hlive]) fun q hq hfound => ?_
    simp only [Bool.and_eq_true, decide_eq_true_eq] at hfound
    exact eq_of_requesterPart h hq ht hfound.2 hlive (hfound.1.trans hpart.symm)
  rw [Store.requestFor?, hfind, Option.map_some]

theorem EndedUnsupplied.call (h : EndedUnsupplied s trade trace progress) (c : Call)
    (hfresh : c.Fresh s) : EndedUnsupplied (c.after s) trade trace progress := by
  obtain ⟨before, ending, hbefore, hfresh', hsucceeds, hends, ht, hblank, hleads⟩ := h
  exact ⟨before, ending, hbefore, hfresh', hsucceeds, hends, ht, hblank, hleads.call c hfresh⟩

theorem SuppliedAfterEnd.call (h : SuppliedAfterEnd s trade trace progress) (c : Call)
    (hfresh : c.Fresh s) : SuppliedAfterEnd (c.after s) trade trace progress := by
  obtain ⟨later, registration, hended, hfresh', hsucceeds, hregisters, hleads⟩ := h
  exact ⟨later, registration, hended, hfresh', hsucceeds, hregisters, hleads.call c hfresh⟩

/-- A status that is neither pending nor completed was there before, or an operation ended the
request. -/
theorem Transition.closed (h : Transition now caller s op p p') (hlive : p'.1.isLive)
    {status : Status} (hread : p'.2.status = .ok status) (hpending : status.progress ≠ .pending)
    (hcompleted : status.progress ≠ .completed) :
    p' = p ∨ p.2.isPending ∧ p'.1 = p.1 ∧ op.ends = some (p.1.id, status.progress) := by
  have hprogress {progress : Progress} (h : p'.2.progress = literal progress) :
      status.progress = progress :=
    literal_injective _ _ ((StatusRecord.status_eq_ok.1 hread).1.symm.trans h)
  cases h with
  | unchanged => exact Or.inl rfl
  | readdressed _ _ hopen =>
    exact absurd (hprogress (StatusRecord.isPending_iff.1 hopen).1) hpending
  | answered _ _ _ houtcome =>
    have hgiven := (hprogress rfl).trans houtcome
    split at hgiven
    · exact absurd hgiven hcompleted
    · exact absurd hgiven hpending
  | completed => exact absurd (hprogress rfl) hcompleted
  | cancelled hnamed _ hopen =>
    rw [hprogress rfl, hnamed]
    exact Or.inr ⟨hopen, rfl, rfl⟩
  | rejected hnamed _ hopen =>
    rw [hprogress rfl, hnamed]
    exact Or.inr ⟨hopen, rfl, rfl⟩
  | deleted => cases hlive

/-- A request that was ended after its answer had no figures then; if there are any now, they were
registered later. -/
theorem ended_of_closed (h : Reachable s) : ∀ p ∈ s.pairs, p.1.isLive → ∀ trace,
    p.1.supplierPart = some trace → ∀ status, p.2.status = .ok status →
    status.progress ≠ .pending → status.progress ≠ .completed →
    EndedUnsupplied s p.1.id trace status.progress ∧
      (s.hasFigures trace → SuppliedAfterEnd s p.1.id trace status.progress) := by
  refine h.induct_after (P := fun s => ∀ p ∈ s.pairs, p.1.isLive → ∀ trace,
    p.1.supplierPart = some trace → ∀ status, p.2.status = .ok status →
    status.progress ≠ .pending → status.progress ≠ .completed →
    EndedUnsupplied s p.1.id trace status.progress ∧
      (s.hasFigures trace → SuppliedAfterEnd s p.1.id trace status.progress)) ?_ ?_
  · simp [Store.pairs, Store.empty]
  intro s reply c hs hfresh hsucceeds ih haccepted p' hp' hlive' trace hpart status hread hpending
    hcompleted
  obtain ⟨hpaired, hsound⟩ := AllSound.of_reachable hs
  rcases (evolves_of_accepted hpaired haccepted).prior hpaired hp' with
    ⟨p, hp, hmove⟩ | ⟨_, _, _, -, rfl⟩
  · rcases hmove.closed hlive' hread hpending hcompleted with rfl | ⟨hopen, hsame, hends⟩
    · -- It was closed before, and registrations for its answer may come.
      obtain ⟨hended, hsupplied⟩ := ih p' hp hlive' trace hpart status hread hpending hcompleted
      refine ⟨hended.call c hfresh, fun hfigures => ?_⟩
      rcases hasFigures_new haccepted hfigures with hregisters | hfigures
      · exact ⟨s, c, hended, hfresh, hsucceeds, hregisters, .refl⟩
      · exact (hsupplied hfigures).call c hfresh
    · -- It was pending, so its answer had no figures, and ending it brings none.
      rw [hsame] at hlive' hpart ⊢
      have hblank : s.hasFigures trace = false := by
        obtain ⟨old, hold, hpair⟩ := hsound p hp hlive'
        have hwas : old.progress = .pending :=
          literal_injective _ _ ((StatusRecord.status_eq_ok.1 hold).1.symm.trans
            (StatusRecord.isPending_iff.1 hopen).1)
        exact hpair.pending hwas trace hpart
      have hstill : (c.after s).hasFigures trace = false := by
        by_contra hfigures
        rcases hasFigures_new haccepted (by simpa using hfigures) with hregisters | hfigures
        · cases (Operation.registers_of_ends hends).symm.trans hregisters
        · rw [hblank] at hfigures
          cases hfigures
      refine ⟨⟨s, c, hs, hfresh, hsucceeds, hends, ⟨p.1, Store.fst_mem_of_pairs hp, rfl, hlive',
        hpart⟩, hblank, .refl⟩, fun hfigures => ?_⟩
      rw [hstill] at hfigures
      cases hfigures
  · exact absurd (literal_injective _ _ (StatusRecord.status_eq_ok.1 hread).1.symm) hpending

/-- In a reachable store, figures of a supplier reach the requester only through the one live trade
on the part. Its request is completed, or it was cancelled or rejected after it had been answered
with a part without figures, and figures were registered for that part later. It is not pending. -/
theorem delivers_only (hs : Reachable s) (h : Delivers s operator d) :
    ∃ t ∈ s.trades, t.isLive ∧ t.requesterPart = d ∧
      (∀ q ∈ s.trades, q.isLive → q.requesterPart = d → q = t) ∧
      ∃ status trace, s.statusOf? t.id = .ok (some status) ∧ t.supplierPart = some trace ∧
        (status.progress = .completed ∨
          (status.progress = .cancelled ∨ status.progress = .rejected) ∧
            SuppliedAfterEnd s t.id trace status.progress) := by
  have hcoherent := Coherent.of_reachable hs
  obtain ⟨set, hset⟩ := supplied_of_delivers hcoherent h
  obtain ⟨t, ht, hlive, hpart, trace, hanswer, hfigures⟩ := trade_of_supplied hcoherent hset
  obtain ⟨hpaired, hsound⟩ := AllSound.of_reachable hs
  obtain ⟨r, hp⟩ := hpaired.exists_status ht
  obtain ⟨status, hread, hpair⟩ := hsound _ hp hlive
  refine ⟨t, ht, hlive, hpart, ?_, status, trace, hpaired.statusOf?_eq hp hlive hread, hanswer, ?_⟩
  · exact fun q hq hlive' hpart' =>
      eq_of_requesterPart hs hq ht hlive' hlive (hpart'.trans hpart.symm)
  have hsupplied (hpending : status.progress ≠ .pending)
      (hcompleted : status.progress ≠ .completed) :
      SuppliedAfterEnd s t.id trace status.progress :=
    (ended_of_closed hs _ hp hlive trace hanswer status hread hpending hcompleted).2 hfigures
  cases hprogress : status.progress with
  | pending =>
    have hblank := hpair.pending hprogress trace hanswer
    rw [hfigures] at hblank
    cases hblank
  | completed => exact Or.inl rfl
  | cancelled =>
    rw [hprogress] at hsupplied
    exact Or.inr ⟨Or.inl rfl, hsupplied nofun nofun⟩
  | rejected =>
    rw [hprogress] at hsupplied
    exact Or.inr ⟨Or.inr rfl, hsupplied nofun nofun⟩

/-- The figures of the answer are delivered whatever the status of the request says. -/
theorem delivers_of_answered (part : Part) (t : Trade) (h : Coherent s)
    (hpart : s.part? operator d = .ok (some part)) (hclass : classOf s part = .ok .imported)
    (hrequest : s.requestFor? d = some t) (hanswer : t.supplierPart = some trace)
    (hsame : SameCertificates s trace) (hfigures : s.hasFigures trace) :
    Delivers s operator d := by
  obtain ⟨set, hset⟩ := h.exists_storedSet hsame hfigures
  have hunit := (h.input_of_storedSet hset set.driver_mem).2
  have hsupplied : suppliedSet s d = .ok (some set) := by
    simp [suppliedSet, hrequest, hanswer, hset]
  have hread : figuresFor s operator [d] = .ok (responses set d) := by
    obtain ⟨rfl, -⟩ := trace_of_part? hpart
    rw [figuresFor_singleton, vector_eq hpart, partFigures?_imported hclass, hrequest,
      if_neg (Option.some_ne_none t), hsupplied]
    rfl
  refine .responses (f := responseFigure set d .preProduction .preProductionResponse) hread ?_ rfl
    rfl (Option.isSome_iff_ne_none.1 hunit)
  simp [responses, FigureKind.response?]

/-- The completed request of the sample. -/
theorem delivers_only_sample :
    Delivers (sampleRegistration.after sampleAnswered) ⟨1⟩ (.v4 10) ∧
      ∃ t ∈ (sampleRegistration.after sampleAnswered).trades, t.requesterPart = .v4 10 ∧
        ∃ status, (sampleRegistration.after sampleAnswered).statusOf? t.id = .ok (some status) ∧
          status.progress = .completed := by
  have hsame : ∀ r ∈ (sampleRegistration.after sampleAnswered).figures,
      ∀ q ∈ (sampleRegistration.after sampleAnswered).figures,
        r.certificates = q.certificates := by decide +kernel
  have hdelivers : Delivers (sampleRegistration.after sampleAnswered) ⟨1⟩ (.v4 10) :=
    delivers_of_answered samplePart ⟨.v4 30, ⟨1⟩, ⟨2⟩, .v4 10, some (.v4 20)⟩
      (Coherent.of_reachable reachable_sampleRegistration) (by decide +kernel) (by decide +kernel)
      (by decide +kernel) rfl (fun r hr q hq _ _ => hsame r hr q hq) (by decide +kernel)
  refine ⟨hdelivers, ?_⟩
  obtain ⟨t, ht, -, hpart, -, status, trace, hstatus, -, hprogress⟩ :=
    delivers_only reachable_sampleRegistration hdelivers
  refine ⟨t, ht, hpart, status, hstatus, ?_⟩
  have hrows : ∀ r ∈ (sampleRegistration.after sampleAnswered).statuses,
      r.progress = literal Progress.completed := by decide +kernel
  obtain ⟨r, hr, -, -, hread⟩ := Store.statusOf?_eq_some hstatus
  exact literal_injective _ _ ((StatusRecord.status_eq_ok.1 hread).1.symm.trans (hrows r hr))

/-- The requester of the sample withdraws its request before the supplier registers figures. -/
def withdrawnCalls : List Call :=
  [sampleCall ⟨1⟩ (.cancel (.v4 30) none), sampleRegistration]

/-- The figures are delivered all the same. -/
theorem delivers_withdrawn :
    Reachable (runAll withdrawnCalls sampleAnswered) ∧
      Delivers (runAll withdrawnCalls sampleAnswered) ⟨1⟩ (.v4 10) ∧
      ∃ status, (runAll withdrawnCalls sampleAnswered).statusOf? (.v4 30) = .ok (some status) ∧
        status.progress = .cancelled := by
  have hreach : Reachable (runAll withdrawnCalls sampleAnswered) :=
    reachable_sampleAnswered.calls (by decide +kernel)
  have hsame : ∀ r ∈ (runAll withdrawnCalls sampleAnswered).figures,
      ∀ q ∈ (runAll withdrawnCalls sampleAnswered).figures,
        r.certificates = q.certificates := by decide +kernel
  refine ⟨hreach, ?_, ?_⟩
  · exact delivers_of_answered samplePart ⟨.v4 30, ⟨1⟩, ⟨2⟩, .v4 10, some (.v4 20)⟩
      (Coherent.of_reachable hreach) (by decide +kernel) (by decide +kernel) (by decide +kernel) rfl
      (fun r hr q hq _ _ => hsame r hr q hq) (by decide +kernel)
  · refine ⟨⟨.v4 31, .v4 30, .cancelled, .terminated, none, none, .footprint, "2024-04-01", 0, 0,
      ⟨0, 0⟩⟩, ?_, rfl⟩
    decide +kernel

end Footprint
