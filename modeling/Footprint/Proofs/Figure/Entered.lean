import Footprint.Proofs.Exchange.History
import Footprint.Proofs.Exchange.Lineage
import Footprint.Proofs.Figure.Submitted

namespace Footprint

open Table Enumerated Exchange

/-- Whether a live part has the trace. -/
def Store.hasLivePart (s : Store) (trace : Uuid) : Bool :=
  s.parts.any fun r => r.trace = trace && r.isLive

namespace Exchange.Step

/-- The set that a step puts for a part, with the identifier that is returned for it. -/
def puts (trace : Uuid) (e : Step) : Option (Uuid × List Figure) :=
  match e.call.op, e.reply with
  | .putFigures _ fs, .setId id =>
    if fs.head?.map (·.trace) = some trace then some (id, fs) else none
  | _, _ => none

/-- The certificates that a step attaches to the figures of a part. -/
def certifies (trace : Uuid) (e : Step) : Option (List String) :=
  match e.call.op with
  | .certify part certificates => if part = trace then some certificates else none
  | _ => none

/-- Whether a part is live before a step and no more after it. -/
def removes (trace : Uuid) (e : Step) : Bool :=
  e.before.hasLivePart trace && !e.after.hasLivePart trace

end Exchange.Step

/-- What a step does to the rows of a part that it does not remove. -/
inductive Entered (trace : Uuid) (e : Step) : Prop
  | other (puts : e.puts trace = none) (certifies : e.certifies trace = none)
      (rows : ∀ r, r.trace = trace → (r ∈ e.after.figures ↔ r ∈ e.before.figures))
  | registered {id : Uuid} {fs : List Figure} (puts : e.puts trace = some (id, fs))
      (certifies : e.certifies trace = none) (rules : Rules.figures fs = [])
      (blank : e.before.hasFigures trace = false) (holds : e.after.Holds trace fs)
      (rows : ∀ r ∈ e.after.figures, r.trace = trace →
        ∃ f ∈ fs, r = FigureRecord.ofFigure e.call.now id f)
  | revised {id : Uuid} {fs : List Figure} {change : FigureRecord → FigureRecord}
      (puts : e.puts trace = some (id, fs)) (certifies : e.certifies trace = none)
      (rules : Rules.figures fs = []) (present : e.before.hasFigures trace)
      (figures : e.after.figures = e.before.figures.map change)
      (place : ∀ r, (change r).place = r.place)
      (carried : ∀ r ∈ e.before.figures, r.trace = trace → ∃ f ∈ fs, (change r).Carries f)
  | certified {certificates : List String} (puts : e.puts trace = none)
      (certifies : e.certifies trace = some certificates) (present : e.before.hasFigures trace)
      (written : e.after = e.before.certify e.call.now trace certificates)

variable {now : Instant} {s s' : Store} {trace : Uuid}

theorem Store.hasLivePart_iff :
    s.hasLivePart trace ↔ ∃ r ∈ s.parts, r.trace = trace ∧ r.isLive := by
  simp [hasLivePart]

theorem hasFigures_of_removed (hs : Reachable s) (h : s.hasLivePart trace = false) :
    s.hasFigures trace = false := by
  rw [← Bool.not_eq_true] at h ⊢
  exact fun hhas => h (Store.hasLivePart_iff.2 (live_part_of_figures hs hhas))

/-- When parts are dropped, the figures of those that stay live stay too. -/
theorem mem_figures_of_dropped {removed : List Uuid} (hs : Reachable s)
    (hfigures : s'.figures = deleteWhere (fun r => removed.contains r.trace) s.figures)
    (hgone : trace ∈ removed → ¬ ∃ r ∈ s'.parts, r.trace = trace ∧ r.isLive)
    (hkept : (s.hasLivePart trace && !s'.hasLivePart trace) = false) (r : FigureRecord)
    (hr : r.trace = trace) : r ∈ s'.figures ↔ r ∈ s.figures := by
  rw [hfigures, mem_deleteWhere, and_iff_left_iff_imp]
  intro hmem
  have hpart : s.hasLivePart trace :=
    Store.hasLivePart_iff.2 (live_part_of_figures hs (Store.hasFigures_iff.2 ⟨r, hmem, hr⟩))
  rw [hpart, Bool.true_and, Bool.not_eq_false'] at hkept
  rw [List.contains_eq_mem, decide_eq_false_iff_not, hr]
  exact fun hremoved => hgone hremoved (Store.hasLivePart_iff.1 hkept)

/-- A revision keeps to the part that its figures name. -/
theorem entered_of_revised {c : Call} {setId id : Uuid} {fs revised : List Figure} {first : Figure}
    (hcoherent : Coherent s) (hop : c.op = .putFigures id fs) (hrules : Rules.figures fs = [])
    (hfirst : fs.head? = some first) (hrevised : fs.mapM (revisedFigure s setId) = .ok revised)
    (hwritten : s.reviseFigures c.now revised = .ok s') :
    Entered trace ⟨c, .setId setId, s, s'⟩ := by
  obtain ⟨change, rfl, hplace, hother, hset⟩ := revised_rows hcoherent hrules hrevised hwritten
  obtain ⟨f', -, hread⟩ := (mem_of_mapM_eq_ok hrevised).1 first (List.mem_of_mem_head? hfirst)
  obtain ⟨-, -, -, -, -, -, r₀, hr₀, hset₀, htrace₀⟩ := revisedFigure_eq_ok hread
  by_cases hhere : first.trace = trace
  · have hputs : (⟨c, .setId setId, s, { s with figures := s.figures.map change }⟩ : Step).puts
        trace = some (setId, fs) := by simp [Step.puts, hop, hfirst, hhere]
    refine .revised hputs ?_ hrules ?_ rfl hplace fun r hr htrace => ?_
    · simp [Step.certifies, hop]
    · exact Store.hasFigures_iff.2 ⟨r₀, hr₀, htrace₀.trans hhere⟩
    · have hsame := hcoherent.sets r hr r₀ hr₀ (htrace.trans (htrace₀.trans hhere).symm)
      exact hset r hr (hsame.1.trans hset₀)
  · have hself (r : FigureRecord) (hr : r ∈ s.figures) (htrace : r.trace = trace) :
        change r = r := by
      refine hother r hr fun hsame => hhere ?_
      rw [← htrace₀, ← htrace]
      exact hcoherent.traces r₀ hr₀ r hr (hset₀.trans hsame.symm)
    refine .other ?_ ?_ fun r htrace => ⟨fun hr => ?_, fun hr => ?_⟩
    · simp [Step.puts, hop, hfirst, hhere]
    · simp [Step.certifies, hop]
    · obtain ⟨q, hq, rfl⟩ := List.mem_map.1 hr
      rwa [hself q hq ((FigureRecord.place_eq_iff.1 (hplace q)).2.1.symm.trans htrace)]
    · exact List.mem_map.2 ⟨r, hr, hself r hr htrace⟩

/-- A registration adds rows for the part that its figures name. -/
theorem entered_of_registered {c : Call} {id : Uuid} {fs : List Figure} {first : Figure}
    (hop : c.op = .putFigures id fs) (hrules : Rules.figures fs = [])
    (hfirst : fs.head? = some first) (hblank : s.hasFigures first.trace = false)
    (hfigures : s'.figures = s.figures ++ fs.map (FigureRecord.ofFigure c.now id)) :
    Entered trace ⟨c, .setId id, s, s'⟩ := by
  by_cases hhere : first.trace = trace
  · subst hhere
    have hputs : (⟨c, .setId id, s, s'⟩ : Step).puts first.trace = some (id, fs) := by
      simp [Step.puts, hop, hfirst]
    refine .registered hputs ?_ hrules hblank (holds_of_registered hrules hfirst hblank hfigures)
      fun r hr htrace => row_of_registered hblank hfigures hr htrace
    simp [Step.certifies, hop]
  · refine .other ?_ ?_ (mem_registered hrules hfirst hfigures hhere)
    · simp [Step.puts, hop, hfirst, hhere]
    · simp [Step.certifies, hop]

theorem entered_of_certified {c : Call} {part : Uuid} {certificates : List String} {reply : Reply}
    (hop : c.op = .certify part certificates) (hpresent : s.hasFigures part) :
    Entered trace ⟨c, reply, s, s.certify c.now part certificates⟩ := by
  by_cases hhere : part = trace
  · subst hhere
    have hcertifies : (⟨c, reply, s, s.certify c.now part certificates⟩ : Step).certifies part =
        some certificates := by simp [Step.certifies, hop]
    refine .certified ?_ hcertifies hpresent rfl
    simp [Step.puts, hop]
  · refine .other ?_ ?_ fun r htrace => ?_
    · simp [Step.puts, hop]
    · simp [Step.certifies, hop, hhere]
    · have hother : r.trace ≠ part := fun hpart => hhere (hpart.symm.trans htrace)
      rw [Store.certify, mem_updateWhere, or_iff_left, and_iff_left (decide_eq_false hother)]
      rintro ⟨q, -, hq, rfl⟩
      exact hother (of_decide_eq_true hq)

/-- A step that does not remove the part leaves its rows alone, or it registers, revises or
certifies the set of the part as a whole. -/
theorem entered_of_accepted {c : Call} {reply : Reply} (hs : Reachable s) (hfresh : c.Fresh s)
    (h : Accepted c.limits c.now c.caller s c.op reply s')
    (hkept : (⟨c, reply, s, s'⟩ : Step).removes trace = false) :
    Entered trace ⟨c, reply, s, s'⟩ := by
  obtain ⟨limits, now, caller, op⟩ := c
  have haccepted := h
  have hsame {op : Operation} {reply : Reply} {s' : Store}
      (hputs : (⟨⟨limits, now, caller, op⟩, reply, s, s'⟩ : Step).puts trace = none)
      (hcertifies : (⟨⟨limits, now, caller, op⟩, reply, s, s'⟩ : Step).certifies trace = none)
      (hfigures : s'.figures = s.figures) :
      Entered trace ⟨⟨limits, now, caller, op⟩, reply, s, s'⟩ :=
    .other hputs hcertifies fun r _ => by rw [hfigures]
  cases h with
  | putAssembly =>
    obtain ⟨a, removed, hdrafted, hwritten⟩ := drafted_of_accepted haccepted
    obtain ⟨-, -, hfigures, -⟩ := Store.putAssembly_eq_ok hwritten
    exact .other rfl rfl (mem_figures_of_dropped hs hfigures (hdrafted.not_live_of_removed
      (Arranged.of_reachable hs) (Rooted.of_reachable hs) hfresh hwritten) hkept)
  | removeAssembly =>
    exact .other rfl rfl (mem_figures_of_dropped hs rfl
      (fun hremoved hlive => (live_dropParts.1 hlive).2 hremoved) hkept)
  | registerFigures hrules hfirst _ _ hblank =>
    exact entered_of_registered rfl hrules hfirst hblank rfl
  | reviseFigures hrules hfirst _ _ hfound hwritten =>
    exact entered_of_revised (Coherent.of_reachable hs) rfl hrules hfirst hfound hwritten
  | certify _ _ hpresent => exact entered_of_certified rfl hpresent
  | openRequest => exact hsame rfl rfl rfl
  | reviseRequest _ _ _ _ _ _ _ _ hwritten =>
    obtain ⟨-, rfl⟩ := Store.reviseWith_eq_ok.1 hwritten
    exact hsame rfl rfl rfl
  | answer _ _ _ _ _ _ hwritten => exact hsame rfl rfl (figures_of_answer haccepted)
  | cancel _ _ _ _ _ hwritten =>
    obtain ⟨-, rfl⟩ := Store.endRequest_eq_ok.1 hwritten
    exact hsame rfl rfl rfl
  | reject _ _ _ _ _ hwritten =>
    obtain ⟨-, rfl⟩ := Store.endRequest_eq_ok.1 hwritten
    exact hsame rfl rfl rfl
  | deleteTrade => exact hsame rfl rfl rfl

end Footprint
