import Footprint.Proofs.Exchange.Estate
import Footprint.Proofs.Part.Forest

namespace Footprint

open Table Exchange

/-- Whether the part is live and the operator's. -/
def Store.holds (s : Store) (operator trace : Uuid) : Bool :=
  s.parts.any fun r => r.trace = trace && r.operator = operator && r.isLive

/-- Whether the operator is on neither side of the trade. -/
def TradeRecord.isForeign (operator : Uuid) (t : TradeRecord) : Bool :=
  t.requester ≠ operator && t.supplier ≠ operator

/-- Whether the trade is answered with a live part of the operator. -/
def TradeRecord.isAnsweredBy (s : Store) (operator : Uuid) (t : TradeRecord) : Bool :=
  t.supplierPart.any (s.holds operator)

/-- Whether the status is that of a trade which the operator neither takes part in nor has a part
in. -/
def StatusRecord.isForeign (s : Store) (operator : Uuid) (r : StatusRecord) : Bool :=
  s.trades.any fun t => t.id = r.trade && t.isForeign operator && !t.isAnsweredBy s operator

/-- The rows of an operator, and all rows of trades between others, that a caller leaves alone:
none is changed, dropped or added. -/
structure Isolated (s s' : Store) (caller operator : Uuid) : Prop where
  parts : s'.parts.filter (·.operator = operator) = s.parts.filter (·.operator = operator)
  placements : s'.placements.filter (s.owns operator ·.trace) =
    s.placements.filter (s.owns operator ·.trace)
  figures : s'.figures.filter (s.owns operator ·.trace) =
    s.figures.filter (s.owns operator ·.trace)
  trades : s'.trades.filter (·.isForeign caller) = s.trades.filter (·.isForeign caller)
  statuses : s'.statuses.filter (·.isForeign s caller) = s.statuses.filter (·.isForeign s caller)

/-- The caller has no share in the live requests of the operator. -/
def Independent (s : Store) (caller operator : Uuid) : Prop :=
  ∀ t ∈ s.trades, t.isLive → t.requester = operator →
    t.supplier ≠ caller ∧ t.isAnsweredBy s caller = false

/-- The operator sees the same parts, assemblies and figures, for all arguments. -/
structure SameViews (s s' : Store) (operator : Uuid) : Prop where
  part : ∀ trace, s'.part? operator trace = s.part? operator trace
  assembly : ∀ parent, s'.assembly? operator parent = s.assembly? operator parent
  figures : ∀ traces, figuresFor s' operator traces = figuresFor s operator traces

variable {limits : TextLimits} {now : Instant} {caller operator parent trace : Uuid}
variable {s s' : Store} {op : Operation} {reply : Reply} {c : Call} {p : Part}

theorem part?_of_hidden (h : s.holds caller trace = false) : s.part? caller trace = .ok none := by
  refine readOptional_eq_ok_none.2 (List.find?_eq_none.2 fun r hr hfound => ?_)
  exact List.any_eq_false.1 h r hr hfound

theorem Store.holds_iff : s.holds caller trace ↔
    ∃ r ∈ s.parts, r.trace = trace ∧ r.operator = caller ∧ r.isLive := by
  simp [Store.holds, and_assoc]

theorem Store.holds_of_part? (h : s.part? caller trace = .ok (some p)) : s.holds caller trace := by
  obtain ⟨r, hr, htrace, hoperator, hlive, -⟩ := Store.part?_eq_some h
  exact Store.holds_iff.2 ⟨r, hr, htrace, hoperator, hlive⟩

/-- A live part of the caller can be read, with its flag. -/
theorem exists_part_of_holds (hs : Reachable s) (hholds : s.holds caller trace) :
    ∃ r ∈ s.parts, r.trace = trace ∧ r.isLive ∧
      ∃ part, s.part? caller trace = .ok (some part) ∧ part.terminal = r.terminal := by
  obtain ⟨r, hr, rfl, rfl, hlive⟩ := Store.holds_iff.1 hholds
  obtain ⟨part, hread⟩ := ((Coherent.of_reachable hs).parts r hr).exists_part
  obtain ⟨-, -, -, -, -, hterminal, -⟩ := PartRecord.part_eq_ok.1 hread
  exact ⟨r, hr, rfl, hlive, part, part?_of_mem hs hr hlive hread, hterminal⟩

theorem Store.owns_of_holds (h : s.holds caller trace) : s.owns caller trace := by
  obtain ⟨r, hr, hfound⟩ := List.any_eq_true.1 h
  exact List.any_eq_true.2 ⟨r, hr, (Bool.and_eq_true_iff.1 hfound).1⟩

theorem holds_of_assembly (hs : Reachable s) {a : Assembly}
    (h : s.assembly? caller parent = .ok (some a)) : ∀ trace ∈ a.traces, s.holds caller trace := by
  intro trace htrace
  obtain ⟨p, hp, rfl⟩ := List.mem_map.1 htrace
  rcases List.mem_cons.1 hp with rfl | hp
  · have hpart := (assembly?_eq_some h).1
    rw [← (trace_of_part? hpart).1] at hpart
    exact Store.holds_of_part? hpart
  · exact Store.holds_of_part? (child_of_assembly hs h hp).1

theorem holds_of_dropped (hs : Reachable s) {existing : Option Assembly} {children : List Part}
    (h : s.assembly? caller parent = .ok existing) :
    ∀ trace ∈ droppedTraces existing children, s.holds caller trace := by
  intro trace htrace
  cases existing with
  | none => cases htrace
  | some a =>
    exact holds_of_assembly hs h trace
      (List.mem_cons_of_mem _ (List.mem_of_mem_filter htrace))

theorem Drawn.not_owns (hs : Reachable s) (h : Drawn s caller p) (hother : operator ≠ caller) :
    s.owns operator p.trace = false := by
  rcases h.2 with ⟨-, hnew⟩ | ⟨part, hpart⟩
  · rw [Bool.eq_false_iff]
    intro howns
    obtain ⟨r, hr, htrace, -⟩ := Store.owns_iff.1 howns
    exact hnew r hr htrace
  · exact not_owns_of_owns hs (Store.owns_of_part? hpart) hother

theorem filter_dropParts {author : Uuid} {removed : List Uuid}
    (h : ∀ trace ∈ removed, s.owns operator trace = false) :
    (s.dropParts now author removed).parts.filter (·.operator = operator) =
      s.parts.filter (·.operator = operator) := by
  refine filter_updateWhere_eq fun r hr hselected => ?_
  have hother : r.operator ≠ operator := by
    intro hoperator
    have howns : s.owns operator r.trace := Store.owns_iff.2 ⟨r, hr, rfl, hoperator⟩
    rw [h r.trace (List.contains_iff_mem.1 hselected)] at howns
    cases howns
  exact ⟨decide_eq_false hother, decide_eq_false hother⟩

theorem parts_of_others (hs : Reachable s) (hfresh : c.Fresh s) (hother : operator ≠ c.caller)
    (h : Accepted c.limits c.now c.caller s c.op reply s') :
    s'.parts.filter (·.operator = operator) = s.parts.filter (·.operator = operator) := by
  cases assemblyChange_of_accepted h with
  | kept hparts _ => rw [hparts]
  | removed hpresent hwritten =>
    rw [hwritten]
    refine filter_dropParts fun trace htrace => ?_
    exact not_owns_of_owns hs (Store.owns_of_holds (holds_of_assembly hs hpresent trace htrace))
      hother
  | @stored a removed hdrafted hwritten =>
    obtain ⟨-, -, -, hparts, -⟩ := Store.putAssembly_eq_ok hwritten
    obtain ⟨existing, hexisting, rfl⟩ := hdrafted.dropped
    rw [hparts, filter_writeParts (fun _ _ _ => rfl), filter_dropParts]
    · intro trace htrace
      exact not_owns_of_owns hs
        (Store.owns_of_holds (holds_of_dropped hs hexisting trace htrace)) hother
    · intro p hp
      have hdrawn := hdrafted.drawn hfresh hp
      have hcaller : p.operator ≠ operator := hdrawn.1 ▸ hother.symm
      refine ⟨decide_eq_false hcaller, fun r hr htrace => decide_eq_false fun hoperator => ?_⟩
      have howner : r.owner ∈ s.parts.map PartRecord.owner := by
        rw [← owners_dropParts]
        exact List.mem_map_of_mem hr
      obtain ⟨q, hq, hqr⟩ := List.mem_map.1 howner
      have howns : s.owns operator p.trace := Store.owns_iff.2
        ⟨q, hq, (congrArg Prod.fst hqr).trans htrace, (congrArg Prod.snd hqr).trans hoperator⟩
      rw [hdrawn.not_owns hs hother] at howns
      cases howns

theorem placements_of_others (hs : Reachable s) (hfresh : c.Fresh s) (hother : operator ≠ c.caller)
    (h : Accepted c.limits c.now c.caller s c.op reply s') :
    s'.placements.filter (s.owns operator ·.trace) =
      s.placements.filter (s.owns operator ·.trace) := by
  cases assemblyChange_of_accepted h with
  | kept _ hplacements => rw [hplacements]
  | removed hpresent hwritten =>
    rw [hwritten]
    refine filter_deleteWhere_eq fun q _ hselected => ?_
    have hholds := holds_of_assembly hs hpresent q.trace (List.contains_iff_mem.1 hselected)
    exact not_owns_of_owns hs (Store.owns_of_holds hholds) hother
  | @stored a removed hdrafted hwritten =>
    have hplacements :=
      hdrafted.placements_eq (Arranged.of_reachable hs) (Rooted.of_reachable hs) hwritten
    have hdrawn := hdrafted.drawn hfresh List.mem_cons_self
    have hhead := hdrawn.not_owns hs hother
    rw [hplacements, filter_append_eq, filter_deleteWhere_eq]
    · -- What stands under a part has its owner.
      intro q hq hselected
      rcases Bool.or_eq_true_iff.1 hselected with hunder | hself
      · have hparent : q.parent = a.parent.trace := of_decide_eq_true hunder
        have hnil : q.parent ≠ Uuid.nil :=
          hparent ▸ hdrawn.ne_nil (Arranged.of_reachable hs).named
        rw [Bool.eq_false_iff]
        intro howns
        have howns := (owns_parent_iff hs hq hnil).2 howns
        rw [hparent, hhead] at howns
        cases howns
      · rw [of_decide_eq_true hself]
        exact hhead
    · intro q hq
      obtain ⟨p, hp, htrace⟩ := trace_placementsOf.1 ⟨q, hq, rfl⟩
      rw [← htrace]
      exact (hdrafted.drawn hfresh hp).not_owns hs hother

/-- Only figures of live parts of the caller change. -/
theorem figures_of_others (hs : Reachable s) (h : Accepted limits now caller s op reply s')
    {keep : Uuid → Bool} (hkeep : ∀ trace, s.holds caller trace → keep trace = false) :
    s'.figures.filter (keep ·.trace) = s.figures.filter (keep ·.trace) := by
  cases h with
  | putAssembly _ _ _ _ _ hpresent _ hwritten =>
    obtain ⟨-, -, hfigures, -⟩ := Store.putAssembly_eq_ok hwritten
    rw [hfigures]
    exact filter_deleteWhere_eq fun r _ hselected =>
      hkeep _ (holds_of_dropped hs hpresent _ (List.contains_iff_mem.1 hselected))
  | removeAssembly hpresent =>
    exact filter_deleteWhere_eq fun r _ hselected =>
      hkeep _ (holds_of_assembly hs hpresent _ (List.contains_iff_mem.1 hselected))
  | registerFigures hrules hhead _ howned =>
    refine filter_append_eq fun r hr => ?_
    obtain ⟨f, hf, rfl⟩ := List.mem_map.1 hr
    refine hkeep _ ?_
    rw [FigureRecord.ofFigure, (Rules.shared_of_figures hrules hhead hf).1]
    exact Store.holds_of_part? howned
  | @reviseFigures id fs first part setId revised _ hrules hhead _ howned hfound hwritten =>
    have hcoherent := Coherent.of_reachable hs
    obtain ⟨f', -, hf'⟩ := (mem_of_mapM_eq_ok hfound).1 first (List.mem_of_mem_head? hhead)
    obtain ⟨-, -, -, -, -, -, q, hq, hqset, hqtrace⟩ := revisedFigure_eq_ok hf'
    obtain ⟨change, rfl, hplace, hapart, -⟩ := revised_rows hcoherent hrules hfound hwritten
    refine filter_map_eq fun r hr => ?_
    by_cases hset : r.setId = setId
    · -- All rows of the set are for one part.
      have htrace : r.trace = first.trace :=
        (hcoherent.traces r hr q hq (hset.trans hqset.symm)).trans hqtrace
      have hnot : keep r.trace = false := htrace ▸ hkeep _ (Store.holds_of_part? howned)
      have hsame : (change r).trace = r.trace := (FigureRecord.place_eq_iff.1 (hplace r)).2.1
      exact Or.inr ⟨hnot, hsame ▸ hnot⟩
    · exact Or.inl (hapart r hr hset)
  | certify howned =>
    refine filter_updateWhere_eq fun r _ hselected => ?_
    have hnot : keep r.trace = false := by
      rw [of_decide_eq_true hselected]
      exact hkeep _ (Store.holds_of_part? howned)
    exact ⟨hnot, hnot⟩
  | openRequest => rfl
  | reviseRequest _ _ _ _ _ _ _ _ hwritten =>
    obtain ⟨-, rfl⟩ := Store.reviseWith_eq_ok.1 hwritten
    rfl
  | answer _ _ _ _ _ _ hwritten =>
    obtain ⟨-, rfl⟩ := Store.reviseWith_eq_ok.1 hwritten
    rfl
  | cancel _ _ _ _ _ hwritten =>
    obtain ⟨-, rfl⟩ := Store.endRequest_eq_ok.1 hwritten
    rfl
  | reject _ _ _ _ _ hwritten =>
    obtain ⟨-, rfl⟩ := Store.endRequest_eq_ok.1 hwritten
    rfl
  | deleteTrade => rfl

/-- A trade is changed by its requester, or by its supplier, who stays so and does not delete it. -/
theorem Transition.trade_kept {p p' : TradeRecord × StatusRecord}
    (h : Transition now caller s op p p') :
    p'.1 = p.1 ∨ p.1.requester = caller ∨
      p.1.supplier = caller ∧ p'.1.supplier = caller ∧ p'.1.isLive = p.1.isLive := by
  cases h with
  | readdressed _ hrequester | deleted _ hrequester => exact Or.inr (Or.inl hrequester)
  | answered _ hsupplier => exact Or.inr (Or.inr ⟨hsupplier, hsupplier, rfl⟩)
  | _ => exact Or.inl rfl

/-- A status is changed by the operators of its trade and by whoever has the part that answers
it. -/
theorem Transition.status_kept {p p' : TradeRecord × StatusRecord}
    (h : Transition now caller s op p p') :
    p'.2 = p.2 ∨ p.1.requester = caller ∨ p.1.supplier = caller ∨ p.1.isAnsweredBy s caller := by
  cases h with
  | unchanged => exact Or.inl rfl
  | readdressed _ hrequester | cancelled _ hrequester | deleted _ hrequester =>
    exact Or.inr (Or.inl hrequester)
  | answered _ hsupplier | rejected _ hsupplier => exact Or.inr (Or.inr (Or.inl hsupplier))
  | completed _ hpart howned =>
    refine Or.inr (Or.inr (Or.inr ?_))
    rw [TradeRecord.isAnsweredBy, hpart]
    exact Store.holds_of_part? howned

theorem trades_of_others (hs : Reachable s) (h : Accepted limits now caller s op reply s')
    {keep : TradeRecord → Bool} (hrequester : ∀ t, t.requester = caller → keep t = false)
    (hsupplier : ∀ t ∈ s.trades, ∀ t' : TradeRecord, t.supplier = caller → t'.supplier = caller →
      t'.requester = t.requester → t'.isLive = t.isLive → keep t' = false) :
    s'.trades.filter keep = s.trades.filter keep := by
  have hpaired := Store.Paired.of_reachable hs
  cases evolves_of_accepted hpaired h with
  | moved f g htrades _ hmoves =>
    rw [htrades]
    refine filter_map_eq fun t ht => ?_
    obtain ⟨r, hp⟩ := hpaired.exists_status ht
    have hmove := hmoves _ hp
    rcases hmove.trade_kept with hsame | hcaller | ⟨hcaller, hstill, hlive⟩
    · exact Or.inl hsame
    · exact Or.inr ⟨hrequester _ hcaller, hrequester _ (hmove.requester.trans hcaller)⟩
    · exact Or.inr ⟨hsupplier t ht t hcaller hcaller rfl rfl,
        hsupplier t ht _ hcaller hstill hmove.requester hlive⟩
  | opened _ htrades =>
    rw [htrades]
    refine filter_append_eq fun t ht => ?_
    rw [List.mem_singleton.1 ht]
    exact hrequester _ rfl

theorem StatusRecord.isForeign_iff (hs : s.Paired) {q : TradeRecord × StatusRecord}
    (hq : q ∈ s.pairs) :
    q.2.isForeign s caller ↔ q.1.isForeign caller ∧ q.1.isAnsweredBy s caller = false := by
  have htrade := (hs.belongs q hq).trade
  simp only [StatusRecord.isForeign, List.any_eq_true, Bool.and_eq_true, Bool.not_eq_true',
    decide_eq_true_eq]
  constructor
  · rintro ⟨t, ht, ⟨hid, hforeign⟩, hanswered⟩
    have hsame : t = q.1 :=
      eq_of_key_eq hs.trades ht (Store.fst_mem_of_pairs hq) (hid.trans htrade)
    exact ⟨hsame ▸ hforeign, hsame ▸ hanswered⟩
  · rintro ⟨hforeign, hanswered⟩
    exact ⟨q.1, Store.fst_mem_of_pairs hq, ⟨htrade.symm, hforeign⟩, hanswered⟩

theorem statuses_of_others (hs : Reachable s) (h : Accepted limits now caller s op reply s') :
    s'.statuses.filter (·.isForeign s caller) = s.statuses.filter (·.isForeign s caller) := by
  have hpaired := Store.Paired.of_reachable hs
  cases evolves_of_accepted hpaired h with
  | moved f g _ hstatuses hmoves =>
    rw [hstatuses]
    refine filter_map_eq fun r hr => ?_
    obtain ⟨t, hp⟩ := hpaired.exists_trade hr
    have hmove := hmoves _ hp
    have hbelongs := hpaired.belongs _ hp
    obtain ⟨hid, -, hbelongs'⟩ := hmove.keeps hbelongs
    have htrade : (g r).trade = r.trade :=
      hbelongs'.trade.trans (hid.trans hbelongs.trade.symm)
    have hsame : (g r).isForeign s caller = r.isForeign s caller := by
      rw [StatusRecord.isForeign, htrade, StatusRecord.isForeign]
    cases hforeign : r.isForeign s caller with
    | false => exact Or.inr ⟨rfl, hsame.trans hforeign⟩
    | true =>
      obtain ⟨hother, hanswered⟩ := (StatusRecord.isForeign_iff hpaired hp).1 hforeign
      simp only [TradeRecord.isForeign, ne_eq, Bool.and_eq_true, decide_eq_true_eq] at hother
      rcases hmove.status_kept with hkept | hcaller | hcaller | hcaller
      · exact Or.inl hkept
      · exact absurd hcaller hother.1
      · exact absurd hcaller hother.2
      · rw [hanswered] at hcaller
        cases hcaller
  | opened _ _ hstatuses hnew =>
    rw [hstatuses]
    refine filter_append_eq fun r hr => ?_
    rw [List.mem_singleton.1 hr, StatusRecord.isForeign, List.any_eq_false]
    intro t ht hfound
    simp only [Bool.and_eq_true, decide_eq_true_eq] at hfound
    exact hnew t ht hfound.1.1

theorem Isolated.refl (s : Store) (caller operator : Uuid) : Isolated s s caller operator :=
  ⟨rfl, rfl, rfl, rfl, rfl⟩

theorem isolated_of_accepted (hs : Reachable s) (hfresh : c.Fresh s) (hother : operator ≠ c.caller)
    (h : Accepted c.limits c.now c.caller s c.op reply s') :
    Isolated s s' c.caller operator where
  parts := parts_of_others hs hfresh hother h
  placements := placements_of_others hs hfresh hother h
  figures := figures_of_others hs h fun _ hholds =>
    not_owns_of_owns hs (Store.owns_of_holds hholds) hother
  trades := trades_of_others hs h (fun t hcaller => by simp [TradeRecord.isForeign, hcaller])
    fun _ _ t' _ hcaller _ _ => by simp [TradeRecord.isForeign, hcaller]
  statuses := statuses_of_others hs h

theorem Independent.not_supplies (h : Independent s caller operator) (hholds : s.holds caller trace) :
    s.supplies operator trace = false := by
  rw [Store.supplies, List.any_eq_false]
  intro t ht hfound
  simp only [Bool.and_eq_true, decide_eq_true_eq] at hfound
  obtain ⟨⟨hrequester, hlive⟩, hpart⟩ := hfound
  have hanswered := (h t ht hlive hrequester).2
  rw [TradeRecord.isAnsweredBy, hpart, Option.any_some, hholds] at hanswered
  cases hanswered

/-- An operator whose requests the caller has no share in keeps its estate. -/
theorem estate_of_others (hs : Reachable s) (hfresh : c.Fresh s) (hother : operator ≠ c.caller)
    (hindependent : Independent s c.caller operator)
    (h : Accepted c.limits c.now c.caller s c.op reply s') :
    s'.estate operator = s.estate operator := by
  have hisolated := isolated_of_accepted hs hfresh hother h
  have howns : s'.owns operator = s.owns operator := by
    funext trace
    have hany (s : Store) : s.owns operator trace =
        (s.parts.filter (·.operator = operator)).any (·.trace = trace) := by
      simp only [Store.owns, List.any_filter, Bool.and_comm]
    rw [hany, hany, hisolated.parts]
  have htrades : s'.trades.filter (fun t => t.requester = operator && t.isLive) =
      s.trades.filter fun t => t.requester = operator && t.isLive := by
    refine trades_of_others hs h (fun t hcaller => ?_) fun t ht t' hcaller _ hrequester hlive => ?_
    · simp [hcaller, hother.symm]
    · rw [hrequester, hlive, Bool.eq_false_iff]
      intro hfound
      simp only [Bool.and_eq_true, decide_eq_true_eq] at hfound
      exact (hindependent t ht hfound.2 hfound.1).1 hcaller
  have hsupplies : s'.supplies operator = s.supplies operator := by
    funext trace
    have hany (s : Store) : s.supplies operator trace =
        (s.trades.filter fun t => t.requester = operator && t.isLive).any
          (·.supplierPart = some trace) := by
      simp only [Store.supplies, List.any_filter]
    rw [hany, hany, htrades]
  have hunseen : ∀ trace, s.holds c.caller trace →
      (s.owns operator trace || s.supplies operator trace) = false := by
    intro trace hholds
    rw [not_owns_of_owns hs (Store.owns_of_holds hholds) hother, hindependent.not_supplies hholds]
    rfl
  apply Store.ext
  · exact hisolated.parts
  · rw [Store.estate, howns]
    exact hisolated.placements
  · rw [Store.estate, howns, hsupplies]
    exact figures_of_others hs h hunseen
  · exact htrades
  · rfl

theorem sameViews_of_estate (hs : Reachable s) (hs' : Reachable s')
    (h : s'.estate operator = s.estate operator) : SameViews s s' operator where
  part trace := by rw [← part?_estate, h, part?_estate]
  assembly parent := by rw [← assembly?_estate hs', h, assembly?_estate hs]
  figures traces := by rw [← figuresFor_estate hs', h, figuresFor_estate hs]

/-- No call changes parts, places and figures of another operator than its caller, nor trades that
the caller is on neither side of, nor the status of such a trade unless a part of the caller answers
it. If the caller moreover is not asked by a live request of the other operator, and has no part
that answers one, then the other operator sees the same parts, assemblies and figures as before. -/
theorem others_unaffected (hs : Reachable s) (c : Call) (hfresh : c.Fresh s)
    (hother : operator ≠ c.caller) :
    Isolated s (c.after s) c.caller operator ∧
      (Independent s c.caller operator → SameViews s (c.after s) operator) := by
  rcases c.after_eq s with hsame | ⟨reply, haccepted⟩
  · rw [hsame]
    exact ⟨.refl .., fun _ => ⟨fun _ => rfl, fun _ => rfl, fun _ => rfl⟩⟩
  · exact ⟨isolated_of_accepted hs hfresh hother haccepted, fun hindependent =>
      sameViews_of_estate hs (hs.call c hfresh)
        (estate_of_others hs hfresh hother hindependent haccepted)⟩

/-- A third operator brings in a part. -/
def strangerRegistration : Call :=
  sampleCall ⟨3⟩ (.putAssembly [.v4 50] (sampleDraft ⟨3⟩ true))

/-- The operator of the sample request sees its part as before, and its rows are as they were. -/
theorem others_unaffected_stranger :
    strangerRegistration.after sampleAnswered ≠ sampleAnswered ∧
      Isolated sampleAnswered (strangerRegistration.after sampleAnswered) ⟨3⟩ ⟨1⟩ ∧
      (strangerRegistration.after sampleAnswered).part? ⟨1⟩ (.v4 10) = .ok (some samplePart) := by
  have hother : (⟨1⟩ : Uuid) ≠ strangerRegistration.caller := by decide
  obtain ⟨hisolated, hviews⟩ :=
    others_unaffected reachable_sampleAnswered strangerRegistration (by decide +kernel) hother
  have hindependent : Independent sampleAnswered ⟨3⟩ ⟨1⟩ := by
    rw [Independent]
    decide +kernel
  refine ⟨by decide +kernel, hisolated, ?_⟩
  rw [(hviews hindependent).part]
  decide +kernel

end Footprint
