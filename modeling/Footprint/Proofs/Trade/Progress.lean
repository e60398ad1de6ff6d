import Footprint.Proofs.Figure.Change
import Footprint.Proofs.Trade.Transition

namespace Footprint

open Table Enumerated Exchange

/-- What the status of a live trade says of the trade and of the figures in the store. -/
structure Sound (s : Store) (t : TradeRecord) (status : Status) : Prop where
  pending : status.progress = .pending →
    ∀ trace, t.supplierPart = some trace → s.hasFigures trace = false
  completed : status.progress = .completed →
    ∃ trace, t.supplierPart = some trace ∧ (s.hasFigures trace ∨ s.hasFigures t.requesterPart)
  completedCount : status.completedCount = if status.progress = .completed then 1 else 0
  tradesCount : status.tradesCount = if status.progress = .completed then 1 else 0
  reply : status.reply ≠ none → status.progress = .cancelled ∨ status.progress = .rejected
  terminated : status.tree = .terminated → t.supplierPart.isSome

/-- Every live trade has a sound status. -/
def AllSound (s : Store) : Prop :=
  ∀ p ∈ s.pairs, p.1.isLive → ∃ status, p.2.status = .ok status ∧ Sound s p.1 status

variable {limits : TextLimits} {now : Instant} {caller : Uuid} {s s' : Store} {op : Operation}
variable {answer : Reply} {reply : Option String} {p p' : TradeRecord × StatusRecord}
variable {status : Status}

/-- A status stays sound when its trade keeps its parts, and these keep their figures and get none
while the request is pending. -/
theorem Sound.transfer {t t' : TradeRecord} (h : Sound s t status)
    (hsupplierPart : t'.supplierPart = t.supplierPart)
    (hrequesterPart : t'.requesterPart = t.requesterPart)
    (hnew : status.progress = .pending → ∀ trace, t.supplierPart = some trace →
      s'.hasFigures trace → s.hasFigures trace)
    (hkept : ∀ trace, t.requesterPart = trace ∨ t.supplierPart = some trace →
      s.hasFigures trace → s'.hasFigures trace) : Sound s' t' status where
  pending hpending trace hpart := by
    rw [hsupplierPart] at hpart
    have hno := h.pending hpending trace hpart
    by_contra hhas
    rw [hnew hpending trace hpart (by simpa using hhas)] at hno
    cases hno
  completed hcompleted := by
    obtain ⟨trace, hpart, hfigures⟩ := h.completed hcompleted
    rw [hsupplierPart, hrequesterPart]
    exact ⟨trace, hpart, hfigures.imp (hkept trace (Or.inr hpart)) (hkept _ (Or.inl rfl))⟩
  completedCount := h.completedCount
  tradesCount := h.tradesCount
  reply := h.reply
  terminated := by
    rw [hsupplierPart]
    exact h.terminated

/-- The figures of a traded part are not removed. -/
theorem hasFigures_kept (h : Accepted limits now caller s op answer s') (hp : p ∈ s.pairs)
    (hlive : p.1.isLive) {trace : Uuid}
    (hpart : p.1.requesterPart = trace ∨ p.1.supplierPart = some trace)
    (hfigures : s.hasFigures trace) : s'.hasFigures trace := by
  obtain ⟨removed, huntraded, hhas⟩ := hasFigures_of_accepted h
  refine (hhas trace).2 (Or.inr ⟨hfigures, fun hmem => ?_⟩)
  obtain ⟨hrequester, hsupplier⟩ :=
    Store.isTraded_eq_false.1 (huntraded trace hmem) p.1 (Store.fst_mem_of_pairs hp) hlive
  rcases hpart with hpart | hpart
  · exact hrequester hpart
  · exact hsupplier hpart

/-- Figures that are new belong to the part that is registered. -/
theorem hasFigures_new (h : Accepted limits now caller s op answer s') {trace : Uuid}
    (hfigures : s'.hasFigures trace) : op.registers = some trace ∨ s.hasFigures trace := by
  obtain ⟨removed, -, hhas⟩ := hasFigures_of_accepted h
  exact ((hhas trace).1 hfigures).imp_right And.left

/-- A pending request that comes to an end. -/
theorem Sound.ended {t : TradeRecord} {progress : Progress} (h : Sound s t status)
    (hpending : status.progress = .pending) (hend : progress = .cancelled ∨ progress = .rejected) :
    Sound s' t { status with progress := progress, reply := reply } := by
  have hne : progress ≠ .pending ∧ progress ≠ .completed := by
    rcases hend with rfl | rfl <;> exact ⟨nofun, nofun⟩
  have hcompletedCount := h.completedCount
  have htradesCount := h.tradesCount
  rw [hpending] at hcompletedCount htradesCount
  refine ⟨fun he => absurd he hne.1, fun he => absurd he hne.2, ?_, ?_, fun _ => hend, h.terminated⟩
  · rw [if_neg hne.2]
    exact hcompletedCount
  · rw [if_neg hne.2]
    exact htradesCount

/-- A pending request that gets its answer. -/
theorem Sound.answered {t : TradeRecord} {trace author : Uuid} {progress : Progress}
    {terminal : Bool} (h : Sound s t status) (hpending : status.progress = .pending)
    (houtcome : progress =
      if s.hasFigures trace || s.hasFigures t.requesterPart then .completed else .pending)
    (hfigures : s'.figures = s.figures) :
    Sound s' (t.answered now author trace) (answeredStatus progress terminal status) := by
  have hhas (x : Uuid) : s'.hasFigures x = s.hasFigures x := by
    rw [Store.hasFigures, Store.hasFigures, hfigures]
  constructor
  case pending =>
    intro hstill trace' hpart
    cases hpart
    rw [hhas]
    by_contra hno
    have hyes : s.hasFigures trace = true := by simpa using hno
    rw [hyes, Bool.true_or, if_pos rfl] at houtcome
    cases houtcome.symm.trans hstill
  case completed =>
    intro hdone
    have hdone' : progress = .completed := hdone
    have hfigures : s.hasFigures trace || s.hasFigures t.requesterPart := by
      by_contra hno
      rw [houtcome, if_neg hno] at hdone'
      cases hdone'
    refine ⟨trace, rfl, ?_⟩
    rw [hhas, hhas, ← Bool.or_eq_true]
    exact hfigures
  case completedCount => rfl
  case tradesCount => rfl
  case reply =>
    intro hreply
    rcases h.reply hreply with hclosed | hclosed <;> cases hpending.symm.trans hclosed
  case terminated => exact fun _ => rfl

/-- A pending request whose answer gets figures. -/
theorem Sound.completed_of_figures {t : TradeRecord} {trace : Uuid} {tree : TreeState}
    (h : Sound s t status) (hpending : status.progress = .pending)
    (hpart : t.supplierPart = some trace) (hfigures : s'.hasFigures trace) :
    Sound s' t (completedStatus tree status) where
  pending := nofun
  completed _ := ⟨trace, hpart, Or.inl hfigures⟩
  completedCount := rfl
  tradesCount := rfl
  reply hreply := by
    rcases h.reply hreply with hclosed | hclosed <;> cases hpending.symm.trans hclosed
  terminated _ := by rw [hpart]; rfl

theorem Sound.step (h : Accepted limits now caller s op answer s') (hp : p ∈ s.pairs)
    (hlive : p.1.isLive) (hstatus : p.2.isLive) (hread : p.2.status = .ok status)
    (hsound : Sound s p.1 status)
    (hmove : Transition now caller s op p p') (hlive' : p'.1.isLive) :
    ∃ status', p'.2.status = .ok status' ∧ Sound s' p'.1 status' := by
  have hrow := StatusRecord.status_eq_ok.1 hread
  have hkept : ∀ trace, p.1.requesterPart = trace ∨ p.1.supplierPart = some trace →
      s.hasFigures trace → s'.hasFigures trace := fun _ => hasFigures_kept h hp hlive
  -- A row that is pending was read as pending.
  have hprogress (hpending : p.2.isPending) : status.progress = .pending :=
    literal_injective _ _ (hrow.1.symm.trans (StatusRecord.isPending_iff.1 hpending).1)
  cases hmove with
  | unchanged hwaiting =>
    refine ⟨status, hread, hsound.transfer rfl rfl ?_ hkept⟩
    intro hpending trace hpart hfigures
    rcases hasFigures_new h hfigures with hregisters | hfigures
    · -- A registration for the part would have completed the request.
      have hclosed := hwaiting trace hregisters hpart
      rw [StatusRecord.isPending_of_status hread hstatus hpending] at hclosed
      cases hclosed
    · exact hfigures
  | @readdressed tradeId statusId r p hnamed hrequester hpending =>
    have hsame : Sound s' (p.1.readdressed now caller r.supplier) status := by
      refine hsound.transfer rfl rfl ?_ hkept
      intro _ trace _ hfigures
      exact (hasFigures_new h hfigures).resolve_left nofun
    exact ⟨_, StatusRecord.status_readdressed hread, hsame.pending, hsame.completed,
      hsame.completedCount, hsame.tradesCount, hsame.reply, hsame.terminated⟩
  | @answered trade trace p part progress hnamed hsupplier hpending houtcome =>
    exact ⟨_, StatusRecord.status_answered hread,
      hsound.answered (hprogress hpending) houtcome (figures_of_answer h)⟩
  | @completed op trace p part hregisters hpart howned hpending =>
    obtain ⟨removed, -, hhas⟩ := hasFigures_of_accepted h
    exact ⟨_, StatusRecord.status_completed hread,
      hsound.completed_of_figures (hprogress hpending) hpart ((hhas trace).2 (Or.inl hregisters))⟩
  | @cancelled trade reply p hnamed hrequester hpending =>
    exact ⟨_, StatusRecord.status_ended hread, hsound.ended (hprogress hpending) (Or.inl rfl)⟩
  | @rejected trade reply p hnamed hsupplier hpending =>
    exact ⟨_, StatusRecord.status_ended hread, hsound.ended (hprogress hpending) (Or.inr rfl)⟩
  | deleted => cases hlive'

/-- A new request. -/
theorem sound_requested {tradeId statusId : Uuid} {r : TradeRequest} :
    Sound s (TradeRecord.ofTrade now caller (requestedTrade tradeId caller r))
      (requestedStatus now tradeId statusId r) where
  pending _ _ := nofun
  completed := nofun
  completedCount := rfl
  tradesCount := rfl
  reply h := absurd rfl h
  terminated := nofun

theorem AllSound.step (hs : s.Paired) (hsound : AllSound s)
    (h : Accepted limits now caller s op answer s') : AllSound s' := by
  intro p' hp' hlive'
  rcases (evolves_of_accepted hs h).prior hs hp' with ⟨p, hp, hmove⟩ | ⟨_, _, _, -, rfl⟩
  · have hlive := hmove.live hlive'
    obtain ⟨status, hread, hpair⟩ := hsound p hp hlive
    exact hpair.step h hp hlive ((hs.belongs p hp).live.trans hlive) hread hmove hlive'
  · exact ⟨_, StatusRecord.status_ofStatus, sound_requested⟩

theorem allSound_empty : AllSound Store.empty := by
  simp [AllSound, Store.pairs, Store.empty]

theorem AllSound.of_reachable (h : Reachable s) : s.Paired ∧ AllSound s := by
  refine h.induct (P := fun s => s.Paired ∧ AllSound s) ⟨Store.paired_empty, allSound_empty⟩ ?_
  intro s s' reply c _ _ hs haccepted
  exact ⟨(evolves_of_accepted hs.1 haccepted).paired hs.1, hs.2.step hs.1 haccepted⟩

theorem exists_status_of_live (h : Reachable s) {r : StatusRecord} (hr : r ∈ s.statuses)
    (hlive : r.isLive) : ∃ status, r.status = .ok status := by
  obtain ⟨hpaired, hsound⟩ := AllSound.of_reachable h
  obtain ⟨t, hp⟩ := hpaired.exists_trade hr
  obtain ⟨status, hread, -⟩ := hsound _ hp ((hpaired.belongs _ hp).live.symm.trans hlive)
  exact ⟨status, hread⟩

theorem statusOf?_of_live (hs : Reachable s) {t : TradeRecord} (ht : t ∈ s.trades)
    (hlive : t.isLive) : ∃ status, s.statusOf? t.id = .ok (some status) := by
  obtain ⟨hpaired, hsound⟩ := AllSound.of_reachable hs
  obtain ⟨r, hp⟩ := hpaired.exists_status ht
  obtain ⟨status, hread, -⟩ := hsound _ hp hlive
  exact ⟨status, hpaired.statusOf?_eq hp hlive hread⟩

/-- The status of a live trade can be read, no other row names the trade, and it is sound. -/
theorem live_trade_sound (hs : Reachable s) {t : TradeRecord} (ht : t ∈ s.trades)
    (hlive : t.isLive) :
    ∃ status, s.statusOf? t.id = .ok (some status) ∧
      (∀ r ∈ s.statuses, r.trade = t.id → r.status = .ok status) ∧ Sound s t status := by
  obtain ⟨hpaired, hsound⟩ := AllSound.of_reachable hs
  obtain ⟨r, hp⟩ := hpaired.exists_status ht
  obtain ⟨status, hread, hpair⟩ := hsound _ hp hlive
  refine ⟨status, hpaired.statusOf?_eq hp hlive hread, ?_, hpair⟩
  intro q hq htrade
  rw [hpaired.status_unique hp hq htrade]
  exact hread

/-- Both the answered request and, after the registration, the completed one. -/
theorem live_trade_sound_sample :
    (∃ t ∈ sampleAnswered.trades, t.supplierPart = some (.v4 20) ∧
      ∃ status, sampleAnswered.statusOf? t.id = .ok (some status) ∧ status.progress = .pending ∧
        Sound sampleAnswered t status) ∧
    ∃ t ∈ (sampleRegistration.after sampleAnswered).trades,
      ∃ status, (sampleRegistration.after sampleAnswered).statusOf? t.id = .ok (some status) ∧
        status.progress = .completed ∧ Sound (sampleRegistration.after sampleAnswered) t status := by
  constructor
  · obtain ⟨t, ht, hlive, hpart⟩ :
        ∃ t ∈ sampleAnswered.trades, t.isLive ∧ t.supplierPart = some (.v4 20) := by decide +kernel
    obtain ⟨r, hr, htrade, hprogress⟩ :
        ∃ r ∈ sampleAnswered.statuses, (∀ t ∈ sampleAnswered.trades, r.trade = t.id) ∧
          r.progress = literal Progress.pending := by decide +kernel
    obtain ⟨status, hstatus, hrows, hsound⟩ := live_trade_sound reachable_sampleAnswered ht hlive
    have hread := StatusRecord.status_eq_ok.1 (hrows r hr (htrade t ht))
    have hpending : status.progress = .pending :=
      literal_injective _ _ (hread.1.symm.trans hprogress)
    exact ⟨t, ht, hpart, status, hstatus, hpending, hsound⟩
  · obtain ⟨t, ht, hlive⟩ :
        ∃ t ∈ (sampleRegistration.after sampleAnswered).trades, t.isLive := by decide +kernel
    obtain ⟨r, hr, htrade, hprogress⟩ :
        ∃ r ∈ (sampleRegistration.after sampleAnswered).statuses,
          (∀ t ∈ (sampleRegistration.after sampleAnswered).trades, r.trade = t.id) ∧
          r.progress = literal Progress.completed := by decide +kernel
    obtain ⟨status, hstatus, hrows, hsound⟩ :=
      live_trade_sound reachable_sampleRegistration ht hlive
    have hread := StatusRecord.status_eq_ok.1 (hrows r hr (htrade t ht))
    have hcompleted : status.progress = .completed :=
      literal_injective _ _ (hread.1.symm.trans hprogress)
    exact ⟨t, ht, status, hstatus, hcompleted, hsound⟩

end Footprint
