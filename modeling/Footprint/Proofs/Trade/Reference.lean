import Footprint.Proofs.Trade.Supplier

namespace Footprint

open Table Exchange

/-- Whether the trade is for the part or answered with it. -/
def TradeRecord.Names (t : TradeRecord) (trace : Uuid) : Prop :=
  t.requesterPart = trace ∨ t.supplierPart = some trace

/-- The trade is for a live part of its requester, and answered, if at all, with a live part of
somebody else. -/
structure Referenced (s : Store) (t : TradeRecord) : Prop where
  requested : ∃ r ∈ s.parts, r.trace = t.requesterPart ∧ r.isLive ∧ r.operator = t.requester
  answered : ∀ trace, t.supplierPart = some trace →
    ∃ r ∈ s.parts, r.trace = trace ∧ r.isLive ∧ r.operator ≠ t.requester

/-- Whether the operation stores or removes an assembly. -/
def Exchange.Operation.isAssembly : Operation → Bool
  | .putAssembly _ _ | .removeAssembly _ => true
  | _ => false

variable {limits : TextLimits} {now : Instant} {caller : Uuid} {s s' : Store} {op : Operation}
variable {reply : Reply} {t : TradeRecord} {p p' : TradeRecord × StatusRecord} {trace : Uuid}

/-- Nobody asks itself for figures, neither in a new request nor in a revised one. -/
theorem Transition.parties_differ (h : Transition now caller s op p p')
    (hother : p.1.requester ≠ p.1.supplier) : p'.1.requester ≠ p'.1.supplier := by
  cases h with
  | readdressed _ hrequester _ hsupplier =>
    intro hsame
    exact hsupplier (hsame.symm.trans hrequester)
  | _ => exact hother

theorem parties_differ (h : Reachable s) : ∀ t ∈ s.trades, t.requester ≠ t.supplier := by
  refine h.induct (P := fun s => ∀ t ∈ s.trades, t.requester ≠ t.supplier) (by simp [Store.empty]) ?_
  intro s s' reply c hs _ ih haccepted t' ht'
  have hpaired := Store.Paired.of_reachable hs
  have hevolves := evolves_of_accepted hpaired haccepted
  obtain ⟨r', hp'⟩ := (hevolves.paired hpaired).exists_status ht'
  rcases hevolves.prior hpaired hp' with ⟨p, hp, hmove⟩ | ⟨_, _, r, ⟨-, hrequestable⟩, hnew⟩
  · exact hmove.parties_differ (ih p.1 (Store.fst_mem_of_pairs hp))
  · cases hnew
    exact hrequestable.other.symm

/-- Traded parts are kept with their owners. -/
theorem Referenced.kept (h : Referenced s t) (ht : t ∈ s.trades) (hlive : t.isLive)
    (haccepted : Accepted limits now caller s op reply s') : Referenced s' t where
  requested :=
    traded_part_kept haccepted (Store.isTraded_iff.2 ⟨t, ht, hlive, Or.inl rfl⟩) h.requested
  answered trace hpart := by
    obtain ⟨r, hr, htrace, hrlive, hother⟩ := h.answered trace hpart
    obtain ⟨r', hr', htrace', hlive', hoperator⟩ := traded_part_kept haccepted
      (Store.isTraded_iff.2 ⟨t, ht, hlive, Or.inr hpart⟩) ⟨r, hr, htrace, hrlive, rfl⟩
    exact ⟨r', hr', htrace', hlive', hoperator ▸ hother⟩

theorem Transition.referenced (h : Transition now caller s op p p') (hp : p ∈ s.pairs)
    (hlive : p.1.isLive) (hother : p.1.requester ≠ p.1.supplier) (href : Referenced s p.1)
    (haccepted : Accepted limits now caller s op reply s') : Referenced s' p'.1 := by
  have hkept := href.kept (Store.fst_mem_of_pairs hp) hlive haccepted
  refine ⟨?_, fun trace hpart => ?_⟩
  · rw [h.requesterPart, h.requester]
    exact hkept.requested
  · rw [h.requester]
    rcases h.supplierPart hpart with ⟨rfl, hsupplier, -⟩ | hpart
    · -- The part is the supplier's, who is not the requester.
      obtain ⟨hsame, part, howned⟩ := parts_of_answer haccepted
      obtain ⟨r, hr, htrace, hoperator, hrlive, -⟩ := Store.part?_eq_some howned
      refine ⟨r, hsame ▸ hr, htrace, hrlive, ?_⟩
      rw [hoperator, ← hsupplier]
      exact hother.symm
    · exact hkept.answered trace hpart

theorem Requestable.referenced {tradeId : Uuid} {r : TradeRequest} (h : Requestable s caller r)
    (hparts : s'.parts = s.parts) :
    Referenced s' (TradeRecord.ofTrade now caller (requestedTrade tradeId caller r)) := by
  obtain ⟨part, howned⟩ := h.owned
  obtain ⟨q, hq, htrace, hoperator, hlive, -⟩ := Store.part?_eq_some howned
  exact ⟨⟨q, hparts ▸ hq, htrace, hlive, hoperator⟩, nofun⟩

/-- In a reachable store every live trade refers to live parts. -/
theorem Referenced.of_reachable (h : Reachable s) : ∀ t ∈ s.trades, t.isLive → Referenced s t := by
  refine h.induct (P := fun s => ∀ t ∈ s.trades, t.isLive → Referenced s t)
    (by simp [Store.empty]) ?_
  intro s s' reply c hs _ ih haccepted t' ht' hlive'
  have hpaired := Store.Paired.of_reachable hs
  have hevolves := evolves_of_accepted hpaired haccepted
  obtain ⟨r', hp'⟩ := (hevolves.paired hpaired).exists_status ht'
  rcases hevolves.prior hpaired hp' with ⟨p, hp, hmove⟩ | ⟨_, _, r, ⟨hop, hrequestable⟩, hnew⟩
  · have hlive := hmove.live hlive'
    have ht := Store.fst_mem_of_pairs hp
    exact hmove.referenced hp hlive (parties_differ hs p.1 ht) (ih p.1 ht hlive) haccepted
  · cases hnew
    rw [hop] at haccepted
    exact hrequestable.referenced (parts_of_request haccepted)

/-- Such an operation leaves trades alone and drops figures of parts that are in no live trade. -/
theorem figures_of_assembly (h : Accepted limits now caller s op reply s') (hop : op.isAssembly) :
    s'.trades = s.trades ∧ ∃ removed : List Uuid, (∀ trace ∈ removed, isTraded s trace = false) ∧
      s'.figures = deleteWhere (fun r => removed.contains r.trace) s.figures := by
  cases h with
  | putAssembly _ _ _ _ _ _ huntraded hwritten =>
    obtain ⟨htrades, -, hfigures, -⟩ := Store.putAssembly_eq_ok hwritten
    exact ⟨htrades, _, huntraded, hfigures⟩
  | removeAssembly _ huntraded => exact ⟨rfl, _, huntraded, rfl⟩
  | _ => cases hop

/-- The trade is there and refers to live parts, which have the figures that they had. -/
structure ReferenceKept (s s' : Store) (t : TradeRecord) : Prop where
  trade : t ∈ s'.trades
  referenced : Referenced s' t
  figures : ∀ trace, t.Names trace →
    s'.figures.filter (·.trace = trace) = s.figures.filter (·.trace = trace)

theorem referenceKept_of_assembly (h : Accepted limits now caller s op reply s')
    (hop : op.isAssembly) (ht : t ∈ s.trades) (hlive : t.isLive) (href : Referenced s t) :
    ReferenceKept s s' t := by
  obtain ⟨htrades, removed, huntraded, hfigures⟩ := figures_of_assembly h hop
  refine ⟨htrades ▸ ht, href.kept ht hlive h, fun trace hnames => ?_⟩
  have hkept : trace ∉ removed := fun hmem => by
    have htraded := Store.isTraded_iff.2 ⟨t, ht, hlive, hnames⟩
    rw [huntraded trace hmem] at htraded
    cases htraded
  rw [hfigures, deleteWhere, List.filter_filter]
  refine List.filter_congr fun r _ => ?_
  by_cases hhere : r.trace = trace
  · simp [hhere, hkept]
  · simp [hhere]

theorem referenceKept_of_assemblies {cs : List Call} (hcs : ∀ c ∈ cs, c.op.isAssembly)
    (ht : t ∈ s.trades) (hlive : t.isLive) (href : Referenced s t) :
    ReferenceKept s (runAll cs s) t := by
  induction cs generalizing s with
  | nil => exact ⟨ht, href, fun _ _ => rfl⟩
  | cons c cs ih =>
    obtain ⟨hop, hcs⟩ := List.forall_mem_cons.1 hcs
    have hstep : ReferenceKept s (c.after s) t := by
      rcases c.after_eq s with hsame | ⟨reply, haccepted⟩
      · rw [hsame]
        exact ⟨ht, href, fun _ _ => rfl⟩
      · exact referenceKept_of_assembly haccepted hop ht hlive href
    have hrest := ih hcs hstep.trade hstep.referenced
    exact ⟨hrest.trade, hrest.referenced, fun trace hnames =>
      (hrest.figures trace hnames).trans (hstep.figures trace hnames)⟩

/-- In a reachable store every live trade, whatever its status, is for a live part of its requester
and answered, if at all, with a live part of another operator. However assemblies are stored and
removed then, by whichever operators, both parts stay, and so do their figures. -/
theorem references_kept (hs : Reachable s) :
    ∀ t ∈ s.trades, t.isLive → Referenced s t ∧
      ∀ cs : List Call, (∀ c ∈ cs, c.op.isAssembly) → ReferenceKept s (runAll cs s) t := by
  intro t ht hlive
  have href := Referenced.of_reachable hs t ht hlive
  exact ⟨href, fun cs hcs => referenceKept_of_assemblies hcs ht hlive href⟩

/-- Both operators of the sample try to remove their parts. -/
def sampleRemovals : List Call :=
  [sampleCall ⟨1⟩ (.removeAssembly (.v4 10)), sampleCall ⟨2⟩ (.removeAssembly (.v4 20))]

/-- The part that answers the request, and its figures, outlast the removals. -/
theorem references_kept_sample :
    ∃ r ∈ (runAll sampleRemovals (sampleRegistration.after sampleAnswered)).parts,
      r.trace = .v4 20 ∧ r.isLive ∧
        (runAll sampleRemovals (sampleRegistration.after sampleAnswered)).figures.filter
            (·.trace = .v4 20) =
          (sampleRegistration.after sampleAnswered).figures.filter (·.trace = .v4 20) := by
  obtain ⟨t, ht, hlive, hpart⟩ : ∃ t ∈ (sampleRegistration.after sampleAnswered).trades,
      t.isLive ∧ t.supplierPart = some (.v4 20) := by decide +kernel
  obtain ⟨-, hkept⟩ := references_kept reachable_sampleRegistration t ht hlive
  have hkept := hkept sampleRemovals (by decide)
  obtain ⟨r, hr, htrace, hrlive, -⟩ := hkept.referenced.answered (.v4 20) hpart
  exact ⟨r, hr, htrace, hrlive, hkept.figures (.v4 20) (Or.inr hpart)⟩

end Footprint
