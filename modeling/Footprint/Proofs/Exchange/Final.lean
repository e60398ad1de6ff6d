import Footprint.Proofs.Exchange.Isolation
import Footprint.Proofs.Exchange.Lineage
import Footprint.Proofs.Figure.Entered
import Footprint.Proofs.Store.Purged

namespace Footprint

open Table Exchange

/-- The row of a removed part is there, no other has its trace, and nothing else is kept for it. -/
structure PartRecord.IsGone (s : Store) (r : PartRecord) : Prop where
  row : r ∈ s.parts
  only : ∀ q ∈ s.parts, q.trace = r.trace → q = r
  figures : ∀ q ∈ s.figures, q.trace ≠ r.trace
  placements : ∀ q ∈ s.placements, q.trace ≠ r.trace ∧ q.parent ≠ r.trace

/-- The row of a deleted trade is there and no other has its identifier. -/
structure TradeRecord.IsGone (s : Store) (t : TradeRecord) : Prop where
  row : t ∈ s.trades
  only : ∀ q ∈ s.trades, q.id = t.id → q = t

/-- The row of a deleted status is there and no other has its identifier or belongs to its trade. -/
structure StatusRecord.IsGone (s : Store) (r : StatusRecord) : Prop where
  row : r ∈ s.statuses
  only : ∀ q ∈ s.statuses, q.id = r.id ∨ q.trade = r.trade → q = r

variable {now : Instant} {caller trace : Uuid} {s s' : Store} {op : Operation} {reply : Reply}
variable {c : Call} {p : Part} {r : PartRecord} {t : TradeRecord}

theorem Store.not_holds_of_dead (hs : Reachable s) (hr : r ∈ s.parts) (hdead : r.isLive = false) :
    ¬ s.holds caller r.trace := by
  intro hholds
  obtain ⟨q, hq, htrace, -, hlive⟩ := Store.holds_iff.1 hholds
  rw [eq_of_key_eq (nodup_parts hs) hq hr htrace, hdead] at hlive
  cases hlive

/-- A part that is brought in is new or live. -/
theorem Drawn.trace_ne_of_dead (hs : Reachable s) (h : Drawn s caller p) (hr : r ∈ s.parts)
    (hdead : r.isLive = false) : p.trace ≠ r.trace := by
  rcases h.2 with ⟨-, hnew⟩ | ⟨part, hpart⟩
  · exact (hnew r hr).symm
  · intro htrace
    have hholds := Store.holds_of_part? hpart
    rw [htrace] at hholds
    exact Store.not_holds_of_dead hs hr hdead hholds

theorem mem_writeParts_of_ne {ps : List Part} {table : List PartRecord} (hr : r ∈ table)
    (hother : ∀ p ∈ ps, p.trace ≠ r.trace) : r ∈ ps.foldl (Store.writePart now) table := by
  induction ps generalizing table with
  | nil => exact hr
  | cons p ps ih =>
    obtain ⟨hp, hps⟩ := List.forall_mem_cons.1 hother
    refine ih ?_ hps
    rw [Store.writePart]
    split
    · exact mem_updateWhere.2 (Or.inl ⟨hr, decide_eq_false hp.symm⟩)
    · exact List.mem_append_left _ hr

/-- Parts are dropped while they are live, and only new and live ones are written. -/
theorem dead_part_kept (hs : Reachable s) (hfresh : c.Fresh s)
    (h : Accepted c.limits c.now c.caller s c.op reply s') (hr : r ∈ s.parts)
    (hdead : r.isLive = false) : r ∈ s'.parts := by
  cases assemblyChange_of_accepted h with
  | kept hparts _ =>
    rw [hparts]
    exact hr
  | removed hpresent hwritten =>
    rw [hwritten]
    refine mem_dropParts hr fun htrace => ?_
    exact Store.not_holds_of_dead hs hr hdead (holds_of_assembly hs hpresent _ htrace)
  | stored hdrafted hwritten =>
    obtain ⟨-, -, -, hparts, -⟩ := Store.putAssembly_eq_ok hwritten
    obtain ⟨existing, hexisting, rfl⟩ := hdrafted.dropped
    rw [hparts]
    refine mem_writeParts_of_ne (mem_dropParts hr fun htrace => ?_) fun p hp => ?_
    · exact Store.not_holds_of_dead hs hr hdead (holds_of_dropped hs hexisting _ htrace)
    · exact (hdrafted.drawn hfresh hp).trace_ne_of_dead hs hr hdead

/-- No event takes place on a deleted trade: requests are open or their trade is live. -/
theorem Transition.eq_of_dead {p p' : TradeRecord × StatusRecord}
    (h : Transition now caller s op p p') (hbelongs : p.2.Belongs p.1)
    (hdead : p.1.isLive = false) : p' = p := by
  have hclosed : ¬ p.2.isPending := fun hpending => by
    have hlive := (StatusRecord.isPending_iff.1 hpending).2
    rw [hbelongs.live, hdead] at hlive
    cases hlive
  cases h with
  | unchanged => rfl
  | readdressed _ _ hpending | cancelled _ _ hpending | rejected _ _ hpending =>
    exact absurd hpending hclosed
  | answered _ _ hpending | completed _ _ _ hpending => exact absurd hpending hclosed
  | deleted _ _ hlive =>
    rw [hdead] at hlive
    cases hlive

theorem dead_pair_kept (hs : Reachable s)
    (h : Accepted c.limits c.now c.caller s c.op reply s') {p : TradeRecord × StatusRecord}
    (hp : p ∈ s.pairs) (hdead : p.1.isLive = false) : p ∈ s'.pairs := by
  have hpaired := Store.Paired.of_reachable hs
  obtain ⟨p', hp', hmove⟩ := (evolves_of_accepted hpaired h).next hpaired hp
  rwa [hmove.eq_of_dead (hpaired.belongs p hp) hdead] at hp'

/-- The deleted rows of the one store are in the other. -/
structure KeepsDeleted (s s' : Store) : Prop where
  parts : ∀ r ∈ s.parts, r.isLive = false → r ∈ s'.parts
  pairs : ∀ p ∈ s.pairs, p.1.isLive = false → p ∈ s'.pairs

theorem keepsDeleted_after (hs : Reachable s) (c : Call) (hfresh : c.Fresh s) :
    KeepsDeleted s (c.after s) := by
  rcases c.after_eq s with hsame | ⟨reply, haccepted⟩
  · rw [hsame]
    exact ⟨fun _ hr _ => hr, fun _ hp _ => hp⟩
  · exact ⟨fun _ hr hdead => dead_part_kept hs hfresh haccepted hr hdead,
      fun _ hp hdead => dead_pair_kept hs haccepted hp hdead⟩

theorem keepsDeleted_of_leads (hs : Reachable s) (h : Leads s s') :
    Reachable s' ∧ KeepsDeleted s s' := by
  induction h with
  | refl => exact ⟨hs, fun _ hr _ => hr, fun _ hp _ => hp⟩
  | tail _ hcall ih =>
    obtain ⟨c, hfresh, rfl⟩ := hcall
    obtain ⟨hs', hkept⟩ := ih
    have hstep := keepsDeleted_after hs' c hfresh
    exact ⟨hs'.call c hfresh, fun r hr hdead => hstep.parts r (hkept.parts r hr hdead) hdead,
      fun p hp hdead => hstep.pairs p (hkept.pairs p hp hdead) hdead⟩

theorem isGone_of_dead_part (hs : Reachable s) (hr : r ∈ s.parts) (hdead : r.isLive = false) :
    r.IsGone s := by
  have honly : ∀ q ∈ s.parts, q.trace = r.trace → q = r := fun q hq htrace =>
    eq_of_key_eq (nodup_parts hs) hq hr htrace
  have hnone : ¬ ∃ q ∈ s.parts, q.trace = r.trace ∧ q.isLive := by
    rintro ⟨q, hq, htrace, hlive⟩
    rw [honly q hq htrace, hdead] at hlive
    cases hlive
  have hrooted := Rooted.of_reachable hs
  have hunplaced : ∀ q ∈ s.placements, q.trace ≠ r.trace := fun q hq htrace =>
    hnone ((hrooted.live r.trace).2 ⟨q, hq, htrace⟩)
  refine ⟨hr, honly, fun q hq htrace => ?_, fun q hq => ⟨hunplaced q hq, fun hunder => ?_⟩⟩
  · exact hnone (live_part_of_figures hs (Store.hasFigures_iff.2 ⟨q, hq, htrace⟩))
  · -- What stands under the part stands under a place of it.
    rcases hrooted.grounded.rooted q hq with hnil | ⟨top, htop, htrace, -⟩
    · exact (Arranged.of_reachable hs).named r hr (hunder.symm.trans hnil)
    · exact hunplaced top htop (htrace.trans hunder)

theorem isGone_of_pair (hs : Reachable s) {p : TradeRecord × StatusRecord} (hp : p ∈ s.pairs) :
    p.1.IsGone s ∧ p.2.IsGone s := by
  have hpaired := Store.Paired.of_reachable hs
  refine ⟨⟨Store.fst_mem_of_pairs hp, fun q hq hid => ?_⟩, ⟨Store.snd_mem_of_pairs hp, ?_⟩⟩
  · exact eq_of_key_eq hpaired.trades hq (Store.fst_mem_of_pairs hp) hid
  · rintro q hq (hid | htrade)
    · exact eq_of_key_eq hpaired.statuses hq (Store.snd_mem_of_pairs hp) hid
    · exact hpaired.status_unique hp hq (htrade.trans (hpaired.belongs p hp).trade)

/-- Once a part, a trade or a status is deleted, its row stays in every later store, in all its
columns, as the only row with its trace or identifier, and no figures and no place are kept for the
part. In every such store all that is read, and all that operations plan, is what it would be without
the deleted rows. -/
theorem deleted_for_good (hs : Reachable s) (h : Leads s s') :
    (∀ r ∈ s.parts, r.isLive = false → r.IsGone s') ∧
      (∀ t ∈ s.trades, t.isLive = false → t.IsGone s') ∧
      (∀ r ∈ s.statuses, r.isLive = false → r.IsGone s') ∧ SameReadings s' s'.purged := by
  have hpaired := Store.Paired.of_reachable hs
  obtain ⟨hs', hkept⟩ := keepsDeleted_of_leads hs h
  refine ⟨fun r hr hdead => ?_, fun t ht hdead => ?_, fun r hr hdead => ?_, sameReadings_purged s'⟩
  · exact isGone_of_dead_part hs' (hkept.parts r hr hdead) hdead
  · obtain ⟨r, hp⟩ := hpaired.exists_status ht
    exact (isGone_of_pair hs' (hkept.pairs _ hp hdead)).1
  · obtain ⟨t, hp⟩ := hpaired.exists_trade hr
    have hdead' : t.isLive = false := (hpaired.belongs _ hp).live.symm.trans hdead
    exact (isGone_of_pair hs' (hkept.pairs _ hp hdead')).2

/-- Operator 1 deletes its request, which frees its part, and removes that. -/
def sampleDeletions : List Call :=
  [sampleCall ⟨1⟩ (.deleteTrade (.v4 30)), sampleCall ⟨1⟩ (.removeAssembly (.v4 10))]

/-- The registration that the deleted request had been waiting for leaves its status pending. -/
theorem deleted_for_good_sample :
    (∃ r ∈ (sampleRegistration.after (runAll sampleDeletions sampleAnswered)).statuses,
        r.trade = .v4 30 ∧ r.isLive = false ∧ r.progress = "PENDING") ∧
      ∃ r : PartRecord, r.trace = .v4 10 ∧
        r.IsGone (sampleRegistration.after (runAll sampleDeletions sampleAnswered)) := by
  have hreachable : Reachable (runAll sampleDeletions sampleAnswered) :=
    reachable_sampleAnswered.calls (by decide +kernel)
  have hleads : Leads (runAll sampleDeletions sampleAnswered)
      (sampleRegistration.after (runAll sampleDeletions sampleAnswered)) :=
    Leads.call .refl sampleRegistration (by decide +kernel)
  obtain ⟨hparts, -, hstatuses, -⟩ := deleted_for_good hreachable hleads
  obtain ⟨r, hr, htrade, hdead, hpending⟩ : ∃ r ∈ (runAll sampleDeletions sampleAnswered).statuses,
      r.trade = .v4 30 ∧ r.isLive = false ∧ r.progress = "PENDING" := by decide +kernel
  obtain ⟨q, hq, htrace, hdead'⟩ : ∃ q ∈ (runAll sampleDeletions sampleAnswered).parts,
      q.trace = .v4 10 ∧ q.isLive = false := by decide +kernel
  exact ⟨⟨r, (hstatuses r hr hdead).row, htrade, hdead, hpending⟩, q, htrace,
    hparts q hq hdead'⟩

end Footprint
