import Footprint.Proofs.Trade.Transition

namespace Footprint

open Table Enumerated Exchange

/-- Whether an operation of a caller may close a request with the given progress. -/
def MayClose (s : Store) (caller : Uuid) (op : Operation) (t : TradeRecord) (progress : String) :
    Prop :=
  progress = literal Progress.cancelled ∧ (∃ reply, op = .cancel t.id reply) ∧
      caller = t.requester ∨
    progress = literal Progress.rejected ∧ (∃ reply, op = .reject t.id reply) ∧
      caller = t.supplier ∨
    progress = literal Progress.completed ∧
      ((∃ trace, op = .answer t.id trace) ∧ caller = t.supplier ∨
        ∃ trace, op.registers = some trace ∧ t.supplierPart = some trace ∧
          ∃ part ∈ s.parts, part.trace = trace ∧ part.isLive ∧ caller = part.operator)

/-- What an operation of a caller has to be, by what becomes of a trade `t` and its status `r`. -/
structure Authorised (s : Store) (caller : Uuid) (op : Operation) (t t' : TradeRecord)
    (r r' : StatusRecord) : Prop where
  progress : r'.progress ≠ r.progress →
    r.progress = literal Progress.pending ∧ MayClose s caller op t r'.progress
  deletion : t'.isLive = false ∨ r'.isLive = false →
    op = .deleteTrade t.id ∧ caller = t.requester
  supplierPart : t'.supplierPart ≠ t.supplierPart →
    r.progress = literal Progress.pending ∧ (∃ trace, op = .answer t.id trace) ∧
      caller = t.supplier
  terms : t'.supplier ≠ t.supplier ∨ r'.supplier ≠ r.supplier ∨ r'.message ≠ r.message ∨
      r'.dueDate ≠ r.dueDate →
    r.progress = literal Progress.pending ∧
      (∃ tradeId statusId q, op = .putRequest tradeId statusId q ∧ q.trade = some t.id) ∧
      caller = t.requester

variable {now : Instant} {caller : Uuid} {s : Store} {op : Operation} {t t' : TradeRecord}
variable {r r' : StatusRecord}

private theorem not_deleted {P : Prop} (htrade : t.isLive) (hstatus : r.isLive)
    (h : t.isLive = false ∨ r.isLive = false) : P := by
  rw [htrade, hstatus] at h
  rcases h with h | h <;> cases h

theorem Authorised.refl (htrade : t.isLive) (hstatus : r.isLive) :
    Authorised s caller op t t r r where
  progress := absurd rfl
  deletion := not_deleted htrade hstatus
  supplierPart := absurd rfl
  terms h := by simp at h

/-- A status that is closed and otherwise keeps its terms. -/
theorem Authorised.of_close (htrade : t.isLive) (hstatus : r'.isLive)
    (hpending : r.progress = literal Progress.pending) (hclose : MayClose s caller op t r'.progress)
    (hsupplier : r'.supplier = r.supplier) (hmessage : r'.message = r.message)
    (hdue : r'.dueDate = r.dueDate) : Authorised s caller op t t r r' where
  progress _ := ⟨hpending, hclose⟩
  deletion := not_deleted htrade hstatus
  supplierPart h := absurd rfl h
  terms h := by simp [hsupplier, hmessage, hdue] at h

theorem Transition.authorised {p p' : TradeRecord × StatusRecord}
    (h : Transition now caller s op p p') (htrade : p.1.isLive) (hstatus : p.2.isLive) :
    Authorised s caller op p.1 p'.1 p.2 p'.2 := by
  cases h with
  | unchanged => exact .refl htrade hstatus
  | readdressed hnamed hrequester hpending =>
    refine ⟨absurd rfl, not_deleted htrade hstatus, absurd rfl, fun _ => ?_⟩
    exact ⟨(StatusRecord.isPending_iff.1 hpending).1, ⟨_, _, _, rfl, hnamed⟩, hrequester.symm⟩
  | @answered trade trace p part progress hnamed hsupplier hpending houtcome =>
    have hpending := (StatusRecord.isPending_iff.1 hpending).1
    have hop : ∃ trace', Operation.answer trade trace = .answer p.1.id trace' :=
      ⟨trace, by rw [hnamed]⟩
    refine ⟨fun hchanged => ⟨hpending, ?_⟩, not_deleted htrade hstatus,
      fun _ => ⟨hpending, hop, hsupplier.symm⟩, ?_⟩
    · -- The answer changes the progress only by completing the request.
      have hprogress : progress = .completed := by
        rw [houtcome]
        rw [houtcome] at hchanged
        split at hchanged
        · rw [if_pos ‹_›]
        · exact absurd hpending.symm hchanged
      exact Or.inr (Or.inr ⟨congrArg literal hprogress, Or.inl ⟨hop, hsupplier.symm⟩⟩)
    · intro h
      simp [TradeRecord.answered, StatusRecord.answered] at h
  | completed hregisters hpart howned hpending =>
    obtain ⟨part, hmem, htrace, hoperator, hlive, -⟩ := Store.part?_eq_some howned
    have hclose : MayClose s caller op p.1 (literal Progress.completed) :=
      Or.inr (Or.inr ⟨rfl, Or.inr
        ⟨_, hregisters, hpart, part, hmem, htrace, hlive, hoperator.symm⟩⟩)
    exact .of_close htrade hstatus (StatusRecord.isPending_iff.1 hpending).1 hclose rfl rfl rfl
  | @cancelled trade reply p hnamed hrequester hpending =>
    have hclose : MayClose s caller (.cancel trade reply) p.1 (literal Progress.cancelled) :=
      Or.inl ⟨rfl, ⟨reply, by rw [hnamed]⟩, hrequester.symm⟩
    exact .of_close htrade hstatus (StatusRecord.isPending_iff.1 hpending).1 hclose rfl rfl rfl
  | @rejected trade reply p hnamed hsupplier hpending =>
    have hclose : MayClose s caller (.reject trade reply) p.1 (literal Progress.rejected) :=
      Or.inr (Or.inl ⟨rfl, ⟨reply, by rw [hnamed]⟩, hsupplier.symm⟩)
    exact .of_close htrade hstatus (StatusRecord.isPending_iff.1 hpending).1 hclose rfl rfl rfl
  | deleted hnamed hrequester _ =>
    refine ⟨absurd rfl, fun _ => ⟨by rw [hnamed], hrequester.symm⟩, absurd rfl, ?_⟩
    intro h
    simp [TradeRecord.deleted, StatusRecord.deleted] at h

/-- Every live request has one trade, both go on as one row each, and whatever a call changes of
them its caller is entitled to change by that operation. -/
theorem changes_authorised (hs : Reachable s) {c : Call} (hc : c.Fresh s) (hr : r ∈ s.statuses)
    (hlive : r.isLive) :
    ∃ t ∈ s.trades, ∃ t' ∈ (c.after s).trades, ∃ r' ∈ (c.after s).statuses,
      (∀ q ∈ s.trades, q.id = r.trade ↔ q = t) ∧
      (∀ q ∈ (c.after s).trades, q.id = t.id ↔ q = t') ∧
      (∀ q ∈ (c.after s).statuses, q.id = r.id ↔ q = r') ∧
      Authorised s c.caller c.op t t' r r' := by
  have hpaired := Store.Paired.of_reachable hs
  have hpaired' := Store.Paired.of_reachable (hs.call c hc)
  obtain ⟨t, hp⟩ := hpaired.exists_trade hr
  have hbelongs := hpaired.belongs _ hp
  have htrade : t.isLive := by rw [← hbelongs.live, hlive]
  -- A refused call leaves the pair alone, an accepted one takes it through a transition.
  have hnext : ∃ p' ∈ (c.after s).pairs, p'.1.id = t.id ∧ p'.2.id = r.id ∧
      Authorised s c.caller c.op t p'.1 r p'.2 := by
    rcases c.after_eq s with hsame | ⟨reply, haccepted⟩
    · rw [hsame]
      exact ⟨(t, r), hp, rfl, rfl, .refl htrade hlive⟩
    · obtain ⟨p', hp', hmove⟩ := (evolves_of_accepted hpaired haccepted).next hpaired hp
      obtain ⟨hid, hid', -⟩ := hmove.keeps hbelongs
      exact ⟨p', hp', hid, hid', hmove.authorised htrade hlive⟩
  obtain ⟨⟨t', r'⟩, hp', hid, hid', hauthorised⟩ := hnext
  refine ⟨t, Store.fst_mem_of_pairs hp, t', Store.fst_mem_of_pairs hp', r',
    Store.snd_mem_of_pairs hp', ?_, ?_, ?_, hauthorised⟩
  · intro q hq
    refine ⟨fun h => ?_, fun h => by rw [h, hbelongs.trade]⟩
    exact eq_of_key_eq hpaired.trades hq (Store.fst_mem_of_pairs hp) (h.trans hbelongs.trade)
  · intro q hq
    refine ⟨fun h => ?_, fun h => by rw [h, hid]⟩
    exact eq_of_key_eq hpaired'.trades hq (Store.fst_mem_of_pairs hp') (h.trans hid.symm)
  · intro q hq
    refine ⟨fun h => ?_, fun h => by rw [h, hid']⟩
    exact eq_of_key_eq hpaired'.statuses hq (Store.snd_mem_of_pairs hp') (h.trans hid'.symm)

/-- A registration that completes the request answered with its part. -/
theorem changes_authorised_at_registration :
    ∃ r ∈ sampleAnswered.statuses, r.progress = "PENDING" ∧
      ∃ t ∈ sampleAnswered.trades, ∃ t' ∈ (sampleRegistration.after sampleAnswered).trades,
        ∃ r' ∈ (sampleRegistration.after sampleAnswered).statuses, r'.progress = "COMPLETED" ∧
          Authorised sampleAnswered ⟨2⟩ sampleRegistration.op t t' r r' := by
  obtain ⟨r, hr, hlive, hpending⟩ :
      ∃ r ∈ sampleAnswered.statuses, r.isLive ∧ r.progress = "PENDING" := by decide +kernel
  have hcompleted : ∀ r' ∈ (sampleRegistration.after sampleAnswered).statuses,
      r'.progress = "COMPLETED" := by decide +kernel
  obtain ⟨t, ht, t', ht', r', hr', -, -, -, hauthorised⟩ :=
    changes_authorised reachable_sampleAnswered (c := sampleRegistration) (by decide +kernel) hr hlive
  exact ⟨r, hr, hpending, t, ht, t', ht', r', hr', hcompleted r' hr', hauthorised⟩

end Footprint
