import Footprint.Proofs.Part.Storable
import Footprint.Proofs.Trade.Supplier

namespace Footprint

open Table Enumerated Exchange

/-- The status of the trade is terminated if and only if the part that answers the trade is. -/
def TreeFollows (s : Store) (t : TradeRecord) : Prop :=
  ∀ trace, t.supplierPart = some trace →
    ∃ q ∈ s.statuses, q.trade = t.id ∧ q.isLive ∧
      ∃ r ∈ s.parts, r.trace = trace ∧ r.isLive ∧
        q.tree = if r.terminal then "TERMINATED" else "UNTERMINATED"

def TreesFollow (s : Store) : Prop :=
  ∀ t ∈ s.trades, t.isLive → TreeFollows s t

/-- Whether an operation is to store an assembly with the part, under the given flag. -/
def Exchange.Operation.marks (op : Operation) (trace : Uuid) (terminal : Bool) : Prop :=
  ∃ ids draft, op = .putAssembly ids draft ∧
    ∃ d ∈ draft.parent.toList ++ draft.children, d.trace = some trace ∧ d.terminal = terminal

/-- Whether an operation is to turn the flag of the part that answers the trade. -/
def Exchange.Operation.turns (op : Operation) (s : Store) (t : TradeRecord) : Prop :=
  t.isLive ∧ ∃ trace, t.supplierPart = some trace ∧
    ∃ r ∈ s.parts, r.trace = trace ∧ op.marks trace !r.terminal

/-- At some time before the part had the flag, and the trade was answered with it or figures were
registered for it. -/
def TreeSetBy (s : Store) (trade trace : Uuid) (terminal : Bool) : Prop :=
  ∃ before, ∃ c : Call, Reachable before ∧ c.Fresh before ∧ c.Succeeds before ∧
    (c.op = .answer trade trace ∨ c.op.registers = some trace) ∧
    (∃ part, before.part? c.caller trace = .ok (some part) ∧ part.terminal = terminal) ∧
    Leads (c.after before) s

variable {limits : TextLimits} {now : Instant} {caller : Uuid} {s s' : Store} {op : Operation}
variable {reply : Reply} {p p' : TradeRecord × StatusRecord} {trade trace : Uuid} {terminal : Bool}
variable {c : Call} {r r' : PartRecord}

theorem TreeSetBy.call (h : TreeSetBy s trade trace terminal) (c : Call) (hfresh : c.Fresh s) :
    TreeSetBy (c.after s) trade trace terminal := by
  obtain ⟨before, setter, hbefore, hfresh', hsucceeds, hop, hpart, hleads⟩ := h
  exact ⟨before, setter, hbefore, hfresh', hsucceeds, hop, hpart, hleads.call c hfresh⟩

theorem terminal_eq_of_tree_eq {terminal terminal' : Bool}
    (h : (if terminal then "TERMINATED" else "UNTERMINATED") =
      if terminal' then "TERMINATED" else "UNTERMINATED") : terminal = terminal' := by
  cases terminal <;> cases terminal' <;> first | rfl | exact absurd h (by decide)

/-- A child that is named comes in with the flag of its draft. -/
theorem exists_child_of_draft {parent : Uuid} {index : Nat} {ids : List Uuid} {ds : List PartDraft}
    {ps : List Part} {d : PartDraft} {name : Uuid}
    (h : partsOfDrafts s caller parent index ds (assignTraces ids (ds.map (·.trace))) = .ok ps)
    (hd : d ∈ ds) (hname : d.trace = some name) :
    ∃ p ∈ ps, p.trace = name ∧ p.terminal = d.terminal := by
  induction ds generalizing index ids ps with
  | nil => cases hd
  | cons d' ds ih =>
    obtain ⟨trace, ids', hassigned, hgiven⟩ := assignTraces_cons ids d'.trace
    rw [List.map_cons, hassigned] at h
    obtain ⟨p, hp, h⟩ := bind_eq_ok.1 h
    obtain ⟨rest, hrest, h⟩ := bind_eq_ok.1 h
    cases h
    rcases List.mem_cons.1 hd with rfl | hd
    · obtain ⟨htrace, -, hterminal, -⟩ := partOfDraft_eq_ok hp
      exact ⟨p, List.mem_cons_self, htrace.trans (hgiven name hname), hterminal⟩
    · obtain ⟨q, hq, hqtrace⟩ := ih hrest hd
      exact ⟨q, List.mem_cons_of_mem _ hq, hqtrace⟩

/-- The part of an assembly that a draft names comes in with the flag of the draft. -/
theorem exists_part_of_marks {ids traces : List Uuid} {draft : AssemblyDraft} {d : PartDraft}
    {parent : Part} {children : List Part} {head : Uuid} (hparent : draft.parent = some d)
    (hassigned : assignTraces ids ((d :: draft.children).map (·.trace)) = head :: traces)
    (hpart : partOfDraft s caller head .parent d head = .ok parent)
    (hchildren : partsOfDrafts s caller head 0 draft.children traces = .ok children)
    (hmarks : (Operation.putAssembly ids draft).marks trace terminal) :
    ∃ p ∈ (⟨maskAmount parent, children⟩ : Assembly).parts,
      p.trace = trace ∧ p.terminal = terminal := by
  obtain ⟨ids', draft', hop, child, hchild, hname, rfl⟩ := hmarks
  cases hop
  rw [hparent] at hchild
  obtain ⟨head', ids', hassigned', hgiven⟩ := assignTraces_cons ids d.trace
  obtain ⟨rfl, rfl⟩ := List.cons.inj ((hassigned' _).symm.trans hassigned)
  rcases List.mem_cons.1 hchild with rfl | hchild
  · obtain ⟨hhead, -, hterminal, -⟩ := partOfDraft_eq_ok hpart
    exact ⟨_, List.mem_cons_self, hhead.trans (hgiven _ hname), hterminal⟩
  · obtain ⟨p, hp, hptrace⟩ := exists_child_of_draft hchildren hchild hname
    exact ⟨p, List.mem_cons_of_mem _ hp, hptrace⟩

/-- What an assembly that is stored makes of the flag of a part that was there before. -/
theorem terminal_of_putAssembly {ids : List Uuid} {draft : AssemblyDraft} (hs : Reachable s)
    (hfresh : c.Fresh s) (hop : c.op = .putAssembly ids draft)
    (h : Accepted limits now caller s (.putAssembly ids draft) reply s') (hr : r ∈ s.parts)
    (hr' : r' ∈ s'.parts) (htrace : r'.trace = r.trace) :
    (∀ terminal, c.op.marks r.trace terminal → r'.terminal = terminal) ∧
      ((∀ terminal, ¬ c.op.marks r.trace terminal) → r'.terminal = r.terminal) := by
  cases h with
  | @putAssembly ids draft d head traces parent children existing s' hrules hparent hassigned hpart
      hchildren _ _ hwritten =>
    have hnodup := nodup_traces_of_draft hfresh hop hrules hparent hassigned hpart hchildren
    have htraces := traces_of_draft hassigned hpart hchildren
    obtain ⟨-, -, -, hparts, -⟩ := Store.putAssembly_eq_ok hwritten
    rw [hparts] at hr'
    have hmarked {terminal : Bool} (hmarks : c.op.marks r.trace terminal) :=
      exists_part_of_marks hparent hassigned hpart hchildren (hop ▸ hmarks)
    rcases mem_writeParts hr' with ⟨hr', hothers⟩ | ⟨p, hp, q, rfl⟩
    · refine ⟨fun terminal hmarks => ?_, fun _ => ?_⟩
      · obtain ⟨p, hp, hptrace, -⟩ := hmarked hmarks
        exact absurd (hptrace.trans htrace.symm) (hothers p hp)
      · obtain ⟨q, hq, hqtrace, hterminal, -⟩ := exists_of_mem_dropParts hr'
        rw [← hterminal, eq_of_key_eq (nodup_parts hs) hq hr (hqtrace.trans htrace)]
    · refine ⟨fun terminal hmarks => ?_, fun hunmarked => ?_⟩
      · obtain ⟨p', hp', hptrace, hterminal⟩ := hmarked hmarks
        rw [← hterminal, eq_of_key_eq hnodup hp' hp (hptrace.trans htrace.symm)]
        rfl
      · -- Its trace is not new, so that a draft names it.
        have hmem : r.trace ∈ assignTraces ids ((d :: draft.children).map (·.trace)) := by
          rw [← htraces, ← htrace]
          exact List.mem_map_of_mem hp
        rcases mem_assignTraces hmem with hnew | hnamed
        · rw [newTraces_eq_minted hop hparent] at hnew
          exact absurd rfl (hfresh.trace_ne hnew hr)
        · obtain ⟨child, hchild, hname⟩ := List.mem_map.1 hnamed
          exact absurd ⟨ids, draft, hop, child, by rwa [hparent], hname, rfl⟩
            (hunmarked child.terminal)

/-- A part has the flag that an assembly gives it, and it keeps its flag if none does. -/
theorem terminal_of_accepted (hs : Reachable s) (hfresh : c.Fresh s)
    (h : Accepted c.limits c.now c.caller s c.op reply s') (hr : r ∈ s.parts) (hr' : r' ∈ s'.parts)
    (htrace : r'.trace = r.trace) :
    (∀ terminal, c.op.marks r.trace terminal → r'.terminal = terminal) ∧
      ((∀ terminal, ¬ c.op.marks r.trace terminal) → r'.terminal = r.terminal) := by
  by_cases hop : ∃ ids draft, c.op = .putAssembly ids draft
  · obtain ⟨ids, draft, hop⟩ := hop
    exact terminal_of_putAssembly hs hfresh hop (hop ▸ h) hr hr' htrace
  · refine ⟨fun terminal hmarks => ?_, fun _ => ?_⟩
    · obtain ⟨ids, draft, hop', -⟩ := hmarks
      exact absurd ⟨ids, draft, hop'⟩ hop
    · have hkept : ∃ q ∈ s.parts, q.trace = r'.trace ∧ q.terminal = r'.terminal := by
        cases assemblyChange_of_accepted h with
        | kept hparts _ => exact ⟨r', hparts ▸ hr', rfl, rfl⟩
        | removed _ hwritten =>
          subst hwritten
          obtain ⟨q, hq, hqtrace, hterminal, -⟩ := exists_of_mem_dropParts hr'
          exact ⟨q, hq, hqtrace, hterminal⟩
        | stored _ _ hstores => exact absurd hstores hop
      obtain ⟨q, hq, hqtrace, hterminal⟩ := hkept
      rw [← hterminal, eq_of_key_eq (nodup_parts hs) hq hr (hqtrace.trans htrace)]

/-- A tree state is from before, or it is the flag of the part at the time of the operation. -/
theorem Transition.tree (h : Transition now caller s op p p')
    (hpart : p'.1.supplierPart = some trace) :
    p.1.supplierPart = some trace ∧ p'.2.tree = p.2.tree ∨
      ∃ part, (op = .answer p.1.id trace ∨ op.registers = some trace) ∧
        s.part? caller trace = .ok (some part) ∧
        p'.2.tree = if part.terminal then "TERMINATED" else "UNTERMINATED" := by
  cases h with
  | @answered trade trace' p part progress hnamed _ _ _ howned =>
    cases hpart
    exact Or.inr ⟨part, Or.inl (by rw [hnamed]), howned, rfl⟩
  | @completed op trace' p part hregisters hanswered howned _ =>
    cases hanswered.symm.trans hpart
    exact Or.inr ⟨part, Or.inr hregisters, howned, rfl⟩
  | _ => exact Or.inl ⟨hpart, rfl⟩

/-- An answer or a registration stores no assembly. -/
theorem not_stores_of_sets (h : op = .answer trade trace ∨ op.registers = some trace)
    (ids : List Uuid) (draft : AssemblyDraft) : op ≠ .putAssembly ids draft := by
  rintro rfl
  rcases h with h | h <;> cases h

/-- The tree state of a live trade is the flag that its part had when it was set. -/
theorem exists_setter (h : Reachable s) : ∀ p ∈ s.pairs, ∀ trace, p.1.supplierPart = some trace →
    ∃ terminal, TreeSetBy s p.1.id trace terminal ∧
      p.2.tree = if terminal then "TERMINATED" else "UNTERMINATED" := by
  refine h.induct_after (P := fun s => ∀ p ∈ s.pairs, ∀ trace, p.1.supplierPart = some trace →
    ∃ terminal, TreeSetBy s p.1.id trace terminal ∧
      p.2.tree = if terminal then "TERMINATED" else "UNTERMINATED") ?_ ?_
  · simp [Store.pairs, Store.empty]
  · intro s reply c hs hfresh hsucceeds ih haccepted p' hp' trace hpart'
    have hpaired := Store.Paired.of_reachable hs
    rcases (evolves_of_accepted hpaired haccepted).prior hpaired hp' with
      ⟨p, hp, hmove⟩ | ⟨_, _, _, -, rfl⟩
    · have hid : p'.1.id = p.1.id := (hmove.keeps (hpaired.belongs p hp)).1
      rw [hid]
      rcases hmove.tree hpart' with ⟨hpart, htree⟩ | ⟨part, hop, howned, htree⟩
      · obtain ⟨terminal, hset, hbefore⟩ := ih p hp trace hpart
        exact ⟨terminal, hset.call c hfresh, htree.trans hbefore⟩
      · exact ⟨part.terminal,
          ⟨s, c, hs, hfresh, hsucceeds, hop, ⟨part, howned, rfl⟩, .refl⟩, htree⟩
    · cases hpart'

/-- In a reachable store the row of the part is there, and it alone decides. -/
theorem treeFollows_iff (hs : Reachable s) (hp : p ∈ s.pairs) (hlive : p.1.isLive)
    (hpart : p.1.supplierPart = some trace) :
    ∃ r ∈ s.parts, r.trace = trace ∧ r.isLive ∧
      (TreeFollows s p.1 ↔
        p.2.tree = if r.terminal then "TERMINATED" else "UNTERMINATED") := by
  have hpaired := Store.Paired.of_reachable hs
  obtain ⟨-, -, r, hr, hrtrace, hrlive, -⟩ :=
    exists_answerer hs p.1 (Store.fst_mem_of_pairs hp) hlive trace hpart
  refine ⟨r, hr, hrtrace, hrlive, fun h => ?_, fun htree trace' hpart' => ?_⟩
  · obtain ⟨q, hq, htrade, -, r', hr', hrtrace', -, htree⟩ := h trace hpart
    rw [hpaired.status_unique hp hq htrade] at htree
    rwa [eq_of_key_eq (nodup_parts hs) hr hr' (hrtrace.trans hrtrace'.symm)]
  · cases hpart.symm.trans hpart'
    have hbelongs := hpaired.belongs p hp
    exact ⟨p.2, Store.snd_mem_of_pairs hp, hbelongs.trade, hbelongs.live.trans hlive, r, hr,
      hrtrace, hrlive, htree⟩

/-- A flag that is not turned stays. -/
theorem terminal_of_not_turns (hs : Reachable s) (hfresh : c.Fresh s)
    (h : Accepted c.limits c.now c.caller s c.op reply s') (hlive : p.1.isLive)
    (hpart : p.1.supplierPart = some r.trace) (hr : r ∈ s.parts) (hr' : r' ∈ s'.parts)
    (htrace : r'.trace = r.trace) (hturns : ¬ c.op.turns s p.1) : r'.terminal = r.terminal := by
  obtain ⟨hmarked, hunmarked⟩ := terminal_of_accepted hs hfresh h hr hr' htrace
  by_cases hmarks : c.op.marks r.trace !r.terminal
  · exact absurd ⟨hlive, r.trace, hpart, r, hr, rfl, hmarks⟩ hturns
  by_cases hsame : c.op.marks r.trace r.terminal
  · exact hmarked r.terminal hsame
  · refine hunmarked fun terminal => ?_
    rcases Bool.eq_or_eq_not terminal r.terminal with rfl | rfl
    · exact hsame
    · exact hmarks

/-- A tree state that follows its part goes on to do so unless the flag of the part is turned. -/
theorem TreeFollows.step (hs : Reachable s) (hfresh : c.Fresh s)
    (h : Accepted c.limits c.now c.caller s c.op reply (c.after s)) (hp : p ∈ s.pairs)
    (hp' : p' ∈ (c.after s).pairs) (hmove : Transition c.now c.caller s c.op p p')
    (hlive' : p'.1.isLive) (hfollows : TreeFollows s p.1) :
    TreeFollows (c.after s) p'.1 ↔ ¬ c.op.turns s p.1 := by
  have hs' := hs.call c hfresh
  have hlive := hmove.live hlive'
  constructor
  · rintro hfollows' ⟨-, trace, hpart, r, hr, hrtrace, hmarks⟩
    have hterminal (r' : PartRecord) (hr' : r' ∈ (c.after s).parts) (htrace : r'.trace = trace) :
        r'.terminal = !r.terminal :=
      (terminal_of_accepted hs hfresh h hr hr' (htrace.trans hrtrace.symm)).1 _ (hrtrace ▸ hmarks)
    obtain ⟨ids, draft, hop, -⟩ := hmarks
    have hpart' : p'.1.supplierPart = some trace := by
      rw [hop] at hmove
      cases hmove <;> exact hpart
    have htree : p'.2.tree = p.2.tree := by
      rcases hmove.tree hpart' with ⟨-, htree⟩ | ⟨part, hsets, -⟩
      · exact htree
      · exact absurd hop (not_stores_of_sets hsets ids draft)
    obtain ⟨q, hq, hqtrace, -, hiff⟩ := treeFollows_iff hs hp hlive hpart
    obtain ⟨r', hr', hrtrace', -, hiff'⟩ := treeFollows_iff hs' hp' hlive' hpart'
    have hflags : q.terminal = r'.terminal :=
      terminal_eq_of_tree_eq (by rw [← hiff.1 hfollows, ← hiff'.1 hfollows', htree])
    rw [hterminal r' hr' hrtrace',
      eq_of_key_eq (nodup_parts hs) hq hr (hqtrace.trans hrtrace.symm)] at hflags
    exact (Bool.eq_not_self _).1 hflags
  · intro hturns
    cases hpart' : p'.1.supplierPart with
    | none =>
      intro trace hpart
      cases hpart'.symm.trans hpart
    | some trace =>
      obtain ⟨r', hr', hrtrace', -, hiff'⟩ := treeFollows_iff hs' hp' hlive' hpart'
      rw [hiff']
      rcases hmove.tree hpart' with ⟨hpart, htree⟩ | ⟨part, hsets, howned, htree⟩
      · obtain ⟨r, hr, rfl, -, hiff⟩ := treeFollows_iff hs hp hlive hpart
        rw [htree, hiff.1 hfollows,
          terminal_of_not_turns hs hfresh h hlive hpart hr hr' hrtrace' hturns]
      · obtain ⟨r, hr, rfl, -, -, hread⟩ := Store.part?_eq_some howned
        have hsame : r'.terminal = r.terminal := by
          refine (terminal_of_accepted hs hfresh h hr hr' hrtrace').2 ?_
          rintro terminal ⟨ids, draft, hop, -⟩
          exact not_stores_of_sets hsets ids draft hop
        obtain ⟨-, -, -, -, -, hflag, -⟩ := PartRecord.part_eq_ok.1 hread
        rw [htree, hsame, hflag]

theorem TreesFollow.step (hs : Reachable s) (hfresh : c.Fresh s) (hfollows : TreesFollow s)
    (h : Accepted c.limits c.now c.caller s c.op reply (c.after s)) :
    TreesFollow (c.after s) ↔ ¬ ∃ t ∈ s.trades, c.op.turns s t := by
  have hpaired := Store.Paired.of_reachable hs
  have hpaired' := Store.Paired.of_reachable (hs.call c hfresh)
  have hevolves := evolves_of_accepted hpaired h
  constructor
  · rintro hfollows' ⟨t, ht, hturns⟩
    obtain ⟨r, hp⟩ := hpaired.exists_status ht
    obtain ⟨p', hp', hmove⟩ := hevolves.next hpaired hp
    have hlive' : p'.1.isLive := by
      obtain ⟨hlive, -, -, -, -, -, ids, draft, hop, -⟩ := hturns
      rw [hop] at hmove
      cases hmove <;> exact hlive
    exact (TreeFollows.step hs hfresh h hp hp' hmove hlive' (hfollows t ht hturns.1)).1
      (hfollows' p'.1 (Store.fst_mem_of_pairs hp') hlive') hturns
  · intro hstays t' ht' hlive'
    obtain ⟨r', hp'⟩ := hpaired'.exists_status ht'
    rcases hevolves.prior hpaired hp' with ⟨p, hp, hmove⟩ | ⟨_, _, _, -, hnew⟩
    · have ht := Store.fst_mem_of_pairs hp
      exact (TreeFollows.step hs hfresh h hp hp' hmove hlive'
        (hfollows p.1 ht (hmove.live hlive'))).2 fun hturns => hstays ⟨p.1, ht, hturns⟩
    · cases hnew
      exact nofun

/-- In a reachable store the tree state of an answered live trade is the flag that its part had
when the trade was answered or figures were registered for the part, so it follows the part exactly
when the part still has that flag. As long as all tree states follow their parts, the call that ends
this is an accepted assembly that turns the flag of a part that answers a live trade. -/
theorem trees_follow_iff (hs : Reachable s) :
    (∀ t ∈ s.trades, t.isLive → ∀ trace, t.supplierPart = some trace →
      ∃ terminal, TreeSetBy s t.id trace terminal ∧
        (∃ q ∈ s.statuses, q.trade = t.id ∧ q.isLive ∧
          q.tree = if terminal then "TERMINATED" else "UNTERMINATED") ∧
        ∃ r ∈ s.parts, r.trace = trace ∧ r.isLive ∧ (TreeFollows s t ↔ r.terminal = terminal)) ∧
    ∀ c : Call, c.Fresh s → TreesFollow s →
      (TreesFollow (c.after s) ↔ ¬ (c.Succeeds s ∧ ∃ t ∈ s.trades, c.op.turns s t)) := by
  constructor
  · intro t ht hlive trace hpart
    have hpaired := Store.Paired.of_reachable hs
    obtain ⟨q, hp⟩ := hpaired.exists_status ht
    obtain ⟨terminal, hset, htree⟩ := exists_setter hs _ hp trace hpart
    obtain ⟨r, hr, hrtrace, hrlive, hiff⟩ := treeFollows_iff hs hp hlive hpart
    have hbelongs := hpaired.belongs _ hp
    refine ⟨terminal, hset, ⟨q, Store.snd_mem_of_pairs hp, hbelongs.trade,
      hbelongs.live.trans hlive, htree⟩, r, hr, hrtrace, hrlive, ?_⟩
    rw [hiff, htree]
    constructor
    · exact fun h => (terminal_eq_of_tree_eq h).symm
    · rintro rfl
      rfl
  · intro c hfresh hfollows
    rcases c.after_cases s with ⟨hrefused, hsame⟩ | ⟨hsucceeds, reply, haccepted⟩
    · rw [hsame]
      exact iff_of_true hfollows fun h => hrefused h.1
    · rw [hfollows.step hs hfresh haccepted]
      exact not_congr ⟨fun h => ⟨hsucceeds, h⟩, And.right⟩

/-- The tree state of the sample, which the answer set. -/
theorem trees_follow_iff_sample : TreesFollow sampleAnswered ∧
    ∃ t ∈ sampleAnswered.trades, t.isLive ∧ t.supplierPart = some (.v4 20) ∧
      TreeSetBy sampleAnswered t.id (.v4 20) true := by
  have hsample : ∀ t ∈ sampleAnswered.trades, t.isLive ∧ t.supplierPart = some (.v4 20) := by
    decide +kernel
  have hflag : ∀ r ∈ sampleAnswered.parts, r.trace = .v4 20 → r.terminal = true := by decide +kernel
  have htree : ∀ q ∈ sampleAnswered.statuses,
      q.tree = "TERMINATED" := by decide +kernel
  have hcases (t : TradeRecord) (ht : t ∈ sampleAnswered.trades) :
      TreeSetBy sampleAnswered t.id (.v4 20) true ∧ TreeFollows sampleAnswered t := by
    obtain ⟨hlive, hpart⟩ := hsample t ht
    obtain ⟨terminal, hset, ⟨q, hq, -, -, hqtree⟩, r, hr, hrtrace, -, hfollows⟩ :=
      (trees_follow_iff reachable_sampleAnswered).1 t ht hlive (.v4 20) hpart
    have htrue : terminal = true := terminal_eq_of_tree_eq (hqtree.symm.trans (htree q hq))
    rw [htrue] at hset hfollows
    exact ⟨hset, hfollows.2 (hflag r hr hrtrace)⟩
  obtain ⟨t, ht⟩ : ∃ t, t ∈ sampleAnswered.trades :=
    List.exists_mem_of_ne_nil _ (by decide +kernel)
  obtain ⟨hlive, hpart⟩ := hsample t ht
  exact ⟨fun t ht _ => (hcases t ht).2, t, ht, hlive, hpart, (hcases t ht).1⟩

/-- The supplier of the sample finds out that its part 20 is made of others. -/
def reopenedPart : Call :=
  sampleCall ⟨2⟩ (.putAssembly []
    { parent := (sampleDraft ⟨2⟩ false).parent.map fun d => { d with trace := some (.v4 20) }
      children := [] })

/-- The part is not terminal any more and the request that it answers is still terminated. -/
theorem not_treesFollow_reopened :
    Reachable (reopenedPart.after sampleAnswered) ∧
      (∃ t ∈ (reopenedPart.after sampleAnswered).trades,
        t.isLive ∧ t.supplierPart = some (.v4 20)) ∧
      (∀ q ∈ (reopenedPart.after sampleAnswered).statuses, q.isLive ∧ q.tree = "TERMINATED") ∧
      (∀ r ∈ (reopenedPart.after sampleAnswered).parts, r.trace = .v4 20 → r.terminal = false) ∧
      ¬ TreesFollow (reopenedPart.after sampleAnswered) := by
  have hreach : Reachable (reopenedPart.after sampleAnswered) :=
    reachable_sampleAnswered.call reopenedPart (by decide +kernel)
  have htrade : ∃ t ∈ (reopenedPart.after sampleAnswered).trades,
      t.isLive ∧ t.supplierPart = some (.v4 20) := by decide +kernel
  have htree : ∀ q ∈ (reopenedPart.after sampleAnswered).statuses,
      q.isLive ∧ q.tree = "TERMINATED" := by decide +kernel
  have hflag : ∀ r ∈ (reopenedPart.after sampleAnswered).parts,
      r.trace = .v4 20 → r.terminal = false := by decide +kernel
  refine ⟨hreach, htrade, htree, hflag, fun hfollows => ?_⟩
  obtain ⟨t, ht, hlive, hpart⟩ := htrade
  obtain ⟨q, hq, -, -, r, hr, hrtrace, -, hqtree⟩ := hfollows t ht hlive (.v4 20) hpart
  rw [hflag r hr hrtrace, (htree q hq).2] at hqtree
  exact absurd hqtree (by decide)

end Footprint
