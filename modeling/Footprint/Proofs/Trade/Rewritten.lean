import Footprint.Proofs.Trade.Closed
import Footprint.Proofs.Trade.Transition

namespace Footprint

open Table Enumerated Exchange

/-- The row with all that changes while a request is open taken from another row. -/
def StatusRecord.overwritten (now : Instant) (author : Option Uuid) (r source : StatusRecord) :
    StatusRecord :=
  { r with
    progress := source.progress
    tree := source.tree
    message := source.message
    reply := source.reply
    dueDate := source.dueDate
    completedCount := source.completedCount
    tradesCount := source.tradesCount
    updatedAt := now
    updatedBy := author.getD r.updatedBy }

/-- A status is written as a whole, be it read before other changes were made. -/
theorem StatusRecord.revise_eq_overwritten {now : Instant} {author : Option Uuid}
    {source r : StatusRecord} {status : Status} (h : source.status = .ok status) :
    r.revise now author status = r.overwritten now author source := by
  obtain ⟨hprogress, htree, -, -, -, hmessage, hreply, hdue, hcompleted, htrades, -⟩ :=
    status_eq_ok.1 h
  simp [revise, overwritten, hprogress, htree, hmessage, hreply, hdue, hcompleted, htrades]

namespace Store

variable {s s' : Store} {now : Instant} {author trade trace : Uuid} {status : Status}
variable {p : TradeRecord × StatusRecord}

/-- The trade of that identifier with its status. -/
def pairOf? (s : Store) (trade : Uuid) : Option (TradeRecord × StatusRecord) :=
  s.pairs.find? (·.1.id = trade)

theorem of_pairOf? (h : s.pairOf? trade = some p) : p ∈ s.pairs ∧ p.1.id = trade := by
  rw [pairOf?] at h
  have hid := List.find?_some h
  exact ⟨List.mem_of_find?_eq_some h, of_decide_eq_true hid⟩

namespace Paired

theorem pairOf?_eq (h : Paired s) (hp : p ∈ s.pairs) : s.pairOf? p.1.id = some p :=
  find?_of_unique hp (decide_eq_true rfl) fun _ hq hid =>
    h.eq_of_trade hq hp (of_decide_eq_true hid)

theorem pairOf?_map (h : Paired s) (hp : p ∈ s.pairs) {f : TradeRecord → TradeRecord}
    {g : StatusRecord → StatusRecord} (htrades : s'.trades = s.trades.map f)
    (hstatuses : s'.statuses = s.statuses.map g) (hid : ∀ t, (f t).id = t.id) :
    s'.pairOf? p.1.id = some (f p.1, g p.2) := by
  have hsame : (fun q : TradeRecord × StatusRecord => decide (q.1.id = p.1.id)) ∘ Prod.map f g =
      fun q => decide (q.1.id = p.1.id) := by
    funext q
    exact congrArg (fun id => decide (id = p.1.id)) (hid q.1)
  have hfind := h.pairOf?_eq hp
  rw [pairOf?] at hfind ⊢
  rw [pairs_map htrades hstatuses, List.find?_map, hsame, hfind]
  rfl

theorem eq_of_awaits (h : Paired s) (hp : p ∈ s.pairs) {q : StatusRecord} (hq : q ∈ s.statuses)
    (hawaits : awaits p.2.id q) : q = p.2 := by
  rw [awaits, Bool.and_eq_true, decide_eq_true_eq] at hawaits
  exact eq_of_key_eq h.statuses hq (snd_mem_of_pairs hp) hawaits.1

theorem pairOf?_reviseTrade (h : Paired s) (hp : p ∈ s.pairs) {t : Trade}
    (hwritten : s.reviseTrade now t status author = .ok s') (htrade : t.id = p.1.id)
    (hstatus : status.id = p.2.id) :
    p.2.isPending ∧ s'.pairOf? p.1.id = some (p.1.readdressed now author t.supplier,
      StatusRecord.revise now (some author) status { p.2 with supplier := t.supplier }) := by
  rw [reviseTrade_eq] at hwritten
  obtain ⟨hopen, rfl⟩ := reviseWith_eq_ok.1 hwritten
  obtain ⟨q, hq, hawaits⟩ := exists_awaits_of_addressed hopen
  rw [hstatus] at hawaits
  have hrow := h.eq_of_awaits hp hq hawaits
  rw [hrow] at hawaits
  have hpending : p.2.isPending := (Bool.and_eq_true_iff.1 hawaits).2
  have hlive := h.isLive_of_isPending hp hpending
  refine ⟨hpending, (h.pairOf?_map hp rfl (List.map_map ..) ?_).trans ?_⟩
  · intro t
    split <;> rfl
  · have haddressed : awaits status.id { p.2 with supplier := t.supplier } := by
      rw [hstatus]
      exact hawaits
    rw [Function.comp_apply, if_pos (decide_eq_true hstatus.symm), if_pos haddressed, if_pos]
    · rfl
    · simp [htrade, hlive]

theorem pairOf?_answerTrade (h : Paired s) (hp : p ∈ s.pairs)
    (hwritten : s.answerTrade now p.1.id trace status author = .ok s')
    (hstatus : status.id = p.2.id) :
    p.2.isPending ∧ s'.pairOf? p.1.id = some (p.1.answered now author trace,
      StatusRecord.revise now (some author) status p.2) := by
  obtain ⟨⟨q, hq, hawaits⟩, rfl⟩ := reviseWith_eq_ok.1 hwritten
  rw [hstatus] at hawaits
  have hrow := h.eq_of_awaits hp hq hawaits
  rw [hrow] at hawaits
  have hpending : p.2.isPending := (Bool.and_eq_true_iff.1 hawaits).2
  have hlive := h.isLive_of_isPending hp hpending
  refine ⟨hpending, (h.pairOf?_map hp rfl rfl ?_).trans ?_⟩
  · intro t
    split <;> rfl
  · rw [hstatus, if_pos hawaits, if_pos]
    · rfl
    · simp [hlive]

theorem pairOf?_addFigures (h : Paired s) (hp : p ∈ s.pairs) {setId : Uuid} {fs : List Figure}
    {completed : List Status} (hne : fs ≠ [])
    (hwritten : s.addFigures now (fs.map fun f => { f with setId := some setId }) completed = .ok s') :
    s'.pairOf? p.1.id = some (p.1, completed.foldl
      (fun r c => if awaits c.id r then StatusRecord.revise now none c r else r) p.2) := by
  obtain ⟨-, hsame⟩ := (addFigures_eq_ok hne).1 hwritten
  have htrades : s'.trades = s.trades.map id := by rw [hsame, List.map_id]
  have hstatuses : s'.statuses = s.statuses.map fun r =>
      completed.foldl (fun r c => if awaits c.id r then StatusRecord.revise now none c r else r)
        r := by
    rw [hsame]
    exact foldl_updateWhere completed
  exact h.pairOf?_map hp htrades hstatuses fun _ => rfl

/-- Of the statuses that a registration completes one goes to the row of the trade, also when that
has changed since, as long as it is pending. -/
theorem foldl_completions (h : Paired s) (hp : p ∈ s.pairs) {terminal : Bool}
    {completed : List Status}
    (hcompleted : completions s (.ofTerminal terminal) (s.tradesAnsweredWith trace) = .ok completed)
    {r : StatusRecord} (hid : r.id = p.2.id)
    (hwaits : r.isPending → Evolves.waitsFor s trace p.2) :
    completed.foldl (fun r c => if awaits c.id r then StatusRecord.revise now none c r else r) r =
      if r.isPending then r.overwritten now none (p.2.completed now terminal) else r := by
  have hrow := snd_mem_of_pairs hp
  by_cases hpending : r.isPending
  · have hwaits := hwaits hpending
    rw [if_pos hpending]
    have hmatch {c : Status} : awaits c.id r ↔ awaits c.id p.2 := by
      have hopen := ((Evolves.waitsFor_iff h hp).1 hwaits).1
      simp [awaits, hid, hpending, hopen]
    refine foldl_eq_of_agree ?_ ?_ ?_
    · obtain ⟨c, hc, hawaits⟩ := Evolves.exists_completion h hcompleted hrow hwaits
      exact ⟨c, hc, hmatch.2 hawaits⟩
    · intro c hc hawaits
      obtain ⟨-, status, hread, rfl⟩ :=
        Evolves.origin_of_completions h hcompleted hc hrow (hmatch.1 hawaits)
      exact StatusRecord.revise_eq_overwritten (StatusRecord.status_completed hread)
    · intro c _ hawaits
      simp [awaits, StatusRecord.isPending, StatusRecord.overwritten, StatusRecord.completed,
        literal] at hawaits
  · rw [if_neg hpending]
    refine foldl_eq_self fun c _ hawaits => ?_
    exact absurd (Bool.and_eq_true_iff.1 hawaits).2 hpending

end Paired

end Store

end Footprint
