import Footprint.Proofs.Exchange.Reachable
import Footprint.Proofs.Trade.Pairing

namespace Footprint

open Table Enumerated Exchange

/-- The writes that go to the statuses of requests while they are pending. -/
def Write.isGuarded : Write → Bool
  | .reviseTrade .. | .answerTrade .. | .addFigures .. | .cancelTrade .. | .rejectTrade .. => true
  | _ => false

namespace Store

variable {s s' : Store} {now : Instant} {r : StatusRecord}

/-- The store after a write; a refused one changes nothing. -/
def after (now : Instant) (w : Write) (s : Store) : Store :=
  match s.apply now w with
  | .ok s' => s'
  | .error _ => s

/-- A write is refused for a reason, and all rows stay as they are. -/
def Refuses (s : Store) (now : Instant) (w : Write) (e : Error) : Prop :=
  s.apply now w = .error e ∧ s.after now w = s

theorem refuses_of_error {w : Write} {e : Error} (h : s.apply now w = .error e) :
    s.Refuses now w e :=
  ⟨h, by rw [after, h]⟩

theorem not_awaits {id : Uuid} (hclosed : r.progress ≠ literal Progress.pending) :
    awaits id r = false := by
  simp [awaits, StatusRecord.isPending, hclosed]

/-- All statuses keep their identifiers, and closed ones all that they have. -/
structure Freezes (s s' : Store) (change : StatusRecord → StatusRecord) : Prop where
  statuses : s'.statuses = s.statuses.map change
  id : ∀ r, (change r).id = r.id
  closed : ∀ r ∈ s.statuses, r.progress ≠ literal Progress.pending → change r = r

theorem freezes_self : Freezes s s id where
  statuses := (List.map_id _).symm
  id _ := rfl
  closed _ _ _ := rfl

theorem freezes_updateWhere {selected : StatusRecord → Bool} {change : StatusRecord → StatusRecord}
    (hstatuses : s'.statuses = updateWhere selected change s.statuses)
    (hid : ∀ r, (change r).id = r.id) (hpending : ∀ r, selected r → r.isPending) :
    Freezes s s' fun r => if selected r then change r else r where
  statuses := hstatuses
  id r := by
    split
    · exact hid r
    · rfl
  closed r _ hclosed := by
    refine if_neg fun hselected => ?_
    have hopen := hpending r hselected
    simp [StatusRecord.isPending, hclosed] at hopen

/-- The statuses once the supplier of one has been written. -/
def addressed (id supplier : Uuid) (table : List StatusRecord) : List StatusRecord :=
  updateWhere (fun r => r.id = id) (fun r => { r with supplier := supplier }) table

theorem reviseTrade_eq {t : Trade} {status : Status} {author : Uuid} :
    s.reviseTrade now t status author =
      s.reviseWith now author t.id status .update
        (updateTrade now author t.id (fun r => { r with supplier := t.supplier }) s.trades)
        (addressed status.id t.supplier s.statuses) := rfl

/-- Writing the supplier of a status does not make it pending. -/
theorem exists_awaits_of_addressed {id supplier : Uuid}
    (h : ∃ q ∈ addressed id supplier s.statuses, awaits id q) :
    ∃ q ∈ s.statuses, awaits id q := by
  obtain ⟨q', hq', hawaits⟩ := h
  obtain ⟨q, hq, rfl⟩ := exists_of_mem_updateWhere hq'
  refine ⟨q, hq, ?_⟩
  by_cases hid : q.id = id
  · rw [if_pos (decide_eq_true hid)] at hawaits
    exact hawaits
  · rw [if_neg (by simpa using hid)] at hawaits
    exact hawaits

/-- The supplier is written without looking at the progress, but nothing is written at all when
the status is not pending. -/
theorem freezes_reviseTrade {t : Trade} {status : Status} {author : Uuid}
    (hids : (s.statuses.map (·.id)).Nodup) (h : s.reviseTrade now t status author = .ok s') :
    ∃ change, Freezes s s' change := by
  rw [reviseTrade_eq] at h
  obtain ⟨hopen, rfl⟩ := reviseWith_eq_ok.1 h
  obtain ⟨q, hq, hopen⟩ := exists_awaits_of_addressed hopen
  simp only [awaits, Bool.and_eq_true, decide_eq_true_eq, StatusRecord.isPending_iff] at hopen
  have hother {r : StatusRecord} (hr : r ∈ s.statuses)
      (hclosed : r.progress ≠ literal Progress.pending) : r.id ≠ status.id := by
    intro hid
    rw [eq_of_key_eq hids hr hq (hid.trans hopen.1.symm)] at hclosed
    exact hclosed hopen.2.1
  refine ⟨_, List.map_map .., ?_, ?_⟩
  · intro r
    simp only [Function.comp_apply]
    split <;> split <;> rfl
  · intro r hr hclosed
    simp [hother hr hclosed, not_awaits hclosed]

theorem freezes_foldl {completed : List Status}
    (hstatuses : s'.statuses = completed.foldl (reviseStatus now none) s.statuses) :
    ∃ change, Freezes s s' change := by
  refine ⟨_, hstatuses.trans (foldl_updateWhere completed), ?_, ?_⟩
  · intro r
    have hid (c : Status) (r : StatusRecord) : (StatusRecord.revise now none c r).id = r.id := rfl
    exact key_foldl hid r
  · intro r _ hclosed
    apply foldl_eq_self
    intro c _ hawaits
    rw [not_awaits hclosed] at hawaits
    cases hawaits

theorem freezes_addFigures {fs : List Figure} {completed : List Status}
    (h : s.addFigures now fs completed = .ok s') : ∃ change, Freezes s s' change := by
  obtain ⟨records, -, h⟩ := bind_eq_ok.1 h
  cases fs with
  | nil =>
    cases h
    exact ⟨id, freezes_self⟩
  | cons first rest =>
    dsimp only at h
    split at h
    · cases h
      exact freezes_foldl rfl
    · cases h

/-- Every guarded write leaves closed statuses as they are and gives no status a new key. -/
theorem exists_freezes {w : Write} (hw : w.isGuarded) (hids : (s.statuses.map (·.id)).Nodup)
    (h : s.apply now w = .ok s') : ∃ change, Freezes s s' change := by
  cases w with
  | reviseTrade t status author => exact freezes_reviseTrade hids h
  | answerTrade trade trace status author =>
    obtain ⟨-, rfl⟩ := reviseWith_eq_ok.1 h
    exact ⟨_, freezes_updateWhere rfl (fun _ => rfl) fun r hr => (Bool.and_eq_true_iff.1 hr).2⟩
  | addFigures fs completed => exact freezes_addFigures h
  | cancelTrade trade reply author =>
    obtain ⟨-, rfl⟩ := endRequest_eq_ok.1 h
    exact ⟨_, freezes_updateWhere rfl (fun _ => rfl) fun r hr => (Bool.and_eq_true_iff.1 hr).2⟩
  | rejectTrade trade reply author =>
    obtain ⟨-, rfl⟩ := endRequest_eq_ok.1 h
    exact ⟨_, freezes_updateWhere rfl (fun _ => rfl) fun r hr => (Bool.and_eq_true_iff.1 hr).2⟩
  | _ => cases hw

theorem exists_freezes_after {w : Write} (hw : w.isGuarded)
    (hids : (s.statuses.map (·.id)).Nodup) : ∃ change, Freezes s (s.after now w) change := by
  rw [after]
  cases h : s.apply now w with
  | ok s' => exact exists_freezes hw hids h
  | error e => exact ⟨id, freezes_self⟩

theorem Freezes.mem {change : StatusRecord → StatusRecord} (h : Freezes s s' change)
    (hr : r ∈ s.statuses) (hclosed : r.progress ≠ literal Progress.pending) : r ∈ s'.statuses := by
  rw [h.statuses, List.mem_map]
  exact ⟨r, hr, h.closed r hr hclosed⟩

theorem Freezes.map_id {change : StatusRecord → StatusRecord} (h : Freezes s s' change) :
    s'.statuses.map (·.id) = s.statuses.map (·.id) := by
  rw [h.statuses, List.map_map]
  exact List.map_congr_left fun r _ => h.id r

/-- How far the request with a status of that identifier has come. -/
def progressOf? (s : Store) (id : Uuid) : Option String :=
  (s.statuses.find? fun r => r.id = id).map (·.progress)

/-- How often the request leaves the pending state in the course of writes at given times. -/
def departures (id : Uuid) : Store → List (Instant × Write) → Nat
  | _, [] => 0
  | s, (now, w) :: ws =>
    let s' := s.after now w
    let left := s.progressOf? id = some (literal Progress.pending) ∧
      s'.progressOf? id ≠ some (literal Progress.pending)
    (if left then 1 else 0) + departures id s' ws

/-- A request that is not pending stays so. -/
theorem Freezes.progressOf? {change : StatusRecord → StatusRecord} (h : Freezes s s' change)
    {id : Uuid} (hnot : s.progressOf? id ≠ some (literal Progress.pending)) :
    s'.progressOf? id ≠ some (literal Progress.pending) := by
  have hfind : s'.statuses.find? (fun r => r.id = id) =
      (s.statuses.find? fun r => r.id = id).map change := by
    rw [h.statuses, List.find?_map]
    congr 2
    funext r
    simp [h.id r]
  rw [Store.progressOf?] at hnot ⊢
  rw [hfind]
  cases hr : s.statuses.find? fun r => r.id = id with
  | none => nofun
  | some r =>
    rw [hr] at hnot
    have hclosed : r.progress ≠ literal Progress.pending := fun he => hnot (congrArg some he)
    rw [Option.map_some, h.closed r (List.mem_of_find?_eq_some hr) hclosed]
    exact hnot

theorem departures_eq_zero {id : Uuid} {ws : List (Instant × Write)}
    (hws : ∀ w ∈ ws, w.2.isGuarded) (hids : (s.statuses.map (·.id)).Nodup)
    (hnot : s.progressOf? id ≠ some (literal Progress.pending)) : departures id s ws = 0 := by
  induction ws generalizing s with
  | nil => rfl
  | cons w ws ih =>
    obtain ⟨now, w⟩ := w
    obtain ⟨change, hfreezes⟩ := exists_freezes_after (hws (now, w) (by simp)) hids
    have hids' : ((s.after now w).statuses.map (·.id)).Nodup := by
      rw [hfreezes.map_id]
      exact hids
    rw [departures, if_neg fun hleft => hnot hleft.1,
      ih (fun w hw => hws w (by simp [hw])) hids' (hfreezes.progressOf? hnot)]

theorem departures_le_one {id : Uuid} {ws : List (Instant × Write)}
    (hws : ∀ w ∈ ws, w.2.isGuarded) (hids : (s.statuses.map (·.id)).Nodup) :
    departures id s ws ≤ 1 := by
  induction ws generalizing s with
  | nil => exact Nat.zero_le 1
  | cons w ws ih =>
    obtain ⟨now, w⟩ := w
    obtain ⟨change, hfreezes⟩ := exists_freezes_after (hws (now, w) (by simp)) hids
    have hids' : ((s.after now w).statuses.map (·.id)).Nodup := by
      rw [hfreezes.map_id]
      exact hids
    have hws' : ∀ w ∈ ws, w.2.isGuarded := fun w hw => hws w (by simp [hw])
    rw [departures]
    split
    · -- It has left, and no later write brings it back.
      rename_i hleft
      exact Nat.le_of_eq (congrArg (1 + ·) (departures_eq_zero hws' hids' hleft.2))
    · rw [Nat.zero_add]
      exact ih hws' hids'

theorem not_exists_awaits (hids : (s.statuses.map (·.id)).Nodup) (hr : r ∈ s.statuses)
    (hclosed : r.progress ≠ literal Progress.pending) : ¬ ∃ q ∈ s.statuses, awaits r.id q := by
  rintro ⟨q, hq, hawaits⟩
  have hid : q.id = r.id := by
    simp only [awaits, Bool.and_eq_true, decide_eq_true_eq] at hawaits
    exact hawaits.1
  rw [eq_of_key_eq hids hq hr hid, not_awaits hclosed] at hawaits
  cases hawaits

theorem whyClosed_eq {table : List StatusRecord} {event : Event}
    (htrades : (table.map (·.trade)).Nodup) (hr : r ∈ table) (hlive : r.isLive) :
    whyClosed table r.trade event = .closed r.progress event := by
  have hfind : table.find? (fun q => q.trade = r.trade && q.isLive) = some r := by
    refine find?_of_unique hr (by simp [hlive]) ?_
    intro q hq hfound
    simp only [Bool.and_eq_true, decide_eq_true_eq] at hfound
    exact eq_of_key_eq htrades hq hr hfound.1
  rw [whyClosed, hfind]

theorem reviseTrade_of_closed {t : Trade} {status : Status} {author : Uuid}
    (hids : (s.statuses.map (·.id)).Nodup) (htrades : (s.statuses.map (·.trade)).Nodup)
    (hr : r ∈ s.statuses) (hlive : r.isLive) (hclosed : r.progress ≠ literal Progress.pending)
    (htrade : t.id = r.trade) (hstatus : status.id = r.id) :
    s.reviseTrade now t status author = .error (.closed r.progress .update) := by
  have hnone : ¬ ∃ q ∈ addressed status.id t.supplier s.statuses, awaits status.id q := by
    intro hopen
    have hopen := exists_awaits_of_addressed hopen
    rw [hstatus] at hopen
    exact not_exists_awaits hids hr hclosed hopen
  have hrow : { r with supplier := t.supplier } ∈ addressed status.id t.supplier s.statuses :=
    mem_updateWhere.2 (Or.inr ⟨r, hr, by simp [hstatus], rfl⟩)
  have hcolumn : (addressed status.id t.supplier s.statuses).map (·.trade) =
      s.statuses.map (·.trade) := map_updateWhere fun _ _ => rfl
  rw [← hcolumn] at htrades
  rw [reviseTrade_eq, reviseWith_eq_error hnone, htrade]
  exact congrArg Except.error
    (whyClosed_eq (r := { r with supplier := t.supplier }) htrades hrow hlive)

theorem answerTrade_of_closed {trade trace author : Uuid} {status : Status}
    (hids : (s.statuses.map (·.id)).Nodup) (htrades : (s.statuses.map (·.trade)).Nodup)
    (hr : r ∈ s.statuses) (hlive : r.isLive) (hclosed : r.progress ≠ literal Progress.pending)
    (htrade : trade = r.trade) (hstatus : status.id = r.id) :
    s.answerTrade now trade trace status author = .error (.closed r.progress .answer) := by
  have hnone : ¬ ∃ q ∈ s.statuses, awaits status.id q := by
    rw [hstatus]
    exact not_exists_awaits hids hr hclosed
  rw [answerTrade, reviseWith_eq_error hnone, htrade, whyClosed_eq htrades hr hlive]

theorem endRequest_of_closed {author : Uuid} {progress : Progress} {event : Event}
    {reply : Option String} (htrades : (s.statuses.map (·.trade)).Nodup) (hr : r ∈ s.statuses)
    (hlive : r.isLive) (hclosed : r.progress ≠ literal Progress.pending) :
    s.endRequest now author r.trade progress event reply = .error (.closed r.progress event) := by
  have hnone : ¬ ∃ q ∈ s.statuses, q.isOpenFor r.trade := by
    rintro ⟨q, hq, hopen⟩
    simp only [StatusRecord.isOpenFor, Bool.and_eq_true, decide_eq_true_eq,
      StatusRecord.isPending_iff] at hopen
    rw [eq_of_key_eq htrades hq hr hopen.1] at hopen
    exact hclosed hopen.2.1
  rw [endRequest_eq_error hnone, whyClosed_eq htrades hr hlive]

/-- Of the statuses that figures complete, one that names a closed request does nothing. -/
theorem addFigures_of_closed {fs : List Figure} {before after : List Status} {c : Status}
    (hids : (s.statuses.map (·.id)).Nodup) (hr : r ∈ s.statuses)
    (hclosed : r.progress ≠ literal Progress.pending) (hc : c.id = r.id) :
    s.addFigures now fs (before ++ c :: after) = s.addFigures now fs (before ++ after) := by
  have hstep : reviseStatus now none (before.foldl (reviseStatus now none) s.statuses) c =
      before.foldl (reviseStatus now none) s.statuses := by
    obtain ⟨change, hfreezes⟩ :
        ∃ change, Freezes s
          { s with
            statuses := before.foldl (reviseStatus now none) s.statuses }
          change := freezes_foldl rfl
    have hnone := not_exists_awaits (hfreezes.map_id ▸ hids) (hfreezes.mem hr hclosed) hclosed
    rw [← hc] at hnone
    exact updateWhere_eq_self fun q hq => by simpa using fun hawaits => hnone ⟨q, hq, hawaits⟩
  have hfold : (before ++ c :: after).foldl (reviseStatus now none) s.statuses =
      (before ++ after).foldl (reviseStatus now none) s.statuses := by
    rw [List.foldl_append, List.foldl_append, List.foldl_cons, hstep]
  rw [addFigures, addFigures, hfold]

/-- A closed request stays closed. No guarded write changes its status, so at most one in any
sequence of them closes a request; and the writes that name it are refused with its present state,
or, when they add figures, go on as if it had not been named. -/
theorem closed_request_frozen (hids : (s.statuses.map (·.id)).Nodup) :
    (∀ now w, w.isGuarded → ∀ r ∈ s.statuses, r.progress ≠ literal Progress.pending →
      ∀ q, q ∈ (s.after now w).statuses ∧ q.id = r.id ↔ q = r) ∧
    (∀ ws : List (Instant × Write), (∀ w ∈ ws, w.2.isGuarded) → ∀ id, departures id s ws ≤ 1) ∧
    ((s.statuses.map (·.trade)).Nodup → ∀ r ∈ s.statuses, r.isLive →
      r.progress ≠ literal Progress.pending → ∀ now author,
      (∀ t status, t.id = r.trade → status.id = r.id →
        s.Refuses now (.reviseTrade t status author) (.closed r.progress .update)) ∧
      (∀ trace status, status.id = r.id →
        s.Refuses now (.answerTrade r.trade trace status author) (.closed r.progress .answer)) ∧
      (∀ reply,
        s.Refuses now (.cancelTrade r.trade reply author) (.closed r.progress .cancel)) ∧
      (∀ reply,
        s.Refuses now (.rejectTrade r.trade reply author) (.closed r.progress .reject)) ∧
      ∀ fs before c after, c.id = r.id →
        s.apply now (.addFigures fs (before ++ c :: after)) =
          s.apply now (.addFigures fs (before ++ after))) := by
  refine ⟨?_, fun ws hws id => departures_le_one hws hids, ?_⟩
  · intro now w hw r hr hclosed q
    obtain ⟨change, hfreezes⟩ := exists_freezes_after hw hids
    have hmem := hfreezes.mem hr hclosed
    have hids' : ((s.after now w).statuses.map (·.id)).Nodup := by
      rw [hfreezes.map_id]
      exact hids
    constructor
    · rintro ⟨hq, hid⟩
      exact eq_of_key_eq hids' hq hmem hid
    · rintro rfl
      exact ⟨hmem, rfl⟩
  · intro htrades r hr hlive hclosed now author
    refine ⟨?_, ?_, ?_, ?_, ?_⟩
    · intro t status htrade hstatus
      exact refuses_of_error (reviseTrade_of_closed hids htrades hr hlive hclosed htrade hstatus)
    · intro trace status hstatus
      exact refuses_of_error (answerTrade_of_closed hids htrades hr hlive hclosed rfl hstatus)
    · intro reply
      exact refuses_of_error (endRequest_of_closed htrades hr hlive hclosed)
    · intro reply
      exact refuses_of_error (endRequest_of_closed htrades hr hlive hclosed)
    · intro fs before c after hc
      exact addFigures_of_closed hids hr hclosed hc

/-- The completed request of the sample refuses to be answered or rejected once more. -/
theorem closed_request_frozen_sample :
    ∃ r ∈ (sampleRegistration.after sampleAnswered).statuses, r.progress = "COMPLETED" ∧
      (∀ stale : Status, stale.id = r.id →
        (sampleRegistration.after sampleAnswered).Refuses ⟨1, 0⟩
          (.answerTrade r.trade (.v4 20) stale ⟨2⟩) (.closed "COMPLETED" .answer)) ∧
      (sampleRegistration.after sampleAnswered).Refuses ⟨1, 0⟩ (.rejectTrade r.trade none ⟨2⟩)
        (.closed "COMPLETED" .reject) := by
  obtain ⟨r, hr, hlive, hprogress⟩ : ∃ r ∈ (sampleRegistration.after sampleAnswered).statuses,
      r.isLive ∧ r.progress = "COMPLETED" := by decide +kernel
  have hclosed : r.progress ≠ literal Progress.pending := by
    rw [hprogress]
    decide
  obtain ⟨-, hanswer, -, hreject, -⟩ :=
    (closed_request_frozen (s := sampleRegistration.after sampleAnswered) (by decide +kernel)).2.2
      (by decide +kernel) r hr hlive hclosed ⟨1, 0⟩ ⟨2⟩
  rw [hprogress] at hanswer hreject
  exact ⟨r, hr, hprogress, fun stale hstale => hanswer (.v4 20) stale hstale, hreject none⟩

end Store

end Footprint
