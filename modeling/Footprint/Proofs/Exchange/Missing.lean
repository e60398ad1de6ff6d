import Footprint.Exchange.Derivation
import Footprint.Exchange.Listing
import Footprint.Proofs.Trade.Transition

namespace Footprint

open Table Enumerated Exchange

/-- The computation is not refused because a status is not found. -/
def MissesNoStatus {α : Type} (x : Except Error α) : Prop :=
  ∀ trade, x ≠ .error (.statusNotFound trade)

namespace MissesNoStatus

variable {α β : Type}

theorem ok {a : α} : MissesNoStatus (.ok a) := nofun

theorem refuse {violations : List Violation} : MissesNoStatus (refuse violations) := by
  rw [Footprint.refuse]
  split <;> rintro _ ⟨⟩

theorem refuseWith {violation : Violation} :
    MissesNoStatus (refuseWith violation : Except Error α) := nofun

theorem bind {x : Except Error α} {f : α → Except Error β} (hx : MissesNoStatus x)
    (hf : ∀ a, x = .ok a → MissesNoStatus (f a)) : MissesNoStatus (x >>= f) := by
  intro trade h
  rcases bind_eq_error.1 h with h | ⟨a, ha, h⟩
  · exact hx trade h
  · exact hf a ha trade h

theorem map {x : Except Error α} {f : α → β} (hx : MissesNoStatus x) : MissesNoStatus (x.map f) := by
  cases x with
  | ok a => exact nofun
  | error e =>
    intro trade h
    cases h
    exact hx trade rfl

theorem mapM {f : α → Except Error β} {as : List α} (hf : ∀ a, MissesNoStatus (f a)) :
    MissesNoStatus (as.mapM f) := by
  intro trade h
  obtain ⟨a, -, h⟩ := exists_of_mapM_eq_error h
  exact hf a trade h

theorem foldlM {f : β → α → Except Error β} {as : List α} (hf : ∀ b a, MissesNoStatus (f b a))
    (b : β) : MissesNoStatus (as.foldlM f b) := by
  induction as generalizing b with
  | nil => exact ok
  | cons a as ih =>
    rw [List.foldlM_cons]
    exact bind (hf b a) fun b' _ => ih b'

theorem forM {f : α → Except Error Unit} {as : List α} (hf : ∀ a, MissesNoStatus (f a)) :
    MissesNoStatus (as.forM f) := by
  induction as with
  | nil => exact ok
  | cons a as ih =>
    rw [List.forM_eq_forM] at ih ⊢
    rw [List.forM_cons]
    exact bind (hf a) fun _ _ => ih

theorem readOptional {f : α → Except Error β} {o : Option α} (hf : ∀ a, MissesNoStatus (f a)) :
    MissesNoStatus (readOptional f o) := by
  cases o with
  | none => exact ok
  | some a => exact map (hf a)

theorem readLiteral [Enumerated α] {field s : String} :
    MissesNoStatus (readLiteral field s : Except Error α) := by
  rw [Footprint.readLiteral]
  split <;> rintro _ ⟨⟩

theorem readOptionalLiteral [Enumerated α] {field : String} {s : Option String} :
    MissesNoStatus (readOptionalLiteral field s : Except Error (Option α)) := by
  cases s with
  | none => exact ok
  | some s => exact map readLiteral

theorem part (r : PartRecord) : MissesNoStatus r.part :=
  bind readOptionalLiteral fun _ _ => ok

theorem status (r : StatusRecord) : MissesNoStatus r.status :=
  bind readLiteral fun _ _ => bind readLiteral fun _ _ => bind readLiteral fun _ _ => ok

theorem figure (r : FigureRecord) : MissesNoStatus r.figure := by
  have hunit : MissesNoStatus (FigureRecord.readUnit r.unit) := by
    rw [FigureRecord.readUnit]
    split
    · exact ok
    · exact map readLiteral
  have hcertificates : MissesNoStatus (FigureRecord.readCertificates r.certificates) := by
    rw [FigureRecord.readCertificates]
    split <;> rintro _ ⟨⟩
  exact bind hunit fun _ _ => bind readLiteral fun _ _ => bind readLiteral fun _ _ =>
    bind hcertificates fun _ _ => ok

variable {s : Store} {operator trace : Uuid}

theorem part? : MissesNoStatus (s.part? operator trace) :=
  readOptional part

theorem statusOf? {trade : Uuid} : MissesNoStatus (s.statusOf? trade) :=
  readOptional status

theorem figuresOf : MissesNoStatus (s.figuresOf trace) :=
  bind (mapM figure) fun _ _ => ok

theorem assembly? : MissesNoStatus (s.assembly? operator trace) := by
  refine bind part? fun o _ => ?_
  cases o with
  | none => exact ok
  | some p =>
    dsimp only
    split
    · exact bind (mapM part) fun _ _ => ok
    · exact ok

theorem storedSet : MissesNoStatus (storedSet s trace) := by
  refine bind figuresOf fun fs _ => ?_
  cases fs with
  | nil => exact ok
  | cons driver others =>
    rw [FigureSet.ofFigures]
    split <;> rintro _ ⟨⟩

theorem suppliedSet : MissesNoStatus (suppliedSet s trace) := by
  rw [Exchange.suppliedSet]
  split
  · exact storedSet
  · exact ok

theorem addChild {unit : Option DeclaredUnit} (c : Components) (child : Part) :
    MissesNoStatus (addChild s trace unit c child) := by
  have hshare : MissesNoStatus (contribution s child) := by
    rw [contribution]
    split
    · exact storedSet
    · exact suppliedSet
  refine bind hshare fun o _ => ?_
  cases o with
  | none => exact ok
  | some set =>
    dsimp only
    split <;> rintro _ ⟨⟩

theorem classOf {p : Part} : MissesNoStatus (classOf s p) := by
  rw [Exchange.classOf]
  split
  · exact ok
  · split
    · refine bind assembly? fun a _ => ?_
      split <;> rintro _ ⟨⟩
    · exact ok

theorem vector (operator trace : Uuid) : MissesNoStatus (vector s operator trace) := by
  refine bind part? fun o _ => ?_
  cases o with
  | none => exact ok
  | some p =>
    refine bind (bind classOf fun k _ => ?_) fun _ _ => ok
    cases k with
    | terminal isParent =>
      refine bind storedSet fun o _ => ?_
      split <;> rintro _ ⟨⟩
    | imported =>
      dsimp only
      split
      · exact ok
      · split
        · exact ok
        · exact bind storedSet fun _ _ => ok
    | parent children =>
      refine bind storedSet fun o _ => ?_
      split
      · exact ok
      · exact bind (foldlM addChild _) fun _ _ => ok

theorem figuresFor {traces : List Uuid} : MissesNoStatus (figuresFor s operator traces) :=
  bind (mapM (vector operator)) fun _ _ => ok

theorem page {q : StatusQuery} : MissesNoStatus (s.page q) :=
  bind (mapM status) fun _ _ => ok

theorem joinPages {side : Side} {size fuel : Nat} {after : Option Uuid} :
    MissesNoStatus (joinPages s operator side size fuel after) := by
  induction fuel generalizing after with
  | zero => exact ok
  | succ fuel ih =>
    refine bind page fun page _ => ?_
    split
    · exact ok
    · exact bind ih fun _ _ => ok

theorem listStatuses {limits : ListingLimits} {r : ListingRequest} :
    MissesNoStatus (listStatuses s limits operator r) := by
  have hsize : MissesNoStatus (pageSize limits r.limit) := by
    unfold pageSize
    split <;> rintro _ ⟨⟩
  refine bind hsize fun size _ => ?_
  split
  · exact page
  · exact bind (bind joinPages fun _ _ => bind joinPages fun _ _ => ok) fun _ _ => ok

variable {parent : Uuid}

theorem checkNamed {slot : Slot} : MissesNoStatus (checkNamed s operator parent slot trace) := by
  refine bind part? fun o _ => ?_
  cases o with
  | none => exact nofun
  | some _ =>
    dsimp only
    split
    · exact ok
    · split <;> rintro _ ⟨⟩

theorem partOfDraft {slot : Slot} {d : PartDraft} :
    MissesNoStatus (partOfDraft s operator parent slot d trace) := by
  rw [Exchange.partOfDraft]
  split
  · refine bind checkNamed fun _ _ => ?_
    split <;> rintro _ ⟨⟩
  · split <;> rintro _ ⟨⟩

theorem partsOfDrafts {index : Nat} {ds : List PartDraft} {traces : List Uuid} :
    MissesNoStatus (partsOfDrafts s operator parent index ds traces) := by
  induction ds generalizing index traces with
  | nil => exact ok
  | cons d ds ih =>
    cases traces with
    | nil => exact ok
    | cons trace traces => exact bind partOfDraft fun _ _ => bind ih fun _ _ => ok

theorem requireUntraded (trace : Uuid) : MissesNoStatus (requireUntraded s trace) := by
  rw [Exchange.requireUntraded]
  split <;> rintro _ ⟨⟩

theorem revisedFigure {setId : Uuid} (f : Figure) : MissesNoStatus (revisedFigure s setId f) := by
  refine bind (readOptional figure) fun o _ => ?_
  cases o with
  | none => exact nofun
  | some stored =>
    dsimp only
    split <;> rintro _ ⟨⟩

theorem completions {tree : TreeState} {ts : List Trade} :
    MissesNoStatus (completions s tree ts) := by
  induction ts with
  | nil => exact ok
  | cons t ts ih =>
    refine bind statusOf? fun _ _ => bind ih fun _ _ => ?_
    split
    · split <;> rintro _ ⟨⟩
    · exact ok

theorem answerProgress {answered requested : Uuid} :
    MissesNoStatus (answerProgress s answered requested) := by
  refine bind figuresOf fun _ _ => ?_
  split
  · exact bind figuresOf fun _ _ => ok
  · exact ok

theorem requireOpen {status : Status} {event : Event} :
    MissesNoStatus (requireOpen status event) := by
  rw [Exchange.requireOpen]
  split <;> rintro _ ⟨⟩

/-- A live trade has a live status. -/
theorem tradeWithStatus (hs : s.Paired) {trade : Uuid} :
    MissesNoStatus (tradeWithStatus s trade) := by
  rw [Exchange.tradeWithStatus]
  cases htrade : s.trade? trade with
  | none => rintro _ ⟨⟩
  | some t =>
    refine bind statusOf? fun o ho => ?_
    cases o with
    | some status => exact ok
    | none =>
      obtain ⟨p, hp, rfl, hlive, -⟩ := hs.exists_pair_of_trade? htrade
      have hbelongs := hs.belongs p hp
      have hdead := Store.statusOf?_eq_none ho p.2 (Store.snd_mem_of_pairs hp) hbelongs.trade
      rw [hbelongs.live, hlive] at hdead
      cases hdead

variable {now : Instant} {author trade : Uuid} {event : Event}

theorem whyClosed {table : List StatusRecord} (h : ∃ r ∈ table, r.trade = trade ∧ r.isLive) :
    MissesNoStatus (.error (Store.whyClosed table trade event) : Except Error α) := by
  obtain ⟨r, hr, htrade, hlive⟩ := h
  rw [Store.whyClosed]
  cases hfind : table.find? fun r => r.trade = trade && r.isLive with
  | some _ => exact nofun
  | none => simpa [htrade, hlive] using List.find?_eq_none.1 hfind r hr

theorem reviseWith {status : Status} {trades : List TradeRecord} {statuses : List StatusRecord}
    (h : ∃ r ∈ statuses, r.trade = trade ∧ r.isLive) :
    MissesNoStatus (s.reviseWith now author trade status event trades statuses) := by
  rw [Store.reviseWith]
  split
  · exact ok
  · exact whyClosed h

theorem endRequest {progress : Progress} {reply : Option String}
    (h : ∃ r ∈ s.statuses, r.trade = trade ∧ r.isLive) :
    MissesNoStatus (s.endRequest now author trade progress event reply) := by
  unfold Store.endRequest
  dsimp only
  split
  · exact ok
  · exact whyClosed h

theorem putAssembly {a : Assembly} {removed : List Uuid} :
    MissesNoStatus (s.putAssembly now a removed) := by
  unfold Store.putAssembly
  dsimp only
  split <;> rintro _ ⟨⟩

theorem addFigures {fs : List Figure} {completed : List Status} :
    MissesNoStatus (s.addFigures now fs completed) := by
  have hrecord (f : Figure) : MissesNoStatus (Store.recordOf now f) := by
    rw [Store.recordOf]
    split <;> rintro _ ⟨⟩
  refine bind (mapM hrecord) fun _ _ => ?_
  split
  · exact ok
  · split <;> rintro _ ⟨⟩

theorem reviseFigures {fs : List Figure} : MissesNoStatus (s.reviseFigures now fs) := by
  have hstep (table : List FigureRecord) (f : Figure) :
      MissesNoStatus (Store.reviseFigure now table f) := by
    rw [Store.reviseFigure]
    split <;> rintro _ ⟨⟩
  exact bind (foldlM hstep _) fun _ _ => ok

theorem openTrade {t : Trade} {status : Status} :
    MissesNoStatus (s.openTrade now t status author) := by
  unfold Store.openTrade
  split
  · split <;> rintro _ ⟨⟩
  · exact nofun

end MissesNoStatus

/-- Neither the plan nor its write misses a status. -/
def CarriesOut {α : Type} (now : Instant) (s : Store) (x : Except Error (Write × α)) : Prop :=
  MissesNoStatus x ∧ ∀ write a, x = .ok (write, a) → MissesNoStatus (s.apply now write)

variable {α β : Type} {now : Instant} {s : Store} {caller trade trace : Uuid}

namespace CarriesOut

theorem ok {write : Write} {a : α} (h : MissesNoStatus (s.apply now write)) :
    CarriesOut now s (.ok (write, a)) := by
  refine ⟨nofun, fun write' a' hsame => ?_⟩
  cases hsame
  exact h

theorem error {e : Error} (h : ∀ trade, e ≠ .statusNotFound trade) :
    CarriesOut now s (.error e : Except Error (Write × α)) :=
  ⟨fun trade he => h trade (Except.error.inj he), fun _ _ he => nomatch he⟩

theorem bind {x : Except Error β} {f : β → Except Error (Write × α)} (hx : MissesNoStatus x)
    (hf : ∀ b, x = .ok b → CarriesOut now s (f b)) : CarriesOut now s (x >>= f) := by
  refine ⟨.bind hx fun b hb => (hf b hb).1, fun write a h => ?_⟩
  obtain ⟨b, hb, h⟩ := bind_eq_ok.1 h
  exact (hf b hb).2 write a h

theorem run {f : α → Reply} {plan : Plan α} (h : CarriesOut now s (plan s)) :
    MissesNoStatus ((Operation.withReply f plan).run now s) := by
  refine .bind (.map h.1) fun (write, reply) hplan => .bind ?_ fun _ _ => .ok
  obtain ⟨a, hplan, -⟩ := Operation.withReply_eq_ok.1 hplan
  exact h.2 write a hplan

theorem putAssembly {ids : List Uuid} {draft : AssemblyDraft} :
    CarriesOut now s (putAssembly ids caller draft s) := by
  refine bind .refuse fun _ _ => ?_
  split
  · exact error nofun
  · split
    · exact error nofun
    · exact bind .partOfDraft fun _ _ => bind .partsOfDrafts fun _ _ => bind .assembly? fun _ _ =>
        bind (.forM .requireUntraded) fun _ _ => ok .putAssembly

theorem removeAssembly {parent : Uuid} : CarriesOut now s (removeAssembly caller parent s) := by
  refine bind .assembly? fun o _ => ?_
  cases o with
  | none => exact error nofun
  | some a => exact bind (.forM .requireUntraded) fun _ _ => ok .ok

theorem putFigures {id : Uuid} {fs : List Figure} :
    CarriesOut now s (putFigures id caller fs s) := by
  refine bind .refuse fun _ _ => ?_
  split
  · exact error nofun
  · refine bind .part? fun o _ => ?_
    cases o with
    | none => exact error nofun
    | some part =>
      dsimp only
      split
      · exact bind (.mapM .revisedFigure) fun _ _ => ok .reviseFigures
      · refine bind .figuresOf fun _ _ => ?_
        split
        · exact bind .completions fun _ _ => ok .addFigures
        · exact error nofun

theorem certify {certificates : List String} :
    CarriesOut now s (certify caller trace certificates s) := by
  refine bind .part? fun o _ => ?_
  cases o with
  | none => exact error nofun
  | some _ =>
    dsimp only
    split
    · exact error nofun
    · refine bind .figuresOf fun _ _ => ?_
      split
      · exact error nofun
      · exact ok .ok

variable {limits : TextLimits} {reply : Option String}

/-- The status that is read with a trade is still there when it is written. -/
theorem onTrade (hs : s.Paired) {f : Trade × Status → Except Error (Write × α)}
    (hf : ∀ t status, t.id = trade → (∃ r ∈ s.statuses, r.trade = trade ∧ r.isLive) →
      CarriesOut now s (f (t, status))) : CarriesOut now s (tradeWithStatus s trade >>= f) := by
  refine bind (.tradeWithStatus hs) fun (t, status) hread => ?_
  obtain ⟨htrade, hstatus⟩ := tradeWithStatus_eq_ok.1 hread
  obtain ⟨q, -, hid, -, rfl⟩ := Store.trade?_eq_some htrade
  obtain ⟨r, hr, hrtrade, hlive, -⟩ := Store.statusOf?_eq_some hstatus
  exact hf _ status hid ⟨r, hr, hrtrade, hlive⟩

theorem reviseRequest (hs : s.Paired) {r : TradeRequest} :
    CarriesOut now s (reviseRequest caller trade r s) := by
  refine onTrade hs fun t status hid hstatus => ?_
  dsimp only
  split
  · exact error nofun
  · refine bind .requireOpen fun _ _ => ok (.reviseWith ?_)
    obtain ⟨q, hq, htrade, hlive⟩ := hstatus
    rw [hid]
    by_cases hselected : q.id = status.id
    · exact ⟨_, mem_updateWhere.2 (Or.inr ⟨q, hq, decide_eq_true hselected, rfl⟩), htrade, hlive⟩
    · exact ⟨q, mem_updateWhere.2 (Or.inl ⟨hq, decide_eq_false hselected⟩), htrade, hlive⟩

theorem openRequest {tradeId statusId : Uuid} {r : TradeRequest} :
    CarriesOut now s (openRequest now tradeId statusId caller r s) := by
  refine bind .part? fun o _ => ?_
  cases o with
  | none => exact error nofun
  | some part =>
    dsimp only
    split
    · exact error nofun
    · split
      · exact error nofun
      · exact ok .openTrade

theorem putRequest (hs : s.Paired) {tradeId statusId : Uuid} {r : TradeRequest} :
    CarriesOut now s (putRequest limits now tradeId statusId caller r s) := by
  refine bind .refuse fun _ _ => bind .refuse fun _ _ => ?_
  split
  · exact reviseRequest hs
  · exact openRequest

theorem answer (hs : s.Paired) : CarriesOut now s (answer caller trade trace s) := by
  refine onTrade hs fun t status _ hstatus => ?_
  dsimp only
  split
  · exact error nofun
  · refine bind .requireOpen fun _ _ => bind .part? fun o _ => ?_
    cases o with
    | none => exact error nofun
    | some part => exact bind .answerProgress fun _ _ => ok (.reviseWith hstatus)

theorem cancel (hs : s.Paired) : CarriesOut now s (cancel limits caller trade reply s) := by
  refine bind .refuse fun _ _ => onTrade hs fun t status _ hstatus => ?_
  dsimp only
  split
  · exact error nofun
  · exact bind .requireOpen fun _ _ => ok (.endRequest hstatus)

theorem reject (hs : s.Paired) : CarriesOut now s (reject limits caller trade reply s) := by
  refine bind .refuse fun _ _ => onTrade hs fun t status _ hstatus => ?_
  dsimp only
  split
  · exact error nofun
  · exact bind .requireOpen fun _ _ => ok (.endRequest hstatus)

theorem deleteTrade : CarriesOut now s (deleteTrade caller trade s) := by
  rw [Exchange.deleteTrade]
  split
  · split
    · exact ok .ok
    · refine error ?_
      rintro _ ⟨⟩
  · refine error ?_
    rintro _ ⟨⟩

end CarriesOut

/-- No operation misses a status, whoever calls it with whatever arguments. -/
theorem Store.Paired.missesNoStatus_run (hs : s.Paired) (c : Call) :
    MissesNoStatus (c.op.run c.limits c.now c.caller s) := by
  rw [Operation.run]
  cases c.op <;> rw [Operation.plan]
  case putAssembly => exact CarriesOut.putAssembly.run
  case removeAssembly => exact CarriesOut.removeAssembly.run
  case putFigures => exact CarriesOut.putFigures.run
  case certify => exact CarriesOut.certify.run
  case putRequest => exact (CarriesOut.putRequest hs).run
  case answer => exact (CarriesOut.answer hs).run
  case cancel => exact (CarriesOut.cancel hs).run
  case reject => exact (CarriesOut.reject hs).run
  case deleteTrade => exact CarriesOut.deleteTrade.run

end Footprint
