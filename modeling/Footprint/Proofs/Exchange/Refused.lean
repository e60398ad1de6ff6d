import Footprint.Proofs.Part.Storable
import Footprint.Proofs.Trade.Progress

namespace Footprint

open Table Enumerated Exchange

/-- A reason to refuse a caller. A live trade without status and a literal that cannot be read are
none, although they count as the caller's. -/
def Error.isRefusal : Error → Bool
  | statusNotFound _ | unknownLiteral _ _ => false
  | e => e.callerCanMend

theorem Error.callerCanMend_of_isRefusal {e : Error} (h : e.isRefusal) : e.callerCanMend := by
  cases e with
  | statusNotFound | unknownLiteral => cases h
  | _ => exact h

/-- The computation gives a result or refuses the caller. -/
def Refuses {α : Type} (x : Except Error α) : Prop :=
  ∀ e, x = .error e → e.isRefusal

/-- The plan refuses the caller, or its write is carried out. -/
structure Fulfils {α : Type} (now : Instant) (s : Store) (x : Except Error (Write × α)) : Prop where
  refuses : Refuses x
  written : ∀ write a, x = .ok (write, a) → ∃ s', s.apply now write = .ok s'

variable {α β : Type} {now : Instant} {s : Store} {caller parent trace trade : Uuid}

/-- The requests answered with a part can always be completed. -/
theorem exists_completions (hs : Reachable s) (tree : TreeState) (ts : List Trade) :
    ∃ completed, completions s tree ts = .ok completed := by
  induction ts with
  | nil => exact ⟨[], rfl⟩
  | cons t ts ih =>
    obtain ⟨rest, hrest⟩ := ih
    have hstatus : ∃ o, s.statusOf? t.id = .ok o := by
      refine exists_readOptional fun r hr => ?_
      have hfound := List.find?_some hr
      rw [Bool.and_eq_true] at hfound
      exact exists_status_of_live hs (List.mem_of_find?_eq_some hr) hfound.2
    obtain ⟨o, ho⟩ := hstatus
    rw [completions, ho, hrest, ok_bind, ok_bind]
    cases o with
    | none => exact ⟨_, rfl⟩
    | some status =>
      dsimp only
      split <;> exact ⟨_, rfl⟩

namespace Refuses

theorem ok {a : α} : Refuses (.ok a : Except Error α) := by
  intro e he
  cases he

theorem of_ok {x : Except Error α} (h : ∃ a, x = .ok a) : Refuses x := by
  obtain ⟨a, rfl⟩ := h
  exact ok

theorem error {e : Error} (h : e.isRefusal) : Refuses (.error e : Except Error α) := by
  intro e' he
  cases he
  exact h

theorem refuse {violations : List Violation} : Refuses (refuse violations) := by
  rw [Footprint.refuse]
  split
  · exact ok
  · exact error rfl

theorem refuseWith {violation : Violation} : Refuses (refuseWith violation : Except Error α) :=
  error rfl

theorem bind {x : Except Error α} {f : α → Except Error β} (hx : Refuses x)
    (hf : ∀ a, x = .ok a → Refuses (f a)) : Refuses (x >>= f) := by
  intro e h
  rcases bind_eq_error.1 h with h | ⟨a, ha, h⟩
  · exact hx e h
  · exact hf a ha e h

theorem map {x : Except Error α} {f : α → β} (hx : Refuses x) : Refuses (x.map f) :=
  fun e h => hx e (exceptMap_eq_error.1 h)

theorem mapM {f : α → Except Error β} {as : List α} (hf : ∀ a, Refuses (f a)) :
    Refuses (as.mapM f) := by
  intro e h
  obtain ⟨a, -, h⟩ := exists_of_mapM_eq_error h
  exact hf a e h

theorem forM {f : α → Except Error Unit} {as : List α} (hf : ∀ a, Refuses (f a)) :
    Refuses (as.forM f) := by
  induction as with
  | nil => exact ok
  | cons a as ih =>
    rw [List.forM_eq_forM] at ih ⊢
    rw [List.forM_cons]
    exact bind (hf a) fun _ _ => ih

theorem checkNamed (hs : Coherent s) {slot : Slot} :
    Refuses (checkNamed s caller parent slot trace) := by
  refine bind (.of_ok (hs.exists_part? _ _)) fun o _ => ?_
  cases o with
  | none => exact error rfl
  | some _ =>
    dsimp only
    split
    · exact ok
    · split
      · exact ok
      · exact refuseWith

theorem partOfDraft (hs : Coherent s) {slot : Slot} {d : PartDraft} :
    Refuses (partOfDraft s caller parent slot d trace) := by
  rw [Exchange.partOfDraft]
  split
  · refine bind (checkNamed hs) fun _ _ => ?_
    split
    · exact refuseWith
    · exact ok
  · split
    · exact refuseWith
    · exact ok

theorem partsOfDrafts (hs : Coherent s) {index : Nat} {ds : List PartDraft} {traces : List Uuid} :
    Refuses (partsOfDrafts s caller parent index ds traces) := by
  induction ds generalizing index traces with
  | nil => exact ok
  | cons d ds ih =>
    cases traces with
    | nil => exact ok
    | cons trace traces => exact bind (partOfDraft hs) fun _ _ => bind ih fun _ _ => ok

theorem requireUntraded (trace : Uuid) : Refuses (requireUntraded s trace) := by
  rw [Exchange.requireUntraded]
  split
  · exact error rfl
  · exact ok

theorem revisedFigure (hs : Coherent s) {setId : Uuid} (f : Figure) :
    Refuses (revisedFigure s setId f) := by
  have hread : ∃ o, s.figure? setId f.kind = .ok o :=
    exists_readOptional fun r hr => (hs.figures r (List.mem_of_find?_eq_some hr)).exists_figure
  refine bind (.of_ok hread) fun o _ => ?_
  cases o with
  | none => exact error rfl
  | some stored =>
    dsimp only
    split
    · exact ok
    · exact refuseWith

theorem figuresOf (hs : Coherent s) : Refuses (s.figuresOf trace) := by
  obtain ⟨fs, hfs, -⟩ := hs.figuresOf trace
  exact of_ok ⟨fs, hfs⟩

theorem answerProgress (hs : Coherent s) {answered requested : Uuid} :
    Refuses (answerProgress s answered requested) := by
  refine bind (figuresOf hs) fun _ _ => ?_
  split
  · exact bind (figuresOf hs) fun _ _ => ok
  · exact ok

theorem requireOpen {status : Status} {event : Event} : Refuses (requireOpen status event) := by
  rw [Exchange.requireOpen]
  split
  · exact error rfl
  · exact ok

/-- A live trade has a status that can be read. -/
theorem tradeWithStatus (hs : Reachable s) : Refuses (tradeWithStatus s trade) := by
  rw [Exchange.tradeWithStatus]
  cases htrade : s.trade? trade with
  | none => exact error rfl
  | some t =>
    obtain ⟨r, hr, rfl, hlive, -⟩ := Store.trade?_eq_some htrade
    obtain ⟨status, hstatus⟩ := statusOf?_of_live hs hr hlive
    rw [hstatus]
    exact ok

end Refuses

variable {c : Call}

/-- What the call gives away is the key of no row. -/
theorem Exchange.Call.Fresh.not_key {id : Uuid} (h : c.Fresh s)
    (hminted : id ∈ c.op.minted) :
    (∀ r ∈ s.figures, r.setId ≠ id) ∧ (∀ r ∈ s.trades, r.id ≠ id) ∧
      ∀ r ∈ s.statuses, r.id ≠ id := by
  have hnew := (h.2 id hminted).2
  simp only [Store.keys, List.mem_append, List.mem_map, not_or, not_exists, not_and] at hnew
  exact ⟨hnew.1.1.2, hnew.1.2, hnew.2⟩

namespace Fulfils

theorem ok {write : Write} {a : α} (h : ∃ s', s.apply now write = .ok s') :
    Fulfils now s (.ok (write, a)) := by
  refine ⟨.ok, fun write' a' hsame => ?_⟩
  cases hsame
  exact h

theorem error {e : Error} (h : e.isRefusal) :
    Fulfils now s (.error e : Except Error (Write × α)) := by
  refine ⟨.error h, fun write a hplan => ?_⟩
  cases hplan

theorem refuseWith {violation : Violation} :
    Fulfils now s (refuseWith violation : Except Error (Write × α)) :=
  error rfl

theorem bind {x : Except Error β} {f : β → Except Error (Write × α)} (hx : Refuses x)
    (hf : ∀ b, x = .ok b → Fulfils now s (f b)) : Fulfils now s (x >>= f) := by
  refine ⟨.bind hx fun b hb => (hf b hb).refuses, fun write a h => ?_⟩
  obtain ⟨b, hb, h⟩ := bind_eq_ok.1 h
  exact (hf b hb).written write a h

theorem withReply {f : α → Reply} {plan : Plan α} (h : Fulfils now s (plan s)) :
    Fulfils now s (Operation.withReply f plan s) := by
  refine ⟨.map h.refuses, fun write reply hplan => ?_⟩
  obtain ⟨a, hplan, -⟩ := Operation.withReply_eq_ok.1 hplan
  exact h.written write a hplan

theorem putAssembly {ids : List Uuid} {draft : AssemblyDraft} (hs : Reachable s)
    (hfresh : c.Fresh s) (hop : c.op = .putAssembly ids draft) :
    Fulfils now s (putAssembly ids caller draft s) := by
  have hcoherent := Coherent.of_reachable hs
  refine bind .refuse fun _ hrules => ?_
  have hrules := refuse_eq_ok_iff.1 hrules
  split
  · exact refuseWith
  rename_i d hparent
  cases hassigned : assignTraces ids ((d :: draft.children).map (·.trace)) with
  | nil =>
    obtain ⟨trace, ids', hassigned', -⟩ := assignTraces_cons ids d.trace
    cases (hassigned' _).symm.trans hassigned
  | cons trace traces =>
    dsimp only
    refine bind (.partOfDraft hcoherent) fun parent hpart =>
      bind (.partsOfDrafts hcoherent) fun children hchildren =>
        bind (.of_ok (hcoherent.exists_assembly? _ _)) fun existing hexisting =>
          bind (.forM .requireUntraded) fun _ _ => ok ?_
    have hdrafted := drafted_of_parts hparent hassigned hpart hchildren hexisting
    rw [← hop] at hdrafted
    exact hdrafted.putAssembly_eq_ok (Arranged.of_reachable hs) (Rooted.of_reachable hs) hfresh
      (nodup_traces_of_draft hfresh hop hrules hparent hassigned hpart hchildren)

theorem removeAssembly (hs : Reachable s) :
    Fulfils now s (removeAssembly caller parent s) := by
  have hcoherent := Coherent.of_reachable hs
  refine bind (.of_ok (hcoherent.exists_assembly? _ _)) fun o _ => ?_
  cases o with
  | none => exact error rfl
  | some a => exact bind (.forM .requireUntraded) fun _ _ => ok ⟨_, rfl⟩

/-- The rows of a set that is new meet none of their kind. -/
theorem insertFigures (now : Instant) {id : Uuid} {fs : List Figure} {first : Figure}
    (hrules : Rules.figures fs = []) (hfirst : fs.head? = some first)
    (hblank : s.hasFigures first.trace = false) (hid : ∀ r ∈ s.figures, r.setId ≠ id) :
    insertAll FigureRecord.clash s.figures (fs.map (FigureRecord.ofFigure now id)) =
      some (s.figures ++ fs.map (FigureRecord.ofFigure now id)) := by
  refine insertAll_eq_some (fun r hr q hq => ?_) ?_
  · obtain ⟨f, hf, rfl⟩ := List.mem_map.1 hr
    have htrace := (Rules.shared_of_figures hrules hfirst hf).1
    have hother : q.trace ≠ f.trace := htrace ▸ Store.trace_ne_of_blank hblank hq
    simp [FigureRecord.clash, FigureRecord.ofFigure, hid q hq, hother]
  · have hkinds := Rules.nodup_kinds (Rules.kinds_of_figures hrules)
    rw [List.Nodup, List.pairwise_map] at hkinds
    rw [List.pairwise_map]
    refine hkinds.imp fun {f g} hother => ?_
    have hliteral : literal f.kind ≠ literal g.kind := (literal_injective _ _).mt hother
    simp [FigureRecord.clash, FigureRecord.ofFigure, hliteral]

/-- Figures that were found are of one set and can be written. -/
theorem reviseFigures {setId : Uuid} {revised : List Figure}
    (hset : ∀ f ∈ revised, f.setId = some setId) :
    ∃ s', s.reviseFigures now revised = .ok s' := by
  have hfold (table : List FigureRecord) :
      ∃ table', revised.foldlM (Store.reviseFigure now) table = .ok table' := by
    induction revised generalizing table with
    | nil => exact ⟨table, rfl⟩
    | cons f fs ih =>
      rw [List.foldlM_cons, Store.reviseFigure, hset f List.mem_cons_self]
      exact ih (fun f hf => hset f (List.mem_cons_of_mem _ hf)) _
  obtain ⟨figures, hfigures⟩ := hfold s.figures
  exact ⟨_, bind_eq_ok.2 ⟨figures, hfigures, rfl⟩⟩

theorem putFigures {id : Uuid} {fs : List Figure} (hs : Reachable s) (hfresh : c.Fresh s)
    (hop : c.op = .putFigures id fs) : Fulfils now s (putFigures id caller fs s) := by
  have hcoherent := Coherent.of_reachable hs
  refine bind .refuse fun _ hrules => ?_
  have hrules := refuse_eq_ok_iff.1 hrules
  cases fs with
  | nil => exact refuseWith
  | cons first rest =>
    refine bind (.of_ok (hcoherent.exists_part? _ _)) fun o _ => ?_
    cases o with
    | none => exact error rfl
    | some part =>
      cases hset : first.setId with
      | some setId =>
        refine bind (.mapM (.revisedFigure hcoherent)) fun revised hrevised => ok ?_
        have hset : ∀ f ∈ revised, f.setId = some setId := fun f hf => by
          obtain ⟨g, -, hg⟩ := (mem_of_mapM_eq_ok hrevised).2 f hf
          exact (revisedFigure_eq_ok hg).1
        exact reviseFigures hset
      | none =>
        refine bind (.figuresOf hcoherent) fun stored hstored => ?_
        rw [Store.isEmpty_of_figuresOf hstored]
        cases hblank : s.hasFigures first.trace with
        | true => exact error rfl
        | false =>
          have hnew : id ∈ c.op.minted := by
            rw [hop]
            simp [Operation.minted, Operation.registers, hset]
          have hinsert := insertFigures now hrules rfl hblank (hfresh.not_key hnew).1
          exact bind (.of_ok (exists_completions hs _ _)) fun completed _ =>
            ok ⟨_, (Store.addFigures_eq_ok (List.cons_ne_nil _ _)).2 ⟨hinsert, rfl⟩⟩

theorem certify {certificates : List String} (hs : Reachable s) :
    Fulfils now s (certify caller trace certificates s) := by
  have hcoherent := Coherent.of_reachable hs
  refine bind (.of_ok (hcoherent.exists_part? _ _)) fun o _ => ?_
  cases o with
  | none => exact error rfl
  | some _ =>
    dsimp only
    split
    · exact refuseWith
    · refine bind (.figuresOf hcoherent) fun _ _ => ?_
      split
      · exact refuseWith
      · exact ok ⟨_, rfl⟩

variable {limits : TextLimits} {reply : Option String}

/-- A row of the trade that is open and has the status. -/
def HasOpen (s : Store) (trade status : Uuid) : Prop :=
  ∃ r ∈ s.statuses, r.trade = trade ∧ r.id = status ∧ r.isPending

/-- A request that was read as pending is still pending when it is written to. -/
theorem onOpenTrade (hs : Reachable s) {event : Event} {refused : Trade → Prop}
    {_ : DecidablePred refused} {f : Trade × Status → Except Error (Write × α)}
    {next : Trade → Status → Except Error (Write × α)}
    (hf : ∀ t status, f (t, status) =
      if refused t then .error (.tradeNotFound trade)
      else requireOpen status event >>= fun _ => next t status)
    (hnext : ∀ t status, HasOpen s trade status.id → Fulfils now s (next t status)) :
    Fulfils now s (tradeWithStatus s trade >>= f) := by
  refine bind (.tradeWithStatus hs) fun (t, status) hread => ?_
  obtain ⟨-, hstatus⟩ := tradeWithStatus_eq_ok.1 hread
  obtain ⟨r, hr, hrtrade, hlive, hrread⟩ := Store.statusOf?_eq_some hstatus
  rw [hf]
  split
  · exact error rfl
  · refine bind .requireOpen fun _ hopen => hnext _ _ ⟨r, hr, hrtrade, ?_, ?_⟩
    · exact (StatusRecord.status_eq_ok.1 hrread).2.2.2.1.symm
    · exact StatusRecord.isPending_of_status hrread hlive (requireOpen_eq_ok.1 hopen)

theorem endRequest {author : Uuid} {progress : Progress} {event : Event} {status : Uuid}
    (h : HasOpen s trade status) :
    ∃ s', s.endRequest now author trade progress event reply = .ok s' := by
  obtain ⟨r, hr, htrade, -, hpending⟩ := h
  refine ⟨_, Store.endRequest_eq_ok.2 ⟨⟨r, hr, ?_⟩, rfl⟩⟩
  exact Bool.and_eq_true_iff.2 ⟨decide_eq_true htrade, hpending⟩

theorem awaits_of_open {status : Uuid} (h : HasOpen s trade status) :
    ∃ r ∈ s.statuses, Store.awaits status r := by
  obtain ⟨r, hr, -, hid, hpending⟩ := h
  exact ⟨r, hr, Bool.and_eq_true_iff.2 ⟨decide_eq_true hid, hpending⟩⟩

theorem reviseRequest (hs : Reachable s) {r : TradeRequest} :
    Fulfils now s (reviseRequest caller trade r s) := by
  refine onOpenTrade hs (fun _ _ => rfl) fun t status hopen => ok ?_
  obtain ⟨q, hq, hawaits⟩ := awaits_of_open hopen
  -- The row is still open after its supplier was replaced.
  refine ⟨_, Store.reviseWith_eq_ok.2 ⟨⟨_, List.mem_map_of_mem hq, ?_⟩, rfl⟩⟩
  split
  · exact hawaits
  · exact hawaits

theorem openRequest {tradeId statusId : Uuid} {r : TradeRequest} (hs : Reachable s)
    (hfresh : c.Fresh s) (hop : c.op = .putRequest tradeId statusId r) (hnew : r.trade = none) :
    Fulfils now s (openRequest now tradeId statusId caller r s) := by
  have hminted : c.op.minted = [tradeId, statusId] := by
    rw [hop]
    simp [Operation.minted, hnew]
  have hmintedTrade : tradeId ∈ c.op.minted := by simp [hminted]
  have hmintedStatus : statusId ∈ c.op.minted := by simp [hminted]
  have htrade := (hfresh.not_key hmintedTrade).2.1
  have hstatus := (hfresh.not_key hmintedStatus).2.2
  refine bind (.of_ok ((Coherent.of_reachable hs).exists_part? _ _)) fun o _ => ?_
  cases o with
  | none => exact error rfl
  | some part =>
    dsimp only
    split
    · exact refuseWith
    · split
      · exact refuseWith
      · exact ok ⟨_, (Store.openTrade_eq_ok rfl).2 ⟨htrade, hstatus, rfl⟩⟩

theorem putRequest {tradeId statusId : Uuid} {r : TradeRequest} (hs : Reachable s)
    (hfresh : c.Fresh s) (hop : c.op = .putRequest tradeId statusId r) :
    Fulfils now s (putRequest limits now tradeId statusId caller r s) := by
  refine bind .refuse fun _ _ => bind .refuse fun _ _ => ?_
  split
  · exact reviseRequest hs
  · rename_i hnew
    exact openRequest hs hfresh hop hnew

theorem answer (hs : Reachable s) : Fulfils now s (answer caller trade trace s) := by
  refine onOpenTrade hs (fun _ _ => rfl) fun t status hopen => ?_
  have hcoherent := Coherent.of_reachable hs
  refine bind (.of_ok (hcoherent.exists_part? _ _)) fun o _ => ?_
  cases o with
  | none => exact error rfl
  | some part =>
    refine bind (.answerProgress hcoherent) fun _ _ => ok ?_
    exact ⟨_, Store.reviseWith_eq_ok.2 ⟨awaits_of_open hopen, rfl⟩⟩

theorem cancel (hs : Reachable s) : Fulfils now s (cancel limits caller trade reply s) :=
  bind .refuse fun _ _ => onOpenTrade hs (fun _ _ => rfl) fun _ _ hopen => ok (endRequest hopen)

theorem reject (hs : Reachable s) : Fulfils now s (reject limits caller trade reply s) :=
  bind .refuse fun _ _ => onOpenTrade hs (fun _ _ => rfl) fun _ _ hopen => ok (endRequest hopen)

theorem deleteTrade : Fulfils now s (deleteTrade caller trade s) := by
  rw [Exchange.deleteTrade]
  split
  · split
    · exact ok ⟨_, rfl⟩
    · exact error rfl
  · exact error rfl

end Fulfils

theorem fulfils_of_fresh (hs : Reachable s) (hfresh : c.Fresh s) :
    Fulfils c.now s (c.op.plan c.limits c.now c.caller s) := by
  cases hop : c.op <;> rw [Operation.plan]
  case putAssembly => exact (Fulfils.putAssembly hs hfresh hop).withReply
  case removeAssembly => exact (Fulfils.removeAssembly hs).withReply
  case putFigures => exact (Fulfils.putFigures hs hfresh hop).withReply
  case certify => exact (Fulfils.certify hs).withReply
  case putRequest => exact (Fulfils.putRequest hs hfresh hop).withReply
  case answer => exact (Fulfils.answer hs).withReply
  case cancel => exact (Fulfils.cancel hs).withReply
  case reject => exact (Fulfils.reject hs).withReply
  case deleteTrade => exact Fulfils.deleteTrade.withReply

/-- Every row can be read, also those that are deleted. -/
structure Store.Readable (s : Store) : Prop where
  parts : ∀ r ∈ s.parts, ∃ p, r.part = .ok p
  figures : ∀ r ∈ s.figures, ∃ f, r.figure = .ok f
  statuses : ∀ r ∈ s.statuses, ∃ status, r.status = .ok status

theorem Transition.readable {op : Operation} {p p' : TradeRecord × StatusRecord}
    (h : Transition now caller s op p p') (hread : ∃ status, p.2.status = .ok status) :
    ∃ status, p'.2.status = .ok status := by
  obtain ⟨status, hread⟩ := hread
  cases h with
  | unchanged => exact ⟨_, hread⟩
  | readdressed => exact ⟨_, StatusRecord.status_readdressed hread⟩
  | answered => exact ⟨_, StatusRecord.status_answered hread⟩
  | completed => exact ⟨_, StatusRecord.status_completed hread⟩
  | cancelled => exact ⟨_, StatusRecord.status_ended hread⟩
  | rejected => exact ⟨_, StatusRecord.status_ended hread⟩
  | deleted => exact ⟨_, hread⟩

theorem readable_pairs (hs : Reachable s) : ∀ p ∈ s.pairs, ∃ status, p.2.status = .ok status := by
  refine hs.induct (P := fun s => ∀ p ∈ s.pairs, ∃ status, p.2.status = .ok status) ?_ ?_
  · simp [Store.pairs, Store.empty]
  intro s s' reply c hs _ ih haccepted p' hp'
  have hpaired := Store.Paired.of_reachable hs
  rcases (evolves_of_accepted hpaired haccepted).prior hpaired hp' with
    ⟨p, hp, hmove⟩ | ⟨_, _, _, -, rfl⟩
  · exact hmove.readable (ih p hp)
  · exact ⟨_, StatusRecord.status_ofStatus⟩

theorem Store.Readable.of_reachable (hs : Reachable s) : s.Readable where
  parts r hr := ((Coherent.of_reachable hs).parts r hr).exists_part
  figures r hr := ((Coherent.of_reachable hs).figures r hr).exists_figure
  statuses r hr := by
    obtain ⟨t, hp⟩ := (Store.Paired.of_reachable hs).exists_trade hr
    exact readable_pairs hs _ hp

/-- Whatever fails, it is the caller who is refused; what is planned takes no key twice and is
carried out; and no stored text has lost its meaning. -/
theorem failures_are_refusals (hs : Reachable s) (hfresh : c.Fresh s) :
    (∀ e, c.op.run c.limits c.now c.caller s = .error e →
      e.callerCanMend ∧ (∀ trade, e ≠ .statusNotFound trade) ∧
        ∀ field value, e ≠ .unknownLiteral field value) ∧
    (∀ write reply, c.op.plan c.limits c.now c.caller s = .ok (write, reply) →
      ∃ s', s.apply c.now write = .ok s') ∧
    s.Readable := by
  have hfulfils := fulfils_of_fresh hs hfresh
  refine ⟨fun e herror => ?_, hfulfils.written, .of_reachable hs⟩
  have hrefusal : e.isRefusal := by
    rw [Operation.run, Plan.run] at herror
    rcases bind_eq_error.1 herror with herror | ⟨⟨write, reply⟩, hplan, herror⟩
    · exact hfulfils.refuses e herror
    · obtain ⟨s', hs'⟩ := hfulfils.written write reply hplan
      simp only [hs', ok_bind] at herror
      cases herror
  refine ⟨Error.callerCanMend_of_isRefusal hrefusal, fun trade he => ?_, fun field value he => ?_⟩
  · subst he
    cases hrefusal
  · subst he
    cases hrefusal

/-- A stranger who cancels is refused, and the registration of the answer is carried out. -/
theorem failures_are_refusals_sample :
    (∃ e, (sampleCall ⟨3⟩ (.cancel (.v4 30) none)).op.run Settings.default.trade ⟨0, 0⟩ ⟨3⟩
        sampleAnswered = .error e ∧ e.callerCanMend) ∧
      ∃ write reply s', sampleRegistration.op.plan Settings.default.trade ⟨0, 0⟩ ⟨2⟩
        sampleAnswered = .ok (write, reply) ∧ sampleAnswered.apply ⟨0, 0⟩ write = .ok s' := by
  constructor
  · have hrefused := (failures_are_refusals (c := sampleCall ⟨3⟩ (.cancel (.v4 30) none))
      reachable_sampleAnswered (by decide +kernel)).1
    have herror : (sampleCall ⟨3⟩ (.cancel (.v4 30) none)).op.run Settings.default.trade ⟨0, 0⟩ ⟨3⟩
        sampleAnswered = .error (.tradeNotFound (.v4 30)) := by decide +kernel
    exact ⟨_, herror, (hrefused _ herror).1⟩
  · have hcarried := (failures_are_refusals (c := sampleRegistration)
      reachable_sampleAnswered (by decide +kernel)).2.1
    have hplan : (sampleRegistration.op.plan Settings.default.trade ⟨0, 0⟩ ⟨2⟩
        sampleAnswered).isOk := by decide +kernel
    cases h : sampleRegistration.op.plan Settings.default.trade ⟨0, 0⟩ ⟨2⟩ sampleAnswered with
    | error e =>
      rw [h] at hplan
      cases hplan
    | ok r =>
      obtain ⟨s', hs'⟩ := hcarried r.1 r.2 h
      exact ⟨r.1, r.2, s', rfl, hs'⟩

end Footprint
