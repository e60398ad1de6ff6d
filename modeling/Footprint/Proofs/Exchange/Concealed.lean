import Footprint.Proofs.Exchange.Final
import Footprint.Proofs.Exchange.Renaming
import Footprint.Proofs.Store.Rollback
import Footprint.Proofs.Trade.Exact

namespace Footprint

open Table Exchange

/-- Whether the operator is on a side of a live trade of that identifier. -/
def Store.takesPart (s : Store) (operator trade : Uuid) : Bool :=
  s.trades.any fun t => t.id = trade && t.isLive && !t.isForeign operator

/-- The operation on another trade. -/
def Exchange.Operation.withTrade (trade : Uuid) : Operation → Operation
  | putRequest tradeId statusId r => putRequest tradeId statusId { r with trade := some trade }
  | answer _ trace => answer trade trace
  | cancel _ reply => cancel trade reply
  | reject _ reply => reject trade reply
  | deleteTrade _ => deleteTrade trade
  | op => op

/-- The renaming keeps the given traces apart, keeps those of the caller's live parts, and takes any
other to one that is no live part of the caller either. -/
structure Renames (s : Store) (caller : Uuid) (f : Uuid → Uuid) (traces : List Uuid) : Prop where
  apart : TellsApart f traces
  held : ∀ a ∈ traces, s.holds caller a → f a = a
  hidden : ∀ a ∈ traces, s.holds caller a = false → s.holds caller (f a) = false

/-- How an operation on a trade refuses whoever takes no part in it: by naming the trade or, whatever
the trade, by what is wrong with the other arguments. -/
def RefusesTrade (refusal : Uuid → Error) : Prop :=
  refusal = .tradeNotFound ∨ ∃ violations, refusal = fun _ => .invalid violations

/-- A caller cannot tell what is kept from it. Traces that no live part of the caller has are those of
removed parts and of parts of others and any that was never given away; identifiers of no trade that
the caller takes part in are those of deleted trades and of trades between others and any that was
never given away. For all of the identifiers a refusal is the same but for the identifier in it, and
for all of the traces it is the same but for the traces. What refuses the caller changes nothing. -/
structure Conceals (s : Store) (caller : Uuid) : Prop where
  hiddenPart : ∀ r ∈ s.parts, r.isLive = false ∨ r.operator ≠ caller → s.holds caller r.trace = false
  noPart : ∀ x, (∀ r ∈ s.parts, r.trace ≠ x) → s.holds caller x = false
  hiddenTrade : ∀ t ∈ s.trades, t.isLive = false ∨ t.isForeign caller →
    s.takesPart caller t.id = false
  noTrade : ∀ x, (∀ t ∈ s.trades, t.id ≠ x) → s.takesPart caller x = false
  trade : ∀ x, s.takesPart caller x = false → Exchange.trade? s caller x = none
  onTrade : ∀ limits now (op : Operation), op.addresses.isSome → ∃ refusal, RefusesTrade refusal ∧
    ∀ x, s.takesPart caller x = false →
      ((op.withTrade x).session limits now caller).call s = (.error (refusal x), s)
  part : ∀ x, s.holds caller x = false → s.part? caller x = .ok none
  assembly : ∀ x, s.holds caller x = false → s.assembly? caller x = .ok none
  figures : ∀ f traces, Renames s caller f traces →
    figuresFor s caller (traces.map f) = figuresFor s caller traces
  onTrace : ∀ limits now f (op : Operation), Renames s caller f op.traces →
    (∃ x ∈ op.traces, s.holds caller x = false) →
      ∃ e, (op.session limits now caller).call s = (.error e, s) ∧
        ((op.mapTraces f).session limits now caller).call s = (.error (e.mapTraces f), s)

variable {α β : Type} {limits : TextLimits} {now : Instant} {s : Store} {op : Operation}
variable {caller trace trade parent x : Uuid} {f : Uuid → Uuid}

/-- A live trade that can be read at all can be read with its status. -/
theorem tradeWithStatus_cases (hs : Reachable s) (trade : Uuid) :
    tradeWithStatus s trade = .error (.tradeNotFound trade) ∨
      ∃ t status, s.trade? trade = some t ∧ tradeWithStatus s trade = .ok (t, status) := by
  cases htrade : s.trade? trade with
  | none =>
    rw [tradeWithStatus, htrade]
    exact Or.inl rfl
  | some t =>
    obtain ⟨r, hr, rfl, hlive, -⟩ := Store.trade?_eq_some htrade
    obtain ⟨status, hstatus⟩ := statusOf?_of_live hs hr hlive
    exact Or.inr ⟨t, status, rfl, tradeWithStatus_eq_ok.2 ⟨htrade, hstatus⟩⟩

/-- A trade that the caller does not take part in is that of two others. -/
theorem Store.foreign_of_trade? (hx : s.takesPart caller x = false) {t : Trade}
    (h : s.trade? x = some t) : t.requester ≠ caller ∧ t.supplier ≠ caller := by
  obtain ⟨r, hr, hid, hlive, rfl⟩ := Store.trade?_eq_some h
  have hforeign := List.any_eq_false.1 hx r hr
  simp only [hid, hlive, decide_true, Bool.and_self, Bool.true_and, Bool.not_eq_true,
    Bool.not_eq_false', TradeRecord.isForeign, Bool.and_eq_true, decide_eq_true_eq] at hforeign
  exact hforeign

/-- Whatever an operation does with such a trade, it first refuses the caller. -/
theorem tradeWithStatus_bind_of_hidden (hs : Reachable s) (hx : s.takesPart caller x = false)
    {g : Trade × Status → Except Error α}
    (hg : ∀ t status, t.requester ≠ caller → t.supplier ≠ caller →
      g (t, status) = .error (.tradeNotFound x)) :
    (tradeWithStatus s x >>= g) = .error (.tradeNotFound x) := by
  rcases tradeWithStatus_cases hs x with herror | ⟨t, status, htrade, hread⟩
  · rw [herror]
    rfl
  · obtain ⟨hrequester, hsupplier⟩ := Store.foreign_of_trade? hx htrade
    rw [hread, ok_bind]
    exact hg t status hrequester hsupplier

/-- Rules of the other arguments come first, and they do not look at the trade. -/
theorem exists_refusal_after (violations : List Violation) {g : Uuid → Except Error α}
    (h : ∃ refusal, RefusesTrade refusal ∧
      ∀ x, s.takesPart caller x = false → g x = .error (refusal x)) :
    ∃ refusal, RefusesTrade refusal ∧ ∀ x, s.takesPart caller x = false →
      (refuse violations >>= fun _ => g x) = .error (refusal x) := by
  cases violations with
  | nil => exact h
  | cons => exact ⟨_, Or.inr ⟨_, rfl⟩, fun _ _ => rfl⟩

theorem reviseRequest_of_hidden (hs : Reachable s) (hx : s.takesPart caller x = false)
    (r : TradeRequest) : reviseRequest caller x r s = .error (.tradeNotFound x) :=
  tradeWithStatus_bind_of_hidden hs hx fun _ _ hrequester _ => if_pos (Or.inl hrequester)

theorem answer_of_hidden (hs : Reachable s) (hx : s.takesPart caller x = false) (trace : Uuid) :
    answer caller x trace s = .error (.tradeNotFound x) :=
  tradeWithStatus_bind_of_hidden hs hx fun _ _ _ hsupplier => if_pos hsupplier

theorem deleteTrade_of_hidden (hx : s.takesPart caller x = false) :
    deleteTrade caller x s = .error (.tradeNotFound x) := by
  rw [deleteTrade]
  cases htrade : s.trade? x with
  | none => rfl
  | some t => exact if_neg (Store.foreign_of_trade? hx htrade).1

theorem cancel_of_hidden (hs : Reachable s) (limits : TextLimits) (reply : Option String) :
    ∃ refusal, RefusesTrade refusal ∧ ∀ x, s.takesPart caller x = false →
      cancel limits caller x reply s = .error (refusal x) :=
  exists_refusal_after _ ⟨_, Or.inl rfl, fun _ hx =>
    tradeWithStatus_bind_of_hidden hs hx fun _ _ hrequester _ => if_pos hrequester⟩

theorem reject_of_hidden (hs : Reachable s) (limits : TextLimits) (reply : Option String) :
    ∃ refusal, RefusesTrade refusal ∧ ∀ x, s.takesPart caller x = false →
      reject limits caller x reply s = .error (refusal x) :=
  exists_refusal_after _ ⟨_, Or.inl rfl, fun _ hx =>
    tradeWithStatus_bind_of_hidden hs hx fun _ _ _ hsupplier => if_pos hsupplier⟩

theorem putRequest_of_hidden (hs : Reachable s) (limits : TextLimits) (now : Instant)
    (tradeId statusId : Uuid) (r : TradeRequest) :
    ∃ refusal, RefusesTrade refusal ∧ ∀ x, s.takesPart caller x = false →
      putRequest limits now tradeId statusId caller { r with trade := some x } s =
        .error (refusal x) :=
  exists_refusal_after (Rules.request caller r)
    (exists_refusal_after (Rules.length "message" r.message limits.message)
      (g := fun x => reviseRequest caller x { r with trade := some x } s)
      ⟨_, Or.inl rfl, fun _ hx => reviseRequest_of_hidden hs hx _⟩)

theorem plan_of_hidden (hs : Reachable s) (caller : Uuid) (limits : TextLimits) (now : Instant)
    (hop : op.addresses.isSome) :
    ∃ refusal, RefusesTrade refusal ∧ ∀ x, s.takesPart caller x = false →
      (op.withTrade x).plan limits now caller s = .error (refusal x) := by
  have hreply {α : Type} {plan : Uuid → Plan α} {reply : α → Reply}
      (h : ∃ refusal, RefusesTrade refusal ∧
        ∀ x, s.takesPart caller x = false → plan x s = .error (refusal x)) :
      ∃ refusal, RefusesTrade refusal ∧ ∀ x, s.takesPart caller x = false →
        Operation.withReply reply (plan x) s = .error (refusal x) := by
    obtain ⟨refusal, hrefusal, hplan⟩ := h
    exact ⟨refusal, hrefusal, fun x hx => exceptMap_eq_error.2 (hplan x hx)⟩
  cases op with
  | putAssembly | removeAssembly | putFigures | certify => cases hop
  | putRequest tradeId statusId r =>
    simp only [Operation.withTrade, Operation.plan]
    exact hreply (putRequest_of_hidden hs limits now tradeId statusId r)
  | answer _ trace =>
    simp only [Operation.withTrade, Operation.plan]
    exact hreply ⟨_, Or.inl rfl, fun x hx => answer_of_hidden hs hx trace⟩
  | cancel _ reply =>
    simp only [Operation.withTrade, Operation.plan]
    exact hreply (cancel_of_hidden hs limits reply)
  | reject _ reply =>
    simp only [Operation.withTrade, Operation.plan]
    exact hreply (reject_of_hidden hs limits reply)
  | deleteTrade _ =>
    simp only [Operation.withTrade, Operation.plan]
    exact hreply ⟨_, Or.inl rfl, fun x hx => deleteTrade_of_hidden hx⟩

theorem assembly?_of_hidden (h : s.holds caller trace = false) :
    s.assembly? caller trace = .ok none := by
  rw [Store.assembly?, part?_of_hidden h]
  rfl

theorem vector_of_hidden (h : s.holds caller trace = false) : vector s caller trace = .ok [] := by
  rw [vector, part?_of_hidden h]
  rfl

theorem figuresFor_map {traces : List Uuid} (hf : Renames s caller f traces) :
    figuresFor s caller (traces.map f) = figuresFor s caller traces := by
  have hvectors : (traces.map f).mapM (vector s caller) = traces.mapM (vector s caller) := by
    rw [List.mapM_map]
    refine mapM_congr fun a ha => ?_
    rw [Function.comp_apply]
    cases hholds : s.holds caller a with
    | true => rw [hf.held a ha hholds]
    | false => rw [vector_of_hidden (hf.hidden a ha hholds), vector_of_hidden hholds]
  rw [figuresFor, hvectors, figuresFor]

/-- Both fail, and the reasons are the same but for the traces. -/
def FailAlike (f : Uuid → Uuid) (x y : Except Error α) : Prop :=
  ∃ e, x = .error e ∧ y = .error (e.mapTraces f)

/-- Both fail alike or succeed with the same result. -/
def Agree (f : Uuid → Uuid) (x y : Except Error α) : Prop :=
  FailAlike f x y ∨ ∃ a, x = .ok a ∧ y = .ok a

theorem FailAlike.bind {x y : Except Error α} (h : FailAlike f x y) {g k : α → Except Error β} :
    FailAlike f (x >>= g) (y >>= k) := by
  obtain ⟨e, rfl, rfl⟩ := h
  exact ⟨e, rfl, rfl⟩

theorem Agree.bind {x y : Except Error α} (h : Agree f x y) {g k : α → Except Error β}
    (hnext : ∀ a, x = .ok a → FailAlike f (g a) (k a)) : FailAlike f (x >>= g) (y >>= k) := by
  rcases h with hfail | ⟨a, rfl, rfl⟩
  · exact hfail.bind
  · exact hnext a rfl

theorem agree_refuse (violations : List Violation) :
    Agree f (refuse violations) (refuse (violations.map (·.mapTraces f))) := by
  cases violations with
  | nil => exact Or.inr ⟨(), rfl, rfl⟩
  | cons => exact Or.inl ⟨_, rfl, rfl⟩

theorem partOfDraft_of_hidden {slot : Slot} {d : PartDraft} (hnamed : d.trace.isSome)
    (h : s.holds caller trace = false) :
    partOfDraft s caller parent slot d trace = .error (.partNotFound trace) := by
  have hcheck : checkNamed s caller parent slot trace = .error (.partNotFound trace) := by
    rw [checkNamed, part?_of_hidden h]
    rfl
  rw [partOfDraft, if_pos hnamed, hcheck]
  rfl

theorem agree_self {x : Except Error α} (h : ∀ e, x = .error e → e.mapTraces f = e) :
    Agree f x x := by
  cases x with
  | error e => exact Or.inl ⟨e, rfl, congrArg Except.error (h e rfl).symm⟩
  | ok a => exact Or.inr ⟨a, rfl, rfl⟩

theorem mapTraces_of_checkNamed (hs : Reachable s) {slot : Slot} (hkept : f trace = trace) {e : Error}
    (h : checkNamed s caller parent slot trace = .error e) : e.mapTraces f = e := by
  obtain ⟨o, ho⟩ := (Coherent.of_reachable hs).exists_part? caller trace
  rw [checkNamed, ho, ok_bind] at h
  cases o with
  | none =>
    cases h
    exact congrArg Error.partNotFound hkept
  | some part =>
    dsimp only at h
    split at h
    · cases h
    · split at h
      · cases h
      · cases h
        simp [Error.mapTraces, Violation.mapTraces, hkept]

/-- The refusal of a part names no trace but its own. -/
theorem mapTraces_of_partOfDraft (hs : Reachable s) {slot : Slot} {d : PartDraft}
    (hnamed : d.trace.isSome → f trace = trace) {e : Error}
    (h : partOfDraft s caller parent slot d trace = .error e) : e.mapTraces f = e := by
  rw [partOfDraft] at h
  split at h
  · rename_i hd
    rcases bind_eq_error.1 h with h | ⟨⟨⟩, -, h⟩
    · exact mapTraces_of_checkNamed hs (hnamed hd) h
    · split at h
      · cases h
        rfl
      · cases h
  · split at h
    · cases h
      rfl
    · cases h

/-- A part that is submitted names one that is hidden, or the renaming leaves it alone. -/
theorem Renames.draft_cases {d : PartDraft} (hf : Renames s caller f d.trace.toList) :
    (∃ x, d.trace = some x ∧ s.holds caller x = false ∧ s.holds caller (f x) = false) ∨
      d.mapTrace f = d ∧ ∀ x, d.trace = some x → f x = x ∧ s.holds caller x := by
  cases hd : d.trace with
  | none => exact Or.inr ⟨by simp [PartDraft.mapTrace, PartDraft.ext_iff, hd], nofun⟩
  | some x =>
    have hx : x ∈ d.trace.toList := by simp [hd]
    cases hholds : s.holds caller x with
    | false => exact Or.inl ⟨x, rfl, hholds, hf.hidden x hx hholds⟩
    | true =>
      have hkept := hf.held x hx hholds
      refine Or.inr ⟨by simp [PartDraft.mapTrace, PartDraft.ext_iff, hd, hkept], fun y hy => ?_⟩
      cases hy
      exact ⟨hkept, hholds⟩

theorem Renames.subset {traces others : List Uuid} (hf : Renames s caller f traces)
    (hsubset : others ⊆ traces) : Renames s caller f others :=
  ⟨hf.apart.subset hsubset, fun a ha => hf.held a (hsubset ha), fun a ha => hf.hidden a (hsubset ha)⟩

theorem exists_hidden_of_held {names others : List Uuid} (hheld : ∀ x ∈ names, s.holds caller x)
    (h : ∃ x ∈ names ++ others, s.holds caller x = false) :
    ∃ x ∈ others, s.holds caller x = false := by
  obtain ⟨x, hx, hhidden⟩ := h
  rcases List.mem_append.1 hx with hx | hx
  · rw [hheld x hx] at hhidden
    cases hhidden
  · exact ⟨x, hx, hhidden⟩

/-- The first of some submitted parts is refused under both names, or it has one name only. -/
theorem first_draft (hs : Reachable s) {d : PartDraft} (hf : Renames s caller f d.trace.toList)
    (ids : List Uuid) :
    ∃ t t' ids', (∀ names, assignTraces ids (d.trace :: names) = t :: assignTraces ids' names) ∧
      (∀ names, assignTraces ids ((d.mapTrace f).trace :: names) = t' :: assignTraces ids' names) ∧
      ((∀ parent parent' slot, FailAlike f (partOfDraft s caller parent slot d t)
          (partOfDraft s caller parent' slot (d.mapTrace f) t')) ∨
        t' = t ∧ (∀ parent slot, Agree f (partOfDraft s caller parent slot d t)
          (partOfDraft s caller parent slot (d.mapTrace f) t)) ∧
        ∀ x ∈ d.trace.toList, s.holds caller x) := by
  rcases hf.draft_cases with ⟨x, hx, hholds, hholds'⟩ | ⟨hsame, hkept⟩
  · have hx' : (d.mapTrace f).trace = some (f x) := by simp [PartDraft.mapTrace, hx]
    refine ⟨x, f x, ids, fun names => ?_, fun names => ?_, Or.inl fun parent parent' slot => ?_⟩
    · rw [hx, assignTraces_some]
    · rw [hx', assignTraces_some]
    · exact ⟨_, partOfDraft_of_hidden (by simp [hx]) hholds,
        partOfDraft_of_hidden (by simp [hx']) hholds'⟩
  · obtain ⟨t, ids', hassigned, hname⟩ := assignTraces_cons ids d.trace
    have hpart : d.trace.isSome → f t = t := fun hd => by
      obtain ⟨x, hx⟩ := Option.isSome_iff_exists.1 hd
      rw [hname x hx, (hkept x hx).1]
    rw [hsame]
    exact ⟨t, t, ids', hassigned, hassigned, Or.inr ⟨rfl, fun parent slot =>
      agree_self fun e => mapTraces_of_partOfDraft hs hpart,
      fun x hx => (hkept x (Option.mem_toList.1 hx)).2⟩⟩

/-- The first hidden part is where both submissions fail, if they come that far. -/
theorem partsOfDrafts_failAlike (hs : Reachable s) {index : Nat} {ids : List Uuid}
    {ds : List PartDraft} (hf : Renames s caller f (ds.filterMap (·.trace)))
    (hhidden : ∃ x ∈ ds.filterMap (·.trace), s.holds caller x = false) :
    FailAlike f (partsOfDrafts s caller parent index ds (assignTraces ids (ds.map (·.trace))))
      (partsOfDrafts s caller parent index (ds.map (·.mapTrace f))
        (assignTraces ids ((ds.map (·.mapTrace f)).map (·.trace)))) := by
  induction ds generalizing index ids with
  | nil =>
    obtain ⟨x, hx, -⟩ := hhidden
    cases hx
  | cons d ds ih =>
    have hnamed : (d :: ds).filterMap (·.trace) = d.trace.toList ++ ds.filterMap (·.trace) := by
      cases htrace : d.trace <;> simp [htrace]
    rw [hnamed] at hf hhidden
    obtain ⟨t, t', ids', hassigned, hassigned', hpart⟩ :=
      first_draft hs (hf.subset (List.subset_append_left _ _)) ids
    simp only [List.map_cons, hassigned, hassigned', partsOfDrafts]
    rcases hpart with hfail | ⟨rfl, hagree, hheld⟩
    · exact (hfail _ _ _).bind
    · have hrest := exists_hidden_of_held hheld hhidden
      exact (hagree _ _).bind fun _ _ => (ih (hf.subset (List.subset_append_right _ _)) hrest).bind

theorem putAssembly_failAlike (hs : Reachable s) (ids : List Uuid) {draft : AssemblyDraft}
    (hf : Renames s caller f draft.named) (hhidden : ∃ x ∈ draft.named, s.holds caller x = false) :
    FailAlike f (putAssembly ids caller draft s)
      (putAssembly ids caller (draft.mapTraces f) s) := by
  have hrules := agree_refuse (f := f) (Rules.assembly caller draft)
  rw [← Rules.assembly_mapTraces hf.apart] at hrules
  refine hrules.bind fun _ _ => ?_
  obtain ⟨_ | d, children⟩ := draft
  · exact ⟨_, rfl, rfl⟩
  have hnamed : (AssemblyDraft.mk (some d) children).named =
      d.trace.toList ++ children.filterMap (·.trace) := by
    cases htrace : d.trace <;> simp [AssemblyDraft.named, htrace]
  rw [hnamed] at hf hhidden
  obtain ⟨t, t', ids', hassigned, hassigned', hpart⟩ :=
    first_draft hs (hf.subset (List.subset_append_left _ _)) ids
  simp only [AssemblyDraft.mapTraces, Option.map_some, List.map_cons, hassigned, hassigned']
  rcases hpart with hfail | ⟨rfl, hagree, hheld⟩
  · exact (hfail _ _ _).bind
  · have hrest := exists_hidden_of_held hheld hhidden
    have hchildren := hf.subset (List.subset_append_right _ _)
    exact (hagree _ _).bind fun _ _ => (partsOfDrafts_failAlike hs hchildren hrest).bind

theorem removeAssembly_failAlike (hparent : s.holds caller parent = false)
    (hparent' : s.holds caller (f parent) = false) :
    FailAlike f (removeAssembly caller parent s) (removeAssembly caller (f parent) s) := by
  rw [Exchange.removeAssembly, Exchange.removeAssembly, assembly?_of_hidden hparent,
    assembly?_of_hidden hparent']
  exact ⟨_, rfl, rfl⟩

/-- All figures of a legal set are for one part, so that is hidden when any is. -/
theorem putFigures_failAlike (id : Uuid) {fs : List Figure}
    (hf : Renames s caller f (fs.map (·.trace)))
    (hhidden : ∃ x ∈ fs.map (·.trace), s.holds caller x = false) :
    FailAlike f (putFigures id caller fs s) (putFigures id caller (fs.map (·.mapTrace f)) s) := by
  have hrules := agree_refuse (f := f) (Rules.figures fs)
  rw [← Rules.figures_mapTraces hf.apart] at hrules
  refine hrules.bind fun _ hlegal => ?_
  obtain ⟨x, hx, hholds⟩ := hhidden
  obtain ⟨row, hrow, rfl⟩ := List.mem_map.1 hx
  cases fs with
  | nil => cases hrow
  | cons first rest =>
    have hsame := (Rules.shared_of_figures (refuse_eq_ok_iff.1 hlegal) rfl hrow).1
    rw [hsame] at hx hholds
    have hpart : s.part? caller (first.mapTrace f).trace = .ok none :=
      part?_of_hidden (hf.hidden _ hx hholds)
    simp only [List.map_cons, part?_of_hidden hholds, hpart]
    exact ⟨_, rfl, rfl⟩

theorem certify_failAlike (certificates : List String) (htrace : s.holds caller trace = false)
    (htrace' : s.holds caller (f trace) = false) :
    FailAlike f (certify caller trace certificates s) (certify caller (f trace) certificates s) := by
  rw [certify, certify, part?_of_hidden htrace, part?_of_hidden htrace']
  exact ⟨_, rfl, rfl⟩

/-- A live request of the caller is for a live part of the caller, so no revision is for a hidden
one. -/
theorem reviseRequest_failAlike (hs : Reachable s) {r : TradeRequest}
    (hpart : s.holds caller r.requesterPart = false)
    (hpart' : s.holds caller (f r.requesterPart) = false) :
    FailAlike f (reviseRequest caller trade r s)
      (reviseRequest caller trade { r with requesterPart := f r.requesterPart } s) := by
  have hrefused {r : TradeRequest} (hpart : s.holds caller r.requesterPart = false) :
      reviseRequest caller trade r s = .error (.tradeNotFound trade) := by
    rcases tradeWithStatus_cases hs trade with herror | ⟨t, status, htrade, hread⟩
    · rw [reviseRequest, herror]
      rfl
    · rw [reviseRequest, hread, ok_bind]
      refine if_pos (or_iff_not_imp_left.2 fun hrequester hsame => ?_)
      obtain ⟨q, hq, -, hlive, rfl⟩ := Store.trade?_eq_some htrade
      obtain ⟨p, hp, htrace, hplive, hoperator⟩ := (Referenced.of_reachable hs q hq hlive).requested
      have hcaller : q.requester = caller := not_not.1 hrequester
      have hnone := List.any_eq_false.1 hpart p hp
      simp only [htrace, hoperator, hcaller, hplive, ← hsame] at hnone
      exact hnone (by simp [TradeRecord.trade])
  exact ⟨_, hrefused hpart, hrefused hpart'⟩

theorem openRequest_failAlike (now : Instant) (tradeId statusId : Uuid) {r : TradeRequest}
    (hpart : s.holds caller r.requesterPart = false)
    (hpart' : s.holds caller (f r.requesterPart) = false) :
    FailAlike f (openRequest now tradeId statusId caller r s)
      (openRequest now tradeId statusId caller { r with requesterPart := f r.requesterPart } s) := by
  rw [openRequest, openRequest, part?_of_hidden hpart, part?_of_hidden hpart']
  exact ⟨_, rfl, rfl⟩

theorem putRequest_failAlike (hs : Reachable s) (limits : TextLimits) (now : Instant)
    (tradeId statusId : Uuid) {r : TradeRequest} (hpart : s.holds caller r.requesterPart = false)
    (hpart' : s.holds caller (f r.requesterPart) = false) :
    FailAlike f (putRequest limits now tradeId statusId caller r s)
      (putRequest limits now tradeId statusId caller
        { r with requesterPart := f r.requesterPart } s) := by
  have hrules := agree_refuse (f := f) (Rules.request caller r)
  have hlength := agree_refuse (f := f) (Rules.length "message" r.message limits.message)
  rw [Rules.map_request] at hrules
  rw [Rules.map_length] at hlength
  refine hrules.bind fun _ _ => hlength.bind fun _ _ => ?_
  dsimp only
  cases r.trade with
  | some trade => exact reviseRequest_failAlike hs hpart hpart'
  | none => exact openRequest_failAlike now tradeId statusId hpart hpart'

theorem answer_failAlike (hs : Reachable s) (htrace : s.holds caller trace = false)
    (htrace' : s.holds caller (f trace) = false) :
    FailAlike f (answer caller trade trace s) (answer caller trade (f trace) s) := by
  rcases tradeWithStatus_cases hs trade with herror | ⟨t, status, -, hread⟩
  · rw [answer, answer, herror]
    exact ⟨_, rfl, rfl⟩
  · rw [answer, answer, hread, ok_bind, ok_bind]
    dsimp only
    split
    · exact ⟨_, rfl, rfl⟩
    · refine (agree_self fun e he => ?_).bind fun _ _ => ?_
      · rw [requireOpen] at he
        split at he
        · cases he
          rfl
        · cases he
      · rw [part?_of_hidden htrace, part?_of_hidden htrace']
        exact ⟨_, rfl, rfl⟩

theorem plan_failAlike (hs : Reachable s) (limits : TextLimits) (now : Instant)
    (hf : Renames s caller f op.traces) (hhidden : ∃ x ∈ op.traces, s.holds caller x = false) :
    FailAlike f (op.plan limits now caller s) ((op.mapTraces f).plan limits now caller s) := by
  have hreply {α : Type} {plan plan' : Plan α} {reply : α → Reply}
      (h : FailAlike f (plan s) (plan' s)) :
      FailAlike f (Operation.withReply reply plan s) (Operation.withReply reply plan' s) := by
    obtain ⟨e, hplan, hplan'⟩ := h
    exact ⟨e, exceptMap_eq_error.2 hplan, exceptMap_eq_error.2 hplan'⟩
  have hone {x : Uuid} (hx : op.traces = [x]) :
      s.holds caller x = false ∧ s.holds caller (f x) = false := by
    rw [hx] at hf hhidden
    have hholds : s.holds caller x = false := by simpa using hhidden
    exact ⟨hholds, hf.hidden x List.mem_cons_self hholds⟩
  cases op with
  | putAssembly ids draft => exact hreply (putAssembly_failAlike hs ids hf hhidden)
  | removeAssembly parent =>
    simp only [Operation.mapTraces, Operation.plan]
    exact hreply (removeAssembly_failAlike (hone rfl).1 (hone rfl).2)
  | putFigures id fs => exact hreply (putFigures_failAlike id hf hhidden)
  | certify trace certificates =>
    simp only [Operation.mapTraces, Operation.plan]
    exact hreply (certify_failAlike certificates (hone rfl).1 (hone rfl).2)
  | putRequest tradeId statusId r =>
    simp only [Operation.mapTraces, Operation.plan]
    exact hreply (putRequest_failAlike hs limits now _ _ (hone rfl).1 (hone rfl).2)
  | answer trade trace => exact hreply (answer_failAlike hs (hone rfl).1 (hone rfl).2)
  | cancel | reject | deleteTrade =>
    obtain ⟨x, hx, -⟩ := hhidden
    cases hx

/-- To a caller of a reachable store, what was removed and what belongs to others is as if it had
never been. -/
theorem concealed_as_absent (hs : Reachable s) (caller : Uuid) : Conceals s caller where
  hiddenPart r hr hhidden := by
    rw [Bool.eq_false_iff]
    intro hholds
    obtain ⟨q, hq, hfound⟩ := List.any_eq_true.1 hholds
    simp only [Bool.and_eq_true, decide_eq_true_eq] at hfound
    rw [eq_of_key_eq (nodup_parts hs) hq hr hfound.1.1] at hfound
    rcases hhidden with hdead | hother
    · rw [hdead] at hfound
      cases hfound.2
    · exact hother hfound.1.2
  noPart x hnone := List.any_eq_false.2 fun r hr => by simp [hnone r hr]
  hiddenTrade t ht hhidden := by
    rw [Bool.eq_false_iff]
    intro htakes
    obtain ⟨q, hq, hfound⟩ := List.any_eq_true.1 htakes
    simp only [Bool.and_eq_true, decide_eq_true_eq, Bool.not_eq_true'] at hfound
    rw [eq_of_key_eq (Store.Paired.of_reachable hs).trades hq ht hfound.1.1] at hfound
    rcases hhidden with hdead | hforeign
    · rw [hdead] at hfound
      cases hfound.1.2
    · rw [hforeign] at hfound
      cases hfound.2
  noTrade x hnone := List.any_eq_false.2 fun t ht => by simp [hnone t ht]
  trade x hx := by
    rw [Exchange.trade?]
    cases htrade : s.trade? x with
    | none => rfl
    | some t =>
      have hforeign := Store.foreign_of_trade? hx htrade
      simp [hforeign.1, hforeign.2]
  onTrade limits now op hop := by
    obtain ⟨refusal, hrefusal, hplan⟩ := plan_of_hidden hs caller limits now hop
    exact ⟨refusal, hrefusal, fun x hx => Session.call_of_plan_error (hplan x hx)⟩
  part _ := part?_of_hidden
  assembly _ := assembly?_of_hidden
  figures _ _ := figuresFor_map
  onTrace limits now f op hf hhidden := by
    obtain ⟨e, hplan, hplan'⟩ := plan_failAlike hs limits now hf hhidden
    exact ⟨e, Session.call_of_plan_error hplan, Session.call_of_plan_error hplan'⟩

/-- The store in which operator 1 has deleted its request and removed its part 10. -/
def sampleDeleted : Store :=
  runAll sampleDeletions sampleAnswered

/-- Operator 1 is refused the part of operator 2 as it is refused one that there never was, and its
deleted request as one that it never made. -/
theorem concealed_as_absent_sample :
    (((Operation.certify (.v4 20) []).session Settings.default.trade ⟨0, 0⟩ ⟨1⟩).call
        sampleDeleted = (.error (.partNotFound (.v4 20)), sampleDeleted) ∧
      ((Operation.certify (.v4 99) []).session Settings.default.trade ⟨0, 0⟩ ⟨1⟩).call
        sampleDeleted = (.error (.partNotFound (.v4 99)), sampleDeleted)) ∧
      ∃ refusal, RefusesTrade refusal ∧
        ((Operation.deleteTrade (.v4 30)).session Settings.default.trade ⟨0, 0⟩ ⟨1⟩).call
          sampleDeleted = (.error (refusal (.v4 30)), sampleDeleted) ∧
        ((Operation.deleteTrade (.v4 98)).session Settings.default.trade ⟨0, 0⟩ ⟨1⟩).call
          sampleDeleted = (.error (refusal (.v4 98)), sampleDeleted) := by
  have hreachable : Reachable sampleDeleted :=
    reachable_sampleAnswered.calls (by decide +kernel)
  have hconceals := concealed_as_absent hreachable ⟨1⟩
  constructor
  · have hrenames : Renames sampleDeleted ⟨1⟩ (Function.update id (.v4 20) (.v4 99))
        (Operation.certify (.v4 20) []).traces :=
      ⟨by simp [TellsApart, Operation.traces], by decide +kernel, by decide +kernel⟩
    obtain ⟨e, hcall, hcall'⟩ :=
      hconceals.onTrace Settings.default.trade ⟨0, 0⟩ _ _ hrenames (by decide +kernel)
    have hpart : ((Operation.certify (.v4 20) []).session Settings.default.trade ⟨0, 0⟩ ⟨1⟩).call
        sampleDeleted = (.error (.partNotFound (.v4 20)), sampleDeleted) := by decide +kernel
    cases hcall.symm.trans hpart
    exact ⟨hpart, hcall'⟩
  · obtain ⟨refusal, hrefusal, hcall⟩ :=
      hconceals.onTrade Settings.default.trade ⟨0, 0⟩ (.deleteTrade (.v4 30)) rfl
    exact ⟨refusal, hrefusal, hcall (.v4 30) (by decide +kernel),
      hcall (.v4 98) (by decide +kernel)⟩

end Footprint
