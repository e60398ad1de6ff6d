import Footprint.Proofs.Figure.Stated

namespace Footprint

/-- Two figures have the same value in a shared field. -/
def SharedField.Same (f g : Figure) : SharedField → Prop
  | .setId => f.setId = g.setId
  | .trace => f.trace = g.trace
  | .unit => f.unit = g.unit
  | .certificates => f.certificates = g.certificates

/-- No two rows differ on the field. -/
def SharedField.Uniform (rows : List Figure) (field : SharedField) : Prop :=
  ∀ f ∈ rows, ∀ g ∈ rows, field.Same f g

/-- The first field, in the order in which disagreements are reported, on which two rows differ. -/
def SharedField.FirstDiffering (rows : List Figure) (field : SharedField) : Prop :=
  ¬field.Uniform rows ∧
    ∃ before after, all = before ++ field :: after ∧ ∀ k ∈ before, k.Uniform rows

variable {trace : Uuid} {driver : Figure} {rows others : List Figure} {field : SharedField}
variable {f g : Figure} {e : Error}

theorem SharedField.agrees_iff : field.agrees f g ↔ field.Same f g := by
  cases field <;> simp [agrees, Same]

theorem SharedField.uniform_cons_iff :
    field.Uniform (driver :: others) ↔ others.all fun f => field.agrees driver f := by
  have hsymm {f g : Figure} (h : field.Same f g) : field.Same g f := by
    cases field <;> exact Eq.symm h
  have htrans {f g h : Figure} (hfg : field.Same f g) (hgh : field.Same g h) : field.Same f h := by
    cases field <;> exact Eq.trans hfg hgh
  have hself : field.Same driver driver := agrees_iff.1 (agrees_self field driver)
  rw [Uniform, ← Rules.forall_head_iff (R := fun f g => field.Same f g) hsymm htrans,
    List.forall_mem_cons, List.all_eq_true]
  simp only [agrees_iff]
  exact ⟨fun h f hf => hsymm (h.2 f hf), fun h => ⟨hself, fun f hf => hsymm (h f hf)⟩⟩

namespace FigureSet

theorem disagreement?_eq_none_iff :
    disagreement? driver others = none ↔ ∀ field, SharedField.Uniform (driver :: others) field := by
  have hall (field : SharedField) : field ∈ SharedField.all := by cases field <;> decide
  simp [disagreement?, hall, SharedField.uniform_cons_iff]

theorem disagreement?_eq_some_iff :
    disagreement? driver others = some field ↔ field.FirstDiffering (driver :: others) := by
  simp [disagreement?, List.find?_eq_some_iff_append, SharedField.FirstDiffering,
    SharedField.uniform_cons_iff]

theorem ofFigures_eq_none_iff : ofFigures trace rows = .ok none ↔ rows = [] := by
  cases rows with
  | nil => simp [ofFigures]
  | cons driver others =>
    rw [ofFigures]
    cases disagreement? driver others <;> simp

theorem exists_ofFigures_iff : (∃ set, ofFigures trace rows = .ok (some set)) ↔
    rows ≠ [] ∧ ∀ field, SharedField.Uniform rows field := by
  cases rows with
  | nil => simp [ofFigures]
  | cons driver others =>
    rw [← disagreement?_eq_none_iff, ofFigures]
    cases disagreement? driver others <;> simp

theorem ofFigures_eq_error_iff : ofFigures trace rows = .error e ↔
    ∃ field, SharedField.FirstDiffering rows field ∧ .inconsistent field trace = e := by
  cases rows with
  | nil => simp [ofFigures, SharedField.FirstDiffering, SharedField.Uniform]
  | cons driver others =>
    simp only [← disagreement?_eq_some_iff, ofFigures]
    cases disagreement? driver others <;> simp

end FigureSet

namespace Exchange

/-- Why a derivation over bare rows stops: it is refused, or it asks for the first of no rows. -/
inductive Stop where
  | refused (e : Error)
  | noRow

/-- A derivation that never stops for want of a row. -/
def secure (x : Except Error α) : Except Stop α :=
  x.mapError .refused

namespace Rows

def first : List Figure → Except Stop Figure
  | [] => .error .noRow
  | driver :: _ => .ok driver

/-- Every row is compared with the first one. -/
def check (trace : Uuid) (rows : List Figure) (field : SharedField) : Except Stop Unit := do
  let driver ← first rows
  if rows.all fun f => field.agrees driver f then .ok ()
  else .error (.refused (.inconsistent field trace))

def guard (trace : Uuid) (rows : List Figure) : Except Stop (Option (List Figure)) := do
  if rows.isEmpty then .ok none
  else
    SharedField.all.forM (check trace rows)
    .ok (some rows)

def emission? (rows : List Figure) (kind : FigureKind) : Option Float :=
  (rows.find? fun f => f.kind = kind).bind (·.emission)

def unit (rows : List Figure) : Except Stop (Option DeclaredUnit) := do
  let driver ← first rows
  .ok driver.unit

def totalled (rows : List Figure) (components : Components) : Except Stop (List Figure) := do
  let driver ← first rows
  .ok
    (rows ++
      [ driver.derive .preProductionTotal (emission? rows .preProduction),
        driver.derive .mainProductionTotal (emission? rows .mainProduction),
        driver.derive .preComponentTotal (some (fiveDecimals components.pre)),
        driver.derive .mainComponentTotal (some (fiveDecimals components.main)) ])

def response (rows : List Figure) (trace : Uuid) (kind response : FigureKind) :
    Except Stop Figure := do
  let driver ← first rows
  .ok { driver.derive response (emission? rows kind) with setId := none, trace := trace }

def responses (rows : List Figure) (trace : Uuid) : Except Stop (List Figure) :=
  ([FigureKind.preProduction, .mainProduction].filterMap fun kind =>
    kind.response?.map (response rows trace kind)).mapM id

def stored (s : Store) (trace : Uuid) : Except Stop (Option (List Figure)) := do
  let rows ← secure (s.figuresOf trace)
  guard trace rows

def supplied (s : Store) (trace : Uuid) : Except Stop (Option (List Figure)) :=
  match (s.requestFor? trace).bind (·.supplierPart) with
  | some part => stored s part
  | none => .ok none

def contribution (s : Store) (child : Part) : Except Stop (Option (List Figure)) :=
  if child.terminal then stored s child.trace else supplied s child.trace

def addChild (s : Store) (trace : Uuid) (rows : List Figure) (c : Components) (child : Part) :
    Except Stop Components := do
  match ← contribution s child with
  | none => .ok c
  | some added =>
    if (← unit added) = (← unit rows) then
      .ok
        ⟨c.pre + (emission? added .preProduction).getD 0,
          c.main + (emission? added .mainProduction).getD 0⟩
    else .error (.refused (.inconsistent .unit trace))

def partFigures? (s : Store) (p : Part) : Except Stop (Option (List Figure)) := do
  match ← secure (classOf s p) with
  | .terminal isParent =>
    match ← stored s p.trace with
    | none => .ok none
    | some rows => if isParent then (totalled rows ⟨0, 0⟩).map some else .ok (some rows)
  | .imported =>
    match s.requestFor? p.trace with
    | none => .ok (some (blankResponses p.trace))
    | some t =>
      match t.supplierPart with
      | none => .ok none
      | some part =>
        match ← stored s part with
        | none => .ok none
        | some rows => (responses rows p.trace).map some
  | .parent children =>
    match ← stored s p.trace with
    | none => .ok none
    | some rows =>
      let components ← children.foldlM (addChild s p.trace rows) ⟨0, 0⟩
      (totalled rows components).map some

def vector (s : Store) (operator trace : Uuid) : Except Stop (List Figure) := do
  match ← secure (s.part? operator trace) with
  | none => .ok []
  | some p =>
    let fs ← partFigures? s p
    .ok (fs.getD [])

def figuresFor (s : Store) (operator : Uuid) (traces : List Uuid) : Except Stop (List Figure) := do
  let vectors ← traces.mapM (vector s operator)
  .ok vectors.flatten

variable {α β γ : Type} {s : Store} {set : FigureSet} {child : Part} {c : Components}

theorem secure_bind {x : Except Error α} {k : α → Except Error β} :
    secure (x >>= k) = secure x >>= fun a => secure (k a) := by
  cases x <;> rfl

theorem secure_mapM {k : α → Except Error β} (as : List α) :
    secure (as.mapM k) = as.mapM fun a => secure (k a) := by
  induction as with
  | nil => rfl
  | cons a as ih =>
    simp only [List.mapM_cons, secure_bind, ih]
    rfl

theorem secure_foldlM {k : β → α → Except Error β} (as : List α) (b : β) :
    secure (as.foldlM k b) = as.foldlM (fun b a => secure (k b a)) b := by
  induction as generalizing b with
  | nil => rfl
  | cons a as ih => simp only [List.foldlM_cons, secure_bind, ih]

theorem secure_ne_noRow {x : Except Error α} : secure x ≠ .error .noRow := by
  cases x <;> simp [secure, Except.mapError]

theorem first_figures : first set.figures = .ok set.driver := rfl

theorem unit_figures : unit set.figures = .ok set.unit := rfl

theorem totalled_figures : totalled set.figures c = .ok (Exchange.totalled set c) := rfl

theorem responses_figures : responses set.figures trace = .ok (Exchange.responses set trace) := rfl

/-- The rows of a set, where a set is found. -/
def ofSet (x : Except Error (Option FigureSet)) : Except Stop (Option (List Figure)) :=
  secure (x.map (·.map (·.figures)))

/-- A derivation from the rows of a set is the derivation from the set. -/
theorem ofSet_bind {x : Except Error (Option FigureSet)}
    {k : Option (List Figure) → Except Stop γ} {k' : Option FigureSet → Except Error γ}
    (h : ∀ o, k (o.map (·.figures)) = secure (k' o)) : (ofSet x >>= k) = secure (x >>= k') := by
  cases x with
  | error e => rfl
  | ok o => exact h o

/-- The checks stop at the first field on which some row differs from the first one. -/
theorem forM_check (fields : List SharedField) :
    fields.forM (check trace (driver :: others)) =
      (fields.find? fun field => !others.all fun f => field.agrees driver f).elim (.ok ())
        fun field => .error (.refused (.inconsistent field trace)) := by
  induction fields with
  | nil => rfl
  | cons field fields ih =>
    rw [List.forM_eq_forM] at ih ⊢
    rw [List.forM_cons, ih, List.find?_cons, check, first, ok_bind, List.all_cons,
      SharedField.agrees_self, Bool.true_and]
    cases others.all fun f => field.agrees driver f <;> rfl

theorem guard_eq : guard trace rows = ofSet (FigureSet.ofFigures trace rows) := by
  cases rows with
  | nil => rfl
  | cons driver others =>
    rw [guard, if_neg (by simp), forM_check, FigureSet.ofFigures, FigureSet.disagreement?]
    cases SharedField.all.find? fun field => !others.all fun f => field.agrees driver f <;> rfl

theorem eq_figures_of_guard {guarded : List Figure} (h : guard trace rows = .ok (some guarded)) :
    ∃ set : FigureSet, guarded = set.figures := by
  rw [guard_eq] at h
  generalize FigureSet.ofFigures trace rows = x at h
  rcases x with e | _ | set
  · cases h
  · cases h
  · cases h
    exact ⟨set, rfl⟩

theorem stored_eq : stored s trace = ofSet (storedSet s trace) := by
  rw [storedSet, ofSet]
  cases hread : s.figuresOf trace with
  | error e => rw [stored, hread]; rfl
  | ok fs =>
    rw [stored, hread]
    exact guard_eq

theorem supplied_eq : supplied s trace = ofSet (suppliedSet s trace) := by
  rw [supplied, suppliedSet]
  cases (s.requestFor? trace).bind (·.supplierPart) with
  | none => rfl
  | some part => exact stored_eq

theorem contribution_eq : contribution s child = ofSet (Exchange.contribution s child) := by
  rw [contribution, Exchange.contribution]
  split
  · exact stored_eq
  · exact supplied_eq

theorem addChild_eq : addChild s trace set.figures =
    fun c child => secure (Exchange.addChild s trace set.unit c child) := by
  funext c child
  rw [addChild, Exchange.addChild, contribution_eq]
  refine ofSet_bind fun o => ?_
  cases o with
  | none => rfl
  | some added =>
    change (if added.unit = set.unit then _ else _) =
      secure (if added.unit = set.unit then _ else _)
    split <;> rfl

theorem partFigures?_eq {p : Part} : partFigures? s p = secure (Exchange.partFigures? s p) := by
  rw [partFigures?, Exchange.partFigures?, secure_bind]
  congr 1
  funext cls
  cases cls with
  | terminal isParent =>
    rw [stored_eq]
    refine ofSet_bind fun o => ?_
    cases o with
    | none => rfl
    | some set => cases isParent <;> rfl
  | imported =>
    cases s.requestFor? p.trace with
    | none => rfl
    | some t =>
      cases ht : t.supplierPart with
      | none => simp only [ht]; rfl
      | some part =>
        simp only [ht, stored_eq]
        refine ofSet_bind fun o => ?_
        cases o <;> rfl
  | parent children =>
    rw [stored_eq]
    refine ofSet_bind fun o => ?_
    cases o with
    | none => rfl
    | some set =>
      change (children.foldlM (addChild s p.trace set.figures) ⟨0, 0⟩ >>= fun components =>
        (totalled set.figures components).map some) = _
      rw [addChild_eq, ← secure_foldlM, secure_bind]
      rfl

theorem vector_eq {operator : Uuid} :
    vector s operator = fun trace => secure (Exchange.vector s operator trace) := by
  funext trace
  rw [vector, Exchange.vector, secure_bind]
  congr 1
  funext o
  cases o with
  | none => rfl
  | some p =>
    dsimp only
    rw [partFigures?_eq, secure_bind]
    rfl

theorem figuresFor_eq {operator : Uuid} {traces : List Uuid} :
    figuresFor s operator traces = secure (Exchange.figuresFor s operator traces) := by
  rw [figuresFor, Exchange.figuresFor, secure_bind, secure_mapM, vector_eq]
  rfl

end Rows

end Exchange

open Exchange in
/-- The guard finds no set in no rows, a set of all rows where any two agree on every shared field,
and otherwise the first field on which two rows differ. All that is asked of guarded rows is
answered, and no derivation of figures stops for want of a row. -/
theorem guard_decides_agreement :
    SharedField.all.map (·.name) =
        ["cfpId", "traceId", "ghgDeclaredUnit", "cfpCertificationIds"] ∧
      (∀ trace rows,
        (FigureSet.ofFigures trace rows = .ok none ↔ rows = []) ∧
        ((∃ set, FigureSet.ofFigures trace rows = .ok (some set)) ↔
          rows ≠ [] ∧ ∀ field, SharedField.Uniform rows field) ∧
        (∀ set, FigureSet.ofFigures trace rows = .ok (some set) → set.figures = rows) ∧
        (∀ e, FigureSet.ofFigures trace rows = .error e ↔
          ∃ field, SharedField.FirstDiffering rows field ∧ .inconsistent field trace = e) ∧
        Rows.guard trace rows = Rows.ofSet (FigureSet.ofFigures trace rows) ∧
        ∀ guarded, Rows.guard trace rows = .ok (some guarded) →
          (∃ driver, Rows.first guarded = .ok driver) ∧
          (∃ unit, Rows.unit guarded = .ok unit) ∧
          (∀ components, ∃ fs, Rows.totalled guarded components = .ok fs) ∧
          ∀ asked, ∃ fs, Rows.responses guarded asked = .ok fs) ∧
      ∀ s operator traces,
        Rows.figuresFor s operator traces = secure (Exchange.figuresFor s operator traces) ∧
        Rows.figuresFor s operator traces ≠ .error .noRow := by
  refine ⟨rfl, fun trace rows => ⟨FigureSet.ofFigures_eq_none_iff, FigureSet.exists_ofFigures_iff,
    fun set hset => ?_, fun e => FigureSet.ofFigures_eq_error_iff, Rows.guard_eq,
    fun guarded hguarded => ?_⟩, fun s operator traces => ⟨Rows.figuresFor_eq, ?_⟩⟩
  · exact (FigureSet.ofFigures_eq_ok hset).symm
  · obtain ⟨set, rfl⟩ := Rows.eq_figures_of_guard hguarded
    exact ⟨⟨_, Rows.first_figures⟩, ⟨_, Rows.unit_figures⟩,
      fun components => ⟨_, Rows.totalled_figures⟩, fun asked => ⟨_, Rows.responses_figures⟩⟩
  · rw [Rows.figuresFor_eq]
    exact Rows.secure_ne_noRow

end Footprint
