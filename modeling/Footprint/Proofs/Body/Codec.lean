import Footprint.Proofs.Part.Echo

namespace Footprint

open Enumerated

/-- A text where a literal of some vocabulary is expected. -/
structure Literal where
  field : String
  text : String
  isKnown : Bool

def Literal.of (α : Type) [Enumerated α] (field text : String) : Literal :=
  ⟨field, text, (all : List α).any fun a => literal a == text⟩

def Literal.error (l : Literal) : Error :=
  .unknownLiteral l.field l.text

/-- A reading that is refused for the first literal that is unknown, and for nothing else. -/
def RefusesFirst (ls : List Literal) (x : Except Error α) : Prop :=
  ∀ e, x = .error e ↔ ∃ l, ls.find? (!·.isKnown) = some l ∧ l.error = e

def FigureBody.literals (b : FigureBody) : List Literal :=
  b.unit.toList.map (Literal.of DeclaredUnit "ghgDeclaredUnit")
    ++ [Literal.of FigureKind "cfpType" b.kind, Literal.of RatingKind "dqrType" b.ratingKind]

def PartBody.literals (b : PartBody) : List Literal :=
  b.amountUnit.toList.map (Literal.of AmountUnit "amountRequiredUnit")

def AssemblyBody.parts (b : AssemblyBody) : List PartBody :=
  b.parent.toList ++ b.children

structure FigureBody.Known (b : FigureBody) : Prop where
  unit : ∀ text ∈ b.unit, ∃ u : DeclaredUnit, literal u = text
  kind : ∃ k : FigureKind, literal k = b.kind
  ratingKind : ∃ k : RatingKind, literal k = b.ratingKind

def PartBody.Known (b : PartBody) : Prop :=
  ∀ text ∈ b.amountUnit, ∃ u : AmountUnit, literal u = text

variable {α β : Type} {field text : String} {ls ks : List Literal}

theorem Literal.isKnown_of [Enumerated α] :
    (Literal.of α field text).isKnown ↔ ∃ a : α, literal a = text := by
  simp [Literal.of, mem_all]

namespace RefusesFirst

variable {x : Except Error α} {f : α → Except Error β}

theorem ok (a : α) : RefusesFirst [] (.ok a : Except Error α) := by
  intro e
  simp

theorem literal [Enumerated α] :
    RefusesFirst [.of α field text] (readLiteral field text : Except Error α) := by
  intro e
  have hunknown : (∀ a : α, Enumerated.literal a ≠ text) ↔
      (Literal.of α field text).isKnown = false := by
    rw [← Bool.not_eq_true, Literal.isKnown_of, not_exists]
  rw [readLiteral_eq_error, hunknown, List.find?_singleton]
  cases (Literal.of α field text).isKnown with
  | true => simp
  | false => simp [Literal.error, Literal.of, eq_comm]

theorem find?_eq_none {a : α} (h : RefusesFirst ls (.ok a)) : ls.find? (!·.isKnown) = none := by
  rw [Option.eq_none_iff_forall_ne_some]
  intro l hfound
  cases (h l.error).2 ⟨l, hfound, rfl⟩

theorem bind (hx : RefusesFirst ls x) (hf : ∀ a, RefusesFirst ks (f a)) :
    RefusesFirst (ls ++ ks) (x >>= f) := by
  intro e
  rw [List.find?_append]
  cases x with
  | error e' =>
    obtain ⟨l, hfound, rfl⟩ := (hx e').1 rfl
    rw [hfound]
    simp [Bind.bind, Except.bind]
  | ok a =>
    rw [hx.find?_eq_none, Option.none_or, ok_bind]
    exact hf a e

theorem map (hx : RefusesFirst ls x) (f : α → β) : RefusesFirst ls (x.map f) := by
  intro e
  rw [exceptMap_eq_error]
  exact hx e

theorem optionalLiteral [Enumerated α] : ∀ o : Option String,
    RefusesFirst (o.toList.map (.of α field))
      (readOptionalLiteral field o : Except Error (Option α))
  | none => ok none
  | some _ => literal.map some

theorem optional {ls : α → List Literal} (h : ∀ a, RefusesFirst (ls a) (f a)) :
    ∀ o : Option α, RefusesFirst (o.toList.flatMap ls) (readOptional f o)
  | none => ok none
  | some a => by
    rw [Option.toList_some, List.flatMap_singleton]
    exact (h a).map some

theorem list {ls : α → List Literal} (h : ∀ a, RefusesFirst (ls a) (f a)) (as : List α) :
    RefusesFirst (as.flatMap ls) (as.mapM f) := by
  induction as with
  | nil => exact ok []
  | cons a as ih =>
    rw [List.mapM_cons, List.flatMap_cons]
    exact (h a).bind fun b => ih.map (b :: ·)

theorem exists_ok_iff (hx : RefusesFirst ls x) : (∃ a, x = .ok a) ↔ ∀ l ∈ ls, l.isKnown := by
  have hnone : (∀ l ∈ ls, l.isKnown) ↔ ls.find? (!·.isKnown) = none := by simp
  rw [hnone]
  cases x with
  | error e =>
    obtain ⟨l, hfound, -⟩ := (hx e).1 rfl
    simp [hfound]
  | ok a => exact ⟨fun _ => hx.find?_eq_none, fun _ => ⟨a, rfl⟩⟩

end RefusesFirst

/-- Encoding undoes the decoding of a list if it undoes that of each element. -/
theorem mapM_eq_ok_iff_map {decode : α → Except Error β} {encode : β → α}
    (h : ∀ {a b}, decode a = .ok b ↔ encode b = a) {as : List α} {bs : List β} :
    as.mapM decode = .ok bs ↔ bs.map encode = as := by
  have hrelated : List.Forall₂ (fun a b => a = encode b) as bs ↔
      List.Forall₂ (· = ·) as (bs.map encode) := List.forall₂_map_right_iff.symm
  rw [List.forall₂_eq_eq_eq] at hrelated
  simp only [mapM_eq_ok_iff, h, eq_comm (a := encode _), hrelated]
  exact eq_comm

namespace FigureBody

variable {b : FigureBody} {bs : List FigureBody} {f : Figure} {fs : List Figure}

theorem figure_eq_ok_iff : b.figure = .ok f ↔ ofFigure f = b := by
  simp only [figure, bind_eq_ok, readOptionalLiteral_eq_ok, readLiteral_eq_ok, Except.ok.injEq]
  constructor
  · rintro ⟨unit, hunit, kind, hkind, ratingKind, hratingKind, rfl⟩
    ext1 <;> simp [ofFigure, *]
  · rintro rfl
    exact ⟨f.unit, rfl, f.kind, rfl, f.ratingKind, rfl, rfl⟩

theorem figures_eq_ok_iff : figures bs = .ok fs ↔ fs.map ofFigure = bs :=
  mapM_eq_ok_iff_map figure_eq_ok_iff

theorem refusesFirst_figure (b : FigureBody) : RefusesFirst b.literals b.figure :=
  (RefusesFirst.optionalLiteral b.unit).bind fun _ =>
    RefusesFirst.literal.bind fun _ => RefusesFirst.literal.bind fun _ => RefusesFirst.ok _

theorem refusesFirst_figures (bs : List FigureBody) :
    RefusesFirst (bs.flatMap (·.literals)) (figures bs) :=
  RefusesFirst.list refusesFirst_figure bs

theorem known_iff : b.Known ↔ ∀ l ∈ b.literals, l.isKnown := by
  have hliterals : (∀ l ∈ b.literals, l.isKnown) ↔
      (∀ text ∈ b.unit, (Literal.of DeclaredUnit "ghgDeclaredUnit" text).isKnown) ∧
        (Literal.of FigureKind "cfpType" b.kind).isKnown ∧
        (Literal.of RatingKind "dqrType" b.ratingKind).isKnown := by
    rw [literals, List.forall_mem_append, List.forall_mem_map]
    simp
  simp only [hliterals, Literal.isKnown_of]
  exact ⟨fun ⟨hunit, hkind, hratingKind⟩ => ⟨hunit, hkind, hratingKind⟩,
    fun ⟨hunit, hkind, hratingKind⟩ => ⟨hunit, hkind, hratingKind⟩⟩

end FigureBody

theorem PartBody.draft_eq_ok_iff {b : PartBody} {d : PartDraft} :
    b.draft = .ok d ↔ ofDraft d = b := by
  simp only [draft, bind_eq_ok, readOptionalLiteral_eq_ok, Except.ok.injEq]
  constructor
  · rintro ⟨unit, hunit, rfl⟩
    ext1 <;> simp [ofDraft, *]
  · rintro rfl
    exact ⟨d.amountUnit, rfl, rfl⟩

theorem PartBody.drafts_eq_ok_iff {bs : List PartBody} {ds : List PartDraft} :
    bs.mapM draft = .ok ds ↔ ds.map ofDraft = bs :=
  mapM_eq_ok_iff_map draft_eq_ok_iff

theorem PartBody.refusesFirst_draft (b : PartBody) : RefusesFirst b.literals b.draft := by
  rw [← List.append_nil b.literals]
  exact (RefusesFirst.optionalLiteral b.amountUnit).bind fun _ => RefusesFirst.ok _

theorem PartBody.known_iff {b : PartBody} : b.Known ↔ ∀ l ∈ b.literals, l.isKnown := by
  simp [Known, literals, Literal.isKnown_of]

namespace AssemblyBody

variable {b : AssemblyBody} {d : AssemblyDraft}

theorem draft_eq_ok_iff : b.draft = .ok d ↔ ofDraft d = b := by
  have hparent (parent : Option PartDraft) : readOptional PartBody.draft b.parent = .ok parent ↔
      parent.map .ofDraft = b.parent := by
    cases parent with
    | none => rw [readOptional_eq_ok_none, Option.map_none, eq_comm]
    | some d => simp only [readOptional_eq_ok_some, PartBody.draft_eq_ok_iff, Option.map_some,
        exists_eq_right', eq_comm (a := some _)]
  simp only [draft, bind_eq_ok, hparent, PartBody.drafts_eq_ok_iff, Except.ok.injEq]
  constructor
  · rintro ⟨parent, hparent, children, hchildren, rfl⟩
    ext1 <;> simp [ofDraft, *]
  · rintro rfl
    exact ⟨d.parent, rfl, d.children, rfl, rfl⟩

theorem refusesFirst_draft (b : AssemblyBody) :
    RefusesFirst (b.parts.flatMap (·.literals)) b.draft := by
  rw [parts, List.flatMap_append, ← List.append_nil (b.children.flatMap _)]
  exact (RefusesFirst.optional PartBody.refusesFirst_draft b.parent).bind fun _ =>
    (RefusesFirst.list PartBody.refusesFirst_draft b.children).bind fun _ => RefusesFirst.ok _

end AssemblyBody

theorem Part.part?_draft (p : Part) : p.draft.part? = some p := rfl

/-- What is encoded is decoded to itself, and what is decoded is encoded to itself. Bodies are
decoded if and only if all their literals are known; otherwise the first that is not is reported
with its field, in the order of the list, and a parent's before any child's. -/
theorem bodies_lossless :
    (∀ f : Figure, (FigureBody.ofFigure f).figure = .ok f) ∧
      (∀ bs : List FigureBody,
        ((∃ fs, FigureBody.figures bs = .ok fs) ↔ ∀ b ∈ bs, b.Known) ∧
        (∀ fs, FigureBody.figures bs = .ok fs ↔ fs.map .ofFigure = bs) ∧
        RefusesFirst (bs.flatMap (·.literals)) (FigureBody.figures bs)) ∧
      (∀ a : Assembly,
        (AssemblyBody.ofAssembly a).draft = .ok a.draft ∧
        a.draft.parent.bind (·.part?) = some a.parent ∧
        a.draft.children.map (·.part?) = a.children.map some) ∧
      ∀ b : AssemblyBody,
        ((∃ d, b.draft = .ok d) ↔ ∀ p ∈ b.parts, p.Known) ∧
        (∀ d, b.draft = .ok d ↔ .ofDraft d = b) ∧
        RefusesFirst (b.parts.flatMap (·.literals)) b.draft := by
  refine ⟨fun f => FigureBody.figure_eq_ok_iff.2 rfl, fun bs => ⟨?_, ?_, ?_⟩,
    fun a => ⟨AssemblyBody.draft_ofAssembly a, Part.part?_draft a.parent, ?_⟩,
    fun b => ⟨?_, ?_, ?_⟩⟩
  · rw [(FigureBody.refusesFirst_figures bs).exists_ok_iff, List.forall_mem_flatMap]
    simp only [FigureBody.known_iff]
  · exact fun fs => FigureBody.figures_eq_ok_iff
  · exact FigureBody.refusesFirst_figures bs
  · rw [Assembly.draft, List.map_map]
    exact List.map_congr_left fun p _ => Part.part?_draft p
  · rw [(AssemblyBody.refusesFirst_draft b).exists_ok_iff, List.forall_mem_flatMap]
    simp only [PartBody.known_iff]
  · exact fun d => AssemblyBody.draft_eq_ok_iff
  · exact AssemblyBody.refusesFirst_draft b

end Footprint
