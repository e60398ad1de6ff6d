import Footprint.Rules.Request
import Footprint.Store.Basic
import Mathlib.Data.List.Forall2

namespace Footprint

variable {ε α β : Type}

theorem ok_bind {a : α} {f : α → Except ε β} : (Except.ok a >>= f) = f a := rfl

theorem bind_eq_ok {x : Except ε α} {f : α → Except ε β} {b : β} :
    (x >>= f) = .ok b ↔ ∃ a, x = .ok a ∧ f a = .ok b := by
  cases x <;> simp [bind, Except.bind]

theorem bind_eq_error {x : Except ε α} {f : α → Except ε β} {e : ε} :
    (x >>= f) = .error e ↔ x = .error e ∨ ∃ a, x = .ok a ∧ f a = .error e := by
  cases x <;> simp [bind, Except.bind]

theorem exceptMap_eq_ok {x : Except ε α} {f : α → β} {b : β} :
    x.map f = .ok b ↔ ∃ a, x = .ok a ∧ f a = b := by
  cases x <;> simp [Except.map]

theorem exceptMap_eq_error {x : Except ε α} {f : α → β} {e : ε} :
    x.map f = .error e ↔ x = .error e := by
  cases x <;> simp [Except.map]

theorem readOptional_eq_ok_some {read : α → Except ε β} {o : Option α} {b : β} :
    readOptional read o = .ok (some b) ↔ ∃ a, o = some a ∧ read a = .ok b := by
  cases o <;> simp [readOptional, exceptMap_eq_ok]

theorem readOptional_eq_ok_none {read : α → Except ε β} {o : Option α} :
    readOptional read o = .ok none ↔ o = none := by
  cases o with
  | none => simp [readOptional]
  | some a => cases h : read a <;> simp [readOptional, Except.map, h]

theorem readOptional_eq_error {read : α → Except ε β} {o : Option α} {e : ε} :
    readOptional read o = .error e ↔ ∃ a, o = some a ∧ read a = .error e := by
  cases o <;> simp [readOptional, exceptMap_eq_error]

/-- Two lookups that are not refused are told apart by what they find. -/
theorem eq_of_ok_some_iff {x y : Except ε (Option α)} (hx : ∃ o, x = .ok o) (hy : ∃ o, y = .ok o)
    (h : ∀ a, x = .ok (some a) ↔ y = .ok (some a)) : x = y := by
  obtain ⟨o, rfl⟩ := hx
  obtain ⟨o', rfl⟩ := hy
  simp only [Except.ok.injEq] at h
  rw [Option.ext h]

/-- A list is read when every element is, and the results stand in the same order. -/
theorem mapM_eq_ok_iff {f : α → Except ε β} {as : List α} {bs : List β} :
    as.mapM f = .ok bs ↔ List.Forall₂ (fun a b => f a = .ok b) as bs := by
  induction as generalizing bs with
  | nil => cases bs <;> simp [pure, Except.pure]
  | cons a as ih =>
    rw [List.mapM_cons, bind_eq_ok]
    constructor
    · rintro ⟨b, hb, h⟩
      obtain ⟨bs', hbs', h⟩ := bind_eq_ok.1 h
      cases h
      exact .cons hb (ih.1 hbs')
    · intro h
      cases h with
      | cons hb hbs => exact ⟨_, hb, bind_eq_ok.2 ⟨_, ih.2 hbs, rfl⟩⟩

theorem mapM_congr {f g : α → Except ε β} {as : List α} (h : ∀ a ∈ as, f a = g a) :
    as.mapM f = as.mapM g := by
  induction as with
  | nil => rfl
  | cons a as ih =>
    obtain ⟨ha, has⟩ := List.forall_mem_cons.1 h
    rw [List.mapM_cons, List.mapM_cons, ha, ih has]

theorem mem_of_forall₂ {R : α → β → Prop} {as : List α} {bs : List β} (h : List.Forall₂ R as bs) :
    (∀ a ∈ as, ∃ b ∈ bs, R a b) ∧ ∀ b ∈ bs, ∃ a ∈ as, R a b := by
  induction h with
  | nil => simp
  | @cons a b as bs hab _ ih =>
    constructor
    · intro x hx
      rcases List.mem_cons.1 hx with rfl | hx
      · exact ⟨b, by simp, hab⟩
      · obtain ⟨y, hy, hxy⟩ := ih.1 x hx
        exact ⟨y, by simp [hy], hxy⟩
    · intro y hy
      rcases List.mem_cons.1 hy with rfl | hy
      · exact ⟨a, by simp, hab⟩
      · obtain ⟨x, hx, hxy⟩ := ih.2 y hy
        exact ⟨x, by simp [hx], hxy⟩

/-- Every result comes from an element and every element has a result. -/
theorem mem_of_mapM_eq_ok {f : α → Except ε β} {as : List α} {bs : List β}
    (h : as.mapM f = .ok bs) :
    (∀ a ∈ as, ∃ b ∈ bs, f a = .ok b) ∧ ∀ b ∈ bs, ∃ a ∈ as, f a = .ok b :=
  mem_of_forall₂ (mapM_eq_ok_iff.1 h)

theorem exists_mapM_eq_ok {f : α → Except ε β} {as : List α} (h : ∀ a ∈ as, ∃ b, f a = .ok b) :
    ∃ bs, as.mapM f = .ok bs := by
  induction as with
  | nil => exact ⟨[], rfl⟩
  | cons a as ih =>
    obtain ⟨b, hb⟩ := h a (by simp)
    obtain ⟨bs, hbs⟩ := ih fun a ha => h a (by simp [ha])
    exact ⟨b :: bs, mapM_eq_ok_iff.2 (.cons hb (mapM_eq_ok_iff.1 hbs))⟩

/-- The first refusal is the one that is reported. -/
theorem mapM_eq_error_iff {f : α → Except ε β} {as : List α} {e : ε} :
    as.mapM f = .error e ↔
      ∃ before a after, as = before ++ a :: after ∧ (∀ a ∈ before, ∃ b, f a = .ok b) ∧
        f a = .error e := by
  induction as with
  | nil => simp [pure, Except.pure]
  | cons a as ih =>
    rw [List.mapM_cons, bind_eq_error]
    constructor
    · rintro (h | ⟨b, hb, h⟩)
      · exact ⟨[], a, as, rfl, by simp, h⟩
      · rcases bind_eq_error.1 h with h | ⟨bs, -, h⟩
        · obtain ⟨before, a', after, rfl, hbefore, h⟩ := ih.1 h
          exact ⟨a :: before, a', after, rfl, List.forall_mem_cons.2 ⟨⟨b, hb⟩, hbefore⟩, h⟩
        · cases h
    · rintro ⟨before, a', after, heq, hbefore, h⟩
      cases before with
      | nil =>
        obtain ⟨rfl, rfl⟩ := List.cons.inj heq
        exact Or.inl h
      | cons first before =>
        obtain ⟨rfl, rfl⟩ := List.cons.inj heq
        obtain ⟨⟨b, hb⟩, hbefore⟩ := List.forall_mem_cons.1 hbefore
        have hrest := ih.2 ⟨before, a', after, rfl, hbefore, h⟩
        exact Or.inr ⟨b, hb, bind_eq_error.2 (Or.inl hrest)⟩

theorem exists_of_mapM_eq_error {f : α → Except ε β} {as : List α} {e : ε}
    (h : as.mapM f = .error e) : ∃ a ∈ as, f a = .error e := by
  obtain ⟨before, a, after, rfl, -, h⟩ := mapM_eq_error_iff.1 h
  exact ⟨a, by simp, h⟩

theorem forM_eq_ok_iff {f : α → Except ε Unit} {as : List α} :
    as.forM f = .ok () ↔ ∀ a ∈ as, f a = .ok () := by
  induction as with
  | nil => simp [pure, Except.pure]
  | cons a as ih =>
    rw [List.forM_eq_forM] at ih ⊢
    rw [List.forM_cons, bind_eq_ok, List.forall_mem_cons, ← ih]
    exact ⟨fun ⟨(), ha, has⟩ => ⟨ha, has⟩, fun ⟨ha, has⟩ => ⟨(), ha, has⟩⟩

theorem forM_eq_error_iff {f : α → Except ε Unit} {as : List α} {e : ε} :
    as.forM f = .error e ↔
      ∃ before a after, as = before ++ a :: after ∧ (∀ a ∈ before, f a = .ok ()) ∧
        f a = .error e := by
  induction as with
  | nil => simp [pure, Except.pure]
  | cons a as ih =>
    rw [List.forM_eq_forM] at ih ⊢
    rw [List.forM_cons, bind_eq_error]
    constructor
    · rintro (h | ⟨⟨⟩, ha, h⟩)
      · exact ⟨[], a, as, rfl, by simp, h⟩
      · obtain ⟨before, a', after, rfl, hbefore, h⟩ := ih.1 h
        exact ⟨a :: before, a', after, rfl, List.forall_mem_cons.2 ⟨ha, hbefore⟩, h⟩
    · rintro ⟨before, a', after, heq, hbefore, h⟩
      cases before with
      | nil =>
        obtain ⟨rfl, rfl⟩ := List.cons.inj heq
        exact Or.inl h
      | cons first before =>
        obtain ⟨rfl, rfl⟩ := List.cons.inj heq
        obtain ⟨ha, hbefore⟩ := List.forall_mem_cons.1 hbefore
        exact Or.inr ⟨(), ha, ih.2 ⟨before, a', after, rfl, hbefore, h⟩⟩

theorem refuseWith_ne_ok {violation : Violation} {a : α} :
    (refuseWith violation : Except Error α) ≠ .ok a := by
  simp [refuseWith]

theorem Rules.require_eq_nil {holds : Bool} {violation : Violation} :
    Rules.require holds violation = [] ↔ holds = true := by
  cases holds <;> simp [Rules.require]

theorem Rules.length_eq_nil {field : String} {text : Option String} {limit : Nat} :
    Rules.length field text limit = [] ↔ ∀ s, text = some s → s.length ≤ limit := by
  cases text <;> simp [Rules.length, Rules.require_eq_nil]

theorem Rules.request_eq_nil {caller : Uuid} {r : TradeRequest} :
    Rules.request caller r = [] ↔
      r.requester = caller ∧ r.supplier ≠ caller ∧ Text.isBlankText r.dueDate = false := by
  simp [Rules.request, Rules.require_eq_nil]

end Footprint
