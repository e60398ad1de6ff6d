namespace Footprint

/-- A type of finitely many values with one literal each. -/
class Enumerated (α : Type) where
  /-- What messages call the type. -/
  typeName : String
  all : List α
  literal : α → String
  mem_all : ∀ a, a ∈ all
  literal_injective : ∀ a b, literal a = literal b → a = b

namespace Enumerated

variable {α : Type} [Enumerated α]

def ofLiteral? (s : String) : Option α :=
  all.find? fun a => literal a == s

theorem ofLiteral?_literal (a : α) : ofLiteral? (literal a) = some a := by
  have hsome : (ofLiteral? (literal a) : Option α).isSome := by
    simpa [ofLiteral?] using ⟨a, mem_all a, rfl⟩
  obtain ⟨b, hb⟩ := Option.isSome_iff_exists.1 hsome
  have h : literal b = literal a := by simpa using List.find?_some hb
  rw [hb, literal_injective b a h]

/-- A literal is read as the one value it is written for. -/
theorem ofLiteral?_eq_some_iff {s : String} {a : α} : ofLiteral? s = some a ↔ literal a = s := by
  constructor
  · intro h
    simpa using List.find?_some h
  · rintro rfl
    exact ofLiteral?_literal a

/-- Why a text names no value. -/
def invalidText (α : Type) [Enumerated α] (s : String) : String :=
  "Invalid " ++ typeName α ++ ": " ++ s

end Enumerated

end Footprint
