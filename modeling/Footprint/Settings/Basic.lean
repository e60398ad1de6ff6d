namespace Footprint

/-- Page sizes of status listings. -/
@[ext] structure ListingLimits where
  /-- The size of a page when the caller names none. -/
  defaultLimit : Nat
  /-- The greatest size a caller gets. -/
  maxLimit : Nat
deriving DecidableEq, Repr

/-- The most characters of the texts of a trade. -/
@[ext] structure TextLimits where
  reply : Nat
  message : Nat
deriving DecidableEq, Repr

@[ext] structure Settings where
  listing : ListingLimits
  trade : TextLimits
deriving DecidableEq, Repr

def Settings.default : Settings :=
  ⟨⟨100, 100⟩, ⟨100, 1000⟩⟩

end Footprint
