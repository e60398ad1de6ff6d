import Footprint.Store.Write

namespace Footprint

/-- What an operation makes of the store it reads: a refusal, or a write and a result. -/
abbrev Plan (α : Type) := Store → Except Error (Write × α)

/-- Plans on a store and writes to the same store. -/
def Plan.run (plan : Plan α) (now : Instant) (s : Store) : Except Error (α × Store) := do
  let (write, result) ← plan s
  let s' ← s.apply now write
  .ok (result, s')

end Footprint
