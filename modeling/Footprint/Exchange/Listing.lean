import Footprint.Settings.Basic
import Footprint.Store.Basic

namespace Footprint.Exchange

/-- What a caller asks for; both sides when it names none. -/
@[ext] structure ListingRequest where
  side : Option Side
  status : Option Uuid
  /-- The first status of the page. -/
  after : Option Uuid
  limit : Option Nat
deriving DecidableEq

/-- The size of the page a caller gets. -/
def pageSize (limits : ListingLimits) : Option Nat → Except Error Nat
  | some 0 => refuseWith .limitTooSmall
  | some limit => .ok (min limit limits.maxLimit)
  | none => .ok limits.defaultLimit

/-- The pages of one side from `after` on, joined. Every page but the last has at least one status
and moves on, so one unit of fuel per status and one more is enough. -/
def joinPages (s : Store) (operator : Uuid) (side : Side) (size : Nat) :
    Nat → Option Uuid → Except Error (List Status)
  | 0, _ => .ok []
  | fuel + 1, after => do
    let page ← s.page ⟨operator, side, none, after, size⟩
    match page.next with
    | none => .ok page.statuses
    | some next =>
      let rest ← joinPages s operator side size fuel (some next)
      .ok (page.statuses ++ rest)

def sideInPages (s : Store) (operator : Uuid) (side : Side) (size : Nat) :
    Except Error (List Status) :=
  joinPages s operator side size (s.statusCount operator side + 1) none

/-- Newest first, at the same time by identifier. -/
def newestFirst (a b : Status) : Bool :=
  if a.requestedAt = b.requestedAt then a.id ≤ b.id else b.requestedAt.le a.requestedAt

/-- The page that starts at `after`; an identifier that is not there starts past the end. -/
def pageFrom (statuses : List Status) (after : Option Uuid) (limit : Nat) : StatusPage :=
  let start := match after with
    | some id => statuses.findIdx fun status => status.id = id
    | none => 0
  let rest := statuses.drop start
  ⟨rest.take limit, (rest[limit]?).map (·.id)⟩

/-- The statuses of both sides, newest first. -/
def merged (s : Store) (operator : Uuid) (size : Nat) : Except Error (List Status) := do
  let requests ← sideInPages s operator .request size
  let responses ← sideInPages s operator .response size
  .ok ((requests ++ responses).mergeSort newestFirst)

def listStatuses (s : Store) (limits : ListingLimits) (operator : Uuid) (r : ListingRequest) :
    Except Error StatusPage := do
  let limit ← pageSize limits r.limit
  match r.side with
  | some side => s.page ⟨operator, side, r.status, r.after, limit⟩
  | none =>
    let all ← merged s operator limits.maxLimit
    .ok (pageFrom (all.filter fun status => r.status.all (status.id = ·)) r.after limit)

end Footprint.Exchange
