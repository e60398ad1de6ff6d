import Footprint.Figure.Kind
import Footprint.Unit
import Footprint.Uuid

namespace Footprint

/-- A data quality rating in three respects. -/
@[ext] structure Rating where
  technological : Option Float
  geographical : Option Float
  temporal : Option Float
deriving DecidableEq

namespace Rating

/-- The rating that every derived figure carries. -/
def fixed : Rating := ⟨some 2.1, some 0.0, none⟩

def empty : Rating := ⟨none, none, none⟩

/-- The three components under the names they travel by. -/
def components (r : Rating) : List (String × Option Float) :=
  [("TeR", r.technological), ("GeR", r.geographical), ("TiR", r.temporal)]

def sameValue : Option Float → Option Float → Bool
  | none, none => true
  | some x, some y => x == y
  | _, _ => false

/-- Equal as numbers, so that the two zeros are one. -/
def agrees (r s : Rating) : Bool :=
  sameValue r.technological s.technological && sameValue r.geographical s.geographical
    && sameValue r.temporal s.temporal

def anyPositive (r : Rating) : Bool :=
  r.components.any fun (_, value) => value.any (0 < ·)

end Rating

/-- One row of a footprint. Only rows that answer an open request lack a unit. -/
@[ext] structure Figure where
  /-- Shared by the rows of a stored set; absent on new rows and on those derived for a
  requester. -/
  setId : Option Uuid
  trace : Uuid
  emission : Option Float
  unit : Option DeclaredUnit
  kind : FigureKind
  ratingKind : RatingKind
  rating : Rating
  certificates : List String
deriving DecidableEq

/-- A figure derived from a set, which lends it all that its rows share. -/
def Figure.derive (driver : Figure) (kind : FigureKind) (emission : Option Float) : Figure where
  setId := driver.setId
  trace := driver.trace
  emission := emission
  unit := driver.unit
  kind := kind
  ratingKind := kind.ratingKind
  rating := .fixed
  certificates := driver.certificates

/-- What all rows of one set have in common. -/
inductive SharedField where
  | setId
  | trace
  | unit
  | certificates
deriving DecidableEq, Repr

namespace SharedField

/-- In the order in which disagreements are reported. -/
def all : List SharedField := [.setId, .trace, .unit, .certificates]

def name : SharedField → String
  | .setId => "cfpId"
  | .trace => "traceId"
  | .unit => "ghgDeclaredUnit"
  | .certificates => "cfpCertificationIds"

def agrees (f g : Figure) : SharedField → Bool
  | .setId => f.setId == g.setId
  | .trace => f.trace == g.trace
  | .unit => f.unit == g.unit
  | .certificates => f.certificates == g.certificates

end SharedField

/-- The rows of one set, of which there is at least one. -/
@[ext] structure FigureSet where
  /-- The first row, the template of derived rows. -/
  driver : Figure
  others : List Figure
deriving DecidableEq

namespace FigureSet

def figures (s : FigureSet) : List Figure :=
  s.driver :: s.others

def figure? (s : FigureSet) (kind : FigureKind) : Option Figure :=
  s.figures.find? fun f => f.kind = kind

def emission? (s : FigureSet) (kind : FigureKind) : Option Float :=
  (s.figure? kind).bind (·.emission)

def unit (s : FigureSet) : Option DeclaredUnit :=
  s.driver.unit

end FigureSet

end Footprint
