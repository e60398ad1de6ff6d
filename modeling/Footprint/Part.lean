import Footprint.Unit
import Footprint.Uuid

namespace Footprint

/-- A part as it is kept. -/
@[ext] structure Part where
  trace : Uuid
  operator : Uuid
  plant : Uuid
  name : String
  supportName : Option String
  /-- Whether the part's footprint is stated for it directly, not obtained from a supplier. -/
  terminal : Bool
  /-- How much of the part its parent uses. -/
  amount : Option Float
  amountUnit : Option AmountUnit
deriving DecidableEq

/-- A parent and its children in order. -/
@[ext] structure Assembly where
  parent : Part
  children : List Part
deriving DecidableEq

namespace Assembly

def parts (a : Assembly) : List Part :=
  a.parent :: a.children

def traces (a : Assembly) : List Uuid :=
  a.parts.map (·.trace)

end Assembly

/-- Where a part stands: under a parent, or under the nil trace when it is a parent itself. -/
@[ext] structure Placement where
  trace : Uuid
  parent : Uuid
deriving DecidableEq

def Placement.isParent (p : Placement) : Bool :=
  p.parent = Uuid.nil

/-- A part as submitted. Without a trace it is a new part. -/
@[ext] structure PartDraft where
  trace : Option Uuid
  operator : Uuid
  plant : Option Uuid
  name : String
  supportName : Option String
  terminal : Bool
  amount : Option Float
  amountUnit : Option AmountUnit
deriving DecidableEq

/-- An assembly as submitted. -/
@[ext] structure AssemblyDraft where
  parent : Option PartDraft
  children : List PartDraft
deriving DecidableEq

/-- A place in a submitted assembly. -/
inductive Slot where
  | parent
  | child (index : Nat)
deriving DecidableEq, Repr

def Slot.label : Slot → String
  | .parent => "parentPartsModel"
  | .child index => "childrenPartsModel[" ++ toString index ++ "]"

end Footprint
