import Footprint.Decimal.Layout
import Footprint.Figure.Basic
import Footprint.Part
import Footprint.Text.Quoted

namespace Footprint

/-- The ways in which submitted data can break the rules. -/
inductive Violation where
  | figureCount (count : Nat)
  | kindCount (kind : FigureKind) (count : Nat)
  | notInput (kind : FigureKind)
  | tracesDiffer
  | setIdsDiffer
  | unitsDiffer
  | unitMissing (kind : FigureKind)
  | ratingKindMismatch (kind : FigureKind) (found : RatingKind)
  | ratingsDiffer (stage : Stage)
  | emissionNotPositive (stage : Stage)
  | outOfRange (field : String) (value : Float)
  | tooPrecise (field : String) (value : Float)
  | tooLong (field : String) (limit count : Nat)
  | parentMissing
  | plantMissing
  | foreignOperator (slot : Slot)
  | slotPlantMissing (slot : Slot)
  | badName (slot : Slot)
  | longSupportName (slot : Slot)
  | repeatedTrace (slot : Slot) (trace : Uuid)
  | otherAssembly (trace : Uuid)
  | setOfOtherTrace (setId : Uuid)
  | blankCertificate
  | nothingToCertify (trace : Uuid)
  | requesterNotCaller
  | supplierIsCaller
  | dueDateMissing
  | requestForTerminal (trace : Uuid)
  | requestedAlready (trace : Uuid)
  | limitTooSmall
  | unknownArguments
  | malformedId (given reason : String)
  | other (text : String)
deriving DecidableEq

namespace Violation

/-- Every number of a footprint or a part lies between zero and this bound. -/
def numberBound : Float := 99999.99999

/-- The most digits after the decimal point. -/
def fractionBound : Nat := 5

/-- The most characters of a part's name. -/
def nameBound : Nat := 50

def stageLabel : Stage → String
  | .pre => "pre-processing"
  | .main => "main-processing"

def number (x : Float) : String :=
  Decimal.Layout.message.text x

open Enumerated in
def text : Violation → String
  | figureCount count => "CFP set must contain exactly 4 rows, got " ++ toString count
  | kindCount kind count =>
    "cfpType " ++ literal kind ++ " must appear exactly once, got " ++ toString count
  | notInput kind => "cfpType " ++ literal kind ++ " cannot be registered"
  | tracesDiffer => "traceId must be identical across rows"
  | setIdsDiffer => "cfpId must be absent on every row or identical across rows"
  | unitsDiffer => "ghgDeclaredUnit must be identical across rows"
  | unitMissing kind => literal kind ++ ".ghgDeclaredUnit is required"
  | ratingKindMismatch kind found =>
    literal kind ++ ".dqrType must be " ++ literal kind.ratingKind ++ ", got " ++ literal found
  | ratingsDiffer stage => stageLabel stage ++ " rows must share the same dqrValue"
  | emissionNotPositive stage =>
    stageLabel stage ++ " ghgEmission must be positive when its dqrValue is positive"
  | outOfRange field value =>
    field ++ " must be within 0.00000 and 99999.99999, got " ++ number value
  | tooPrecise field value =>
    field ++ " must have at most " ++ toString fractionBound ++ " decimal places, got "
      ++ number value
  | tooLong field limit count =>
    field ++ " must be at most " ++ toString limit ++ " characters, got " ++ toString count
  | parentMissing => "parentPartsModel is required"
  | plantMissing => "plantId is required"
  | foreignOperator slot => slot.label ++ ".operatorId must be the caller's operator"
  | slotPlantMissing slot => slot.label ++ ".plantId is required"
  | badName slot => slot.label ++ ".partsName must be 1 to " ++ toString nameBound ++ " characters"
  | longSupportName slot =>
    slot.label ++ ".supportPartsName must be at most " ++ toString nameBound ++ " characters"
  | repeatedTrace slot trace =>
    slot.label ++ ".traceId " ++ trace.text ++ " appears more than once"
  | otherAssembly trace =>
    "traceId " ++ trace.text ++ " already belongs to another parts structure"
  | setOfOtherTrace setId => "cfpId " ++ setId.text ++ " belongs to another traceId"
  | blankCertificate => "cfpCertificationIds must not contain blank ids"
  | nothingToCertify trace => "traceId " ++ trace.text ++ " has no CFP to certify"
  | requesterNotCaller => "downstreamOperatorId must be the caller's operatorId"
  | supplierIsCaller => "upstreamOperatorId must differ from downstreamOperatorId"
  | dueDateMissing => "responseDueDate is required"
  | requestForTerminal trace =>
    "downstreamTraceId " ++ trace.text ++ " is terminal and cannot request CFP"
  | requestedAlready trace => "downstreamTraceId " ++ trace.text ++ " already has a trade"
  | limitTooSmall => "limit must be at least 1"
  | unknownArguments => "unrecognized arguments"
  | malformedId given reason => "invalid id " ++ Text.quoted given ++ ": " ++ reason
  | other text => text

end Violation

end Footprint
