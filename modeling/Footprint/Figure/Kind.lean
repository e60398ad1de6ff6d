import Footprint.Enumerated

namespace Footprint

/-- Which share of a part's footprint a figure states. -/
inductive FigureKind where
  | preProduction
  | mainProduction
  | preComponent
  | mainComponent
  | preProductionTotal
  | mainProductionTotal
  | preComponentTotal
  | mainComponentTotal
  | preProductionResponse
  | mainProductionResponse
deriving DecidableEq, Repr, Inhabited

/-- What a data quality rating rates. -/
inductive RatingKind where
  | preProcessing
  | mainProcessing
  | preProcessingTotal
  | mainProcessingTotal
  | preProcessingResponse
  | mainProcessingResponse
deriving DecidableEq, Repr, Inhabited

/-- Materials and other preceding work, or the own manufacturing. -/
inductive Stage where
  | pre
  | main
deriving DecidableEq, Repr, Inhabited

instance : Enumerated FigureKind where
  typeName := "CfpType"
  all := [.preProduction, .mainProduction, .preComponent, .mainComponent, .preProductionTotal,
    .mainProductionTotal, .preComponentTotal, .mainComponentTotal, .preProductionResponse,
    .mainProductionResponse]
  literal
    | .preProduction => "preProduction"
    | .mainProduction => "mainProduction"
    | .preComponent => "preComponent"
    | .mainComponent => "mainComponent"
    | .preProductionTotal => "preProductionTotal"
    | .mainProductionTotal => "mainProductionTotal"
    | .preComponentTotal => "preComponentTotal"
    | .mainComponentTotal => "mainComponentTotal"
    | .preProductionResponse => "preProductionResponse"
    | .mainProductionResponse => "mainProductionResponse"
  mem_all a := by cases a <;> decide
  literal_injective a b := by cases a <;> cases b <;> decide

instance : Enumerated RatingKind where
  typeName := "DqrType"
  all := [.preProcessing, .mainProcessing, .preProcessingTotal, .mainProcessingTotal,
    .preProcessingResponse, .mainProcessingResponse]
  literal
    | .preProcessing => "preProcessing"
    | .mainProcessing => "mainProcessing"
    | .preProcessingTotal => "preProcessingTotal"
    | .mainProcessingTotal => "mainProcessingTotal"
    | .preProcessingResponse => "preProcessingResponse"
    | .mainProcessingResponse => "mainProcessingResponse"
  mem_all a := by cases a <;> decide
  literal_injective a b := by cases a <;> cases b <;> decide

def RatingKind.stage : RatingKind → Stage
  | .preProcessing | .preProcessingTotal | .preProcessingResponse => .pre
  | .mainProcessing | .mainProcessingTotal | .mainProcessingResponse => .main

namespace FigureKind

/-- The kinds an operator supplies, in canonical order. -/
def inputs : List FigureKind :=
  [.preProduction, .mainProduction, .preComponent, .mainComponent]

/-- The rating that goes with the kind. -/
def ratingKind : FigureKind → RatingKind
  | .preProduction | .preComponent => .preProcessing
  | .mainProduction | .mainComponent => .mainProcessing
  | .preProductionTotal | .preComponentTotal => .preProcessingTotal
  | .mainProductionTotal | .mainComponentTotal => .mainProcessingTotal
  | .preProductionResponse => .preProcessingResponse
  | .mainProductionResponse => .mainProcessingResponse

def stage (k : FigureKind) : Stage :=
  k.ratingKind.stage

def isTotal : FigureKind → Bool
  | .preProductionTotal | .mainProductionTotal | .preComponentTotal | .mainComponentTotal => true
  | _ => false

/-- Figures handed down from a supplier. -/
def isResponse : FigureKind → Bool
  | .preProductionResponse | .mainProductionResponse => true
  | _ => false

def isInput (k : FigureKind) : Bool :=
  !k.isTotal && !k.isResponse

/-- The kind a supplier's production figure takes at the requester. -/
def response? : FigureKind → Option FigureKind
  | .preProduction => some .preProductionResponse
  | .mainProduction => some .mainProductionResponse
  | _ => none

/-- The place of the kind in canonical order. -/
def rank (k : FigureKind) : Nat :=
  (Enumerated.all : List FigureKind).idxOf k

theorem isInput_iff (k : FigureKind) : k.isInput ↔ k ∈ inputs := by
  cases k <;> decide

theorem rank_injective {k l : FigureKind} (h : k.rank = l.rank) : k = l := by
  revert h
  cases k <;> cases l <;> decide

end FigureKind

end Footprint
