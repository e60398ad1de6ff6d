import Footprint.Trade
import Footprint.Violation

namespace Footprint

/-- What can be wrong with the settings file. -/
inductive SettingsFault where
  | unreadable (reason : String)
  | malformed (reason : String)
  | defaultLimit (maxLimit : Nat)
deriving DecidableEq

def SettingsFault.text : SettingsFault → String
  | unreadable reason => "Failed to read config file: " ++ reason
  | malformed reason => "Failed to parse gateway.toml: " ++ reason
  | defaultLimit maxLimit => "listing.default_limit must be within 1..=" ++ toString maxLimit

/-- Why an operation is refused. -/
inductive Error where
  | invalid (violations : List Violation)
  | unknownLiteral (field value : String)
  | inconsistent (field : SharedField) (trace : Uuid)
  | duplicateFigures (trace : Uuid)
  | figureNotFound (setId : Uuid) (kind : FigureKind)
  | partNotFound (trace : Uuid)
  | partInUse (trace : Uuid)
  | tradeNotFound (trade : Uuid)
  | statusNotFound (trade : Uuid)
  /-- The request is in a state, given by its literal, that admits no event. -/
  | closed (state : String) (event : Event)
  | settings (fault : SettingsFault)
  /-- A key of the store would be taken twice, or a status would belong to no trade. -/
  | brokenKey
  /-- A stored text is not a list of strings. -/
  | undecodable
deriving DecidableEq

namespace Error

open Enumerated

def name : Error → String
  | invalid _ => "Validation"
  | unknownLiteral _ _ => "UnexpectedEnum"
  | inconsistent _ _ => "Inconsistent"
  | duplicateFigures _ => "DuplicateCfp"
  | figureNotFound _ _ => "CfpNotFound"
  | partNotFound _ => "PartNotFound"
  | partInUse _ => "PartInUse"
  | tradeNotFound _ => "TradeNotFound"
  | statusNotFound _ => "StatusNotFound"
  | closed _ _ => "InvalidTransition"
  | settings _ => "Config"
  | brokenKey => "Database"
  | undecodable => "Json"

/-- Whether the caller can mend the cause. -/
def callerCanMend : Error → Bool
  | inconsistent _ _ | settings _ | brokenKey | undecodable => false
  | _ => true

def message : Error → String
  | invalid violations => "Validation failed: " ++ ", ".intercalate (violations.map (·.text))
  | unknownLiteral field value =>
    "Unexpected enum value " ++ Text.quoted value ++ " for field " ++ field
  | inconsistent field trace =>
    "Inconsistent field " ++ field.name ++ " across CFP rows of trace " ++ trace.text
  | duplicateFigures trace => "CFP already registered for trace " ++ trace.text
  | figureNotFound setId kind => "CFP " ++ setId.text ++ " of type " ++ literal kind ++ " not found"
  | partNotFound trace => "Part not found: " ++ trace.text
  | partInUse trace => "Part " ++ trace.text ++ " is referenced by a trade"
  | tradeNotFound trade => "Trade not found: " ++ trade.text
  | statusNotFound trade => "Request status not found for trade " ++ trade.text
  | closed state event => "Cannot " ++ event.name ++ " a request in status " ++ state
  | settings fault => "Configuration error: " ++ fault.text
  | brokenKey => "Database error"
  | undecodable => "JSON error"

/-- The named values of an error. -/
def parameters : Error → List (String × String)
  | invalid violations =>
    [("violations", "[" ++ ", ".intercalate (violations.map fun v => Text.quoted v.text) ++ "]")]
  | unknownLiteral field value => [("field", Text.quoted field), ("value", Text.quoted value)]
  | inconsistent field trace => [("field", Text.quoted field.name), ("trace_id", trace.text)]
  | figureNotFound setId kind =>
    [("cfp_id", setId.text), ("cfp_type", Text.quoted (literal kind))]
  | duplicateFigures trace | partNotFound trace | partInUse trace => [("trace_id", trace.text)]
  | tradeNotFound trade | statusNotFound trade => [("trade_id", trade.text)]
  | closed state event => [("from", Text.quoted state), ("event", Text.quoted event.name)]
  | settings fault => [("message", Text.quoted fault.text)]
  | brokenKey | undecodable => []

/-- The error with its values, as a failing command reports it. -/
def detail (e : Error) : String :=
  match e.parameters with
  | [] => e.name
  | ps =>
    e.name ++ " \x7b " ++ ", ".intercalate (ps.map fun (key, value) => key ++ ": " ++ value)
      ++ " \x7d"

end Error

/-- Refuses data that breaks any rule, with all that it breaks. -/
def refuse (violations : List Violation) : Except Error Unit :=
  if violations.isEmpty then .ok () else .error (.invalid violations)

def refuseWith (violation : Violation) : Except Error α :=
  .error (.invalid [violation])

theorem refuse_eq_ok_iff {vs : List Violation} : refuse vs = .ok () ↔ vs = [] := by
  cases vs <;> simp [refuse]

end Footprint
