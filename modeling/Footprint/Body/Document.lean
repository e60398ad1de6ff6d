import Footprint.Json.Value
import Footprint.Body.Basic

namespace Footprint

open Json

namespace Json

def ofUuid (u : Uuid) : Json :=
  string u.text

def uuid? (j : Json) : Option Uuid :=
  j.string?.bind Uuid.parse?

def ofInstant (t : Instant) : Json :=
  string t.text

def instant? (j : Json) : Option Instant :=
  j.string?.bind Instant.parse?

/-- A count is an integer of 32 bits. -/
def count? (j : Json) : Option Int :=
  j.int?.filter fun n => -Int.pow 2 31 ≤ n && n < Int.pow 2 31

/-- A list field that may be missing, but not null. -/
def listOrEmpty (f : Json → Option α) (j : Json) (name : String) : Option (List α) :=
  if j.hasField name then (j.field name).list? f else some []

end Json

def Rating.toJson (r : Rating) : Json :=
  object (r.components.map fun (name, value) => (name, ofOption float value))

def Rating.ofJson? (j : Json) : Option Rating := do
  let j ← j.record? ["TeR", "GeR", "TiR"] 0
  some ⟨← j.optional float? "TeR", ← j.optional float? "GeR", ← j.optional float? "TiR"⟩

namespace FigureBody

def toJson (b : FigureBody) : Json :=
  object
    [("cfpId", ofOption ofUuid b.setId),
      ("traceId", ofUuid b.trace),
      ("ghgEmission", ofOption float b.emission),
      ("ghgDeclaredUnit", ofOption string b.unit),
      ("cfpType", string b.kind),
      ("dqrType", string b.ratingKind),
      ("dqrValue", b.rating.toJson),
      ("cfpCertificationIds", array (b.certificates.map string))]

/-- A field that may be null may also be missing, and unknown fields are ignored. There is no body
when the JSON value has another shape. -/
def ofJson? (j : Json) : Option FigureBody := do
  let j ← j.record?
    ["cfpId", "traceId", "ghgEmission", "ghgDeclaredUnit", "cfpType", "dqrType", "dqrValue",
      "cfpCertificationIds"] 7
  some
    { setId := ← j.optional uuid? "cfpId"
      trace := ← j.required uuid? "traceId"
      emission := ← j.optional float? "ghgEmission"
      unit := ← j.optional string? "ghgDeclaredUnit"
      kind := ← j.required string? "cfpType"
      ratingKind := ← j.required string? "dqrType"
      rating := ← j.required Rating.ofJson? "dqrValue"
      certificates := ← j.listOrEmpty string? "cfpCertificationIds" }

end FigureBody

namespace PartBody

def toJson (b : PartBody) : Json :=
  object
    [("traceId", ofOption ofUuid b.trace),
      ("operatorId", ofUuid b.operator),
      ("plantId", ofOption ofUuid b.plant),
      ("partsName", string b.name),
      ("supportPartsName", ofOption string b.supportName),
      ("terminatedFlag", bool b.terminal),
      ("amountRequired", ofOption float b.amount),
      ("amountRequiredUnit", ofOption string b.amountUnit)]

def ofJson? (j : Json) : Option PartBody := do
  let j ← j.record?
    ["traceId", "operatorId", "plantId", "partsName", "supportPartsName", "terminatedFlag",
      "amountRequired", "amountRequiredUnit"] 6
  some
    { trace := ← j.optional uuid? "traceId"
      operator := ← j.required uuid? "operatorId"
      plant := ← j.optional uuid? "plantId"
      name := ← j.required string? "partsName"
      supportName := ← j.optional string? "supportPartsName"
      terminal := ← j.required bool? "terminatedFlag"
      amount := ← j.optional float? "amountRequired"
      amountUnit := ← j.optional string? "amountRequiredUnit" }

end PartBody

namespace AssemblyBody

def toJson (b : AssemblyBody) : Json :=
  object
    [("parentPartsModel", ofOption PartBody.toJson b.parent),
      ("childrenPartsModel", array (b.children.map PartBody.toJson))]

def ofJson? (j : Json) : Option AssemblyBody := do
  let j ← j.record? ["parentPartsModel", "childrenPartsModel"] 1
  some
    { parent := ← j.optional PartBody.ofJson? "parentPartsModel"
      children := ← j.listOrEmpty PartBody.ofJson? "childrenPartsModel" }

end AssemblyBody

namespace TradeBody

def toJson (b : TradeBody) : Json :=
  object
    [("tradeId", ofOption ofUuid b.id),
      ("downstreamOperatorId", ofUuid b.requester),
      ("upstreamOperatorId", ofUuid b.supplier),
      ("downstreamTraceId", ofUuid b.requesterPart),
      ("upstreamTraceId", ofOption ofUuid b.supplierPart)]

def ofJson? (j : Json) : Option TradeBody := do
  let j ← j.record?
    ["tradeId", "downstreamOperatorId", "upstreamOperatorId", "downstreamTraceId",
      "upstreamTraceId"] 4
  some
    { id := ← j.optional uuid? "tradeId"
      requester := ← j.required uuid? "downstreamOperatorId"
      supplier := ← j.required uuid? "upstreamOperatorId"
      requesterPart := ← j.required uuid? "downstreamTraceId"
      supplierPart := ← j.optional uuid? "upstreamTraceId" }

end TradeBody

namespace TradeRequestBody

def toJson (b : TradeRequestBody) : Json :=
  object
    [("trade", b.trade.toJson),
      ("message", ofOption string b.message),
      ("responseDueDate", string b.dueDate)]

def ofJson? (j : Json) : Option TradeRequestBody := do
  let j ← j.record? ["trade", "message", "responseDueDate"] 3
  some
    { trade := ← j.required TradeBody.ofJson? "trade"
      message := ← j.optional string? "message"
      dueDate := ← j.required string? "responseDueDate" }

end TradeRequestBody

namespace StatusBody

def toJson (b : StatusBody) : Json :=
  object
    [("statusId", ofUuid b.id),
      ("tradeId", ofUuid b.trade),
      ("requestStatus", object
        [("cfpResponseStatus", string b.progress), ("tradeTreeStatus", string b.tree)]),
      ("message", ofOption string b.message),
      ("replyMessage", ofOption string b.reply),
      ("requestType", string b.kind),
      ("responseDueDate", string b.dueDate),
      ("completedCount", int b.completedCount),
      ("tradesCount", int b.tradesCount),
      ("requestedAt", ofInstant b.requestedAt)]

def ofJson? (j : Json) : Option StatusBody := do
  let j ← j.record?
    ["statusId", "tradeId", "requestStatus", "message", "replyMessage", "requestType",
      "responseDueDate", "completedCount", "tradesCount", "requestedAt"] 10
  let state ← (j.field "requestStatus").record? ["cfpResponseStatus", "tradeTreeStatus"] 2
  some
    { id := ← j.required uuid? "statusId"
      trade := ← j.required uuid? "tradeId"
      progress := ← state.required string? "cfpResponseStatus"
      tree := ← state.required string? "tradeTreeStatus"
      message := ← j.optional string? "message"
      reply := ← j.optional string? "replyMessage"
      kind := ← j.required string? "requestType"
      dueDate := ← j.required string? "responseDueDate"
      completedCount := ← j.required count? "completedCount"
      tradesCount := ← j.required count? "tradesCount"
      requestedAt := ← j.required instant? "requestedAt" }

end StatusBody

namespace Json

def ofFigure (f : Figure) : Json :=
  (FigureBody.ofFigure f).toJson

def ofFigures (fs : List Figure) : Json :=
  array (fs.map ofFigure)

def ofPart (p : Part) : Json :=
  (PartBody.ofPart p).toJson

def ofAssembly (a : Assembly) : Json :=
  (AssemblyBody.ofAssembly a).toJson

def ofTrade (t : Trade) : Json :=
  (TradeBody.ofTrade t).toJson

def ofStatus (s : Status) : Json :=
  (StatusBody.ofStatus s).toJson

def ofStatusPage (p : StatusPage) : Json :=
  object [("statuses", array (p.statuses.map ofStatus)), ("next", ofOption ofUuid p.next)]

end Json

end Footprint
