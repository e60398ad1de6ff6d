import Footprint.Body.Document

namespace Footprint

open Json

def PartRecord.toJson (r : PartRecord) : Json :=
  object
    [("trace_id", ofUuid r.trace),
      ("operator_id", ofUuid r.operator),
      ("plant_id", ofUuid r.plant),
      ("parts_name", string r.name),
      ("support_parts_name", ofOption string r.supportName),
      ("terminated_flag", bool r.terminal),
      ("amount_required", ofOption float r.amount),
      ("amount_required_unit", ofOption string r.amountUnit),
      ("created_at", ofInstant r.createdAt),
      ("updated_at", ofInstant r.updatedAt),
      ("deleted_at", ofOption ofInstant r.deletedAt),
      ("updated_by", ofUuid r.updatedBy)]

def PlacementRecord.toJson (r : PlacementRecord) : Json :=
  object
    [("trace_id", ofUuid r.trace),
      ("parent_trace_id", ofUuid r.parent),
      ("position", ofNat r.position),
      ("created_at", ofInstant r.createdAt)]

def FigureRecord.toJson (r : FigureRecord) : Json :=
  object
    [("cfp_id", ofUuid r.setId),
      ("cfp_type", string r.kind),
      ("trace_id", ofUuid r.trace),
      ("ghg_emission", ofOption float r.emission),
      ("ghg_declared_unit", string r.unit),
      ("dqr_type", string r.ratingKind),
      ("te_r", ofOption float r.technological),
      ("ge_r", ofOption float r.geographical),
      ("ti_r", ofOption float r.temporal),
      ("cfp_certification_ids", string r.certificates),
      ("created_at", ofInstant r.createdAt),
      ("updated_at", ofInstant r.updatedAt)]

def TradeRecord.toJson (r : TradeRecord) : Json :=
  object
    [("trade_id", ofUuid r.id),
      ("downstream_operator_id", ofUuid r.requester),
      ("upstream_operator_id", ofUuid r.supplier),
      ("downstream_trace_id", ofUuid r.requesterPart),
      ("upstream_trace_id", ofOption ofUuid r.supplierPart),
      ("created_at", ofInstant r.createdAt),
      ("updated_at", ofInstant r.updatedAt),
      ("deleted_at", ofOption ofInstant r.deletedAt),
      ("updated_by", ofUuid r.updatedBy)]

def StatusRecord.toJson (r : StatusRecord) : Json :=
  object
    [("status_id", ofUuid r.id),
      ("trade_id", ofUuid r.trade),
      ("downstream_operator_id", ofUuid r.requester),
      ("upstream_operator_id", ofUuid r.supplier),
      ("cfp_response_status", string r.progress),
      ("trade_tree_status", string r.tree),
      ("message", ofOption string r.message),
      ("reply_message", ofOption string r.reply),
      ("request_type", string r.kind),
      ("response_due_date", string r.dueDate),
      ("completed_count", int r.completedCount),
      ("trades_count", int r.tradesCount),
      ("requested_at", ofInstant r.requestedAt),
      ("updated_at", ofInstant r.updatedAt),
      ("deleted_at", ofOption ofInstant r.deletedAt),
      ("updated_by", ofUuid r.updatedBy)]

/-- A table sorted by the identifier of its rows. -/
def sortedTable (id : α → Uuid) (toJson : α → Json) (table : List α) : Json :=
  array ((table.mergeSort fun r q => id r ≤ id q).map toJson)

/-- Figures of one set are sorted by the text of their kind. -/
def figuresInOrder (table : List FigureRecord) : List FigureRecord :=
  (table.mergeSort fun r q => r.kind ≤ q.kind).mergeSort fun r q => r.setId ≤ q.setId

/-- Five tables, every row with all its columns, deleted rows too. -/
def Store.toJson (s : Store) : Json :=
  object
    [("parts", sortedTable PartRecord.trace PartRecord.toJson s.parts),
      ("structures", sortedTable PlacementRecord.trace PlacementRecord.toJson s.placements),
      ("cfps", array ((figuresInOrder s.figures).map FigureRecord.toJson)),
      ("trades", sortedTable TradeRecord.id TradeRecord.toJson s.trades),
      ("statuses", sortedTable StatusRecord.id StatusRecord.toJson s.statuses)]

def PartRecord.ofJson? (j : Json) : Option PartRecord := do
  some
    { trace := ← j.required uuid? "trace_id"
      operator := ← j.required uuid? "operator_id"
      plant := ← j.required uuid? "plant_id"
      name := ← j.required string? "parts_name"
      supportName := ← j.optional string? "support_parts_name"
      terminal := ← j.required bool? "terminated_flag"
      amount := ← j.optional float? "amount_required"
      amountUnit := ← j.optional string? "amount_required_unit"
      createdAt := ← j.required instant? "created_at"
      updatedAt := ← j.required instant? "updated_at"
      deletedAt := ← j.optional instant? "deleted_at"
      updatedBy := ← j.required uuid? "updated_by" }

def PlacementRecord.ofJson? (j : Json) : Option PlacementRecord := do
  some
    { trace := ← j.required uuid? "trace_id"
      parent := ← j.required uuid? "parent_trace_id"
      position := ← j.required nat? "position"
      createdAt := ← j.required instant? "created_at" }

def FigureRecord.ofJson? (j : Json) : Option FigureRecord := do
  some
    { setId := ← j.required uuid? "cfp_id"
      kind := ← j.required string? "cfp_type"
      trace := ← j.required uuid? "trace_id"
      emission := ← j.optional float? "ghg_emission"
      unit := ← j.required string? "ghg_declared_unit"
      ratingKind := ← j.required string? "dqr_type"
      technological := ← j.optional float? "te_r"
      geographical := ← j.optional float? "ge_r"
      temporal := ← j.optional float? "ti_r"
      certificates := ← j.required string? "cfp_certification_ids"
      createdAt := ← j.required instant? "created_at"
      updatedAt := ← j.required instant? "updated_at" }

def TradeRecord.ofJson? (j : Json) : Option TradeRecord := do
  some
    { id := ← j.required uuid? "trade_id"
      requester := ← j.required uuid? "downstream_operator_id"
      supplier := ← j.required uuid? "upstream_operator_id"
      requesterPart := ← j.required uuid? "downstream_trace_id"
      supplierPart := ← j.optional uuid? "upstream_trace_id"
      createdAt := ← j.required instant? "created_at"
      updatedAt := ← j.required instant? "updated_at"
      deletedAt := ← j.optional instant? "deleted_at"
      updatedBy := ← j.required uuid? "updated_by" }

def StatusRecord.ofJson? (j : Json) : Option StatusRecord := do
  some
    { id := ← j.required uuid? "status_id"
      trade := ← j.required uuid? "trade_id"
      requester := ← j.required uuid? "downstream_operator_id"
      supplier := ← j.required uuid? "upstream_operator_id"
      progress := ← j.required string? "cfp_response_status"
      tree := ← j.required string? "trade_tree_status"
      message := ← j.optional string? "message"
      reply := ← j.optional string? "reply_message"
      kind := ← j.required string? "request_type"
      dueDate := ← j.required string? "response_due_date"
      completedCount := ← j.required count? "completed_count"
      tradesCount := ← j.required count? "trades_count"
      requestedAt := ← j.required instant? "requested_at"
      updatedAt := ← j.required instant? "updated_at"
      deletedAt := ← j.optional instant? "deleted_at"
      updatedBy := ← j.required uuid? "updated_by" }

def Store.ofJson? (j : Json) : Option Store := do
  some
    { parts := ← j.required (list? PartRecord.ofJson?) "parts"
      placements := ← j.required (list? PlacementRecord.ofJson?) "structures"
      figures := ← j.required (list? FigureRecord.ofJson?) "cfps"
      trades := ← j.required (list? TradeRecord.ofJson?) "trades"
      statuses := ← j.required (list? StatusRecord.ofJson?) "statuses" }

end Footprint
