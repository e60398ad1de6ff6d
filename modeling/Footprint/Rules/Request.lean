import Footprint.Rules.Number
import Footprint.Text.Blank

namespace Footprint.Rules

/-- The rules for a request, apart from those on its message. -/
def request (caller : Uuid) (r : TradeRequest) : List Violation :=
  require (r.requester = caller) .requesterNotCaller
    ++ require (r.supplier ≠ caller) .supplierIsCaller
    ++ require (!Text.isBlankText r.dueDate) .dueDateMissing

end Footprint.Rules
