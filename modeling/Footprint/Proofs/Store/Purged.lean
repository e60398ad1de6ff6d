import Footprint.Proofs.Store.Readings
import Footprint.Proofs.Table

namespace Footprint

open Table Exchange

/-- The store without its deleted rows. -/
def Store.purged (s : Store) : Store where
  parts := s.parts.filter (·.isLive)
  placements := s.placements
  figures := s.figures
  trades := s.trades.filter (·.isLive)
  statuses := s.statuses.filter (·.isLive)

variable (s : Store)

namespace Store

@[simp] theorem part?_purged : s.purged.part? = s.part? := by
  funext operator trace
  refine congrArg (readOptional PartRecord.part) (find?_filter_of_imp fun r _ hfound => ?_)
  exact (Bool.and_eq_true_iff.1 hfound).2

@[simp] theorem placement?_purged : s.purged.placement? = s.placement? := rfl

@[simp] theorem isParent_purged : s.purged.isParent = s.isParent := rfl

@[simp] theorem children_purged : s.purged.children = s.children := by
  funext parent
  have hpool : s.purged.parts.filter
        (fun r => (s.childTraces parent).contains r.trace && r.isLive) =
      s.parts.filter fun r => (s.childTraces parent).contains r.trace && r.isLive :=
    filter_filter_of_imp fun r _ hfound => (Bool.and_eq_true_iff.1 hfound).2
  exact congrArg (fun pool => (arrange (s.childTraces parent) pool).mapM (·.part)) hpool

@[simp] theorem assembly?_purged : s.purged.assembly? = s.assembly? := by
  funext operator parent
  simp only [assembly?, part?_purged, isParent_purged, children_purged]

@[simp] theorem trade?_purged : s.purged.trade? = s.trade? := by
  funext id
  refine congrArg (Option.map _) (find?_filter_of_imp fun t _ hfound => ?_)
  exact (Bool.and_eq_true_iff.1 hfound).2

@[simp] theorem requestFor?_purged : s.purged.requestFor? = s.requestFor? := by
  funext trace
  refine congrArg (Option.map _) (find?_filter_of_imp fun t _ hfound => ?_)
  exact (Bool.and_eq_true_iff.1 hfound).2

@[simp] theorem tradesAnsweredWith_purged :
    s.purged.tradesAnsweredWith = s.tradesAnsweredWith := by
  funext trace
  have hrows : s.purged.trades.filter (fun t => t.supplierPart = some trace && t.isLive) =
      s.trades.filter fun t => t.supplierPart = some trace && t.isLive :=
    filter_filter_of_imp fun t _ hfound => (Bool.and_eq_true_iff.1 hfound).2
  rw [tradesAnsweredWith, hrows, tradesAnsweredWith]

@[simp] theorem statusOf?_purged : s.purged.statusOf? = s.statusOf? := by
  funext trade
  refine congrArg (readOptional StatusRecord.status) (find?_filter_of_imp fun r _ hfound => ?_)
  exact (Bool.and_eq_true_iff.1 hfound).2

@[simp] theorem sideStatuses_purged : s.purged.sideStatuses = s.sideStatuses := by
  funext operator side
  exact filter_filter_of_imp fun r _ hfound => (Bool.and_eq_true_iff.1 hfound).2

end Store

theorem sameLookups_purged : SameLookups s s.purged where
  part := s.part?_purged
  placement := s.placement?_purged
  assembly := s.assembly?_purged
  figures := rfl
  trade := s.trade?_purged
  request := s.requestFor?_purged
  answered := s.tradesAnsweredWith_purged
  status := s.statusOf?_purged
  side := s.sideStatuses_purged

/-- Every lookup, listing, count and total, and every plan of an operation, is the same without the
deleted rows. -/
theorem sameReadings_purged : SameReadings s s.purged :=
  (sameLookups_purged s).readings

end Footprint
