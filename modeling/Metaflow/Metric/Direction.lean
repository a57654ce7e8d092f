import Mathlib.Init

/-!
# Tap sides

`TapSide` of `metric/document.rs`: on which end of a flow, and at which kind of
place, its traffic was seen.
-/

namespace Metaflow.Metric

/-- The side that a record was made for. -/
inductive TapSide where
  | rest
  | client
  | server
  | localSide
  | clientNode
  | serverNode
  | clientHypervisor
  | serverHypervisor
  | clientGatewayHypervisor
  | serverGatewayHypervisor
  | clientGateway
  | serverGateway
  | clientProcess
  | serverProcess
  deriving DecidableEq

end Metaflow.Metric
