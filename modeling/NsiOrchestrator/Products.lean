import Mathlib.Data.Finset.Defs

/-! # Product blocks

The blocks the orchestrator stores. An `Inactive` block has every field optional and
is what a subscription resolves to in any lifecycle; the other blocks are those of
the provisioning and active lifecycles. A block linked from another subscription is
given by the fields read through the link, which never change.
-/

namespace NsiOrchestrator

inductive ConstraintType where
  | include
  | exclude
  deriving DecidableEq, Repr

/-! ## Inactive blocks -/

structure StpInactive where
  stpId : Option String
  deriving DecidableEq, Repr

structure SdpInactive where
  stps : StpInactive × StpInactive
  deriving DecidableEq, Repr

structure SapInactive where
  vlan : Option String
  stp : Option StpInactive
  deriving DecidableEq, Repr

structure SdpConstraintInactive where
  constraintType : Option ConstraintType
  sdp : Option SdpInactive
  vlan : Option Int
  deriving DecidableEq, Repr

structure VcInactive where
  saps : SapInactive × SapInactive
  sdpConstraints : List SdpConstraintInactive
  deriving DecidableEq, Repr

/-! ## Provisioning and active blocks -/

/-- `ServiceTerminationPointBlock`. -/
structure Stp where
  stpId : String
  stpName : String
  capacity : Int
  labelGroup : String
  deriving DecidableEq, Repr

/-- `ServiceDemarcationPointBlock`, read through its own subscription. -/
structure Sdp where
  sdpName : String
  stps : Stp × Stp
  deriving DecidableEq, Repr

/-- `ServiceAccessPointBlock`, with the id of its STP. -/
structure Sap where
  vlan : String
  stpId : String
  deriving DecidableEq, Repr

/-- An SDP block as a constraint links it. -/
structure SdpLink where
  ownerSubscriptionId : String
  stpIds : String × String
  deriving DecidableEq, Repr

structure SdpConstraint where
  constraintType : ConstraintType
  sdp : SdpLink
  vlan : Option Int
  deriving DecidableEq, Repr

/-- `VirtualCircuitBlockProvisioning`. The active block also requires a connection id. -/
structure Vc where
  circuitDescription : String
  serviceSpeed : Int
  saps : Sap × Sap
  sdpConstraints : List SdpConstraint
  state : String
  globalReservationId : String
  connectionId : Option String
  lastError : Option String
  deriving DecidableEq, Repr

/-! ## A block as its base class -/

def Sap.toInactive (sap : Sap) : SapInactive := ⟨some sap.vlan, some ⟨some sap.stpId⟩⟩

def SdpConstraint.toInactive (constraint : SdpConstraint) : SdpConstraintInactive where
  constraintType := some constraint.constraintType
  sdp := some ⟨⟨some constraint.sdp.stpIds.1⟩, ⟨some constraint.sdp.stpIds.2⟩⟩
  vlan := constraint.vlan

def Vc.toInactive (vc : Vc) : VcInactive where
  saps := (vc.saps.1.toInactive, vc.saps.2.toInactive)
  sdpConstraints := vc.sdpConstraints.map SdpConstraint.toInactive

end NsiOrchestrator
