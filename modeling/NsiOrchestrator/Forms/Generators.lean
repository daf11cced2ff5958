import NsiOrchestrator.Forms.SdpVlans
import NsiOrchestrator.Mdp2p.Fsm
import NsiOrchestrator.Vlans.Stored

/-! # The input forms of create and retry

Both ask for the connection page, then for the VLAN page and its summary. Retry
prefills them from the stored circuit and leaves out what its own connection holds.
-/

namespace NsiOrchestrator.Forms

open Outcome Vlans Ero Fields Mdp2p

/-- The STP and SDP blocks of all non-terminated subscriptions. -/
structure Inventory where
  stps : List Stp
  sdps : Dict String Sdp
  deriving DecidableEq

/-- The orders sets are iterated in while a form is evaluated. -/
structure Orders where
  pairs : SetOrder StpVlan
  ero : EroOrder

structure Submission where
  input : ConnectionInput
  path : Path
  deriving DecidableEq

def connectionInput (orders : Orders) (inventory : Inventory)
    (reservations : List AggregatorReservation) (releasedConnectionId : Option String)
    (values : Except PyError ConnectionFields) (sdpVlanDefaults : SdpVlans) (raw : ConnectionFields)
    (rawVlans : SdpVlanFields) : Except FormError Submission := do
  let topology ← raising (sdpTopology inventory.sdps)
  let inUseByStp ← raising (vlansInUseByStp orders.pairs reservations releasedConnectionId)
  let values ← raising values
  let form ← raising (connectionForm inventory.stps topology inUseByStp values)
  let userInput ← form.validate orders.ero raw
  let path ← pathInput topology orders.ero userInput inUseByStp sdpVlanDefaults rawVlans
  pure ⟨userInput, path⟩

/-- `initial_input_form_generator` of create. -/
def createInput (orders : Orders) (inventory : Inventory)
    (reservations : List AggregatorReservation) (raw : ConnectionFields)
    (rawVlans : SdpVlanFields) : Except FormError Submission :=
  connectionInput orders inventory reservations none (.ok .untouched) .empty raw rawVlans

/-- Everything the accepted forms went through. -/
structure FormsAccept (orders : Orders) (inventory : Inventory)
    (reservations : List AggregatorReservation) (released : Option String)
    (values : ConnectionFields) (defaults : SdpVlans) (raw : ConnectionFields)
    (rawVlans : SdpVlanFields) (submission : Submission) (topology : SdpTopology) (inUse : InUse)
    (form : ConnectionForm) : Prop where
  loaded : sdpTopology inventory.sdps = .ok topology
  fetched : vlansInUseByStp orders.pairs reservations released = .ok inUse
  built : connectionForm inventory.stps topology inUse values = .ok form
  page : form.validate orders.ero raw = .ok submission.input
  path : pathInput topology orders.ero submission.input inUse defaults rawVlans =
    .ok submission.path

theorem connectionInput_eq_ok {orders : Orders} {inventory : Inventory}
    {reservations : List AggregatorReservation} {released : Option String}
    {values : Except PyError ConnectionFields} {defaults : SdpVlans} {raw : ConnectionFields}
    {rawVlans : SdpVlanFields} {submission : Submission} :
    connectionInput orders inventory reservations released values defaults raw rawVlans =
        .ok submission ↔
      ∃ topology inUse values' form, values = .ok values' ∧
        FormsAccept orders inventory reservations
        released values' defaults raw rawVlans submission topology inUse form := by
  simp only [connectionInput, bind_eq_ok, raising_eq_ok, pure_eq_ok]
  constructor
  · rintro ⟨topology, htopology, inUse, hinUse, values', hvalues, form, hform, input, hpage, path,
      hpath, rfl⟩
    exact ⟨topology, inUse, values', form, hvalues, htopology, hinUse, hform, hpage, hpath⟩
  · rintro ⟨topology, inUse, values', form, hvalues, htopology, hinUse, hform, hpage, hpath⟩
    exact ⟨topology, htopology, inUse, hinUse, values', hvalues, form, hform, _, hpage, _, hpath,
      rfl⟩

/-! ## Retry -/

def retryableStates : List String := [ConnectionState.created, ConnectionState.failed]

/-- The included constraints of a circuit, in stored order. -/
def included (vc : Vc) : List SdpConstraint :=
  vc.sdpConstraints.filter fun constraint => constraint.constraintType = .include

/-- The circuit stores an input, with the SDP blocks of an inventory. -/
structure Stores (inventory : Inventory) (submission : Submission) (vc : Vc) : Prop where
  speed : vc.serviceSpeed = submission.input.serviceSpeed
  source : vc.saps.1 = ⟨toString submission.input.sourceVlan, submission.input.sourceStp⟩
  destination :
    vc.saps.2 = ⟨toString submission.input.destinationVlan, submission.input.destinationStp⟩
  constraints : includeConstraints inventory.sdps submission.input.includeSdps
    submission.path.sdpVlans = .ok (included vc)

def retryValues (vc : Vc) : Except PyError ConnectionFields := do
  let sourceVlan ← int vc.saps.1.vlan.toList
  let destinationVlan ← int vc.saps.2.vlan.toList
  pure
    { circuitDescription := some vc.circuitDescription
      serviceSpeed := some vc.serviceSpeed
      sourceStp := some vc.saps.1.stpId
      sourceVlan := some sourceVlan
      destinationStp := some vc.saps.2.stpId
      destinationVlan := some destinationVlan
      allowStpsInSdp := none
      includeSdps := some ((included vc).map fun constraint => constraint.sdp.ownerSubscriptionId)
      excludeSdps := none }

/-- `stored_vlans`: keyed by SDP, so a VLAN follows its SDP. -/
def storedSdpVlans (vc : Vc) : SdpVlans :=
  Dict.ofPairs ((included vc).filterMap fun constraint =>
    constraint.vlan.map (constraint.sdp.ownerSubscriptionId, ·))

/-- `initial_input_form_generator` of retry. -/
def retryInput (orders : Orders) (inventory : Inventory)
    (reservations : List AggregatorReservation) (vc : Vc) (raw : ConnectionFields)
    (rawVlans : SdpVlanFields) : Except FormError Submission := do
  raising (raiseIf (vc.state ∉ retryableStates) (.formValidation
    ("Only a connection that holds no reservation can be retried, and this one is " ++ vc.state ++
      "; release or terminate it instead")))
  connectionInput orders inventory reservations vc.connectionId (retryValues vc) (storedSdpVlans vc)
    raw rawVlans

theorem retryInput_eq_ok {orders : Orders} {inventory : Inventory}
    {reservations : List AggregatorReservation} {vc : Vc} {raw : ConnectionFields}
    {rawVlans : SdpVlanFields} {submission : Submission} :
    retryInput orders inventory reservations vc raw rawVlans = .ok submission ↔
      vc.state ∈ retryableStates ∧ connectionInput orders inventory reservations vc.connectionId
        (retryValues vc) (storedSdpVlans vc) raw rawVlans = .ok submission := by
  simp [retryInput, bind_eq_ok]

/-! ## A line of two networks -/

def ascending : Orders := ⟨byStpAndVlan, fun _ => byLegAndNetwork⟩

def lineInventory : Inventory where
  stps := [⟨"n:n:n:n:n:X:1", "x1", 100, "1-9"⟩, ⟨"n:n:n:n:n:Y:1", "y1", 100, "1-9"⟩,
    ⟨"n:n:n:n:n:X:2", "x2", 100, "1-9"⟩, ⟨"n:n:n:n:n:Y:2", "y2", 100, "1-9"⟩]
  sdps :=
    ⟨[("s", ⟨"x-y", ⟨"n:n:n:n:n:Y:2", "y2", 100, "1-9"⟩, ⟨"n:n:n:n:n:X:2", "x2", 100, "1-9"⟩⟩)],
    by simp⟩

def lineReservations : List AggregatorReservation :=
  [⟨"other", "RESERVED", none, none,
    some ⟨⟨10, "n:n:n:n:n:X:1?vlan=4", "n:n:n:n:n:Y:1?vlan=4"⟩⟩, none⟩]

def lineFields : ConnectionFields where
  circuitDescription := some "circuit"
  serviceSpeed := some 10
  sourceStp := some "n:n:n:n:n:X:1"
  sourceVlan := some 5
  destinationStp := some "n:n:n:n:n:Y:1"
  destinationVlan := some 6
  allowStpsInSdp := none
  includeSdps := some ["s"]
  excludeSdps := none

def linePins : SdpVlanFields := fun _ => some (some 7)

def lineSubmission : Submission where
  input := ⟨"circuit", 10, "n:n:n:n:n:X:1", 5, "n:n:n:n:n:Y:1", 6, false, ["s"], []⟩
  path := ⟨["n:n:n:n:n:X:2?vlan=7"], ⟨[("s", 7)], by simp⟩⟩

theorem lineInput_accepted :
    createInput ascending lineInventory lineReservations lineFields linePins =
    .ok lineSubmission := by decide +kernel

end NsiOrchestrator.Forms
