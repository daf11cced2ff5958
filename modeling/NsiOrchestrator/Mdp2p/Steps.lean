import NsiOrchestrator.Forms.Generators

/-! # Workflow steps of a circuit

What each step of the MDP2P workflows does to the stored subscription, and the
requests the action steps send to the aggregator. The callback URL and the two NSA
ids of a request are settings and are left out.
-/

namespace NsiOrchestrator.Mdp2p

open Outcome Vlans Forms

inductive Lifecycle where
  | provisioning
  | active
  | terminated
  deriving DecidableEq, Repr

/-- A stored MDP2P subscription. -/
structure Subscription where
  lifecycle : Lifecycle
  productTag : String
  vc : Vc
  description : String
  deriving DecidableEq

/-- `description()` of an MDP2P subscription. -/
def Subscription.describe (subscription : Subscription) : Subscription :=
  let tag := subscription.productTag
  let circuit := subscription.vc.circuitDescription
  let state := subscription.vc.state
  { subscription with description := s!"{tag} {circuit} ({state})" }

@[simp] theorem Subscription.describe_lifecycle (subscription : Subscription) :
    subscription.describe.lifecycle = subscription.lifecycle := rfl

@[simp] theorem Subscription.describe_vc (subscription : Subscription) :
    subscription.describe.vc = subscription.vc := rfl

/-- What a step gets from outside the stored subscription. -/
structure StepEnv where
  inventory : Inventory
  productTag : String
  /-- The value of `uuid4()`. -/
  uuid : String
  /-- The connection id a reserve is answered with. -/
  connectionId : String
  /-- The answer to `GET /reservations/{connectionId}`. -/
  reservation : AggregatorReservation

/-! ## Requests -/

structure P2ps where
  capacity : Int
  sourceStp : String
  destStp : String
  ero : Option (List String)
  deriving DecidableEq, Repr

structure ReserveBody where
  globalReservationId : String
  description : String
  p2ps : P2ps
  deriving DecidableEq, Repr

inductive Request where
  | reserve (body : ReserveBody)
  | provision (connectionId : String)
  | release (connectionId : String)
  | terminate (connectionId : Option String)
  deriving DecidableEq, Repr

/-- The body of `aggregator_proxy.reserve`; an empty ERO is not sent. -/
def reserve (globalReservationId description : String) (capacity : Int)
    (sourceStp destStp : String) (ero : List String) : ReserveBody where
  globalReservationId := globalReservationId
  description := description
  p2ps :=
    { capacity := capacity
      sourceStp := sourceStp
      destStp := destStp
      ero := if ero = [] then none else some ero }

/-- `"{sap.stp.stp_id}?vlan={sap.vlan}"`. -/
def sapEndpoint (sap : Sap) : String := s!"{sap.stpId}?vlan={sap.vlan}"

/-! ## Storing the input -/

/-- `stp_block_for`: the block of the first subscription with the id. -/
def stpBlockFor (stps : List Stp) (stpId : String) : Except PyError String :=
  match stps.find? fun stp => stp.stpId = stpId with
  | some stp => .ok stp.stpId
  | none => .error .assertionError

/-- The two access points of a submission. -/
def sapsFor (stps : List Stp) (input : ConnectionInput) : Except PyError (Sap × Sap) := do
  let source ← stpBlockFor stps input.sourceStp
  let destination ← stpBlockFor stps input.destinationStp
  pure (⟨toString input.sourceVlan, source⟩, ⟨toString input.destinationVlan, destination⟩)

def excludeConstraints (sdps : Dict String Sdp) (excludeSdps : List String) :
    Except PyError (List SdpConstraint) :=
  excludeSdps.mapM fun sdpId => do
    let sdp ← sdpBlockFor sdps sdpId
    pure ⟨.exclude, sdp, none⟩

def globalReservationId (uuid : String) : String := s!"urn:uuid:{uuid}"

theorem globalReservationId_injective : Function.Injective globalReservationId := by
  intro uuid uuid' h
  simpa [globalReservationId, toString] using h

def constructMdp2pModel (env : StepEnv) (submission : Submission) :
    Except PyError Subscription := do
  let input := submission.input
  let saps ← sapsFor env.inventory.stps input
  let included ← includeConstraints env.inventory.sdps input.includeSdps submission.path.sdpVlans
  let excluded ← excludeConstraints env.inventory.sdps input.excludeSdps
  let vc : Vc :=
    { circuitDescription := input.circuitDescription
      serviceSpeed := input.serviceSpeed
      saps := saps
      sdpConstraints := included ++ excluded
      state := ConnectionState.created
      globalReservationId := globalReservationId env.uuid
      connectionId := none
      lastError := none }
  pure (Subscription.describe ⟨.provisioning, env.productTag, vc, ""⟩)

/-- `update_subscription` of retry. -/
def updateSubscription (env : StepEnv) (submission : Submission) (subscription : Subscription) :
    Except PyError Subscription := do
  let input := submission.input
  let saps ← sapsFor env.inventory.stps input
  let included ← includeConstraints env.inventory.sdps input.includeSdps submission.path.sdpVlans
  let state ← apply subscription.vc.state .retry
  let vc : Vc :=
    { subscription.vc with
      circuitDescription := input.circuitDescription
      serviceSpeed := input.serviceSpeed
      saps := saps
      sdpConstraints := included
      state := state
      globalReservationId := globalReservationId env.uuid }
  pure (Subscription.describe { subscription with vc := vc })

theorem constructMdp2pModel_eq_ok {env : StepEnv} {submission : Submission} {t : Subscription} :
    constructMdp2pModel env submission = .ok t ↔
      ∃ saps included excluded,
        sapsFor env.inventory.stps submission.input = .ok saps ∧
        includeConstraints env.inventory.sdps submission.input.includeSdps
          submission.path.sdpVlans = .ok included ∧
        excludeConstraints env.inventory.sdps submission.input.excludeSdps = .ok excluded ∧
        t = Subscription.describe
          { lifecycle := .provisioning
            productTag := env.productTag
            vc :=
              { circuitDescription := submission.input.circuitDescription
                serviceSpeed := submission.input.serviceSpeed
                saps := saps
                sdpConstraints := included ++ excluded
                state := ConnectionState.created
                globalReservationId := globalReservationId env.uuid
                connectionId := none
                lastError := none }
            description := "" } := by
  simp only [constructMdp2pModel, bind_eq_ok, pure_eq_ok]
  grind

theorem updateSubscription_eq_ok {env : StepEnv} {submission : Submission} {s t : Subscription} :
    updateSubscription env submission s = .ok t ↔
      s.vc.state ∈ retryableStates ∧
      ∃ saps included,
        sapsFor env.inventory.stps submission.input = .ok saps ∧
        includeConstraints env.inventory.sdps submission.input.includeSdps
          submission.path.sdpVlans = .ok included ∧
        t = Subscription.describe
          { s with
            vc :=
              { s.vc with
                circuitDescription := submission.input.circuitDescription
                serviceSpeed := submission.input.serviceSpeed
                saps := saps
                sdpConstraints := included
                state := ConnectionState.created
                globalReservationId := globalReservationId env.uuid } } := by
  simp only [updateSubscription, bind_eq_ok, pure_eq_ok, apply_eq_ok, FsmEvent.transitions,
    retryableStates, List.mem_cons, Prod.mk.injEq, List.not_mem_nil, or_false]
  grind

/-- `update_subscription` of modify. -/
def updateCircuitDescription (circuitDescription : String) (subscription : Subscription) :
    Subscription :=
  { subscription with vc := { subscription.vc with circuitDescription := circuitDescription } }

/-- `set_status`: the active product requires a connection id. -/
def setStatus (lifecycle : Lifecycle) (subscription : Subscription) : Except PyError Subscription :=
  if lifecycle = .active ∧ subscription.vc.connectionId = none then
    .error (.valueError "connection_id: Input should be a valid string")
  else .ok { subscription with lifecycle := lifecycle }

theorem setStatus_eq_ok {lifecycle : Lifecycle} {s t : Subscription} :
    setStatus lifecycle s = .ok t ↔
      (lifecycle = .active → s.vc.connectionId ≠ none) ∧ t = { s with lifecycle := lifecycle } := by
  unfold setStatus
  grind

/-! ## Actions at the aggregator -/

/-- The request of `reserve_connection`. -/
def reserveRequest (ero : List String) (vc : Vc) : ReserveBody :=
  reserve vc.globalReservationId vc.circuitDescription vc.serviceSpeed (sapEndpoint vc.saps.1)
    (sapEndpoint vc.saps.2) ero

def reserveConnection (ero : List String) (connectionId : String) (subscription : Subscription) :
    Except PyError (Subscription × Request) :=
  .ok ({ subscription with vc := { subscription.vc with connectionId := some connectionId } },
    .reserve (reserveRequest ero subscription.vc))

/-- An action on the stored connection, which is asserted to be there. -/
def onConnection (request : String → Request) (subscription : Subscription) :
    Except PyError (Subscription × Request) :=
  match subscription.vc.connectionId with
  | some connectionId => .ok (subscription, request connectionId)
  | none => .error .assertionError

def provisionConnection : Subscription → Except PyError (Subscription × Request) :=
  onConnection .provision

def releaseConnection : Subscription → Except PyError (Subscription × Request) :=
  onConnection .release

/-- `terminate_connection` does not assert the connection id. -/
def terminateConnection (subscription : Subscription) : Except PyError (Subscription × Request) :=
  .ok (subscription, .terminate subscription.vc.connectionId)

/-! ## Callback results -/

structure CallbackResult where
  status : Option String
  lastError : Option String
  deriving DecidableEq, Repr

/-- A result whose status is the wanted one confirms the operation; any other fails it. -/
def processResult (wanted : String) (confirmed failed : FsmEvent) (result : CallbackResult)
    (subscription : Subscription) : Except PyError Subscription := do
  let status ← match result.status with
    | some status => .ok status
    | none => .error (.keyError "status")
  let state ← apply subscription.vc.state (if status = wanted then confirmed else failed)
  let lastError := if status = wanted then none else result.lastError
  pure (Subscription.describe
    { subscription with vc := { subscription.vc with state := state, lastError := lastError } })

theorem processResult_eq_ok {wanted : String} {confirmed failed : FsmEvent}
    {result : CallbackResult} {s t : Subscription} :
    processResult wanted confirmed failed result s = .ok t ↔
      ∃ status state, result.status = some status ∧
        (s.vc.state, state) ∈ (if status = wanted then confirmed else failed).transitions ∧
        t = Subscription.describe
          { s with
            vc :=
              { s.vc with
                state := state
                lastError := if status = wanted then none else result.lastError } } := by
  cases hstatus : result.status with
  | none => simp [processResult, hstatus, bind, Except.bind]
  | some status =>
      simp only [processResult, hstatus, bind_eq_ok, pure_eq_ok, apply_eq_ok, Except.ok.injEq,
        exists_eq_left', Option.some.injEq, exists_and_left]
      grind

def processReservationResult : CallbackResult → Subscription → Except PyError Subscription :=
  processResult ConnectionState.reserved .reserveConfirmed .reserveFailed

def processProvisionResult : CallbackResult → Subscription → Except PyError Subscription :=
  processResult ConnectionState.activated .provisionConfirmed .provisionFailed

def processReleaseResult : CallbackResult → Subscription → Except PyError Subscription :=
  processResult ConnectionState.reserved .releaseConfirmed .releaseFailed

/-- `process_terminate_result` of terminate: the status of the result is not read. -/
def processTerminateResult (_result : CallbackResult) (subscription : Subscription) :
    Except PyError Subscription := do
  let state ← apply subscription.vc.state .terminate
  pure (Subscription.describe { subscription with vc := { subscription.vc with state := state } })

theorem processTerminateResult_eq_ok (result : CallbackResult) {s t : Subscription} :
    processTerminateResult result s = .ok t ↔
      (s.vc.state = ConnectionState.reserved ∨ s.vc.state = ConnectionState.failed) ∧
        t = Subscription.describe
          { s with vc := { s.vc with state := ConnectionState.terminated } } := by
  simp only [processTerminateResult, bind_eq_ok, pure_eq_ok, apply_eq_ok, FsmEvent.transitions,
    List.mem_cons, Prod.mk.injEq, List.not_mem_nil, or_false]
  grind

/-- `process_terminate_result` of retry, which is not given the result. -/
def dropConnection (_result : CallbackResult) (subscription : Subscription) :
    Except PyError Subscription :=
  .ok { subscription with vc := { subscription.vc with connectionId := none } }

/-! ## Reconciliation -/

def reconcilableStates : List String :=
  [ConnectionState.reserved, ConnectionState.activated, ConnectionState.failed,
    ConnectionState.terminated]

def reconciledState (currentState aggregatorStatus : String) : Option String :=
  if aggregatorStatus ∈ reconcilableStates ∧ aggregatorStatus ≠ currentState then
    some aggregatorStatus
  else none

def reconcileConnectionState (reservation : AggregatorReservation) (subscription : Subscription) :
    Subscription :=
  let synced := match reconciledState subscription.vc.state reservation.status with
    | some newState =>
        Subscription.describe { subscription with vc := { subscription.vc with state := newState } }
    | none => subscription
  if reservation.status ∈ reconcilableStates then
    { synced with vc := { synced.vc with lastError := reservation.lastError } }
  else synced

/-- Reconcile writes the state, the last error and the description, and the state only to a
reconcilable one that was answered. -/
theorem reconcileConnectionState_eq (reservation : AggregatorReservation) (s : Subscription) :
    ∃ state lastError description,
      reconcileConnectionState reservation s =
        { s with
          description := description
          vc := { s.vc with state := state, lastError := lastError } } ∧
      (state = s.vc.state ∨ state = reservation.status ∧ state ∈ reconcilableStates) := by
  by_cases hdiffers : reservation.status ∈ reconcilableStates ∧ reservation.status ≠ s.vc.state
  · simp only [reconcileConnectionState, reconciledState, if_pos hdiffers, if_pos hdiffers.1]
    exact ⟨_, _, _, rfl, .inr ⟨rfl, hdiffers.1⟩⟩
  · simp only [reconcileConnectionState, reconciledState, if_neg hdiffers]
    split
    · exact ⟨_, _, _, rfl, .inl rfl⟩
    · exact ⟨_, _, _, rfl, .inl rfl⟩

end NsiOrchestrator.Mdp2p
