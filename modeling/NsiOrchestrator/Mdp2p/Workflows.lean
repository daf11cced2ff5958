import NsiOrchestrator.Lib.Transition
import NsiOrchestrator.Mdp2p.Steps

/-! # The workflows of a circuit

A workflow is a list of steps run one after the other by a process, of which a
subscription has at most one. A step that raises leaves the subscription as it was
and can be run again. A callback step sends its request, waits, and then handles the
result that was posted; until it is done it can be run again from its action.
-/

namespace NsiOrchestrator.Mdp2p

open Outcome Forms Vlans

/-! ## Steps and workflows -/

inductive Action where
  | reserveConnection (ero : List String)
  | provisionConnection
  | releaseConnection
  | terminateConnection
  deriving DecidableEq

inductive Handler where
  | processReservationResult
  | processProvisionResult
  | processReleaseResult
  | processTerminateResult
  | dropConnection
  deriving DecidableEq

/-- When a callback step is run rather than skipped. -/
inductive Condition where
  | always
  | hasConnection
  | stillAtAggregator
  deriving DecidableEq

inductive Step where
  | constructMdp2pModel (submission : Submission)
  | setStatus (lifecycle : Lifecycle)
  | callbackStep (condition : Condition) (action : Action) (handler : Handler)
  | updateSubscription (submission : Submission)
  | updateCircuitDescription (circuitDescription : String)
  | updateSubscriptionDescription
  | reconcileConnectionState
  deriving DecidableEq

inductive Workflow where
  | create (submission : Submission)
  | modify (circuitDescription : String)
  | provision
  | release
  | retryReservation (submission : Submission)
  | reconcile
  | terminate
  deriving DecidableEq

/-- The steps of a workflow. A create ends active and a terminate ends terminated. -/
def Workflow.steps : Workflow → List Step
  | create submission =>
      [.constructMdp2pModel submission,
        .callbackStep .always (.reserveConnection submission.path.ero) .processReservationResult,
        .setStatus .active]
  | modify circuitDescription =>
      [.setStatus .provisioning, .updateCircuitDescription circuitDescription,
        .updateSubscriptionDescription, .setStatus .active]
  | provision =>
      [.setStatus .provisioning,
        .callbackStep .always .provisionConnection .processProvisionResult, .setStatus .active]
  | release =>
      [.setStatus .provisioning, .callbackStep .always .releaseConnection .processReleaseResult,
        .setStatus .active]
  | retryReservation submission =>
      [.setStatus .provisioning, .callbackStep .hasConnection .terminateConnection .dropConnection,
        .updateSubscription submission,
        .callbackStep .always (.reserveConnection submission.path.ero) .processReservationResult,
        .setStatus .active]
  | reconcile => [.reconcileConnectionState]
  | terminate =>
      [.callbackStep .stillAtAggregator .terminateConnection .processTerminateResult,
        .setStatus .terminated]

def terminableStates : List String :=
  [ConnectionState.reserved, ConnectionState.failed, ConnectionState.terminated]

/-- The state check of a workflow's input form, with its message. -/
def Workflow.gate (workflow : Workflow) (vc : Vc) : Except PyError Unit :=
  match workflow with
  | provision => raiseIf (vc.state ≠ ConnectionState.reserved)
      (.formValidation ("Connection must be RESERVED to provision, not " ++ vc.state))
  | release => raiseIf (vc.state ≠ ConnectionState.activated)
      (.formValidation ("Connection must be ACTIVATED to release, not " ++ vc.state))
  | terminate => raiseIf (vc.state ∉ terminableStates)
      (.formValidation ("Connection must be RESERVED, FAILED or TERMINATED to terminate, not " ++
        vc.state ++ "; release it first"))
  | retryReservation _ => raiseIf (vc.state ∉ retryableStates)
      (.formValidation
        ("Only a connection that holds no reservation can be retried, and this one is " ++
          vc.state ++
          "; release or terminate it instead"))
  | _ => .ok ()

/-- Create starts without a subscription; every other workflow on an active one. -/
def Workflow.start (workflow : Workflow) (subscription : Option Subscription) :
    Option (Except PyError Unit) :=
  match workflow, subscription with
  | create _, none => some (.ok ())
  | create _, some _ => none
  | _, none => none
  | workflow, some subscription =>
      if subscription.lifecycle = .active then some (workflow.gate subscription.vc) else none

theorem Workflow.start_ok {workflow : Workflow} {before : Option Subscription}
    (h : workflow.start before = some (.ok ())) :
    (∃ submission, workflow = .create submission ∧ before = none) ∨
      ∃ s, before = some s ∧ (∀ submission, workflow ≠ .create submission) ∧
        s.lifecycle = .active ∧ workflow.gate s.vc = .ok () := by
  cases before with
  | none =>
      cases workflow with
      | create submission => exact .inl ⟨submission, rfl, rfl⟩
      | _ => cases h
  | some s =>
      cases workflow with
      | create submission => cases h
      | _ =>
          simp only [start, Option.ite_none_right_eq_some] at h
          exact .inr ⟨s, rfl, by simp, h.1, Option.some.inj h.2⟩

/-! ## Running a step -/

def Condition.holds (condition : Condition) (vc : Vc) : Bool :=
  match condition with
  | always => true
  | hasConnection => (truthy vc.connectionId).isSome
  | stillAtAggregator => vc.state ≠ ConnectionState.terminated

def Action.perform (action : Action) (connectionId : String) :
    Subscription → Except PyError (Subscription × Request) :=
  match action with
  | reserveConnection ero => Mdp2p.reserveConnection ero connectionId
  | provisionConnection => Mdp2p.provisionConnection
  | releaseConnection => Mdp2p.releaseConnection
  | terminateConnection => Mdp2p.terminateConnection

def Handler.process : Handler → CallbackResult → Subscription → Except PyError Subscription
  | processReservationResult => Mdp2p.processReservationResult
  | processProvisionResult => Mdp2p.processProvisionResult
  | processReleaseResult => Mdp2p.processReleaseResult
  | processTerminateResult => Mdp2p.processTerminateResult
  | dropConnection => Mdp2p.dropConnection

inductive StepResult where
  | done (subscription : Subscription)
  | awaiting (subscription : Subscription) (request : Request)

/-- Runs a step up to its end, or up to the wait of a callback step. -/
def Step.run (env : StepEnv) (step : Step) (subscription : Option Subscription) :
    Except PyError StepResult :=
  match step, subscription with
  | constructMdp2pModel submission, _ => do
      let created ← Mdp2p.constructMdp2pModel env submission
      pure (.done created)
  | _, none => .error (.keyError "subscription")
  | setStatus lifecycle, some subscription => do
      let changed ← Mdp2p.setStatus lifecycle subscription
      pure (.done changed)
  | callbackStep condition action _, some subscription =>
      if condition.holds subscription.vc then do
        let (sent, request) ← action.perform env.connectionId subscription
        pure (.awaiting sent request)
      else pure (.done subscription)
  | updateSubscription submission, some subscription => do
      let updated ← Mdp2p.updateSubscription env submission subscription
      pure (.done updated)
  | updateCircuitDescription circuitDescription, some subscription =>
      pure (.done (Mdp2p.updateCircuitDescription circuitDescription subscription))
  | updateSubscriptionDescription, some subscription => pure (.done subscription.describe)
  | reconcileConnectionState, some subscription =>
      pure (.done (Mdp2p.reconcileConnectionState env.reservation subscription))

/-! ## Everything a step can do -/

/-- The steps that end without sending a request, one constructor for each way. -/
inductive Step.Done (env : StepEnv) : Step → Option Subscription → Subscription → Prop where
  | constructed {submission : Submission} {before : Option Subscription} {t : Subscription} :
      Mdp2p.constructMdp2pModel env submission = .ok t →
      Done env (.constructMdp2pModel submission) before t
  | statusSet {lifecycle : Lifecycle} {s : Subscription} :
      (lifecycle = .active → s.vc.connectionId ≠ none) →
      Done env (.setStatus lifecycle) (some s) { s with lifecycle := lifecycle }
  | skipped {condition : Condition} {action : Action} {handler : Handler} {s : Subscription} :
      condition.holds s.vc = false → Done env (.callbackStep condition action handler) (some s) s
  | updated {submission : Submission} {s t : Subscription} :
      Mdp2p.updateSubscription env submission s = .ok t →
      Done env (.updateSubscription submission) (some s) t
  | described {circuitDescription : String} {s : Subscription} :
      Done env (.updateCircuitDescription circuitDescription) (some s)
        (Mdp2p.updateCircuitDescription circuitDescription s)
  | redescribed {s : Subscription} : Done env .updateSubscriptionDescription (some s) s.describe
  | reconciled {s : Subscription} :
      Done env .reconcileConnectionState (some s)
        (Mdp2p.reconcileConnectionState env.reservation s)

theorem Step.done_of_run {env : StepEnv} {step : Step} {before : Option Subscription}
    {t : Subscription} (h : step.run env before = .ok (.done t)) : step.Done env before t := by
  have hconstruct : ∀ submission,
      Step.run env (.constructMdp2pModel submission) before = .ok (.done t) →
        Step.Done env (.constructMdp2pModel submission) before t := by
    intro submission h
    simp only [run, bind_eq_ok, pure_eq_ok] at h
    obtain ⟨_, hcreated, h⟩ := h
    cases h
    exact .constructed hcreated
  cases before with
  | none =>
      cases step with
      | constructMdp2pModel submission => exact hconstruct submission h
      | _ => cases h
  | some s =>
      cases step with
      | constructMdp2pModel submission => exact hconstruct submission h
      | setStatus lifecycle =>
          simp only [run, bind_eq_ok, setStatus_eq_ok, pure_eq_ok] at h
          obtain ⟨_, ⟨hconnection, rfl⟩, h⟩ := h
          cases h
          exact .statusSet hconnection
      | callbackStep condition action handler =>
          simp only [run] at h
          split at h
          · simp only [bind_eq_ok, pure_eq_ok] at h
            obtain ⟨_, _, h⟩ := h
            cases h
          · next hholds =>
              cases h
              exact .skipped (Bool.eq_false_iff.mpr hholds)
      | updateSubscription submission =>
          simp only [run, bind_eq_ok, pure_eq_ok] at h
          obtain ⟨_, hupdated, h⟩ := h
          cases h
          exact .updated hupdated
      | updateCircuitDescription circuitDescription =>
          cases h
          exact .described
      | updateSubscriptionDescription =>
          cases h
          exact .redescribed
      | reconcileConnectionState =>
          cases h
          exact .reconciled

/-- Only a callback step that is not skipped sends a request. -/
theorem Step.run_awaiting {env : StepEnv} {step : Step} {before : Option Subscription}
    {t : Subscription} {request : Request} (h : step.run env before = .ok (.awaiting t request)) :
    ∃ condition action handler s, step = .callbackStep condition action handler ∧
      before = some s ∧ condition.holds s.vc ∧
      action.perform env.connectionId s = .ok (t, request) := by
  have hconstruct : ∀ submission,
      Step.run env (.constructMdp2pModel submission) before ≠ .ok (.awaiting t request) := by
    simp [run, map_eq_ok]
  cases before with
  | none =>
      cases step with
      | constructMdp2pModel submission => exact absurd h (hconstruct submission)
      | _ => cases h
  | some s =>
      cases step with
      | constructMdp2pModel submission => exact absurd h (hconstruct submission)
      | callbackStep condition action handler =>
          simp only [run] at h
          split at h
          · next hholds =>
              simp only [bind_eq_ok, pure_eq_ok] at h
              obtain ⟨_, hperform, h⟩ := h
              cases h
              exact ⟨condition, action, handler, s, rfl, rfl, hholds, hperform⟩
          · cases h
      | setStatus | updateSubscription =>
          simp only [run, bind_eq_ok, pure_eq_ok] at h
          obtain ⟨_, _, h⟩ := h
          cases h
      | _ => cases h

/-- What an action does when it does not raise, one constructor for each action. -/
inductive Action.Performed (connectionId : String) (s : Subscription) :
    Action → Subscription → Request → Prop where
  | reserved {ero : List String} :
      Performed connectionId s (.reserveConnection ero)
        { s with vc := { s.vc with connectionId := some connectionId } }
        (.reserve (reserveRequest ero s.vc))
  | provisioned {stored : String} : s.vc.connectionId = some stored →
      Performed connectionId s .provisionConnection s (.provision stored)
  | released {stored : String} : s.vc.connectionId = some stored →
      Performed connectionId s .releaseConnection s (.release stored)
  | terminated :
      Performed connectionId s .terminateConnection s (.terminate s.vc.connectionId)

theorem Action.performed_of_perform {action : Action} {connectionId : String}
    {s t : Subscription} {request : Request}
    (h : action.perform connectionId s = .ok (t, request)) :
    action.Performed connectionId s t request := by
  cases action with
  | reserveConnection ero =>
      cases h
      exact .reserved
  | provisionConnection =>
      simp only [perform, Mdp2p.provisionConnection, onConnection] at h
      split at h
      · next hstored =>
          cases h
          exact .provisioned hstored
      · cases h
  | releaseConnection =>
      simp only [perform, Mdp2p.releaseConnection, onConnection] at h
      split at h
      · next hstored =>
          cases h
          exact .released hstored
      · cases h
  | terminateConnection =>
      cases h
      exact .terminated

theorem Handler.process_frame {handler : Handler} {result : CallbackResult} {s t : Subscription}
    (h : handler.process result s = .ok t) :
    ∃ state lastError connectionId description,
      t = { s with
        description := description
        vc :=
          { s.vc with state := state, lastError := lastError, connectionId := connectionId } } := by
  cases handler with
  | processTerminateResult =>
      obtain ⟨_, rfl⟩ := (processTerminateResult_eq_ok result).mp h
      exact ⟨_, _, _, _, rfl⟩
  | dropConnection =>
      cases h
      exact ⟨_, _, _, _, rfl⟩
  | _ =>
      obtain ⟨_, _, _, _, rfl⟩ := processResult_eq_ok.mp h
      exact ⟨_, _, _, _, rfl⟩

/-! ## A circuit and its process -/

inductive Phase where
  | ready
  | awaiting
  | received (result : CallbackResult)
  deriving DecidableEq

structure Process where
  /-- The number of the run, for telling runs apart. -/
  run : ℕ
  workflow : Workflow
  remaining : List Step
  phase : Phase
  deriving DecidableEq

structure Machine where
  subscription : Option Subscription
  process : Option Process
  deriving DecidableEq

def Machine.blank : Machine := ⟨none, none⟩

inductive Event where
  | start (workflow : Workflow) (run : ℕ)
  /-- The next step runs; a callback step runs up to its wait, or handles its result. -/
  | run (env : StepEnv)
  /-- The next step sends its request and then fails. -/
  | failAfterSending (env : StepEnv)
  | callback (result : CallbackResult)
  /-- A callback step that timed out or failed is run again from its action. -/
  | refire
  | abort

def Process.advance (process : Process) : Option Process :=
  match process.remaining.tail with
  | [] => none
  | rest => some { process with remaining := rest, phase := .ready }

structure Process.Advanced (p q : Process) : Prop where
  run : q.run = p.run
  workflow : q.workflow = p.workflow
  remaining : q.remaining = p.remaining.tail
  phase : q.phase = .ready

theorem Process.advance_eq_some {p q : Process} (h : p.advance = some q) : p.Advanced q := by
  unfold advance at h
  split at h
  · cases h
  · cases h
    exact ⟨rfl, rfl, rfl, rfl⟩

/-- What an event does: nothing when it cannot occur, else what the step raises, or the
machine after it with the requests that were sent. -/
def Machine.next (m : Machine) (event : Event) : Option (Except PyError (Machine × List Request)) :=
  match event, m.process with
  | .start workflow run, none =>
      (workflow.start m.subscription).map fun gate => do
        gate
        pure ({ m with process := some ⟨run, workflow, workflow.steps, .ready⟩ }, [])
  | .run env, some process =>
      match process.phase, process.remaining with
      | .ready, step :: _ => some do
          match ← step.run env m.subscription with
          | .done subscription => pure (⟨some subscription, process.advance⟩, [])
          | .awaiting subscription request =>
              pure (⟨some subscription, some { process with phase := .awaiting }⟩, [request])
      | .received result, .callbackStep _ _ handler :: _ =>
          m.subscription.map fun subscription => do
            let processed ← handler.process result subscription
            pure (⟨some processed, process.advance⟩, [])
      | _, _ => none
  | .failAfterSending env, some process =>
      match process.phase, process.remaining with
      | .ready, step :: _ =>
          match step.run env m.subscription with
          | .ok (.awaiting _ request) => some (.ok (m, [request]))
          | _ => none
      | _, _ => none
  | .callback result, some process =>
      if process.phase = .awaiting then
        some (.ok ({ m with process := some { process with phase := .received result } }, []))
      else none
  | .refire, some process =>
      if process.phase = .ready then none
      else some (.ok ({ m with process := some { process with phase := .ready } }, []))
  | .abort, some _ => some (.ok ({ m with process := none }, []))
  | _, _ => none

/-! ## Everything an event can do -/

/-- The events that occur without raising, one constructor for each way. -/
inductive Fires : Machine → Event → Machine → List Request → Prop where
  | start {subscription : Option Subscription} {workflow : Workflow} {run : ℕ} :
      workflow.start subscription = some (.ok ()) →
      Fires ⟨subscription, none⟩ (.start workflow run)
        ⟨subscription, some ⟨run, workflow, workflow.steps, .ready⟩⟩ []
  | done {subscription : Option Subscription} {run : ℕ} {workflow : Workflow} {step : Step}
      {rest : List Step} {env : StepEnv} {after : Subscription} :
      step.run env subscription = .ok (.done after) →
      Fires ⟨subscription, some ⟨run, workflow, step :: rest, .ready⟩⟩ (.run env)
        ⟨some after, Process.advance ⟨run, workflow, step :: rest, .ready⟩⟩ []
  | sent {subscription : Option Subscription} {run : ℕ} {workflow : Workflow} {step : Step}
      {rest : List Step} {env : StepEnv} {after : Subscription} {request : Request} :
      step.run env subscription = .ok (.awaiting after request) →
      Fires ⟨subscription, some ⟨run, workflow, step :: rest, .ready⟩⟩ (.run env)
        ⟨some after, some ⟨run, workflow, step :: rest, .awaiting⟩⟩ [request]
  | handled {subscription after : Subscription} {run : ℕ} {workflow : Workflow}
      {condition : Condition} {action : Action} {handler : Handler} {rest : List Step}
      {result : CallbackResult} {env : StepEnv} :
      handler.process result subscription = .ok after →
      Fires ⟨some subscription, some ⟨run, workflow, .callbackStep condition action handler :: rest,
          .received result⟩⟩ (.run env)
        ⟨some after, Process.advance ⟨run, workflow, .callbackStep condition action handler :: rest,
          .received result⟩⟩ []
  | failed {subscription : Option Subscription} {run : ℕ} {workflow : Workflow} {step : Step}
      {rest : List Step} {env : StepEnv} {after : Subscription} {request : Request} :
      step.run env subscription = .ok (.awaiting after request) →
      Fires ⟨subscription, some ⟨run, workflow, step :: rest, .ready⟩⟩ (.failAfterSending env)
        ⟨subscription, some ⟨run, workflow, step :: rest, .ready⟩⟩ [request]
  | delivered {subscription : Option Subscription} {run : ℕ} {workflow : Workflow}
      {remaining : List Step} {result : CallbackResult} :
      Fires ⟨subscription, some ⟨run, workflow, remaining, .awaiting⟩⟩ (.callback result)
        ⟨subscription, some ⟨run, workflow, remaining, .received result⟩⟩ []
  | refired {subscription : Option Subscription} {run : ℕ} {workflow : Workflow}
      {remaining : List Step} {phase : Phase} : phase ≠ .ready →
      Fires ⟨subscription, some ⟨run, workflow, remaining, phase⟩⟩ .refire
        ⟨subscription, some ⟨run, workflow, remaining, .ready⟩⟩ []
  | aborted {subscription : Option Subscription} {process : Process} :
      Fires ⟨subscription, some process⟩ .abort ⟨subscription, none⟩ []

theorem fires_of_next {m m' : Machine} {event : Event} {sent : List Request}
    (h : m.next event = some (.ok (m', sent))) : Fires m event m' sent := by
  obtain ⟨subscription, process⟩ := m
  cases process with
  | none =>
      cases event with
      | start workflow run =>
          obtain ⟨gate, hgate, h⟩ := Option.map_eq_some_iff.mp h
          obtain ⟨_, rfl, h⟩ := bind_eq_ok.mp h
          cases pure_eq_ok.mp h
          exact .start hgate
      | _ => cases h
  | some process =>
      obtain ⟨run, workflow, remaining, phase⟩ := process
      cases event with
      | start workflow run => cases h
      | run env =>
          rcases phase with _ | _ | result
          · rcases remaining with _ | ⟨step, rest⟩
            · cases h
            · obtain ⟨result, hrun, h⟩ := bind_eq_ok.mp (Option.some.inj h)
              rcases result with after | ⟨after, request⟩
              · cases pure_eq_ok.mp h
                exact .done hrun
              · cases pure_eq_ok.mp h
                exact .sent hrun
          · cases h
          · rcases remaining with _ | ⟨step, rest⟩
            · cases h
            · cases step with
              | callbackStep condition action handler =>
                  obtain ⟨before, hsub, h⟩ := Option.map_eq_some_iff.mp h
                  obtain ⟨after, hprocess, h⟩ := bind_eq_ok.mp h
                  cases pure_eq_ok.mp h
                  cases hsub
                  exact .handled hprocess
              | _ => cases h
      | failAfterSending env =>
          rcases phase with _ | _ | result
          · rcases remaining with _ | ⟨step, rest⟩
            · cases h
            · simp only [Machine.next] at h
              split at h
              · next hrun =>
                  cases h
                  exact .failed hrun
              · cases h
          · cases h
          · cases h
      | callback result =>
          simp only [Machine.next] at h
          split at h
          · next hphase =>
              cases hphase
              cases h
              exact .delivered
          · cases h
      | refire =>
          simp only [Machine.next] at h
          split at h
          · cases h
          · next hphase =>
              cases h
              exact .refired hphase
      | abort =>
          cases h
          exact .aborted

/-- One circuit, from before its create. -/
def circuit : Transition.System Machine Event where
  init m := m = Machine.blank
  step m event m' := ∃ sent, m.next event = some (.ok (m', sent))

/-! ## Following a list of events -/

def Machine.fire (m : Machine) (event : Event) : Option Machine :=
  match m.next event with
  | some (.ok (m', _)) => some m'
  | _ => none

theorem Machine.fire_eq_some {m m' : Machine} {event : Event} :
    m.fire event = some m' ↔ ∃ sent, m.next event = some (.ok (m', sent)) := by
  unfold fire
  grind

/-! ## A circuit over the line of two networks -/

def lineEnv : StepEnv where
  inventory := lineInventory
  productTag := "MDP2P"
  uuid := "1"
  connectionId := "c"
  reservation := ⟨"c", "RESERVED", some (globalReservationId "1"), none, none, none⟩

def createRun (env : StepEnv) (submission : Submission) (result : CallbackResult) : List Event :=
  [.start (.create submission) 0, .run env, .run env, .callback result, .run env, .run env]

def lineCreate : List Event :=
  createRun lineEnv lineSubmission ⟨some ConnectionState.reserved, none⟩

def lineCircuit : Machine := (lineCreate.foldlM Machine.fire Machine.blank).getD Machine.blank

theorem lineCreate_fires : lineCreate.foldlM Machine.fire Machine.blank = some lineCircuit := by
  decide +kernel

end NsiOrchestrator.Mdp2p
