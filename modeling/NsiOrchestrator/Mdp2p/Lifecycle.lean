import NsiOrchestrator.Mdp2p.Workflows

/-! # The lifecycle of a circuit

What each step relies on and what it leaves behind, from which every run of a circuit
keeps its state known and its requests in turn. `answers` relates a global reservation
id to the connection ids a reserve under it may be answered with.
-/

namespace NsiOrchestrator.Mdp2p

open Outcome Forms Vlans Transition

/-- What the aggregator may be sent in the state of a circuit. -/
def Allowed (vc : Vc) : Request → Prop
  | .reserve _ => True
  | .provision _ => vc.state = ConnectionState.reserved
  | .release _ => vc.state = ConnectionState.activated
  | .terminate _ => vc.state ≠ ConnectionState.activated

/-- What holds of a subscription between steps. -/
structure Resting (subscription : Subscription) : Prop where
  known : subscription.vc.state ∈ ConnectionState.all
  active : subscription.lifecycle = .active →
    subscription.vc.state ≠ ConnectionState.created ∧ ∃ c, subscription.vc.connectionId = some c

/-! ## Preconditions and postconditions -/

section Rules

variable (answers : String → String → Prop)

/-- The connection id a reserve step has stored on an earlier try. -/
def Answered (subscription : Subscription) : Prop :=
  ∀ c, subscription.vc.connectionId = some c → c ≠ "" →
    answers subscription.vc.globalReservationId c

def Action.Pre (action : Action) (subscription : Subscription) : Prop :=
  match action with
  | reserveConnection _ => Answered answers subscription
  | provisionConnection => subscription.vc.state = ConnectionState.reserved
  | releaseConnection => subscription.vc.state = ConnectionState.activated
  | terminateConnection => subscription.vc.state ≠ ConnectionState.activated

def Handler.Pre (handler : Handler) (subscription : Subscription) : Prop :=
  match handler with
  | processReservationResult => subscription.vc.state = ConnectionState.created
  | processProvisionResult => subscription.vc.state = ConnectionState.reserved
  | processReleaseResult => subscription.vc.state = ConnectionState.activated
  | processTerminateResult =>
      subscription.vc.state = ConnectionState.reserved ∨
        subscription.vc.state = ConnectionState.failed
  | dropConnection => subscription.lifecycle ≠ .active

def Handler.Post (handler : Handler) (before after : Subscription) : Prop :=
  match handler with
  | processTerminateResult => after.vc.state = ConnectionState.terminated
  | dropConnection =>
      after.lifecycle = before.lifecycle ∧ after.vc.state = before.vc.state ∧
        after.vc.connectionId = none
  | _ => after.vc.state ≠ ConnectionState.created

/-- A callback step that is sometimes skipped only ever terminates. -/
def Step.Pre (step : Step) (subscription : Option Subscription) : Prop :=
  match step, subscription with
  | constructMdp2pModel _, before => before = none
  | setStatus lifecycle, some s => lifecycle = .active → s.vc.state ≠ ConnectionState.created
  | callbackStep condition action handler, some s =>
      (condition = .always ∨ action = .terminateConnection) ∧
        (condition.holds s.vc → action.Pre answers s ∧ handler.Pre s)
  | updateSubscription _, some s =>
      s.lifecycle ≠ .active ∧ s.vc.state ∈ retryableStates ∧ truthy s.vc.connectionId = none
  | _, some _ => True
  | _, none => False

def Step.Post (step : Step) (before after : Option Subscription) : Prop :=
  match step, before, after with
  | constructMdp2pModel _, _, some t =>
      t.vc.state = ConnectionState.created ∧ t.vc.connectionId = none
  | setStatus lifecycle, some s, some t => t = { s with lifecycle := lifecycle }
  | callbackStep condition _ handler, some s, some t =>
      if condition.holds s.vc then handler.Post s t else t = s
  | updateSubscription _, some s, some t =>
      t.vc.state = ConnectionState.created ∧ t.vc.connectionId = s.vc.connectionId
  | updateCircuitDescription _, some s, some t | updateSubscriptionDescription, some s, some t =>
      t.vc.state = s.vc.state
  | reconcileConnectionState, _, some _ => True
  | _, _, _ => False

/-- A process that waits or has a result is at a callback step that is not skipped. -/
def AtCallback (remaining : List Step) (subscription : Option Subscription) : Prop :=
  ∃ condition action handler rest s,
    remaining = .callbackStep condition action handler :: rest ∧ subscription = some s ∧
      condition.holds s.vc

structure Inv (m : Machine) : Prop where
  resting : ∀ s, m.subscription = some s → Resting s
  plan : ∀ p, m.process = some p → Plan (Step.Pre answers) Step.Post p.remaining m.subscription
  sent : ∀ p, m.process = some p → p.phase ≠ .ready → AtCallback p.remaining m.subscription

/-- The reserve of a run event is answered as the aggregator answers it. -/
def AnswersReserve (m : Machine) (event : Event) : Prop :=
  ∀ env p s condition ero handler rest,
    event = .run env → m.process = some p → m.subscription = some s →
    p.remaining = .callbackStep condition (.reserveConnection ero) handler :: rest →
      answers s.vc.globalReservationId env.connectionId

end Rules

/-! ## What each step raises -/

/-- The error of an event that is illegal in the current state. -/
def Illegal (e : PyError) : Prop := ∃ event state, e = .transitionNotAllowed event state

theorem sapsFor_legal {stps : List Stp} {input : ConnectionInput} {e : PyError}
    (h : sapsFor stps input = .error e) : ¬ Illegal e := by
  have hblock : ∀ stpId, stpBlockFor stps stpId = .error e → ¬ Illegal e := by
    rintro stpId h ⟨event, state, rfl⟩
    unfold stpBlockFor at h
    split at h <;> cases h
  simp only [sapsFor, bind_eq_error, pure_ne_error, and_false, exists_false, or_false] at h
  rcases h with h | ⟨_, _, h⟩
  · exact hblock _ h
  · exact hblock _ h

theorem sdpBlockFor_legal {sdps : Dict String Sdp} {subscriptionId : String} {e : PyError}
    (h : sdpBlockFor sdps subscriptionId = .error e) : ¬ Illegal e := by
  rintro ⟨event, state, rfl⟩
  unfold sdpBlockFor at h
  split at h <;> cases h

theorem includeConstraints_legal {sdps : Dict String Sdp} {includeSdps : List String}
    {sdpVlans : SdpVlans} {e : PyError}
    (h : includeConstraints sdps includeSdps sdpVlans = .error e) :
    ¬ Illegal e := by
  obtain ⟨sdpId, _, h⟩ := exists_of_mapM_error h
  simp only [bind_eq_error, pure_ne_error, and_false, exists_false, or_false] at h
  exact sdpBlockFor_legal h

theorem constructMdp2pModel_legal {env : StepEnv} {submission : Submission} {e : PyError}
    (h : constructMdp2pModel env submission = .error e) : ¬ Illegal e := by
  simp only [constructMdp2pModel, bind_eq_error, pure_ne_error, and_false, exists_false,
    or_false] at h
  rcases h with h | ⟨_, _, h | ⟨_, _, h⟩⟩
  · exact sapsFor_legal h
  · exact includeConstraints_legal h
  · obtain ⟨sdpId, _, h⟩ := exists_of_mapM_error h
    simp only [bind_eq_error, pure_ne_error, and_false, exists_false, or_false] at h
    exact sdpBlockFor_legal h

theorem updateSubscription_legal {env : StepEnv} {submission : Submission} {s : Subscription}
    {e : PyError} (hstate : s.vc.state ∈ retryableStates)
    (h : updateSubscription env submission s = .error e) : ¬ Illegal e := by
  have happly : apply s.vc.state .retry = .ok ConnectionState.created := by
    rw [apply_eq_ok]
    simp only [retryableStates, List.mem_cons, List.not_mem_nil, or_false] at hstate
    rcases hstate with hstate | hstate <;> simp [hstate, FsmEvent.transitions]
  simp only [updateSubscription, happly, bind_eq_error, pure_ne_error, and_false, exists_false,
    or_false, reduceCtorEq] at h
  rcases h with h | ⟨_, _, h⟩
  · exact sapsFor_legal h
  · exact includeConstraints_legal h

theorem processResult_error {wanted : String} {confirmed failed : FsmEvent}
    {result : CallbackResult} {s : Subscription} {e : PyError}
    (hconfirmed : ∃ target, (s.vc.state, target) ∈ confirmed.transitions)
    (hfailed : ∃ target, (s.vc.state, target) ∈ failed.transitions)
    (h : processResult wanted confirmed failed result s = .error e) : e = .keyError "status" := by
  unfold processResult at h
  cases hstatus : result.status with
  | none =>
      rw [hstatus] at h
      exact (Except.error.inj h).symm
  | some status =>
      have happly : ∃ state,
          apply s.vc.state (if status = wanted then confirmed else failed) = .ok state := by
        split
        · exact hconfirmed.imp fun _ => apply_eq_ok.mpr
        · exact hfailed.imp fun _ => apply_eq_ok.mpr
      obtain ⟨state, happly⟩ := happly
      simp only [hstatus, bind_eq_error, reduceCtorEq, false_or, happly, Except.ok.injEq,
        exists_eq_left', pure_ne_error] at h

theorem Handler.process_legal {handler : Handler} {result : CallbackResult} {s : Subscription}
    {e : PyError} (hpre : handler.Pre s) (h : handler.process result s = .error e) :
    ¬ Illegal e := by
  have hkey : ∀ {key}, e = .keyError key → ¬ Illegal e := by
    rintro key rfl ⟨event, state, he⟩
    cases he
  cases handler with
  | processReservationResult =>
      have hpre : s.vc.state = _ := hpre
      exact hkey (processResult_error (by simp [hpre, FsmEvent.transitions])
        (by simp [hpre, FsmEvent.transitions]) h)
  | processProvisionResult =>
      have hpre : s.vc.state = _ := hpre
      exact hkey (processResult_error (by simp [hpre, FsmEvent.transitions])
        (by simp [hpre, FsmEvent.transitions]) h)
  | processReleaseResult =>
      have hpre : s.vc.state = _ := hpre
      exact hkey (processResult_error (by simp [hpre, FsmEvent.transitions])
        (by simp [hpre, FsmEvent.transitions]) h)
  | processTerminateResult =>
      have happly : apply s.vc.state .terminate = .ok ConnectionState.terminated := by
        rw [apply_eq_ok]
        rcases hpre with hpre | hpre <;> simp [hpre, FsmEvent.transitions]
      simp only [process, Mdp2p.processTerminateResult, bind_eq_error, happly, reduceCtorEq,
        pure_ne_error, and_false, exists_false, or_false] at h
  | dropConnection => cases h

theorem Step.run_legal {answers : String → String → Prop} {env : StepEnv} {step : Step}
    {before : Option Subscription} {e : PyError} (hpre : step.Pre answers before)
    (h : step.run env before = .error e) : ¬ Illegal e := by
  cases before with
  | none =>
      cases step with
      | constructMdp2pModel submission =>
          simp only [run, bind_eq_error, pure_ne_error, and_false, exists_false, or_false] at h
          exact constructMdp2pModel_legal h
      | _ => exact absurd hpre (by simp [Step.Pre])
  | some s =>
      cases step with
      | constructMdp2pModel submission =>
          simp only [run, bind_eq_error, pure_ne_error, and_false, exists_false, or_false] at h
          exact constructMdp2pModel_legal h
      | setStatus lifecycle =>
          rintro ⟨event, state, rfl⟩
          simp only [run, bind_eq_error, pure_ne_error, and_false, exists_false, or_false] at h
          unfold Mdp2p.setStatus at h
          split at h <;> cases h
      | callbackStep condition action handler =>
          rintro ⟨event, state, rfl⟩
          simp only [run] at h
          split at h
          · simp only [bind_eq_error, pure_ne_error, and_false, exists_false, or_false] at h
            cases action with
            | provisionConnection | releaseConnection =>
                simp only [Action.perform, Mdp2p.provisionConnection, Mdp2p.releaseConnection,
                  onConnection] at h
                split at h <;> cases h
            | _ => cases h
          · cases h
      | updateSubscription submission =>
          simp only [run, bind_eq_error, pure_ne_error, and_false, exists_false, or_false] at h
          exact updateSubscription_legal hpre.2.1 h
      | _ => cases h

/-! ## What each step leaves behind -/

theorem Resting.moved {s t : Subscription} (hrest : Resting s)
    (hlifecycle : t.lifecycle = s.lifecycle)
    (hconnection : t.vc.connectionId = s.vc.connectionId)
    (hknown : t.vc.state ∈ ConnectionState.all) (hstate : t.vc.state ≠ ConnectionState.created) :
    Resting t where
  known := hknown
  active hactive := by
    obtain ⟨_, hc⟩ := hrest.active (hlifecycle ▸ hactive)
    exact ⟨hstate, hconnection ▸ hc⟩

theorem processResult_resting {wanted : String} {confirmed failed : FsmEvent}
    {result : CallbackResult} {s t : Subscription} (hconfirmed : confirmed ≠ .retry)
    (hfailed : failed ≠ .retry) (hrest : Resting s)
    (h : processResult wanted confirmed failed result s = .ok t) :
    t.vc.state ≠ ConnectionState.created ∧ Resting t := by
  obtain ⟨status, state, _, htransition, rfl⟩ := processResult_eq_ok.mp h
  have hretry : (if status = wanted then confirmed else failed) ≠ .retry := by
    split <;> assumption
  have hstate := FsmEvent.transitions_advance hretry htransition
  exact ⟨hstate, hrest.moved rfl rfl (FsmEvent.transitions_known _ htransition).2 hstate⟩

theorem Handler.process_spec {handler : Handler} {result : CallbackResult} {s t : Subscription}
    (hrest : Resting s) (hpre : handler.Pre s) (h : handler.process result s = .ok t) :
    handler.Post s t ∧ Resting t := by
  cases handler with
  | processTerminateResult =>
      obtain ⟨_, rfl⟩ := (processTerminateResult_eq_ok result).mp h
      exact ⟨rfl, hrest.moved rfl rfl (show ConnectionState.terminated ∈ _ by decide)
        (show ConnectionState.terminated ≠ _ by decide)⟩
  | dropConnection =>
      cases h
      exact ⟨⟨rfl, rfl, rfl⟩, hrest.known, fun hactive => absurd hactive hpre⟩
  | _ => exact processResult_resting (by decide) (by decide) hrest h

theorem Action.perform_spec {answers : String → String → Prop} {action : Action}
    {connectionId : String} {s t : Subscription} {request : Request} (hpre : action.Pre answers s)
    (h : action.perform connectionId s = .ok (t, request)) :
    Allowed s.vc request ∧
      ((∃ ero, action = .reserveConnection ero ∧
          t = { s with vc := { s.vc with connectionId := some connectionId } }) ∨
        (∀ ero, action ≠ .reserveConnection ero) ∧ t = s) := by
  cases Action.performed_of_perform h with
  | reserved => exact ⟨trivial, .inl ⟨_, rfl, rfl⟩⟩
  | _ => exact ⟨hpre, .inr ⟨by simp, rfl⟩⟩

theorem reconcilableStates_known {state : String} (h : state ∈ reconcilableStates) :
    state ∈ ConnectionState.all ∧ state ≠ ConnectionState.created := by
  simp only [reconcilableStates, List.mem_cons, List.not_mem_nil, or_false] at h
  rcases h with rfl | rfl | rfl | rfl <;> decide

theorem reconcileConnectionState_resting {reservation : AggregatorReservation} {s : Subscription}
    (hrest : Resting s) : Resting (reconcileConnectionState reservation s) := by
  obtain ⟨state, lastError, description, heq, rfl | ⟨_, hstate⟩⟩ :=
    reconcileConnectionState_eq reservation s
  · exact heq ▸ ⟨hrest.known, hrest.active⟩
  · obtain ⟨hknown, hcreated⟩ := reconcilableStates_known hstate
    exact heq ▸ hrest.moved rfl rfl hknown hcreated

theorem Step.run_done {answers : String → String → Prop} {env : StepEnv} {step : Step}
    {before : Option Subscription} {t : Subscription} (hpre : step.Pre answers before)
    (hrest : ∀ s, before = some s → Resting s) (h : step.Done env before t) :
    step.Post before (some t) ∧ Resting t := by
  cases h with
  | constructed h =>
      obtain ⟨saps, included, excluded, _, _, _, rfl⟩ := constructMdp2pModel_eq_ok.mp h
      exact ⟨⟨rfl, rfl⟩, show ConnectionState.created ∈ _ by decide, nofun⟩
  | statusSet hconnection =>
      refine ⟨rfl, (hrest _ rfl).known, fun hactive => ⟨hpre hactive, ?_⟩⟩
      exact Option.ne_none_iff_exists'.mp (hconnection hactive)
  | skipped hholds => exact ⟨by simp [Step.Post, hholds], hrest _ rfl⟩
  | updated h =>
      obtain ⟨_, saps, included, _, _, rfl⟩ := updateSubscription_eq_ok.mp h
      exact ⟨⟨rfl, rfl⟩, show ConnectionState.created ∈ _ by decide,
        fun hactive => absurd hactive hpre.1⟩
  | described => exact ⟨rfl, (hrest _ rfl).known, (hrest _ rfl).active⟩
  | redescribed => exact ⟨rfl, (hrest _ rfl).known, (hrest _ rfl).active⟩
  | reconciled => exact ⟨trivial, reconcileConnectionState_resting (hrest _ rfl)⟩

/-! ## A whole workflow -/

theorem Workflow.start_legal {workflow : Workflow} {before : Option Subscription} {e : PyError}
    (h : workflow.start before = some (.error e)) : ¬ Illegal e := by
  have hraise : ∀ {c : Prop} [Decidable c] {message : String},
      raiseIf c (.formValidation message) = .error e → ¬ Illegal e := by
    rintro c _ message h ⟨event, state, rfl⟩
    unfold raiseIf at h
    split at h <;> cases h
  cases before with
  | none => cases workflow <;> cases h
  | some s =>
      cases workflow with
      | create submission => cases h
      | modify | reconcile =>
          simp only [start, Option.ite_none_right_eq_some] at h
          cases h.2
      | _ =>
          simp only [start, Option.ite_none_right_eq_some] at h
          exact hraise (Option.some.inj h.2)

theorem Step.Post.exists_after {step : Step} {before after : Option Subscription}
    (h : step.Post before after) : ∃ t, after = some t := by
  cases after with
  | some t => exact ⟨t, rfl⟩
  | none => cases step <;> cases before <;> cases h

section Plans

variable {answers : String → String → Prop}

theorem plan_cons {step : Step} {rest : List Step} {before : Option Subscription}
    (hpre : step.Pre answers before)
    (hrest : ∀ t, step.Post before (some t) → Plan (Step.Pre answers) Step.Post rest (some t)) :
    Plan (Step.Pre answers) Step.Post (step :: rest) before := by
  refine ⟨hpre, ?_⟩
  intro after hafter
  obtain ⟨t, rfl⟩ := hafter.exists_after
  exact hrest t hafter

theorem plan_setStatus {lifecycle : Lifecycle} {rest : List Step} {s : Subscription}
    (hpre : lifecycle = .active → s.vc.state ≠ ConnectionState.created)
    (hrest : Plan (Step.Pre answers) Step.Post rest (some { s with lifecycle := lifecycle })) :
    Plan (Step.Pre answers) Step.Post (.setStatus lifecycle :: rest) (some s) := by
  refine plan_cons hpre ?_
  intro t ht
  obtain rfl := ht
  exact hrest

theorem plan_callback_active {action : Action} {handler : Handler} {s : Subscription}
    (haction : action.Pre answers s) (hhandler : handler.Pre s)
    (hpost : ∀ t, handler.Post s t → t.vc.state ≠ ConnectionState.created) :
    Plan (Step.Pre answers) Step.Post [.callbackStep .always action handler, .setStatus .active]
      (some s) := by
  refine plan_cons ⟨.inl rfl, fun _ => ⟨haction, hhandler⟩⟩ ?_
  intro t ht
  exact plan_setStatus (fun _ => hpost t ht) trivial

theorem dropped_of_post {action : Action} {s t : Subscription} (hlifecycle : s.lifecycle ≠ .active)
    (h : Step.Post (.callbackStep .hasConnection action .dropConnection) (some s) (some t)) :
    t.lifecycle ≠ .active ∧ t.vc.state = s.vc.state ∧ truthy t.vc.connectionId = none := by
  by_cases hholds : (truthy s.vc.connectionId).isSome
  · obtain ⟨hsame, hstate, hconnection⟩ := (if_pos hholds).mp h
    exact ⟨hsame ▸ hlifecycle, hstate, by simp [hconnection, truthy]⟩
  · obtain rfl := (if_neg hholds).mp h
    exact ⟨hlifecycle, rfl, by simpa using hholds⟩

/-- The steps of a workflow that is started find their preconditions one after the other. -/
theorem Workflow.plan {workflow : Workflow} {before : Option Subscription}
    (hrest : ∀ s, before = some s → Resting s) (h : workflow.start before = some (.ok ())) :
    Plan (Step.Pre answers) Step.Post workflow.steps before := by
  obtain ⟨submission, rfl, rfl⟩ | ⟨s, rfl, hcreate, hactive, hgate⟩ := start_ok h
  · refine plan_cons rfl ?_
    rintro t ⟨hstate, hconnection⟩
    exact plan_callback_active (fun c hc => by simp [hconnection] at hc) hstate fun _ h => h
  · obtain ⟨hcreated, _⟩ := (hrest s rfl).active hactive
    cases workflow with
    | create submission => exact absurd rfl (hcreate submission)
    | modify circuitDescription =>
        refine plan_setStatus (fun _ => hcreated) ?_
        refine plan_cons trivial ?_
        intro t ht
        refine plan_cons trivial ?_
        intro u hu
        refine plan_setStatus ?_ trivial
        intro _ hstate
        exact hcreated (ht.symm.trans (hu.symm.trans hstate))
    | provision =>
        have hstate : s.vc.state = ConnectionState.reserved := by
          simpa [gate] using hgate
        refine plan_setStatus (fun _ => hcreated) ?_
        exact plan_callback_active hstate hstate fun _ h => h
    | release =>
        have hstate : s.vc.state = ConnectionState.activated := by
          simpa [gate] using hgate
        refine plan_setStatus (fun _ => hcreated) ?_
        exact plan_callback_active hstate hstate fun _ h => h
    | retryReservation submission =>
        have hstate : s.vc.state ∈ retryableStates := by
          simpa [gate] using hgate
        have hactivated : s.vc.state ≠ ConnectionState.activated := by
          intro h
          rw [h] at hstate
          revert hstate
          decide
        have hprovisioning : Lifecycle.provisioning ≠ .active := by decide
        refine plan_setStatus (fun h => absurd h hprovisioning) ?_
        refine plan_cons ⟨.inr rfl, fun _ => ⟨hactivated, hprovisioning⟩⟩ ?_
        intro t ht
        obtain ⟨hlifecycle, hsame, hconnection⟩ := dropped_of_post hprovisioning ht
        refine plan_cons ⟨hlifecycle, hsame ▸ hstate, hconnection⟩ ?_
        intro u hu
        refine plan_callback_active ?_ hu.1 fun _ h => h
        intro c hc hne
        have := truthy_eq_some.mpr ⟨hu.2.symm.trans hc, hne⟩
        rw [hconnection] at this
        cases this
    | reconcile => exact plan_cons trivial fun _ _ => trivial
    | terminate =>
        have hstate : s.vc.state ∈ terminableStates := by
          simpa [gate] using hgate
        apply plan_cons
        · refine ⟨.inr rfl, fun hholds => ?_⟩
          simp only [terminableStates, List.mem_cons, List.not_mem_nil, or_false] at hstate
          simp only [Condition.holds, ne_eq, decide_not, Bool.not_eq_eq_eq_not, Bool.not_true,
            decide_eq_false_iff_not] at hholds
          rcases hstate with hstate | hstate | hstate
          · exact ⟨by simp [Action.Pre, hstate]; decide, .inl hstate⟩
          · exact ⟨by simp [Action.Pre, hstate]; decide, .inr hstate⟩
          · exact absurd hstate hholds
        · intro t _
          exact plan_setStatus (fun h => absurd h (by decide)) trivial

end Plans

/-! ## Runs -/

section Runs

variable {answers : String → String → Prop}

theorem Inv.blank : Inv answers Machine.blank :=
  ⟨(fun _ h => nomatch h), (fun _ h => nomatch h), (fun _ h => nomatch h)⟩

theorem Inv.advanced {p : Process} {step : Step} {rest : List Step} {before : Option Subscription}
    {t : Subscription} (hremaining : p.remaining = step :: rest)
    (hplan : Plan (Step.Pre answers) Step.Post (step :: rest) before)
    (hpost : step.Post before (some t)) (hrest : Resting t) :
    Inv answers ⟨some t, p.advance⟩ where
  resting := by
    rintro _ ⟨⟩
    exact hrest
  plan q hq := by
    rw [(p.advance_eq_some hq).remaining, hremaining]
    exact hplan.next hpost
  sent q hq hphase := absurd (p.advance_eq_some hq).phase hphase

/-- What a callback step relies on and leaves behind does not depend on the stored connection. -/
theorem plan_reserved {ero : List String} {handler : Handler} {rest : List Step}
    {s : Subscription} {connectionId : String}
    (hanswer : answers s.vc.globalReservationId connectionId) (hhandler : handler.Pre s)
    (hplan : Plan (Step.Pre answers) Step.Post
      (.callbackStep .always (.reserveConnection ero) handler :: rest) (some s)) :
    Plan (Step.Pre answers) Step.Post
      (.callbackStep .always (.reserveConnection ero) handler :: rest)
      (some { s with vc := { s.vc with connectionId := some connectionId } }) := by
  refine hplan.move ⟨.inl rfl, fun _ => ⟨?_, ?_⟩⟩ ?_
  · rintro _ ⟨⟩ _
    exact hanswer
  · cases handler <;> exact hhandler
  · rintro (_ | t) ht
    · cases ht
    · cases handler <;> exact ht

theorem Inv.fires {m m' : Machine} {event : Event} {sent : List Request} (hinv : Inv answers m)
    (hanswers : AnswersReserve answers m event) (hfires : Fires m event m' sent) :
    Inv answers m' ∧ ∀ request ∈ sent, ∃ s, m.subscription = some s ∧ Allowed s.vc request := by
  obtain ⟨hrest, hplan, hsent⟩ := hinv
  have hnothing : ∀ request ∈ ([] : List Request), ∃ s, m.subscription = some s ∧
      Allowed s.vc request := fun _ h => nomatch h
  cases hfires with
  | start hstart =>
      refine ⟨⟨hrest, ?_, ?_⟩, hnothing⟩
      · rintro _ ⟨⟩
        exact Workflow.plan hrest hstart
      · rintro _ ⟨⟩ hphase
        exact absurd rfl hphase
  | done hrun =>
      have hplan := hplan _ rfl
      obtain ⟨hpost, hresting⟩ := Step.run_done hplan.head hrest (Step.done_of_run hrun)
      exact ⟨Inv.advanced rfl hplan hpost hresting, hnothing⟩
  | sent hrun =>
      have hplan := hplan _ rfl
      obtain ⟨condition, action, handler, s, rfl, rfl, hholds, hperform⟩ := Step.run_awaiting hrun
      obtain ⟨hconditional, hpre⟩ := hplan.head
      obtain ⟨haction, hhandler⟩ := hpre hholds
      obtain ⟨hallowed, hchange⟩ := Action.perform_spec haction hperform
      refine ⟨?_, by simpa using hallowed⟩
      obtain ⟨ero, rfl, rfl⟩ | ⟨_, rfl⟩ := hchange
      · obtain rfl : condition = .always := by simpa using hconditional
        refine ⟨?_, ?_, ?_⟩
        · rintro _ ⟨⟩
          exact ⟨(hrest s rfl).known, fun hactive => ⟨((hrest s rfl).active hactive).1, _, rfl⟩⟩
        · rintro _ ⟨⟩
          exact plan_reserved (hanswers _ _ _ _ _ _ _ rfl rfl rfl rfl) hhandler hplan
        · rintro _ ⟨⟩ _
          exact ⟨_, _, _, _, _, rfl, rfl, rfl⟩
      · refine ⟨hrest, ?_, ?_⟩
        · rintro _ ⟨⟩
          exact hplan
        · rintro _ ⟨⟩ _
          exact ⟨_, _, _, _, _, rfl, rfl, hholds⟩
  | handled hprocess =>
      have hplan := hplan _ rfl
      obtain ⟨_, _, _, _, s, ⟨⟩, ⟨⟩, hholds⟩ := hsent _ rfl nofun
      obtain ⟨_, hhandler⟩ := hplan.head.2 hholds
      obtain ⟨hpost, hresting⟩ := Handler.process_spec (hrest _ rfl) hhandler hprocess
      refine ⟨Inv.advanced rfl hplan ?_ hresting, hnothing⟩
      simpa only [Step.Post, if_pos hholds] using hpost
  | failed hrun =>
      have hhead := (hplan _ rfl).head
      obtain ⟨condition, action, handler, s, rfl, rfl, hholds, hperform⟩ := Step.run_awaiting hrun
      obtain ⟨hallowed, _⟩ := Action.perform_spec (hhead.2 hholds).1 hperform
      exact ⟨⟨hrest, hplan, hsent⟩, by simpa using hallowed⟩
  | delivered =>
      have hplan := hplan _ rfl
      have hsent := hsent _ rfl nofun
      refine ⟨⟨hrest, ?_, ?_⟩, hnothing⟩
      · rintro _ ⟨⟩
        exact hplan
      · rintro _ ⟨⟩ _
        exact hsent
  | refired hphase =>
      have hplan := hplan _ rfl
      refine ⟨⟨hrest, ?_, ?_⟩, hnothing⟩
      · rintro _ ⟨⟩
        exact hplan
      · rintro _ ⟨⟩ hready
        exact absurd rfl hready
  | aborted => exact ⟨⟨hrest, (fun _ h => nomatch h), (fun _ h => nomatch h)⟩, hnothing⟩

theorem inv_of_reachable {m : Machine}
    (h : (circuit.restrict (AnswersReserve answers)).Reachable m) :
    Inv answers m := by
  refine h.invariant ?_ ?_
  · rintro _ rfl
    exact Inv.blank
  · rintro _ event _ hinv ⟨hanswers, sent, hnext⟩
    exact (hinv.fires hanswers (fires_of_next hnext)).1

theorem answersReserve_any (m : Machine) (event : Event) :
    AnswersReserve (fun _ _ => True) m event :=
  fun _ _ _ _ _ _ _ _ _ _ _ => trivial

theorem inv_of_circuit {m : Machine} (h : circuit.Reachable m) : Inv (fun _ _ => True) m :=
  inv_of_reachable (h.restrict answersReserve_any)

end Runs

/-- An event that raises in a machine with the invariant never raises for an illegal transition. -/
theorem Inv.next_legal {answers : String → String → Prop} {m : Machine} {event : Event}
    {e : PyError}
    (hinv : Inv answers m) (h : m.next event = some (.error e)) : ¬ Illegal e := by
  obtain ⟨subscription, process⟩ := m
  cases process with
  | none =>
      cases event with
      | start workflow run =>
          obtain ⟨gate, hgate, h⟩ := Option.map_eq_some_iff.mp h
          simp only [bind_eq_error, pure_ne_error, and_false, exists_false, or_false] at h
          exact Workflow.start_legal (h ▸ hgate)
      | _ => cases h
  | some process =>
      obtain ⟨run, workflow, remaining, phase⟩ := process
      have hplan := hinv.plan _ rfl
      cases event with
      | run env =>
          rcases phase with _ | _ | result
          · rcases remaining with _ | ⟨step, rest⟩
            · cases h
            · obtain h | ⟨result, hrun, h⟩ := bind_eq_error.mp (Option.some.inj h)
              · exact Step.run_legal hplan.head h
              · cases result <;> cases h
          · cases h
          · obtain ⟨_, _, handler, _, s, ⟨⟩, ⟨⟩, hholds⟩ := hinv.sent _ rfl nofun
            obtain h | ⟨after, _, h⟩ := bind_eq_error.mp (Option.some.inj h)
            · exact Handler.process_legal (hplan.head.2 hholds).2 h
            · cases h
      | failAfterSending env =>
          simp only [Machine.next] at h
          split at h <;> (try split at h) <;> cases h
      | callback | refire =>
          simp only [Machine.next] at h
          split at h <;> cases h
      | start | abort => cases h

/-- What the lifecycle promises of a machine. -/
structure Safe (m : Machine) : Prop where
  /-- No event is applied in a state it is illegal in. -/
  legal : ∀ event e, m.next event = some (.error e) → ¬ Illegal e
  known : ∀ s, m.subscription = some s → s.vc.state ∈ ConnectionState.all
  active : ∀ s, m.subscription = some s → s.lifecycle = .active →
    s.vc.state ≠ ConnectionState.created ∧ ∃ c, s.vc.connectionId = some c
  allowed : ∀ event m' sent, m.next event = some (.ok (m', sent)) →
    ∀ request ∈ sent, ∃ s, m.subscription = some s ∧ Allowed s.vc request

/-- Every run of a circuit keeps it safe. -/
theorem circuit_safe {m : Machine} (h : circuit.Reachable m) : Safe m := by
  have hinv := inv_of_circuit h
  exact
    { legal := fun _ _ => hinv.next_legal
      known := fun s hs => (hinv.resting s hs).known
      active := fun s hs => (hinv.resting s hs).active
      allowed := fun _ _ _ hnext =>
        (hinv.fires (answersReserve_any _ _) (fires_of_next hnext)).2 }

theorem lineCircuit_reachable : circuit.Reachable lineCircuit :=
  (System.Reachable.init rfl).foldlM (fun _ _ _ _ => Machine.fire_eq_some.mp) lineCreate_fires

theorem circuit_safe_line :
    lineCircuit.subscription.map (fun s => (s.lifecycle, s.vc.state, s.vc.connectionId)) =
        some (.active, ConnectionState.reserved, some "c") ∧
      Safe lineCircuit :=
  ⟨by decide +kernel, circuit_safe lineCircuit_reachable⟩

end NsiOrchestrator.Mdp2p
