import NsiOrchestrator.Mdp2p.Storing
import NsiOrchestrator.Mdp2p.Tracking

/-! # Closing a circuit

Whatever happened to a circuit, its run can be brought to its end and the circuit then be
released and terminated. The one dead end is a run that was aborted before it made the
circuit active again: no workflow starts on it any more.
-/

namespace NsiOrchestrator.Mdp2p

open Outcome Forms Vlans Transition

/-! ## Runs under way -/

def Step.Reserves (step : Step) : Prop :=
  ∃ condition ero handler, step = .callbackStep condition (.reserveConnection ero) handler

/-- The steps of a process that have not sent their request. -/
def Process.upcoming (process : Process) : List Step :=
  if process.phase = .ready then process.remaining else process.remaining.tail

def Workflow.final : Workflow → Lifecycle
  | terminate => .terminated
  | _ => .active

theorem Workflow.last_step {workflow : Workflow} {step : Step}
    (h : [step] <:+ workflow.steps) :
    step = .setStatus workflow.final ∨
      workflow = .reconcile ∧ step = .reconcileConnectionState := by
  cases workflow <;> simp_all [steps, final, List.suffix_cons_iff]

theorem Workflow.after_connected {workflow : Workflow} {step : Step} {rest : List Step}
    (h : step :: rest <:+ workflow.steps)
    (hstep : step = .setStatus .active ∨
      ∃ condition action handler, step = .callbackStep condition action handler ∧
        action ≠ .terminateConnection) : ∀ next ∈ rest, ¬ next.Reserves := by
  cases workflow <;> simp [steps, List.suffix_cons_iff] at h <;> grind [Step.Reserves]

theorem Workflow.after_drop {workflow : Workflow} {condition : Condition} {action : Action}
    {rest : List Step}
    (h : .callbackStep condition action .dropConnection :: rest <:+ workflow.steps) :
    ∃ next ∈ rest, next.Reserves := by
  cases workflow <;> simp [steps, List.suffix_cons_iff] at h
  simp [h, Step.Reserves]

theorem Workflow.after_construct {workflow : Workflow} {submission : Submission}
    {rest : List Step} (h : .constructMdp2pModel submission :: rest <:+ workflow.steps) :
    ∃ next ∈ rest, next.Reserves := by
  cases workflow <;> simp [steps, List.suffix_cons_iff] at h
  simp [h, Step.Reserves]

theorem Workflow.reconciling {workflow : Workflow} {rest : List Step} {step : Step}
    (h : step :: rest <:+ workflow.steps) :
    workflow = .reconcile ↔ step = .reconcileConnectionState := by
  cases workflow <;> simp [steps, List.suffix_cons_iff] at h <;> grind

theorem Handler.process_stays {handler : Handler} {result : CallbackResult} {s t : Subscription}
    (hdrop : handler ≠ .dropConnection) (h : handler.process result s = .ok t) :
    t.vc.connectionId = s.vc.connectionId := by
  by_cases hterminate : handler = .processTerminateResult
  · subst hterminate
    obtain ⟨_, rfl⟩ := (processTerminateResult_eq_ok result).mp h
    rfl
  · exact (process_connection (by simp [terminateHandlers, hterminate, hdrop]) h).1

/-- What holds of a process and its circuit besides the preconditions of its steps. -/
structure Underway (m : Machine) : Prop where
  begun : ∀ p, m.process = some p → p.remaining ≠ []
  active : ∀ p s, m.process = some p → m.subscription = some s → p.workflow = .reconcile →
    s.lifecycle = .active
  /-- A circuit without a connection is about to reserve one. -/
  connected : ∀ p s, m.process = some p → m.subscription = some s →
    s.vc.connectionId = none → ∃ step ∈ p.upcoming, step.Reserves

theorem Underway.idle {m : Machine} (h : m.process = none) : Underway m where
  begun _ hp := by cases h.symm.trans hp
  active _ _ hp := by cases h.symm.trans hp
  connected _ _ hp := by cases h.symm.trans hp

theorem Process.upcoming_ready {p : Process} (h : p.phase = .ready) : p.upcoming = p.remaining := by
  rw [upcoming, if_pos h]

theorem Process.upcoming_sent {p : Process} (h : p.phase ≠ .ready) :
    p.upcoming = p.remaining.tail := by
  rw [upcoming, if_neg h]

theorem Underway.advanced {p : Process} {t : Subscription}
    (hactive : p.workflow = .reconcile → t.lifecycle = .active)
    (hconnected : t.vc.connectionId = none → ∃ step ∈ p.remaining.tail, step.Reserves) :
    Underway ⟨some t, p.advance⟩ where
  begun q hq := by
    change p.advance = some q at hq
    unfold Process.advance at hq
    split at hq
    · cases hq
    · next hrest =>
        cases hq
        exact hrest
  active q _ hq ht hworkflow := by
    cases ht
    exact hactive ((p.advance_eq_some hq).workflow ▸ hworkflow)
  connected q _ hq ht hnone := by
    cases ht
    have hadvanced := p.advance_eq_some hq
    rw [Process.upcoming_ready hadvanced.phase, hadvanced.remaining]
    exact hconnected hnone

theorem Underway.moved {subscription : Option Subscription} {run : ℕ} {workflow : Workflow}
    {remaining : List Step} {phase phase' : Phase}
    (h : Underway ⟨subscription, some ⟨run, workflow, remaining, phase⟩⟩)
    (hphase : phase' = .ready ∨ phase ≠ .ready) :
    Underway ⟨subscription, some ⟨run, workflow, remaining, phase'⟩⟩ where
  begun := by
    have hbegun := h.begun _ rfl
    rintro _ ⟨⟩
    exact hbegun
  active := by
    have hactive := fun s => h.active _ s rfl
    rintro _ s ⟨⟩ hs
    exact hactive s hs
  connected := by
    rintro _ s ⟨⟩ hs hnone
    obtain ⟨step, hin, hreserves⟩ := h.connected _ s rfl hs hnone
    refine ⟨step, ?_, hreserves⟩
    obtain rfl | hsent := hphase
    · rw [Process.upcoming_ready rfl]
      by_cases hready : phase = .ready
      · rwa [Process.upcoming_ready hready] at hin
      · rw [Process.upcoming_sent hready] at hin
        exact List.mem_of_mem_tail hin
    · rw [Process.upcoming_sent hsent] at hin
      by_cases hready : phase' = .ready
      · rw [Process.upcoming_ready hready]
        exact List.mem_of_mem_tail hin
      · rwa [Process.upcoming_sent hready]

/-- A reserve at the head of the steps is the only one that is not still to come. -/
theorem mem_tail_of_reserves {step : Step} {rest : List Step} (hstep : ¬ step.Reserves)
    (h : ∃ next ∈ step :: rest, next.Reserves) : ∃ next ∈ rest, next.Reserves := by
  obtain ⟨next, hin, hreserves⟩ := h
  obtain rfl | hin := List.mem_cons.mp hin
  · exact absurd hreserves hstep
  · exact ⟨next, hin, hreserves⟩

theorem Underway.fires {m m' : Machine} {event : Event} {requests : List Request}
    (hm : circuit.Reachable m) (h : Underway m) (hfires : Fires m event m' requests) :
    Underway m' := by
  have hinv := inv_of_circuit hm
  have hsuffix := fun p => suffix_of_circuit hm (p := p)
  cases hfires with
  | @start before workflow run hstart =>
      refine ⟨?_, ?_, ?_⟩
      · rintro _ ⟨⟩
        cases workflow <;> simp [Workflow.steps]
      · rintro _ s ⟨⟩ hs hreconcile
        obtain ⟨_, rfl, _⟩ | ⟨s', hs', _, hactive, _⟩ := Workflow.start_ok hstart
        · cases hreconcile
        · cases hs.symm.trans hs'
          exact hactive
      · rintro _ s ⟨⟩ hs hnone
        obtain ⟨_, _, hbefore⟩ | ⟨s', hs', _, hactive, _⟩ := Workflow.start_ok hstart
        · cases hs.symm.trans hbefore
        · cases hs.symm.trans hs'
          obtain ⟨_, c, hc⟩ := (hinv.resting s hs).active hactive
          cases hnone.symm.trans hc
  | @done before run workflow step rest env after hrun =>
      have hplan := hinv.plan _ rfl
      have hrest : step :: rest <:+ workflow.steps := hsuffix _ rfl
      have hupcoming : ∀ s, before = some s → s.vc.connectionId = none →
          ∃ next ∈ step :: rest, next.Reserves := fun s hs => h.connected _ s rfl hs
      cases Step.done_of_run hrun with
      | constructed hconstruct =>
          refine .advanced (fun hreconcile => ?_) fun _ => Workflow.after_construct hrest
          cases (Workflow.reconciling hrest).mp hreconcile
      | @statusSet _ s =>
          refine .advanced (fun hreconcile => ?_) fun hnone =>
            mem_tail_of_reserves (by simp [Step.Reserves]) (hupcoming s rfl hnone)
          cases (Workflow.reconciling hrest).mp hreconcile
      | skipped hholds =>
          refine .advanced (h.active _ after rfl rfl) fun hnone =>
            mem_tail_of_reserves ?_ (hupcoming after rfl hnone)
          rintro ⟨_, _, _, heq⟩
          cases heq
          obtain halways | hterminate := hplan.head.1
          · subst halways
            cases hholds
          · cases hterminate
      | @updated _ s _ hupdate =>
          obtain ⟨_, _, _, _, _, rfl⟩ := updateSubscription_eq_ok.mp hupdate
          refine .advanced (h.active _ s rfl rfl) fun hnone =>
            mem_tail_of_reserves (by simp [Step.Reserves]) (hupcoming s rfl hnone)
      | @described _ s | @redescribed s =>
          refine .advanced (h.active _ s rfl rfl) fun hnone =>
            mem_tail_of_reserves (by simp [Step.Reserves]) (hupcoming _ rfl hnone)
      | @reconciled s =>
          obtain ⟨_, _, _, heq, _⟩ := reconcileConnectionState_eq env.reservation s
          rw [heq]
          refine .advanced (h.active _ s rfl rfl) fun hnone =>
            mem_tail_of_reserves (by simp [Step.Reserves]) (hupcoming s rfl hnone)
  | @sent before run workflow step rest env after request hrun =>
      obtain ⟨condition, action, handler, s, rfl, rfl, _, hperform⟩ := Step.run_awaiting hrun
      have hactive := h.active _ s rfl rfl
      have hconnected := h.connected _ s rfl rfl
      have hmoved : ∀ {t : Subscription}, t.lifecycle = s.lifecycle →
          (t.vc.connectionId = none →
            s.vc.connectionId = none ∧ ∀ ero, action ≠ .reserveConnection ero) →
          Underway ⟨some t, some ⟨run, workflow,
            .callbackStep condition action handler :: rest, .awaiting⟩⟩ := by
        intro t hlifecycle hconnection
        refine ⟨?_, ?_, ?_⟩
        · rintro _ ⟨⟩
          simp
        · rintro _ _ ⟨⟩ ⟨⟩ hreconcile
          exact hlifecycle.trans (hactive hreconcile)
        · rintro _ _ ⟨⟩ ⟨⟩ hnone
          obtain ⟨hnone, haction⟩ := hconnection hnone
          refine mem_tail_of_reserves ?_ (hconnected hnone)
          rintro ⟨_, ero, _, heq⟩
          cases heq
          exact haction ero rfl
      cases Action.performed_of_perform hperform with
      | reserved => exact hmoved rfl (by simp)
      | _ => exact hmoved rfl (by simp)
  | @handled s after run workflow condition action handler rest result env hprocess =>
      have hrest : .callbackStep condition action handler :: rest <:+ workflow.steps :=
        hsuffix _ rfl
      have hupcoming : s.vc.connectionId = none → ∃ next ∈ rest, next.Reserves :=
        fun hnone => h.connected _ s rfl rfl hnone
      have hlifecycle : after.lifecycle = s.lifecycle := by
        obtain ⟨_, _, _, _, rfl⟩ := Handler.process_frame hprocess
        rfl
      refine .advanced (hlifecycle ▸ h.active _ s rfl rfl) fun hnone => ?_
      by_cases hdrop : handler = .dropConnection
      · subst hdrop
        exact Workflow.after_drop hrest
      · exact hupcoming (Handler.process_stays hdrop hprocess ▸ hnone)
  | failed => exact h
  | delivered => exact h.moved (.inr (by simp))
  | refired => exact h.moved (.inl rfl)
  | aborted => exact .idle rfl

theorem underway_of_circuit {m : Machine} (h : circuit.Reachable m) : Underway m := by
  induction h with
  | init h =>
      cases h
      exact .idle rfl
  | step hm hstep ih =>
      obtain ⟨sent, hnext⟩ := hstep
      exact ih.fires hm (fires_of_next hnext)

/-! ## Getting on with a run -/

/-- An event that gets on with the run of a circuit, or releases or terminates the circuit. -/
def Event.Closes : Event → Prop
  | .start .release _ | .start .terminate _ | .run _ | .callback _ | .refire => True
  | _ => False

def ClosingStep (m m' : Machine) : Prop :=
  ∃ event sent, event.Closes ∧ m.next event = some (.ok (m', sent))

theorem reachable_closing {m m' : Machine} (h : circuit.Reachable m)
    (hrun : Relation.ReflTransGen ClosingStep m m') : circuit.Reachable m' :=
  h.runs (fun _ _ ⟨event, sent, _, hnext⟩ => ⟨event, sent, hnext⟩) hrun

def inventoryFor (input : ConnectionInput) : Inventory where
  stps := [⟨input.sourceStp, "", 0, ""⟩, ⟨input.destinationStp, "", 0, ""⟩]
  sdps := Dict.ofPairs ((input.includeSdps ++ input.excludeSdps).map fun sdpId =>
    (sdpId, ⟨"", ⟨"", "", 0, ""⟩, ⟨"", "", 0, ""⟩⟩))

theorem sdpBlockFor_inventoryFor {input : ConnectionInput} {sdpId : String}
    (h : sdpId ∈ input.includeSdps ++ input.excludeSdps) :
    ∃ link, sdpBlockFor (inventoryFor input).sdps sdpId = .ok link := by
  obtain ⟨sdp, hsdp⟩ : ∃ sdp, (inventoryFor input).sdps.get? sdpId = some sdp := by
    rw [← Option.isSome_iff_exists, Dict.get?_isSome, inventoryFor, Dict.mem_keys_ofPairs]
    simpa using h
  refine ⟨⟨sdpId, sdp.stps.1.stpId, sdp.stps.2.stpId⟩, ?_⟩
  simp only [sdpBlockFor, hsdp]

/-- What a step may find that looks nothing up. -/
def bareEnv : StepEnv := ⟨⟨[], .empty⟩, "", "", "", ⟨"", "", none, none, none, none⟩⟩

def envFor (input : ConnectionInput) : StepEnv := { bareEnv with inventory := inventoryFor input }

theorem sapsFor_inventoryFor (input : ConnectionInput) :
    ∃ saps, sapsFor (inventoryFor input).stps input = .ok saps := by
  have hblock : ∀ stpId, stpId = input.sourceStp ∨ stpId = input.destinationStp →
      ∃ block, stpBlockFor (inventoryFor input).stps stpId = .ok block := by
    intro stpId h
    unfold stpBlockFor
    split
    · exact ⟨_, rfl⟩
    · next hfind =>
        rw [List.find?_eq_none] at hfind
        obtain rfl | rfl := h <;> simp [inventoryFor] at hfind
  obtain ⟨source, hsource⟩ := hblock _ (.inl rfl)
  obtain ⟨destination, hdestination⟩ := hblock _ (.inr rfl)
  exact ⟨_, bind_eq_ok.mpr ⟨source, hsource, bind_eq_ok.mpr ⟨destination, hdestination, rfl⟩⟩⟩

theorem includeConstraints_inventoryFor (input : ConnectionInput) (sdpVlans : SdpVlans) :
    ∃ included, includeConstraints (inventoryFor input).sdps input.includeSdps sdpVlans =
      .ok included := by
  refine exists_mapM fun sdpId hin => ?_
  obtain ⟨link, hlink⟩ := sdpBlockFor_inventoryFor (List.mem_append_left _ hin)
  exact ⟨_, bind_eq_ok.mpr ⟨link, hlink, rfl⟩⟩

theorem excludeConstraints_inventoryFor (input : ConnectionInput) :
    ∃ excluded, excludeConstraints (inventoryFor input).sdps input.excludeSdps = .ok excluded := by
  refine exists_mapM fun sdpId hin => ?_
  obtain ⟨link, hlink⟩ := sdpBlockFor_inventoryFor (List.mem_append_right _ hin)
  exact ⟨_, bind_eq_ok.mpr ⟨link, hlink, rfl⟩⟩

theorem Handler.process_ok {handler : Handler} {s : Subscription} (h : handler.Pre s) :
    ∃ result t, handler.process result s = .ok t := by
  have hresult : ∀ {wanted confirmed failed source target},
      FsmEvent.transitions confirmed = [(source, target)] → s.vc.state = source →
        ∃ result t, processResult wanted confirmed failed result s = .ok t := by
    intro wanted confirmed failed source target hevent hstate
    refine ⟨⟨some wanted, none⟩, _, processResult_eq_ok.mpr ⟨wanted, target, rfl, ?_, rfl⟩⟩
    simp [hevent, hstate]
  cases handler with
  | processReservationResult | processProvisionResult | processReleaseResult =>
      exact hresult rfl h
  | processTerminateResult =>
      exact ⟨⟨none, none⟩, _, (processTerminateResult_eq_ok ⟨none, none⟩).mpr ⟨h, rfl⟩⟩
  | dropConnection => exact ⟨⟨none, none⟩, _, rfl⟩

section Forward

variable {run : ℕ} {workflow : Workflow} {rest : List Step}

theorem ClosingStep.done {step : Step} (env : StepEnv) {before : Option Subscription}
    {t : Subscription} (h : step.run env before = .ok (.done t)) :
    ClosingStep ⟨before, some ⟨run, workflow, step :: rest, .ready⟩⟩
      ⟨some t, Process.advance ⟨run, workflow, step :: rest, .ready⟩⟩ :=
  ⟨.run env, [], trivial, by simp only [Machine.next, h]; rfl⟩

theorem callback_finishes {condition : Condition} {action : Action} {handler : Handler}
    (env : StepEnv) {s t u : Subscription} {request : Request} {result : CallbackResult}
    (hholds : condition.holds s.vc)
    (hperform : action.perform env.connectionId s = .ok (t, request))
    (hprocess : handler.process result t = .ok u) :
    Relation.ReflTransGen ClosingStep
      ⟨some s, some ⟨run, workflow, .callbackStep condition action handler :: rest, .ready⟩⟩
      ⟨some u, Process.advance
        ⟨run, workflow, .callbackStep condition action handler :: rest, .ready⟩⟩ := by
  have hsent : ClosingStep
      ⟨some s, some ⟨run, workflow, .callbackStep condition action handler :: rest, .ready⟩⟩
      ⟨some t, some ⟨run, workflow, .callbackStep condition action handler :: rest, .awaiting⟩⟩ :=
    ⟨.run env, [request], trivial, by simp only [Machine.next, Step.run, hholds, hperform]; rfl⟩
  have hdelivered : ClosingStep
      ⟨some t, some ⟨run, workflow, .callbackStep condition action handler :: rest, .awaiting⟩⟩
      ⟨some t, some ⟨run, workflow, .callbackStep condition action handler :: rest,
        .received result⟩⟩ := ⟨.callback result, [], trivial, rfl⟩
  have hhandled : ClosingStep
      ⟨some t, some ⟨run, workflow, .callbackStep condition action handler :: rest,
        .received result⟩⟩
      ⟨some u, Process.advance
        ⟨run, workflow, .callbackStep condition action handler :: rest, .ready⟩⟩ :=
    ⟨.run env, [], trivial, by simp only [Machine.next, Option.map_some, hprocess]; rfl⟩
  exact .head hsent (.head hdelivered (.single hhandled))

theorem releaseConnection_perform {env : StepEnv} {s : Subscription} {c : String}
    (hc : s.vc.connectionId = some c) :
    Action.releaseConnection.perform env.connectionId s = .ok (s, .release c) := by
  simp only [Action.perform, Mdp2p.releaseConnection, onConnection, hc]

theorem callbackStep_finishes {answers : String → String → Prop} {condition : Condition}
    {action : Action} {handler : Handler} {s : Subscription}
    (hpre : Step.Pre answers (.callbackStep condition action handler) (some s))
    (hconnected : action ≠ .terminateConnection → (∀ ero, action ≠ .reserveConnection ero) →
      ∃ c, s.vc.connectionId = some c) :
    ∃ u, Relation.ReflTransGen ClosingStep
      ⟨some s, some ⟨run, workflow, .callbackStep condition action handler :: rest, .ready⟩⟩
      ⟨some u, Process.advance
        ⟨run, workflow, .callbackStep condition action handler :: rest, .ready⟩⟩ := by
  by_cases hholds : condition.holds s.vc
  · obtain ⟨_, hhandler⟩ := hpre.2 hholds
    have hfinish : ∀ {t request}, action.perform bareEnv.connectionId s = .ok (t, request) →
        handler.Pre t → ∃ u, Relation.ReflTransGen ClosingStep
          ⟨some s, some ⟨run, workflow, .callbackStep condition action handler :: rest, .ready⟩⟩
          ⟨some u, Process.advance
            ⟨run, workflow, .callbackStep condition action handler :: rest, .ready⟩⟩ := by
      intro t request hperform hhandler
      obtain ⟨result, u, hprocess⟩ := Handler.process_ok hhandler
      exact ⟨u, callback_finishes bareEnv hholds hperform hprocess⟩
    cases action with
    | reserveConnection ero =>
        refine hfinish rfl ?_
        cases handler <;> exact hhandler
    | provisionConnection =>
        obtain ⟨c, hc⟩ := hconnected (by simp) (by simp)
        have hperform : Action.provisionConnection.perform bareEnv.connectionId s =
            .ok (s, .provision c) := by
          simp only [Action.perform, Mdp2p.provisionConnection, onConnection, hc]
        exact hfinish hperform hhandler
    | releaseConnection =>
        obtain ⟨c, hc⟩ := hconnected (by simp) (by simp)
        exact hfinish (releaseConnection_perform hc) hhandler
    | terminateConnection => exact hfinish rfl hhandler
  · refine ⟨s, .single (.done bareEnv ?_)⟩
    simp only [Step.run, hholds]
    rfl

theorem step_finishes {step : Step} {before : Option Subscription}
    (hm : circuit.Reachable ⟨before, some ⟨run, workflow, step :: rest, .ready⟩⟩) :
    ∃ t, Relation.ReflTransGen ClosingStep ⟨before, some ⟨run, workflow, step :: rest, .ready⟩⟩
        ⟨some t, Process.advance ⟨run, workflow, step :: rest, .ready⟩⟩ ∧
      (rest = [] → t.lifecycle = workflow.final) := by
  have hunderway := underway_of_circuit hm
  have hpre := ((inv_of_circuit hm).plan _ rfl).head
  have hsuffix : step :: rest <:+ workflow.steps := suffix_of_circuit hm rfl
  have hlast : rest = [] → step = .setStatus workflow.final ∨
      workflow = .reconcile ∧ step = .reconcileConnectionState := by
    rintro rfl
    exact Workflow.last_step hsuffix
  have hconnection : ∀ s, before = some s → (∀ next ∈ step :: rest, ¬ next.Reserves) →
      s.vc.connectionId ≠ none := by
    intro s hs hnone hconnection
    obtain ⟨next, hin, hreserves⟩ := hunderway.connected _ s rfl hs hconnection
    exact hnone next hin hreserves
  cases before with
  | none =>
      cases step with
      | constructMdp2pModel submission =>
          obtain ⟨saps, hsaps⟩ := sapsFor_inventoryFor submission.input
          obtain ⟨included, hincluded⟩ :=
            includeConstraints_inventoryFor submission.input submission.path.sdpVlans
          obtain ⟨excluded, hexcluded⟩ := excludeConstraints_inventoryFor submission.input
          have hconstruct : constructMdp2pModel (envFor submission.input) submission = .ok _ :=
            constructMdp2pModel_eq_ok.mpr
              ⟨saps, included, excluded, hsaps, hincluded, hexcluded, rfl⟩
          refine ⟨_, .single (.done _ (bind_eq_ok.mpr ⟨_, hconstruct, rfl⟩)), fun hrest => ?_⟩
          rcases hlast hrest with h | ⟨_, h⟩ <;> cases h
      | _ => exact absurd hpre id
  | some s =>
      cases step with
      | constructMdp2pModel submission => cases hpre
      | setStatus lifecycle =>
          have hset : setStatus lifecycle s = .ok { s with lifecycle := lifecycle } := by
            refine setStatus_eq_ok.mpr ⟨fun hactive => hconnection s rfl ?_, rfl⟩
            subst hactive
            exact List.forall_mem_cons.mpr
              ⟨by simp [Step.Reserves], Workflow.after_connected hsuffix (.inl rfl)⟩
          refine ⟨_, .single (.done bareEnv (bind_eq_ok.mpr ⟨_, hset, rfl⟩)), fun hrest => ?_⟩
          rcases hlast hrest with h | ⟨_, h⟩ <;> cases h
          rfl
      | callbackStep condition action handler =>
          have hnotlast : rest ≠ [] := by
            intro hrest
            rcases hlast hrest with h | ⟨_, h⟩ <;> cases h
          obtain ⟨u, hrun⟩ := callbackStep_finishes hpre fun hterminate hreserve => by
            refine Option.ne_none_iff_exists'.mp (hconnection s rfl ?_)
            refine List.forall_mem_cons.mpr ⟨?_, Workflow.after_connected hsuffix
              (.inr ⟨_, _, _, rfl, hterminate⟩)⟩
            rintro ⟨_, ero, _, heq⟩
            cases heq
            exact hreserve ero rfl
          exact ⟨u, hrun, fun hrest => absurd hrest hnotlast⟩
      | updateSubscription submission =>
          obtain ⟨saps, hsaps⟩ := sapsFor_inventoryFor submission.input
          obtain ⟨included, hincluded⟩ :=
            includeConstraints_inventoryFor submission.input submission.path.sdpVlans
          have hupdate : updateSubscription (envFor submission.input) submission s = .ok _ :=
            updateSubscription_eq_ok.mpr ⟨hpre.2.1, saps, included, hsaps, hincluded, rfl⟩
          refine ⟨_, .single (.done _ (bind_eq_ok.mpr ⟨_, hupdate, rfl⟩)), fun hrest => ?_⟩
          rcases hlast hrest with h | ⟨_, h⟩ <;> cases h
      | updateCircuitDescription circuitDescription =>
          refine ⟨_, .single (.done bareEnv rfl), fun hrest => ?_⟩
          rcases hlast hrest with h | ⟨_, h⟩ <;> cases h
      | updateSubscriptionDescription =>
          refine ⟨_, .single (.done bareEnv rfl), fun hrest => ?_⟩
          rcases hlast hrest with h | ⟨_, h⟩ <;> cases h
      | reconcileConnectionState =>
          have hworkflow := (Workflow.reconciling hsuffix).mpr rfl
          refine ⟨_, .single (.done bareEnv rfl), fun _ => ?_⟩
          obtain ⟨_, _, _, heq, _⟩ := reconcileConnectionState_eq bareEnv.reservation s
          rw [heq, hworkflow]
          exact hunderway.active _ s rfl rfl hworkflow

end Forward

/-! ## Getting to the end of a run -/

structure Finishing (final : Lifecycle) (m : Machine) : Prop where
  reachable : circuit.Reachable m
  under : ∀ p, m.process = some p → p.workflow.final = final
  done : m.process = none → ∃ s, m.subscription = some s ∧ s.lifecycle = final

def Machine.left (m : Machine) : ℕ := m.process.elim 0 fun p => p.remaining.length

theorem Process.rerun (subscription : Option Subscription) (p : Process) :
    Relation.ReflTransGen ClosingStep ⟨subscription, some p⟩
      ⟨subscription, some { p with phase := .ready }⟩ := by
  by_cases hready : p.phase = .ready
  · rw [← hready]
  · refine .single ⟨.refire, [], trivial, ?_⟩
    simp only [Machine.next, if_neg hready]

theorem Finishing.next {final : Lifecycle} {m : Machine} (h : Finishing final m)
    (hopen : ¬ m.process = none) :
    ∃ m', Relation.ReflTransGen ClosingStep m m' ∧ Finishing final m' ∧ m'.left < m.left := by
  obtain ⟨subscription, process⟩ := m
  obtain ⟨⟨run, workflow, remaining, phase⟩, rfl⟩ := Option.ne_none_iff_exists'.mp hopen
  have hfinal : workflow.final = final := h.under _ rfl
  obtain ⟨step, rest, rfl⟩ :=
    List.exists_cons_of_ne_nil ((underway_of_circuit h.reachable).begun _ rfl)
  have hrerun := Process.rerun subscription ⟨run, workflow, step :: rest, phase⟩
  obtain ⟨t, hrun, hlast⟩ := step_finishes (reachable_closing h.reachable hrerun)
  refine ⟨_, hrerun.trans hrun, ⟨reachable_closing h.reachable (hrerun.trans hrun), ?_, ?_⟩, ?_⟩
  · intro q hq
    exact (Process.advance_eq_some hq).workflow ▸ hfinal
  · intro hnone
    cases rest with
    | nil => exact ⟨t, rfl, (hlast rfl).trans hfinal⟩
    | cons => cases hnone
  · cases rest with
    | nil => exact Nat.succ_pos 0
    | cons => exact Nat.lt_succ_self _

end NsiOrchestrator.Mdp2p
