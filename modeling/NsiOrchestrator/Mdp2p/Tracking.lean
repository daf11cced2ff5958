import NsiOrchestrator.Mdp2p.Lifecycle
import Mathlib.Logic.Function.Basic

/-! # Reservations the orchestrator stops tracking

A run together with the last status the aggregator reported of each connection, by a
callback or by an answer to reconcile. A connection is given up when it is dropped,
replaced or set terminated.
-/

namespace NsiOrchestrator.Mdp2p

open Outcome Forms Vlans Transition

/-- A circuit, and the last status reported of each connection. -/
structure Tracked where
  machine : Machine
  reported : String → Option String

/-- The connection an event reports on, with its status. -/
def Machine.reports (m : Machine) (event : Event) : Option (String × String) :=
  match event, m.process, m.subscription with
  | .callback result, some _, some s => do
      let connectionId ← s.vc.connectionId
      let status ← result.status
      pure (connectionId, status)
  | .run env, some ⟨_, _, .reconcileConnectionState :: _, .ready⟩, some s =>
      s.vc.connectionId.map (·, env.reservation.status)
  | _, _, _ => none

def Tracked.hear (t : Tracked) (event : Event) : String → Option String :=
  match t.machine.reports event with
  | some (connectionId, status) => Function.update t.reported connectionId (some status)
  | none => t.reported

/-- The runs of one circuit whose reserves are answered as `answers` says. -/
def tracking (answers : String → String → Prop) : System Tracked Event where
  init t := t.machine = Machine.blank
  step t event t' :=
    AnswersReserve answers t.machine event ∧ circuit.step t.machine event t'.machine ∧
      t'.reported = t.hear event

/-- A step drops or replaces a connection, or sets it terminated. -/
def GivesUp (m m' : Machine) (connectionId : String) : Prop :=
  ∃ s ∈ m.subscription, ∃ s' ∈ m'.subscription,
    s.vc.connectionId = some connectionId ∧
      (s'.vc.connectionId ≠ some connectionId ∨
        s.vc.state ≠ ConnectionState.terminated ∧ s'.vc.state = ConnectionState.terminated)

instance (m m' : Machine) (connectionId : String) : Decidable (GivesUp m m' connectionId) := by
  unfold GivesUp
  infer_instance

/-- The handlers of a terminate callback, of terminate and of retry. -/
def terminateHandlers : List Handler := [.processTerminateResult, .dropConnection]

/-- The result a terminate callback step handles says that the connection is terminated. -/
def TerminateConfirmed (t : Tracked) (event : Event) : Prop :=
  ∀ env p result condition action handler rest,
    event = .run env → t.machine.process = some p → p.phase = .received result →
    p.remaining = .callbackStep condition action handler :: rest → handler ∈ terminateHandlers →
      result.status = some ConnectionState.terminated

/-! ## The invariant -/

/-- The status of a result that is not handled yet is the last one reported. -/
structure Heard (t : Tracked) : Prop where
  returned : ∀ s c, t.machine.subscription = some s → s.vc.connectionId = some c → c ≠ ""
  latest : ∀ p result s c status, t.machine.process = some p → p.phase = .received result →
    t.machine.subscription = some s → s.vc.connectionId = some c → result.status = some status →
      t.reported c = some status

/-! ## What a step does to the connection -/

theorem Step.Done.connection {answers : String → String → Prop} {env : StepEnv} {step : Step}
    {s t : Subscription} (hpre : step.Pre answers (some s)) (h : step.Done env (some s) t) :
    t.vc.connectionId = s.vc.connectionId ∧
      (s.vc.state ≠ ConnectionState.terminated → t.vc.state = ConnectionState.terminated →
        step = .reconcileConnectionState ∧
          env.reservation.status = ConnectionState.terminated) := by
  cases h with
  | constructed => cases hpre
  | updated h =>
      obtain ⟨_, saps, included, _, _, rfl⟩ := updateSubscription_eq_ok.mp h
      exact ⟨rfl, fun _ hstate => absurd hstate (show ConnectionState.created ≠ _ by decide)⟩
  | reconciled =>
      obtain ⟨state, lastError, description, heq, hstate⟩ :=
        reconcileConnectionState_eq env.reservation s
      rw [heq]
      refine ⟨rfl, fun hopen hterminated => ⟨rfl, ?_⟩⟩
      obtain rfl | ⟨hanswered, _⟩ := hstate
      · exact absurd hterminated hopen
      · exact hanswered.symm.trans hterminated
  | _ => exact ⟨rfl, fun hopen hstate => absurd hstate hopen⟩

theorem Handler.process_connection {handler : Handler} {result : CallbackResult}
    {s t : Subscription} (hhandler : handler ∉ terminateHandlers)
    (h : handler.process result s = .ok t) :
    t.vc.connectionId = s.vc.connectionId ∧ t.vc.state ≠ ConnectionState.terminated := by
  have hresult : ∀ {wanted confirmed failed}, confirmed ≠ .terminate → failed ≠ .terminate →
      processResult wanted confirmed failed result s = .ok t →
        t.vc.connectionId = s.vc.connectionId ∧ t.vc.state ≠ ConnectionState.terminated := by
    intro wanted confirmed failed hconfirmed hfailed h
    obtain ⟨status, state, _, htransition, rfl⟩ := processResult_eq_ok.mp h
    refine ⟨rfl, FsmEvent.transitions_open ?_ htransition⟩
    split <;> assumption
  cases handler with
  | processTerminateResult | dropConnection => exact absurd (by decide) hhandler
  | _ => exact hresult (by decide) (by decide) h

theorem Handler.process_keeps {handler : Handler} {result : CallbackResult} {s t : Subscription}
    (h : handler.process result s = .ok t) {c : String} (hc : t.vc.connectionId = some c) :
    s.vc.connectionId = some c := by
  by_cases hhandler : handler ∈ terminateHandlers
  · simp only [terminateHandlers, List.mem_cons, List.not_mem_nil, or_false] at hhandler
    obtain rfl | rfl := hhandler
    · obtain ⟨_, rfl⟩ := (processTerminateResult_eq_ok result).mp h
      exact hc
    · cases h
      cases hc
  · exact (process_connection hhandler h).1 ▸ hc

/-! ## Runs -/

section Runs

variable {answers : String → String → Prop}

theorem Heard.step {t t' : Tracked} {event : Event} (hnonempty : ∀ g c, answers g c → c ≠ "")
    (hinv : Inv answers t.machine) (hheard : Heard t) (h : (tracking answers).step t event t') :
    Heard t' := by
  obtain ⟨machine, reported⟩ := t
  obtain ⟨machine', reported'⟩ := t'
  obtain ⟨hanswers, ⟨sent, hnext⟩, hreported⟩ := h
  replace hreported : reported' = Tracked.hear ⟨machine, reported⟩ event := hreported
  obtain ⟨hreturned, hlatest⟩ := hheard
  -- A step that leaves no result behind only has to keep the connection one that was returned.
  have hadvanced : ∀ {p : Process} {s : Subscription}, (∀ c, s.vc.connectionId = some c → c ≠ "") →
      Heard ⟨⟨some s, p.advance⟩, reported'⟩ := by
    intro p s hs
    refine ⟨by rintro _ c ⟨⟩; exact hs c, ?_⟩
    intro q result _ _ _ hq hphase
    rw [(p.advance_eq_some hq).phase] at hphase
    cases hphase
  cases fires_of_next hnext with
  | start => exact ⟨hreturned, by rintro _ _ _ _ _ ⟨⟩ ⟨⟩⟩
  | @done before run workflow step rest env after hrun =>
      refine hadvanced fun c hc => ?_
      have hpre := (hinv.plan _ rfl).head
      cases before with
      | none =>
          cases Step.done_of_run hrun with
          | constructed h =>
              obtain ⟨_, _, _, _, _, _, rfl⟩ := constructMdp2pModel_eq_ok.mp h
              cases hc
      | some s =>
          obtain ⟨hconnection, _⟩ := (Step.done_of_run hrun).connection hpre
          exact hreturned s c rfl (hconnection ▸ hc)
  | sent hrun =>
      have hplan := hinv.plan _ rfl
      obtain ⟨condition, action, handler, s, rfl, rfl, hholds, hperform⟩ := Step.run_awaiting hrun
      obtain ⟨_, hchange⟩ := Action.perform_spec (hplan.head.2 hholds).1 hperform
      refine ⟨?_, by rintro _ _ _ _ _ ⟨⟩ ⟨⟩⟩
      rintro _ c ⟨⟩ hc
      obtain ⟨ero, rfl, rfl⟩ | ⟨_, rfl⟩ := hchange
      · cases hc
        exact hnonempty _ _ (hanswers _ _ _ _ _ _ _ rfl rfl rfl rfl)
      · exact hreturned _ c rfl hc
  | handled hprocess =>
      exact hadvanced fun c hc => hreturned _ c rfl (Handler.process_keeps hprocess hc)
  | failed => exact ⟨hreturned, by rintro _ _ _ _ _ ⟨⟩ ⟨⟩⟩
  | delivered =>
      refine ⟨hreturned, ?_⟩
      rintro _ result s c status ⟨⟩ ⟨⟩ ⟨⟩ hc hstatus
      simp [hreported, Tracked.hear, Machine.reports, hc, hstatus]
  | refired => exact ⟨hreturned, by rintro _ _ _ _ _ ⟨⟩ ⟨⟩⟩
  | aborted => exact ⟨hreturned, by rintro _ _ _ _ _ ⟨⟩⟩

/-- A step gives a connection up only once the aggregator reported it terminated, provided that
the result a terminate step handles is confirmed. -/
theorem GivesUp.confirmed {t t' : Tracked} {event : Event} {connectionId : String}
    (hdedup : ∀ g c c', answers g c → answers g c' → c = c')
    (hinv : Inv answers t.machine) (hheard : Heard t) (hconfirmed : TerminateConfirmed t event)
    (h : (tracking answers).step t event t')
    (hgives : GivesUp t.machine t'.machine connectionId) :
    t'.reported connectionId = some ConnectionState.terminated := by
  obtain ⟨machine, reported⟩ := t
  obtain ⟨machine', reported'⟩ := t'
  obtain ⟨hanswers, ⟨sent, hnext⟩, hreported⟩ := h
  replace hreported : reported' = Tracked.hear ⟨machine, reported⟩ event := hreported
  obtain ⟨s, hs, s', hs', hconnection, hgone⟩ := hgives
  -- Nothing is given up by a step that leaves the subscription as it was.
  have hsame : machine.subscription ≠ machine'.subscription := by
    rintro heq
    obtain rfl : s = s' := Option.some.inj (hs.symm.trans (heq.trans hs'))
    rcases hgone with hgone | ⟨hopen, hterminated⟩
    · exact hgone hconnection
    · exact hopen hterminated
  cases fires_of_next hnext with
  | @done before run workflow step rest env after hrun =>
      cases hs
      cases hs'
      obtain ⟨hkept, hterminated⟩ :=
        (Step.done_of_run hrun).connection (hinv.plan _ rfl).head
      rcases hgone with hgone | ⟨hopen, hstate⟩
      · exact absurd (hkept.trans hconnection) hgone
      · obtain ⟨rfl, hanswered⟩ := hterminated hopen hstate
        simp [hreported, Tracked.hear, Machine.reports, hconnection, hanswered]
  | sent hrun =>
      have hplan := hinv.plan _ rfl
      obtain ⟨condition, action, handler, s, rfl, rfl, hholds, hperform⟩ := Step.run_awaiting hrun
      have haction := (hplan.head.2 hholds).1
      obtain ⟨_, ⟨ero, rfl, rfl⟩ | ⟨_, rfl⟩⟩ := Action.perform_spec haction hperform
      · -- The aggregator answers a reserve that is sent again with the same connection.
        cases hs
        cases hs'
        have hanswer := hanswers _ _ _ _ _ _ _ rfl rfl rfl rfl
        have hstored := haction _ hconnection (hheard.returned _ _ rfl hconnection)
        rcases hgone with hgone | ⟨hopen, hstate⟩
        · exact absurd (congrArg some (hdedup _ _ _ hanswer hstored)) hgone
        · exact absurd hstate hopen
      · exact absurd rfl hsame
  | @handled before after run workflow condition action handler rest result env hprocess =>
      cases hs
      cases hs'
      by_cases hhandler : handler ∈ terminateHandlers
      · have hstatus := hconfirmed _ _ _ _ _ _ _ rfl rfl rfl rfl hhandler
        have hlatest := hheard.latest _ _ _ _ _ rfl rfl rfl hconnection hstatus
        simpa [hreported, Tracked.hear, Machine.reports] using hlatest
      · obtain ⟨hkept, hopen'⟩ := Handler.process_connection hhandler hprocess
        rcases hgone with hgone | ⟨_, hstate⟩
        · exact absurd (hkept.trans hconnection) hgone
        · exact absurd hstate hopen'
  | _ => exact absurd rfl hsame

/-- In every run a connection that is given up was last reported terminated, where the result a
terminate step handles says so. -/
theorem circuit_tracked (hdedup : ∀ g c c', answers g c → answers g c' → c = c')
    (hnonempty : ∀ g c, answers g c → c ≠ "") {t t' : Tracked} {event : Event}
    {connectionId : String} (h : (tracking answers).Reachable t)
    (hstep : (tracking answers).step t event t') (hconfirmed : TerminateConfirmed t event)
    (hgives : GivesUp t.machine t'.machine connectionId) :
    t'.reported connectionId = some ConnectionState.terminated := by
  have hinv : Inv answers t.machine ∧ Heard t := by
    refine h.invariant (P := fun t => Inv answers t.machine ∧ Heard t) ?_ ?_
    · rintro ⟨_, reported⟩ rfl
      exact ⟨Inv.blank, ⟨by rintro _ _ ⟨⟩, by rintro _ _ _ _ _ ⟨⟩⟩⟩
    · rintro t event t' ⟨hinv, hheard⟩ hnext
      refine ⟨?_, hheard.step hnonempty hinv hnext⟩
      obtain ⟨hanswers, ⟨sent, hnext⟩, _⟩ := hnext
      exact (hinv.fires hanswers (fires_of_next hnext)).1
  exact hgives.confirmed hdedup hinv.1 hinv.2 hconfirmed hstep

end Runs

/-! ## A terminate of the line's circuit -/

def lineAnswers (_globalReservationId connectionId : String) : Prop := connectionId = "c"

theorem lineAnswers_functional (g c c' : String) (h : lineAnswers g c) (h' : lineAnswers g c') :
    c = c' := h.trans h'.symm

theorem lineAnswers_nonempty (g c : String) (h : lineAnswers g c) : c ≠ "" :=
  h ▸ by decide

def Tracked.fire (t : Tracked) (event : Event) : Option Tracked :=
  (t.machine.fire event).map fun machine => ⟨machine, t.hear event⟩

def lineTerminate (status : String) : List Event :=
  lineCreate ++ [.start .terminate 1, .run lineEnv, .callback ⟨some status, none⟩]

def Tracked.blank : Tracked := ⟨Machine.blank, fun _ => none⟩

def lineTerminated (status : String) : Tracked :=
  ((lineTerminate status).foldlM Tracked.fire Tracked.blank).getD Tracked.blank

theorem tracking_of_fire {t t' : Tracked} {event : Event}
    (henv : ∀ env, event = .run env → env.connectionId = "c") (h : t.fire event = some t') :
    (tracking lineAnswers).step t event t' := by
  obtain ⟨machine, hfire, rfl⟩ := Option.map_eq_some_iff.mp h
  refine ⟨?_, Machine.fire_eq_some.mp hfire, rfl⟩
  rintro env _ _ _ _ _ _ rfl _ _ _
  exact henv env rfl

theorem lineTerminated_reachable {status : String}
    (h : ((lineTerminate status).foldlM Tracked.fire Tracked.blank).isSome) :
    (tracking lineAnswers).Reachable (lineTerminated status) := by
  obtain ⟨t, ht⟩ := Option.isSome_iff_exists.mp h
  have hinit : (tracking lineAnswers).Reachable Tracked.blank := .init rfl
  rw [lineTerminated, ht]
  refine hinit.foldlM (fun event hevent t t' => tracking_of_fire ?_) ht
  rintro env rfl
  obtain rfl : env = lineEnv := by simpa [lineTerminate, lineCreate, createRun] using hevent
  rfl

theorem circuit_tracked_line :
    ((lineTerminated ConnectionState.terminated).fire (.run lineEnv)).map (·.reported "c") =
      some (some ConnectionState.terminated) := by
  have hsome : ((lineTerminated ConnectionState.terminated).fire (.run lineEnv)).isSome := by
    decide +kernel
  obtain ⟨t, ht⟩ := Option.isSome_iff_exists.mp hsome
  have hgives : ∀ t ∈ (lineTerminated ConnectionState.terminated).fire (.run lineEnv),
      GivesUp (lineTerminated ConnectionState.terminated).machine t.machine "c" := by
    decide +kernel
  have hprocess : (lineTerminated ConnectionState.terminated).machine.process.map (·.phase) =
      some (.received ⟨some ConnectionState.terminated, none⟩) := by
    decide +kernel
  rw [ht, Option.map_some, Option.some.injEq]
  refine circuit_tracked lineAnswers_functional lineAnswers_nonempty
    (lineTerminated_reachable (by decide +kernel)) (tracking_of_fire ?_ ht) ?_ (hgives t ht)
  · rintro _ ⟨⟩
    rfl
  · intro env p result condition action handler rest _ hp hphase _ _
    rw [hp, Option.map_some, hphase] at hprocess
    cases hprocess
    rfl

/-- A terminate whose callback says that it failed gives up the connection all the same. -/
theorem failed_terminate_forgotten :
    ∃ answers : String → String → Prop,
      (∀ g c c', answers g c → answers g c' → c = c') ∧ (∀ g c, answers g c → c ≠ "") ∧
      ∃ t event t', (tracking answers).Reachable t ∧ (tracking answers).step t event t' ∧
        GivesUp t.machine t'.machine "c" ∧ t'.reported "c" = some ConnectionState.failed := by
  have hsome : ((lineTerminated ConnectionState.failed).fire (.run lineEnv)).isSome := by
    decide +kernel
  obtain ⟨t, ht⟩ := Option.isSome_iff_exists.mp hsome
  have hgives : ∀ t ∈ (lineTerminated ConnectionState.failed).fire (.run lineEnv),
      GivesUp (lineTerminated ConnectionState.failed).machine t.machine "c" ∧
        t.reported "c" = some ConnectionState.failed := by
    decide +kernel
  refine ⟨lineAnswers, lineAnswers_functional, lineAnswers_nonempty,
    lineTerminated ConnectionState.failed, .run lineEnv, t,
    lineTerminated_reachable (by decide +kernel), tracking_of_fire ?_ ht, hgives t ht⟩
  rintro _ ⟨⟩
  rfl

end NsiOrchestrator.Mdp2p
