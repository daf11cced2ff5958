import NsiOrchestrator.Mdp2p.Lifecycle
import NsiOrchestrator.Mdp2p.Storing
import Mathlib.Logic.Relation

/-! # The description and the last error

A run together with the verdicts it has met: the results of reserve, provision and
release, and the answers to reconcile that name a stable status. When no process is
at work the description is up to date and the last error is that of the last verdict.
-/

namespace NsiOrchestrator.Mdp2p

open Outcome Forms Vlans Transition

/-! ## Verdicts -/

inductive Verdict where
  /-- The operation of a callback step succeeded. -/
  | confirmed
  /-- It did not; the result carries the aggregator's error. -/
  | failed (lastError : Option String)
  /-- Reconcile was answered with a stable status. -/
  | stable (lastError : Option String)
  deriving DecidableEq, Repr

def Verdict.lastError : Verdict → Option String
  | confirmed => none
  | failed lastError => lastError
  | stable lastError => lastError

def latestError (log : List Verdict) : Option String := log.getLast?.bind Verdict.lastError

/-- The status that confirms a reserve, a provision or a release. -/
def Handler.wanted : Handler → Option String
  | processReservationResult => some ConnectionState.reserved
  | processProvisionResult => some ConnectionState.activated
  | processReleaseResult => some ConnectionState.reserved
  | processTerminateResult => none
  | dropConnection => none

def Handler.verdict (handler : Handler) (result : CallbackResult) : Option Verdict :=
  handler.wanted.map fun wanted =>
    if result.status = some wanted then .confirmed else .failed result.lastError

def Step.verdict (env : StepEnv) : Step → Option Verdict
  | reconcileConnectionState =>
      if env.reservation.status ∈ reconcilableStates then some (.stable env.reservation.lastError)
      else none
  | _ => none

def Machine.verdict (m : Machine) (event : Event) : Option Verdict :=
  match event, m.process with
  | .run env, some ⟨_, _, step :: _, .ready⟩ => step.verdict env
  | .run _, some ⟨_, _, .callbackStep _ _ handler :: _, .received result⟩ => handler.verdict result
  | _, _ => none

structure Judged where
  machine : Machine
  log : List Verdict
  deriving DecidableEq

/-- The runs of one circuit. None is aborted: a run that has ended is complete. -/
def judging : System Judged Event where
  init j := j = ⟨Machine.blank, []⟩
  step j event j' :=
    event ≠ .abort ∧ circuit.step j.machine event j'.machine ∧
      j'.log = j.log ++ (j.machine.verdict event).toList

/-! ## The last error -/

def Machine.lastError (m : Machine) : Option String := m.subscription.bind fun s => s.vc.lastError

theorem latestError_append (log : List Verdict) (verdict : Option Verdict) :
    latestError (log ++ verdict.toList) = verdict.elim (latestError log) Verdict.lastError := by
  cases verdict with
  | none => simp
  | some verdict => simp [latestError]

theorem Handler.process_lastError {handler : Handler} {result : CallbackResult}
    {s t : Subscription} (h : handler.process result s = .ok t) :
    t.vc.lastError = (handler.verdict result).elim s.vc.lastError Verdict.lastError := by
  have hresult : ∀ {wanted confirmed failed},
      processResult wanted confirmed failed result s = .ok t → t.vc.lastError =
        (if result.status = some wanted then Verdict.confirmed
          else .failed result.lastError).lastError := by
    intro wanted confirmed failed h
    obtain ⟨status, state, hstatus, _, rfl⟩ := processResult_eq_ok.mp h
    by_cases hwanted : status = wanted
    · simp [hstatus, hwanted, Verdict.lastError]
    · simp [hstatus, hwanted, Verdict.lastError]
  cases handler with
  | processTerminateResult =>
      obtain ⟨_, rfl⟩ := (processTerminateResult_eq_ok result).mp h
      rfl
  | dropConnection =>
      cases h
      rfl
  | _ => exact hresult h

theorem reconcileConnectionState_lastError (reservation : AggregatorReservation)
    (s : Subscription) :
    (reconcileConnectionState reservation s).vc.lastError =
      if reservation.status ∈ reconcilableStates then reservation.lastError
      else s.vc.lastError := by
  by_cases hstable : reservation.status ∈ reconcilableStates
  · simp only [reconcileConnectionState, if_pos hstable]
  · simp [reconcileConnectionState, reconciledState, hstable]

section LastError

variable {answers : String → String → Prop}

theorem Step.Done.lastError {env : StepEnv} {step : Step} {before : Option Subscription}
    {t : Subscription} (hpre : step.Pre answers before) (h : step.Done env before t) :
    t.vc.lastError = (step.verdict env).elim (before.bind fun s => s.vc.lastError)
      Verdict.lastError := by
  cases h with
  | constructed h =>
      obtain ⟨_, _, _, _, _, _, rfl⟩ := constructMdp2pModel_eq_ok.mp h
      obtain rfl : before = none := hpre
      rfl
  | updated h =>
      obtain ⟨_, _, _, _, _, rfl⟩ := updateSubscription_eq_ok.mp h
      rfl
  | reconciled =>
      rw [reconcileConnectionState_lastError, verdict]
      split <;> rfl
  | _ => rfl

/-- An event that brings a verdict writes its error; every other one keeps it. -/
theorem Fires.lastError {m m' : Machine} {event : Event} {sent : List Request}
    (hinv : Inv answers m) (h : Fires m event m' sent) :
    m'.lastError = (m.verdict event).elim m.lastError Verdict.lastError := by
  cases h with
  | done hrun => exact (Step.done_of_run hrun).lastError (hinv.plan _ rfl).head
  | sent hrun =>
      obtain ⟨condition, action, handler, s, rfl, rfl, _, hperform⟩ := Step.run_awaiting hrun
      cases Action.performed_of_perform hperform <;> rfl
  | handled hprocess => exact Handler.process_lastError hprocess
  | _ => rfl

end LastError

/-! ## The description -/

theorem Subscription.describe_eq_iff {s : Subscription} : s.describe = s ↔ s.description =
    s.productTag ++ " " ++ s.vc.circuitDescription ++ " (" ++ s.vc.state ++ ")" := by
  constructor
  · exact fun h => (congrArg Subscription.description h).symm
  · intro h
    obtain ⟨lifecycle, tag, vc, description⟩ := s
    dsimp only at h
    subst h
    rfl

theorem Subscription.describe_eq {s t : Subscription} (h : s.describe = s)
    (hdescription : t.description = s.description) (htag : t.productTag = s.productTag)
    (hcircuit : t.vc.circuitDescription = s.vc.circuitDescription)
    (hstate : t.vc.state = s.vc.state) : t.describe = t := by
  rw [describe_eq_iff, hdescription, htag, hcircuit, hstate]
  exact describe_eq_iff.mp h

/-- The description is up to date, or the process still has to write it. -/
def Machine.Described (m : Machine) : Prop :=
  ∀ s, m.subscription = some s →
    s.describe = s ∨ ∃ p, m.process = some p ∧ .updateSubscriptionDescription ∈ p.remaining

theorem Process.advance_of_mem {p : Process} {step step' : Step} {rest : List Step}
    (hremaining : p.remaining = step :: rest) (h : step' ∈ rest) :
    ∃ q, p.advance = some q ∧ step' ∈ q.remaining := by
  rw [advance, hremaining, List.tail_cons]
  cases rest with
  | nil => cases h
  | cons next rest => exact ⟨_, rfl, h⟩

theorem Workflow.describes_after {workflow : Workflow} {circuitDescription : String}
    {rest : List Step}
    (h : .updateCircuitDescription circuitDescription :: rest <:+ workflow.steps) :
    .updateSubscriptionDescription ∈ rest := by
  cases workflow with
  | modify circuitDescription' =>
      simp only [steps, List.suffix_cons_iff, List.cons.injEq, reduceCtorEq,
        Step.updateCircuitDescription.injEq, false_and, false_or, or_false,
        List.suffix_nil] at h
      rw [h.2]
      exact List.mem_cons_self
  | _ => simp [steps, List.suffix_cons_iff] at h

theorem reconcileConnectionState_describe (reservation : AggregatorReservation) {s : Subscription}
    (h : s.describe = s) :
    (reconcileConnectionState reservation s).describe = reconcileConnectionState reservation s := by
  by_cases hdiffers : reservation.status ∈ reconcilableStates ∧ reservation.status ≠ s.vc.state
  · simp only [reconcileConnectionState, reconciledState, if_pos hdiffers, if_pos hdiffers.1]
    rfl
  · simp only [reconcileConnectionState, reconciledState, if_neg hdiffers]
    split
    · exact Subscription.describe_eq h rfl rfl rfl rfl
    · exact h

theorem Handler.process_describe {handler : Handler} {result : CallbackResult}
    {s t : Subscription} (h : handler.process result s = .ok t) :
    t.describe = t ∨ (s.describe = s → t.describe = t) := by
  cases handler with
  | processTerminateResult =>
      obtain ⟨_, rfl⟩ := (processTerminateResult_eq_ok result).mp h
      exact .inl rfl
  | dropConnection =>
      cases h
      exact .inr fun hs => Subscription.describe_eq hs rfl rfl rfl rfl
  | _ =>
      obtain ⟨_, _, _, _, rfl⟩ := processResult_eq_ok.mp h
      exact .inl rfl

theorem Step.Done.describe {env : StepEnv} {step : Step} {before : Option Subscription}
    {t : Subscription} (h : step.Done env before t) :
    t.describe = t ∨ (∃ circuitDescription, step = .updateCircuitDescription circuitDescription) ∨
      step ≠ .updateSubscriptionDescription ∧
        ∃ s, before = some s ∧ (s.describe = s → t.describe = t) := by
  cases h with
  | constructed h =>
      obtain ⟨_, _, _, _, _, _, rfl⟩ := constructMdp2pModel_eq_ok.mp h
      exact .inl rfl
  | @statusSet lifecycle s _ =>
      exact .inr (.inr ⟨nofun, s, rfl, fun hs => Subscription.describe_eq hs rfl rfl rfl rfl⟩)
  | skipped => exact .inr (.inr ⟨nofun, _, rfl, id⟩)
  | updated h =>
      obtain ⟨_, _, _, _, _, rfl⟩ := updateSubscription_eq_ok.mp h
      exact .inl rfl
  | described => exact .inr (.inl ⟨_, rfl⟩)
  | redescribed => exact .inl rfl
  | @reconciled s =>
      exact .inr (.inr ⟨nofun, s, rfl, reconcileConnectionState_describe _⟩)

/-- A process that has done a step still has to write the description, if it had to before and
the step did not. -/
theorem Machine.Described.advance {s t : Subscription} {p : Process} {step : Step}
    {rest : List Step} (h : Machine.Described ⟨some s, some p⟩)
    (hremaining : p.remaining = step :: rest) (hstep : step ≠ .updateSubscriptionDescription)
    (hdescribe : s.describe = s → t.describe = t) :
    Machine.Described ⟨some t, p.advance⟩ := by
  rintro _ ⟨⟩
  rcases h s rfl with hs | ⟨p, ⟨⟩, hpending⟩
  · exact .inl (hdescribe hs)
  · rw [hremaining] at hpending
    exact .inr (p.advance_of_mem hremaining (List.mem_of_ne_of_mem hstep.symm hpending))

theorem Machine.Described.fires {m m' : Machine} {event : Event} {sent : List Request}
    (hsuffix : ∀ p, m.process = some p → p.remaining <:+ p.workflow.steps)
    (hdescribed : m.Described) (hevent : event ≠ .abort) (h : Fires m event m' sent) :
    m'.Described := by
  cases h with
  | start =>
      intro s hs
      rcases hdescribed s hs with hs | ⟨p, hp, _⟩
      · exact .inl hs
      · cases hp
  | @done before run workflow step rest env after hrun =>
      rcases (Step.done_of_run hrun).describe with hafter | ⟨d, rfl⟩ | ⟨hstep, s, rfl, hkeeps⟩
      · rintro _ ⟨⟩
        exact .inl hafter
      · rintro _ ⟨⟩
        have hpending := Workflow.describes_after (hsuffix _ rfl)
        exact .inr (Process.advance_of_mem rfl hpending)
      · exact hdescribed.advance rfl hstep hkeeps
  | @sent before run workflow step rest env after request hrun =>
      obtain ⟨condition, action, handler, s, rfl, rfl, _, hperform⟩ := Step.run_awaiting hrun
      have hkeeps : s.describe = s → after.describe = after := by
        cases Action.performed_of_perform hperform with
        | reserved => exact fun hs => Subscription.describe_eq hs rfl rfl rfl rfl
        | _ => exact id
      rintro _ ⟨⟩
      rcases hdescribed s rfl with hs | ⟨p, ⟨⟩, hpending⟩
      · exact .inl (hkeeps hs)
      · exact .inr ⟨_, rfl, hpending⟩
  | handled hprocess =>
      rcases Handler.process_describe hprocess with hafter | hkeeps
      · rintro _ ⟨⟩
        exact .inl hafter
      · exact hdescribed.advance rfl nofun hkeeps
  | failed => exact hdescribed
  | delivered | refired =>
      intro s hs
      rcases hdescribed s hs with hs | ⟨p, ⟨⟩, hpending⟩
      · exact .inl hs
      · exact .inr ⟨_, rfl, hpending⟩
  | aborted => exact absurd rfl hevent

/-! ## Every run -/

theorem circuit_of_judging {j : Judged} (h : judging.Reachable j) :
    circuit.Reachable j.machine := by
  induction h with
  | init h =>
      cases h
      exact .init rfl
  | step _ hstep ih => exact .step ih hstep.2.1

structure Accounted (j : Judged) : Prop where
  lastError : j.machine.lastError = latestError j.log
  described : j.machine.Described

theorem accounted_of_reachable {j : Judged} (h : judging.Reachable j) : Accounted j := by
  induction h with
  | init h =>
      cases h
      exact ⟨rfl, fun _ hs => nomatch hs⟩
  | step hreachable hstep ih =>
      obtain ⟨hevent, ⟨sent, hnext⟩, hlog⟩ := hstep
      have hcircuit := circuit_of_judging hreachable
      have hfires := fires_of_next hnext
      constructor
      · rw [hfires.lastError (inv_of_circuit hcircuit), hlog, latestError_append, ih.lastError]
      · exact ih.described.fires (fun _ => suffix_of_circuit hcircuit) hevent hfires

/-! ## Runs that leave the last error -/

/-- A run of a workflow from its start to its end, whose events see what they may. -/
def Completes (workflow : Workflow) (sees : Event → Prop) (j j' : Judged) : Prop :=
  ∃ run started, judging.step j (.start workflow run) started ∧
    Relation.ReflTransGen (fun a b => a.machine.process ≠ none ∧
      ∃ event, sees event ∧ judging.step a event b) started j' ∧
    j'.machine.process = none

def SeesTransient : Event → Prop
  | .run env => env.reservation.status ∉ reconcilableStates
  | _ => True

/-- Modify, terminate, and a reconcile that is answered with a transient status. -/
inductive LeavesError : Workflow → (Event → Prop) → Prop
  | modify {circuitDescription : String} :
      LeavesError (.modify circuitDescription) fun _ => True
  | terminate : LeavesError .terminate fun _ => True
  | reconcile : LeavesError .reconcile SeesTransient

def Step.Silent (sees : Event → Prop) : Step → Prop
  | callbackStep _ _ handler => handler.wanted = none
  | reconcileConnectionState =>
      ∀ env, sees (.run env) → env.reservation.status ∉ reconcilableStates
  | _ => True

theorem LeavesError.silent {workflow : Workflow} {sees : Event → Prop}
    (h : LeavesError workflow sees) : ∀ step ∈ workflow.steps, step.Silent sees := by
  cases h with
  | modify => simp [Workflow.steps, Step.Silent]
  | terminate => simp [Workflow.steps, Step.Silent, Handler.wanted]
  | reconcile =>
      simp only [Workflow.steps, List.mem_singleton, forall_eq]
      exact fun _ hsees => hsees

theorem Machine.verdict_of_silent {m : Machine} {event : Event} {sees : Event → Prop}
    (hsees : sees event)
    (hsilent : ∀ p, m.process = some p → ∀ step ∈ p.remaining, step.Silent sees) :
    m.verdict event = none := by
  unfold verdict
  split
  · next env _ _ step _ hp =>
      have hstep := hsilent _ hp step List.mem_cons_self
      cases step with
      | reconcileConnectionState => exact if_neg (hstep env hsees)
      | _ => rfl
  · next handler _ _ hp =>
      have hstep := hsilent _ hp _ List.mem_cons_self
      simp only [Step.Silent] at hstep
      simp [Handler.verdict, hstep]
  · rfl

theorem Fires.workflow {m m' : Machine} {event : Event} {sent : List Request}
    (h : Fires m event m' sent) {p p' : Process} (hp : m.process = some p)
    (hp' : m'.process = some p') : p'.workflow = p.workflow := by
  cases h with
  | start => cases hp
  | done | handled =>
      cases hp
      exact (Process.advance_eq_some hp').workflow
  | aborted => cases hp'
  | _ =>
      cases hp
      cases hp'
      rfl

theorem Fires.started {m m' : Machine} {workflow : Workflow} {run : ℕ} {sent : List Request}
    (h : Fires m (.start workflow run) m' sent) {p : Process} (hp : m'.process = some p) :
    p.workflow = workflow := by
  cases h with
  | start =>
      cases hp
      rfl

theorem Fires.stored {m m' : Machine} {event : Event} {sent : List Request}
    (h : Fires m event m' sent) (hstored : m.subscription ≠ none) : m'.subscription ≠ none := by
  cases h with
  | done | sent | handled => simp
  | _ => exact hstored

structure During (workflow : Workflow) (log : List Verdict) (j : Judged) : Prop where
  reachable : judging.Reachable j
  workflow : ∀ p, j.machine.process = some p → p.workflow = workflow
  log : j.log = log
  stored : j.machine.subscription ≠ none

theorem During.step {workflow : Workflow} {sees : Event → Prop} {log : List Verdict}
    {j j' : Judged} {event : Event} (h : During workflow log j)
    (hleaves : LeavesError workflow sees) (hbusy : j.machine.process ≠ none) (hsees : sees event)
    (hstep : judging.step j event j') : During workflow log j' := by
  obtain ⟨p, hp⟩ := Option.ne_none_iff_exists'.mp hbusy
  have hsilent : ∀ p, j.machine.process = some p → ∀ step ∈ p.remaining, step.Silent sees := by
    intro p hp step hin
    have hsuffix := suffix_of_circuit (circuit_of_judging h.reachable) hp
    rw [h.workflow p hp] at hsuffix
    exact hleaves.silent step (hsuffix.mem hin)
  refine ⟨.step h.reachable hstep, ?_, ?_, ?_⟩
  · obtain ⟨_, ⟨sent, hnext⟩, _⟩ := hstep
    intro p' hp'
    rw [(fires_of_next hnext).workflow hp hp', h.workflow p hp]
  · obtain ⟨_, _, hlog⟩ := hstep
    rw [hlog, Machine.verdict_of_silent hsees hsilent, h.log]
    exact List.append_nil _
  · obtain ⟨_, ⟨sent, hnext⟩, _⟩ := hstep
    exact (fires_of_next hnext).stored h.stored

theorem Completes.during {workflow : Workflow} {sees : Event → Prop} {j j' : Judged}
    (hj : judging.Reachable j) (hstored : j.machine.subscription ≠ none)
    (hleaves : LeavesError workflow sees) (h : Completes workflow sees j j') :
    During workflow j.log j' := by
  obtain ⟨run, started, hstart, hrun, -⟩ := h
  have hstarted : During workflow j.log started := by
    refine ⟨.step hj hstart, ?_, ?_, ?_⟩
    · obtain ⟨_, ⟨sent, hnext⟩, _⟩ := hstart
      exact fun p hp => (fires_of_next hnext).started hp
    · obtain ⟨_, _, hlog⟩ := hstart
      rw [hlog]
      exact List.append_nil _
    · obtain ⟨_, ⟨sent, hnext⟩, _⟩ := hstart
      exact (fires_of_next hnext).stored hstored
  induction hrun with
  | refl => exact hstarted
  | tail _ hnext ih =>
      obtain ⟨hbusy, event, hsees, hstep⟩ := hnext
      exact ih.step hleaves hbusy hsees hstep

theorem Judged.lastError_eq {j : Judged} (h : judging.Reachable j) {s : Subscription}
    (hs : j.machine.subscription = some s) : s.vc.lastError = latestError j.log := by
  rw [← (accounted_of_reachable h).lastError, Machine.lastError, hs]
  rfl

/-- After every sequence of completed runs the stored description is up to date and the last
error is that of the last verdict: the error of a failed operation or of a stable answer to
reconcile, and none after a success or before any verdict. Modify, terminate and a reconcile
that sees a transient status leave it. -/
theorem circuit_reported {j : Judged} {s : Subscription} (h : judging.Reachable j)
    (hended : j.machine.process = none) (hs : j.machine.subscription = some s) :
    s.description =
      s.productTag ++ " " ++ s.vc.circuitDescription ++ " (" ++ s.vc.state ++ ")" ∧
    s.vc.lastError = latestError j.log ∧
    ∀ workflow sees j', LeavesError workflow sees → Completes workflow sees j j' →
      ∃ s', j'.machine.subscription = some s' ∧ s'.vc.lastError = s.vc.lastError := by
  refine ⟨?_, Judged.lastError_eq h hs, ?_⟩
  · rcases (accounted_of_reachable h).described s hs with hdescribed | ⟨p, hp, _⟩
    · exact Subscription.describe_eq_iff.mp hdescribed
    · rw [hended] at hp
      cases hp
  · intro workflow sees j' hleaves hrun
    have hstored : j.machine.subscription ≠ none := by simp [hs]
    have hduring := hrun.during h hstored hleaves
    obtain ⟨s', hs'⟩ := Option.ne_none_iff_exists'.mp hduring.stored
    refine ⟨s', hs', ?_⟩
    rw [Judged.lastError_eq hduring.reachable hs', hduring.log, Judged.lastError_eq h hs]

/-! ## A reserve that failed -/

def Judged.fire (j : Judged) (event : Event) : Option Judged :=
  (j.machine.fire event).map fun m => ⟨m, j.log ++ (j.machine.verdict event).toList⟩

def lineJudged : Judged :=
  ((createRun lineEnv lineSubmission ⟨some ConnectionState.failed, some "no path"⟩).foldlM
    Judged.fire ⟨Machine.blank, []⟩).getD ⟨Machine.blank, []⟩

theorem lineJudged_reachable : judging.Reachable lineJudged := by
  have hfires : (createRun lineEnv lineSubmission
      ⟨some ConnectionState.failed, some "no path"⟩).foldlM Judged.fire ⟨Machine.blank, []⟩ =
      some lineJudged := by
    decide +kernel
  refine System.Reachable.foldlM ?_ (.init rfl) hfires
  intro event hin j j' hfire
  obtain ⟨m, hm, rfl⟩ := Option.map_eq_some_iff.mp hfire
  refine ⟨?_, Machine.fire_eq_some.mp hm, rfl⟩
  rintro rfl
  simp [createRun] at hin

theorem circuit_reported_line :
    ∃ s, lineJudged.machine.subscription = some s ∧
      s.description = "MDP2P circuit (FAILED)" ∧ s.vc.lastError = some "no path" := by
  have hended : lineJudged.machine.process = none := by decide +kernel
  have hlog : lineJudged.log = [.failed (some "no path")] := by decide +kernel
  have hstored : lineJudged.machine.subscription ≠ none := by decide +kernel
  obtain ⟨s, hs⟩ := Option.ne_none_iff_exists'.mp hstored
  have hfields : lineJudged.machine.subscription.map
      (fun s => (s.productTag, s.vc.circuitDescription, s.vc.state)) =
        some ("MDP2P", "circuit", ConnectionState.failed) := by
    decide +kernel
  obtain ⟨hdescription, herror, _⟩ := circuit_reported lineJudged_reachable hended hs
  rw [hs, Option.map_some, Option.some.injEq, Prod.mk.injEq, Prod.mk.injEq] at hfields
  obtain ⟨htag, hcircuit, hstate⟩ := hfields
  refine ⟨s, hs, ?_, ?_⟩
  · rw [hdescription, htag, hcircuit, hstate]
    decide
  · rw [herror, hlog]
    rfl

end NsiOrchestrator.Mdp2p
