import NsiOrchestrator.Mdp2p.Storing
import Mathlib.Logic.Relation

/-! # A reserve and what follows it

A reserve that is sent, answered and handled leaves the circuit with the input it was
sent for. Modify runs after it only change labels.
-/

namespace NsiOrchestrator.Mdp2p

open Outcome Forms Vlans Transition

/-! ## Modify runs -/

def Event.OnlyModifies : Event → Prop
  | .start workflow _ => ∃ circuitDescription, workflow = .modify circuitDescription
  | _ => True

def ModifyStep (m m' : Machine) : Prop :=
  ∃ event sent, event.OnlyModifies ∧ m.next event = some (.ok (m', sent))

def Step.Relabels : Step → Prop
  | setStatus _ | updateCircuitDescription _ | updateSubscriptionDescription => True
  | _ => False

/-- The circuit has the input and state of a given one, and only its labels are to change. -/
def Relabelled (s : Subscription) (m : Machine) : Prop :=
  (∃ t, m.subscription = some t ∧ SameInput s t ∧ t.vc.state = s.vc.state) ∧
    ∀ p, m.process = some p → ∀ step ∈ p.remaining, step.Relabels

theorem Relabelled.advanced {s t : Subscription} {p : Process} (hinput : SameInput s t)
    (hstate : t.vc.state = s.vc.state) (hrest : ∀ step ∈ p.remaining.tail, step.Relabels) :
    Relabelled s ⟨some t, p.advance⟩ := by
  refine ⟨⟨t, rfl, hinput, hstate⟩, fun q hq step hin => ?_⟩
  rw [(Process.advance_eq_some hq).remaining] at hin
  exact hrest step hin

theorem Relabelled.step {s : Subscription} {m m' : Machine} (h : Relabelled s m)
    (hstep : ModifyStep m m') : Relabelled s m' := by
  obtain ⟨event, sent, honly, hnext⟩ := hstep
  obtain ⟨⟨t, ht, hinput, hstate⟩, hremaining⟩ := h
  cases fires_of_next hnext with
  | start =>
      obtain ⟨circuitDescription, rfl⟩ := honly
      refine ⟨⟨t, ht, hinput, hstate⟩, ?_⟩
      rintro _ ⟨⟩
      simp [Workflow.steps, Step.Relabels]
  | @done _ _ _ step _ _ after hrun =>
      cases ht
      have hrelabel := hremaining _ rfl
      have hafter : SameInput t after ∧ after.vc.state = t.vc.state := by
        have hrelabels := hrelabel step List.mem_cons_self
        cases Step.done_of_run hrun with
        | statusSet | described | redescribed => exact ⟨⟨rfl, rfl, rfl, rfl⟩, rfl⟩
        | _ => exact hrelabels.elim
      exact .advanced (hinput.trans hafter.1) (hafter.2.trans hstate) fun step' hin =>
        hrelabel step' (List.mem_of_mem_tail hin)
  | sent hrun =>
      obtain ⟨condition, action, handler, _, rfl, _⟩ := Step.run_awaiting hrun
      exact (hremaining _ rfl _ List.mem_cons_self).elim
  | handled => exact (hremaining _ rfl _ List.mem_cons_self).elim
  | failed => exact ⟨⟨t, ht, hinput, hstate⟩, hremaining⟩
  | delivered | refired =>
      have hremaining := hremaining _ rfl
      refine ⟨⟨t, ht, hinput, hstate⟩, ?_⟩
      rintro _ ⟨⟩
      exact hremaining
  | aborted =>
      refine ⟨⟨t, ht, hinput, hstate⟩, ?_⟩
      intro p hp
      cases hp

theorem Relabelled.run {s : Subscription} {m m' : Machine} (h : Relabelled s m)
    (hrun : Relation.ReflTransGen ModifyStep m m') : Relabelled s m' := by
  induction hrun with
  | refl => exact h
  | tail _ hstep ih => exact ih.step hstep

/-! ## A reserve and its callback -/

/-- The forms of a create or a retry accept the input of the workflow. -/
inductive Workflow.Accepted : Workflow → Prop where
  | create {orders : Orders} {inventory : Inventory} {reservations : List AggregatorReservation}
      {raw : ConnectionFields} {rawVlans : SdpVlanFields} {submission : Submission} :
      createInput orders inventory reservations raw rawVlans = .ok submission →
      Accepted (.create submission)
  | retry {orders : Orders} {inventory : Inventory} {reservations : List AggregatorReservation}
      {vc : Vc} {raw : ConnectionFields} {rawVlans : SdpVlanFields} {submission : Submission} :
      retryInput orders inventory reservations vc raw rawVlans = .ok submission →
      Accepted (.retryReservation submission)

theorem Workflow.Accepted.vlans {workflow : Workflow} {submission : Submission}
    (h : workflow.Accepted) (hsubmission : workflow.submission = some submission) :
    1 ≤ submission.input.sourceVlan ∧ 1 ≤ submission.input.destinationVlan := by
  have hforms : ∀ {orders inventory reservations released values defaults raw rawVlans},
      connectionInput orders inventory reservations released values defaults raw rawVlans =
          .ok submission →
        1 ≤ submission.input.sourceVlan ∧ 1 ≤ submission.input.destinationVlan := by
    intro _ _ _ _ _ _ _ _ h
    obtain ⟨_, _, _, _, _, haccept⟩ := connectionInput_eq_ok.mp h
    have hpage := validate_eq_ok.mp haccept.page
    exact ⟨hpage.sourceAccepted.1, hpage.destinationAccepted.1⟩
  cases h with
  | create h =>
      cases hsubmission
      exact hforms h
  | retry h =>
      cases hsubmission
      exact hforms (retryInput_eq_ok.mp h).2

/-- A reserve that is sent, and answered by a callback with a status that is then handled. -/
structure ReserveRound (m m' : Machine) (submission : Submission) (body : ReserveBody)
    (result : CallbackResult) : Prop where
  workflow : ∃ p, m.process = some p ∧ p.workflow.submission = some submission
  round : ∃ env env' m₁ m₂, m.next (.run env) = some (.ok (m₁, [.reserve body])) ∧
    m₁.next (.callback result) = some (.ok (m₂, [])) ∧
    m₂.next (.run env') = some (.ok (m', []))

structure Settled (P : Inventory → Prop) (submission : Submission) (body : ReserveBody)
    (result : CallbackResult) (s : Subscription) (m : Machine) : Prop where
  stored : ∃ inventory, P inventory ∧ Stores inventory submission s.vc
  body : body = reserveRequest submission.path.ero s.vc
  connection : ∃ c, s.vc.connectionId = some c
  state : s.vc.state = if result.status = some ConnectionState.reserved then
    ConnectionState.reserved else ConnectionState.failed
  relabelled : Relabelled s m

theorem reserve_state {result : CallbackResult} {status source target : String}
    (hstatus : result.status = some status)
    (h : (source, target) ∈ (if status = ConnectionState.reserved then FsmEvent.reserveConfirmed
      else FsmEvent.reserveFailed).transitions) :
    target = if result.status = some ConnectionState.reserved then ConnectionState.reserved
      else ConnectionState.failed := by
  rw [hstatus]
  by_cases hreserved : status = ConnectionState.reserved
  · rw [if_pos hreserved] at h
    rw [if_pos (congrArg some hreserved)]
    exact (Prod.mk.inj (List.mem_singleton.mp h)).2
  · rw [if_neg hreserved] at h
    rw [if_neg (fun heq => hreserved (Option.some.inj heq))]
    exact (Prod.mk.inj (List.mem_singleton.mp h)).2

theorem ReserveRound.settled {P : Inventory → Prop} {m m' : Machine} {submission : Submission}
    {body : ReserveBody} {result : CallbackResult} (hstoring : Storing P m)
    (h : ReserveRound m m' submission body result) :
    ∃ s, Settled P submission body result s m' := by
  obtain ⟨⟨p, hp, hsubmission⟩, env, env', m₁, m₂, hsend, hcallback, hhandled⟩ := h
  cases fires_of_next hsend with
  | sent hrun =>
      cases hp
      obtain ⟨condition, action, handler, s, rfl, rfl, _, hperform⟩ := Step.run_awaiting hrun
      cases Action.performed_of_perform hperform with
      | reserved =>
          obtain ⟨_, hsubmission', rfl, rfl, rfl, rfl⟩ :=
            Workflow.reserve_step (hstoring.suffix _ rfl)
          cases hsubmission.symm.trans hsubmission'
          obtain ⟨_, inventory, ⟨⟩, hP, hstores⟩ :=
            hstoring.stored _ submission rfl hsubmission (by simp [Step.stores])
          cases fires_of_next hcallback with
          | delivered =>
              cases fires_of_next hhandled with
              | @handled _ t _ _ _ _ _ _ _ _ hprocess =>
                  obtain ⟨status, state, hstatus, htransition, rfl⟩ :=
                    processResult_eq_ok.mp hprocess
                  refine ⟨_, ⟨inventory, hP, ?_⟩, ?_, ?_, ?_, .advanced (.refl _) rfl ?_⟩
                  · exact SameInput.stores (s := s) ⟨rfl, rfl, rfl, rfl⟩ hstores
                  · rfl
                  · exact ⟨_, rfl⟩
                  · exact reserve_state hstatus htransition
                  · simp [Step.Relabels]

/-! ## A create from its start -/

def createAt (env : StepEnv) (submission : Submission) (result : CallbackResult) (n : ℕ) :
    Machine :=
  (((createRun env submission result).take n).foldlM Machine.fire Machine.blank).getD Machine.blank

theorem createAt_reachable {env : StepEnv} {submission : Submission} {result : CallbackResult}
    {n : ℕ}
    (h : (((createRun env submission result).take n).foldlM Machine.fire Machine.blank).isSome) :
    (circuit.restrict fun _ event => FindsInventory (· = env.inventory) event).Reachable
      (createAt env submission result n) := by
  obtain ⟨m, hm⟩ := Option.isSome_iff_exists.mp h
  have hinit : (circuit.restrict fun _ event => FindsInventory (· = env.inventory) event).Reachable
      Machine.blank := .init rfl
  rw [createAt, hm]
  refine System.Reachable.foldlM ?_ hinit hm
  intro event hevent t t' hfire
  refine ⟨?_, Machine.fire_eq_some.mp hfire⟩
  rintro env' rfl
  obtain rfl : env' = env := by simpa [createRun] using List.mem_of_mem_take hevent
  rfl

end NsiOrchestrator.Mdp2p
