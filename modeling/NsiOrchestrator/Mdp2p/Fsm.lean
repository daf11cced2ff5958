import NsiOrchestrator.Py
import Mathlib.Data.List.Nodup

/-! # The connection state machine

The orchestrator's local view of a reservation, stored as a string.
-/

namespace NsiOrchestrator.Mdp2p

namespace ConnectionState

def created : String := "CREATED"
def reserved : String := "RESERVED"
def activated : String := "ACTIVATED"
def failed : String := "FAILED"
def terminated : String := "TERMINATED"

def all : List String := [created, reserved, activated, failed, terminated]

end ConnectionState

open ConnectionState

/-- The events of `ConnectionStateMachine`. -/
inductive FsmEvent where
  | reserveConfirmed
  | reserveFailed
  | provisionConfirmed
  | provisionFailed
  | releaseConfirmed
  | releaseFailed
  | terminate
  | retry
  deriving DecidableEq, Repr

def FsmEvent.name : FsmEvent → String
  | reserveConfirmed => "reserve_confirmed"
  | reserveFailed => "reserve_failed"
  | provisionConfirmed => "provision_confirmed"
  | provisionFailed => "provision_failed"
  | releaseConfirmed => "release_confirmed"
  | releaseFailed => "release_failed"
  | terminate => "terminate"
  | retry => "retry"

/-- The legal transitions of an event, from source state to target state. -/
def FsmEvent.transitions : FsmEvent → List (String × String)
  | reserveConfirmed => [(created, reserved)]
  | reserveFailed => [(created, failed)]
  | provisionConfirmed => [(reserved, activated)]
  | provisionFailed => [(reserved, failed)]
  | releaseConfirmed => [(activated, reserved)]
  | releaseFailed => [(activated, failed)]
  | terminate => [(reserved, terminated), (failed, terminated)]
  | retry => [(failed, created), (created, created)]

/-- `apply`: a machine cannot start in an unknown state, and an event that is illegal
in a known one raises `TransitionNotAllowed`. -/
def apply (currentState : String) (event : FsmEvent) : Except PyError String :=
  if currentState ∈ ConnectionState.all then
    match event.transitions.find? fun t => t.1 = currentState with
    | some (_, target) => .ok target
    | none => .error (.transitionNotAllowed event.name currentState)
  else .error (.invalidStateValue currentState)

theorem FsmEvent.transitions_known (event : FsmEvent) {source target : String}
    (h : (source, target) ∈ event.transitions) :
    source ∈ ConnectionState.all ∧ target ∈ ConnectionState.all := by
  cases event <;> simp [transitions, ConnectionState.all] at h ⊢ <;> grind

/-- Only a retry leads back to the first state. -/
theorem FsmEvent.transitions_advance {event : FsmEvent} (hretry : event ≠ .retry)
    {source target : String} (h : (source, target) ∈ event.transitions) : target ≠ created := by
  cases event with
  | retry => exact absurd rfl hretry
  | terminate =>
      simp only [transitions, List.mem_cons, Prod.mk.injEq, List.not_mem_nil, or_false] at h
      rcases h with ⟨_, rfl⟩ | ⟨_, rfl⟩ <;> decide
  | _ =>
      obtain ⟨_, rfl⟩ : _ ∧ target = _ := by simpa [transitions] using h
      decide

/-- Only a terminate leads to the last state. -/
theorem FsmEvent.transitions_open {event : FsmEvent} (hterminate : event ≠ .terminate)
    {source target : String} (h : (source, target) ∈ event.transitions) : target ≠ terminated := by
  cases event with
  | terminate => exact absurd rfl hterminate
  | retry =>
      simp only [transitions, List.mem_cons, Prod.mk.injEq, List.not_mem_nil, or_false] at h
      rcases h with ⟨_, rfl⟩ | ⟨_, rfl⟩ <;> decide
  | _ =>
      obtain ⟨_, rfl⟩ : _ ∧ target = _ := by simpa [transitions] using h
      decide

theorem FsmEvent.transitions_functional (event : FsmEvent) :
    (event.transitions.map Prod.fst).Nodup := by
  cases event <;> decide

theorem apply_eq_ok {currentState target : String} {event : FsmEvent} :
    apply currentState event = .ok target ↔ (currentState, target) ∈ event.transitions := by
  unfold apply
  constructor
  · intro h
    split at h
    · split at h
      · next source _ hfind =>
          cases h
          obtain rfl : source = currentState := by simpa using List.find?_some hfind
          exact List.mem_of_find?_eq_some hfind
      · cases h
    · cases h
  · intro h
    rw [if_pos (event.transitions_known h).1]
    cases hfind : event.transitions.find? fun t => t.1 = currentState with
    | none => exact absurd (List.find?_eq_none.mp hfind _ h) (by simp)
    | some t =>
        have hsource : t.1 = currentState := by simpa using List.find?_some hfind
        rw [List.inj_on_of_nodup_map event.transitions_functional
          (List.mem_of_find?_eq_some hfind) h hsource]

end NsiOrchestrator.Mdp2p
