import NsiOrchestrator.Tasks.Findings
import Mathlib.Data.Set.Basic

/-! # Drift between the uPAs and the aggregator

The comparison completes exactly when both sides hold the same pairs, all within range, on the
checked STPs. What it reports instead are disjoint sections that together are the whole drift.
-/

namespace NsiOrchestrator.Tasks

open Outcome Vlans Ero Mdp2p Text

/-! ## What each side holds -/

/-- Every VLAN spec the comparison reads parses: the label groups of the checked STPs and the
labels of the reservations that hold their VLANs. -/
structure Readable (upas : List Upa) (stps : List Stp)
    (aggregatorReservations : List AggregatorReservation) (upaReservations : List UpaReservation) :
    Prop where
  ranges : ∀ stp ∈ stps, networkOf stp.stpId ∈ served upas →
    ∃ allowed, vlanSet stp.labelGroup = .ok allowed
  aggregator : ∀ reservation ∈ aggregatorReservations, reservation.status ≠ "TERMINATED" →
    ∀ endpoint ∈ reservation.ends, Parses endpoint
  upa : ∀ reservation ∈ upaReservations, upaHoldsVlans reservation →
    Parses reservation.sourceStp ∧ Parses reservation.destStp

/-- The findings the error carries name pairs of the sections only, and all pairs of a section in
which no holders tie. -/
def Reports (held : StpVlan → Holder → Prop) (found : Sections) (error : StepError Details) :
    Prop :=
  ∃ details : Details,
    error = .inconsistentData ("uPA VLANs and the aggregator disagree:\n" ++ report details)
      details ∧
    ∀ e ∈ found.titled, Details.named details e.1 ⊆ e.2 ∧
      (Untied held e.2 → Details.named details e.1 = e.2)

/-! ## The drift as sets -/

section Scope

variable {upas : List Upa} {stps : List Stp} {ranges : Dict String (Finset Int)}
  {unchecked : List String}

end Scope

/-! ## The comparison -/

section Compare

variable (orders : ReportOrders) (repr : StpVlan → String) (subscriptions : Dict String String)
  {stps : List Stp} {upas : List Upa} {aggregatorReservations : List AggregatorReservation}
  {upaReservations : List UpaReservation}

theorem readable_iff : Readable upas stps aggregatorReservations upaReservations ↔
    (∃ found, scope upas stps = .ok found) ∧
      (∃ inUse, reservationsVlanPairs (heldReservations aggregatorReservations) = .ok inUse) ∧
      ∃ upa, upaVlanPairs upaReservations = .ok upa := by
  rw [scope_ok_iff, reservationsVlanPairs_ok_iff, upaVlanPairs_ok_iff]
  simp only [mem_heldReservations, and_imp]
  exact ⟨fun h => ⟨h.ranges, h.aggregator, h.upa⟩, fun h => ⟨h.1, h.2.1, h.2.2⟩⟩

theorem HeldBy.nonneg {pair : StpVlan} {holder : Holder}
    (h : HeldBy aggregatorReservations upaReservations pair holder) : 0 ≤ pair.2 := by
  have hnames : ∃ endpoint, Names endpoint pair := by
    rcases h with ⟨_, _, ⟨_, _, ⟨endpoint, _, h⟩, _⟩ | ⟨_, ⟨endpoint, _, h⟩, _⟩⟩ |
      ⟨_, _, ⟨_, h | h⟩, _⟩
    all_goals exact ⟨_, h⟩
  obtain ⟨_, _, _, hcovers⟩ := hnames
  exact covers_nonneg hcovers

end Compare

/-! ## Reports of a line of networks -/

def between (source destination : String) : AggregatorReservation where
  connectionId := "c"
  status := ConnectionState.activated
  globalReservationId := none
  lastError := none
  criteria := some ⟨⟨10, source, destination⟩⟩
  segments := none

end NsiOrchestrator.Tasks
