import NsiOrchestrator.Lib.Repr
import NsiOrchestrator.Lib.SetOrder
import NsiOrchestrator.Mdp2p.Estate

/-! # The reservations of the aggregator against the subscriptions

The connections of the reservations that are not terminated are compared with those
the subscriptions store, in both directions. `printable` is what `repr` takes for
printable beyond ASCII. Over runs the two sides differ only while a process reserves or
terminates.
-/

namespace NsiOrchestrator.Tasks

open Text Vlans Mdp2p

/-- `live`: the connections of the reservations that are not terminated. -/
def liveConnections (reservations : List AggregatorReservation) : Finset String :=
  ((reservations.filter fun r => r.status ≠ ConnectionState.terminated).map
    AggregatorReservation.connectionId).toFinset

structure CheckedReservations where
  checkedReservations : ℕ
  checkedSubscriptions : ℕ
  ignoredReservations : List String
  deriving DecidableEq, Repr

def disagreement (printable : Char → Bool)
    (reservationsWithoutSubscription subscriptionsWithoutReservation : List String) : String :=
  String.ofList
    ("Aggregator and subscriptions disagree:\n  reservations without a subscription: ".toList ++
      reprList printable reservationsWithoutSubscription ++
      "\n  subscriptions without a live reservation: ".toList ++
      reprList printable subscriptionsWithoutReservation)

/-- `compare_reservations_to_subscriptions`. The ignored connections count as subscribed, but
not the other way around. -/
def compareReservationsToSubscriptions (printable : Char → Bool)
    (ignoredConnectionIds : List String) (reservations : List AggregatorReservation)
    (subscribed : Finset String) :
    Except PyError CheckedReservations :=
  let live := liveConnections reservations
  let ignored := ignoredConnectionIds.toFinset
  let reservationsWithoutSubscription := sorted ((live \ subscribed) \ ignored)
  let subscriptionsWithoutReservation := sorted (subscribed \ live)
  if reservationsWithoutSubscription ≠ [] ∨ subscriptionsWithoutReservation ≠ [] then
    .error (.inconsistentData (disagreement printable reservationsWithoutSubscription
      subscriptionsWithoutReservation))
  else .ok ⟨live.card, subscribed.card, sorted (live ∩ ignored)⟩

theorem mem_liveConnections {reservations : List AggregatorReservation} {connectionId : String} :
    connectionId ∈ liveConnections reservations ↔
      ∃ r ∈ reservations, r.status ≠ ConnectionState.terminated ∧
        r.connectionId = connectionId := by
  simp [liveConnections, and_assoc]

theorem disagreement_injective {printable : Char → Bool} {without without' lost lost' : List String}
    (h : disagreement printable without lost = disagreement printable without' lost') :
    without = without' ∧ lost = lost' := by
  have hchars := String.ofList_injective h
  rw [List.append_assoc, List.append_assoc, List.append_assoc, List.append_assoc] at hchars
  obtain ⟨rfl, hrest⟩ := reprList_append_inj (List.append_cancel_left hchars)
  have hlost := List.append_cancel_left hrest
  rw [← List.append_nil (reprList printable lost), ← List.append_nil (reprList printable lost')]
    at hlost
  exact ⟨rfl, (reprList_append_inj hlost).1⟩

theorem sorted_eq_nil {s : Finset String} : sorted s = [] ↔ s = ∅ := by
  rw [Finset.eq_empty_iff_forall_notMem, List.eq_nil_iff_forall_not_mem]
  simp only [mem_sorted]

theorem sorted_injective {s s' : Finset String} (h : sorted s = sorted s') : s = s' := by
  ext x
  rw [← mem_sorted, h, mem_sorted]

/-- Every live reservation that is not ignored has a subscription, and every subscription has a
live reservation. -/
structure Agreed (ignored : List String) (reservations : List AggregatorReservation)
    (subscribed : Finset String) : Prop where
  listed : liveConnections reservations \ subscribed ⊆ ignored.toFinset
  stored : subscribed ⊆ liveConnections reservations

section Compare

variable {printable : Char → Bool} {ignored : List String}
  {reservations : List AggregatorReservation} {subscribed : Finset String}

theorem agreed_iff : Agreed ignored reservations subscribed ↔
    sorted ((liveConnections reservations \ subscribed) \ ignored.toFinset) = [] ∧
      sorted (subscribed \ liveConnections reservations) = [] := by
  rw [sorted_eq_nil, sorted_eq_nil, Finset.sdiff_eq_empty_iff_subset,
    Finset.sdiff_eq_empty_iff_subset]
  exact ⟨fun h => ⟨h.listed, h.stored⟩, fun h => ⟨h.1, h.2⟩⟩

theorem compareReservations_of_agreed (h : Agreed ignored reservations subscribed) :
    compareReservationsToSubscriptions printable ignored reservations subscribed =
      .ok ⟨(liveConnections reservations).card, subscribed.card,
        sorted (liveConnections reservations ∩ ignored.toFinset)⟩ := by
  obtain ⟨hwithout, hlost⟩ := agreed_iff.mp h
  simp [compareReservationsToSubscriptions, hwithout, hlost]

theorem compareReservations_of_not_agreed (h : ¬ Agreed ignored reservations subscribed) :
    compareReservationsToSubscriptions printable ignored reservations subscribed =
      .error (.inconsistentData (disagreement printable
        (sorted ((liveConnections reservations \ subscribed) \ ignored.toFinset))
        (sorted (subscribed \ liveConnections reservations)))) := by
  rw [agreed_iff, not_and_or] at h
  exact if_pos h

end Compare

/-- The task ends well exactly when both sides agree. Otherwise its error tells the connections
that are on one side only apart from those of every other drift. -/
theorem compareReservations_exact (printable : Char → Bool) (ignored : List String)
    (reservations : List AggregatorReservation) (subscribed : Finset String) :
    (Agreed ignored reservations subscribed ↔
      ∃ checked, compareReservationsToSubscriptions printable ignored reservations subscribed =
        .ok checked) ∧
    ∀ e, compareReservationsToSubscriptions printable ignored reservations subscribed = .error e →
      (∃ message, e = .inconsistentData message) ∧
      ∀ ignored' reservations' subscribed',
        compareReservationsToSubscriptions printable ignored' reservations' subscribed' =
          .error e →
        (liveConnections reservations' \ subscribed') \ ignored'.toFinset =
            (liveConnections reservations \ subscribed) \ ignored.toFinset ∧
          subscribed' \ liveConnections reservations' =
            subscribed \ liveConnections reservations := by
  by_cases h : Agreed ignored reservations subscribed
  · rw [compareReservations_of_agreed h]
    simp [h]
  · rw [compareReservations_of_not_agreed h]
    refine ⟨by simp [h], ?_⟩
    rintro e ⟨⟩
    refine ⟨⟨_, rfl⟩, ?_⟩
    intro ignored' reservations' subscribed' herror
    by_cases h' : Agreed ignored' reservations' subscribed'
    · rw [compareReservations_of_agreed h'] at herror
      cases herror
    · rw [compareReservations_of_not_agreed h', Except.error.injEq,
        PyError.inconsistentData.injEq] at herror
      obtain ⟨hwithout, hlost⟩ := disagreement_injective herror
      exact ⟨sorted_injective hwithout, sorted_injective hlost⟩

/-! ## The task over runs -/

section Runs

variable {ι : Type*} [DecidableEq ι] {service : Service}

/-- `subscribed_values` of the connections: those of the circuits that are not terminated. -/
def Subscribes (f : Fleet ι) (subscribed : Finset String) : Prop :=
  ∀ connectionId, connectionId ∈ subscribed ↔ ∃ i s, (f.circuits i).subscription = some s ∧
    s.lifecycle ≠ .terminated ∧ s.vc.connectionId = some connectionId

variable {e : Estate ι} {subscribed : Finset String}

end Runs

def lineAborted : List (EstateEvent Unit) := lineEstate.take 3 ++ [.circuit () .abort]

/-- A create that is aborted before its answer is stored leaves a reservation behind that no process
accounts for. -/
theorem aborted_reserve_drifts : ∃ e : Estate Unit, (estate .dutiful).Reachable e ∧
    (e.fleet.circuits ()).process = none ∧ Subscribes e.fleet ∅ ∧
    ∀ printable, ∃ message,
      compareReservationsToSubscriptions printable [] e.aggregator.reservations ∅ =
        .error (.inconsistentData message) := by
  have hsome : (lineAborted.foldlM Estate.fire Estate.blank).isSome := by
    decide +kernel
  have hfacts : ∀ e ∈ lineAborted.foldlM Estate.fire Estate.blank,
      (e.fleet.circuits ()).process = none ∧
        (e.fleet.circuits ()).subscription.map (·.vc.connectionId) = some none ∧
        e.aggregator.reservations = [lineMade] := by
    decide +kernel
  obtain ⟨e, he⟩ := Option.isSome_iff_exists.mp hsome
  obtain ⟨hidle, hsubscription, hreservations⟩ := hfacts e he
  obtain ⟨s, hs, hnone⟩ := Option.map_eq_some_iff.mp hsubscription
  refine ⟨e, ?_, hidle, ?_, fun printable => ?_⟩
  · have hinit : (estate .dutiful).Reachable (Estate.blank : Estate Unit) := .init ⟨rfl, rfl⟩
    exact hinit.foldlM (fun _ _ _ _ => estate_of_fire) he
  · intro connectionId
    simp only [Finset.notMem_empty, false_iff, not_exists, not_and]
    rintro _ t ht _ hc
    cases hs.symm.trans ht
    cases hnone.symm.trans hc
  · have hlive : lineMade.connectionId ∈ liveConnections e.aggregator.reservations :=
      mem_liveConnections.mpr ⟨lineMade, by simp [hreservations], by decide, rfl⟩
    refine ⟨_, compareReservations_of_not_agreed fun hagreed => ?_⟩
    have := hagreed.listed (Finset.mem_sdiff.mpr ⟨hlive, Finset.notMem_empty _⟩)
    simp at this

end NsiOrchestrator.Tasks
