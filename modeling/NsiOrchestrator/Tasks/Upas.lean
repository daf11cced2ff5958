import NsiOrchestrator.Ero.Stps
import NsiOrchestrator.Mdp2p.Fsm
import NsiOrchestrator.Vlans.Grouping

/-! # The VLANs of uPAs against those of the aggregator

On every subscribed STP that a queried uPA serves, the pairs its reservations hold are
compared with those the aggregator's hold. `repr` is the text of a pair that a map of
pairs is ordered by.
-/

namespace NsiOrchestrator.Tasks

open Outcome Vlans Ero Mdp2p

structure Upa where
  nsaId : String
  networkIds : List String
  deriving DecidableEq, Repr

/-- The orders sets are iterated in: all held VLANs, the pairs of a section by its title, and the
holders of a pair. -/
structure ReportOrders where
  held : SetOrder HeldVlan
  pairs : String → SetOrder StpVlan
  holders : StpVlan → SetOrder Holder

/-! ## What is compared -/

def served (upas : List Upa) : Finset String := (upas.flatMap Upa.networkIds).toFinset

/-- `_scope`. -/
def scope (upas : List Upa) (stps : List Stp) :
    Except PyError (Dict String (Finset Int) × List String) := do
  let ranges ← (stps.filter fun stp => networkOf stp.stpId ∈ served upas).mapM fun stp => do
    let allowed ← vlanSet stp.labelGroup
    pure (stp.stpId, allowed)
  let unchecked := (stps.map Stp.stpId).filter fun stpId => networkOf stpId ∉ served upas
  pure (Dict.ofPairs ranges, unchecked.insertionSort (· ≤ ·))

/-- `_split`: the pairs on a checked STP, inside its range and outside it. -/
def split (ranges : Dict String (Finset Int)) (pairs : Finset StpVlan) :
    Finset StpVlan × Finset StpVlan :=
  let checked := pairs.filter fun pair => (ranges.get? pair.1).isSome
  let inside := checked.filter fun pair => pair.2 ∈ (ranges.get? pair.1).getD ∅
  (inside, checked \ inside)

/-- The pairs of each section. -/
structure Sections where
  unknown : Finset StpVlan
  lost : Finset StpVlan
  failedOnly : Finset StpVlan
  outside : Finset StpVlan
  deriving DecidableEq

def sections (ranges : Dict String (Finset Int)) (inUse live upa : Finset StpVlan) : Sections where
  unknown := (split ranges upa).1 \ (split ranges inUse).1
  lost := (split ranges live).1 \ (split ranges upa).1
  failedOnly := ((split ranges inUse).1 \ (split ranges live).1) \ (split ranges upa).1
  outside := (split ranges upa).2 ∪ (split ranges inUse).2

def Sections.titled (sections : Sections) : List (String × Finset StpVlan) :=
  [("held by a uPA but not in use at the aggregator", sections.unknown),
    ("in use at the aggregator but not held by any uPA", sections.lost),
    ("held only by a FAILED aggregator reservation, already released by the uPA",
      sections.failedOnly),
    ("held outside the STP's current DDS range", sections.outside)]

/-! ## What is reported -/

/-- The VLANs one reservation holds on one STP. -/
structure Finding where
  stpId : String
  vlans : String
  side : Side
  connectionId : String
  childConnectionId : Option String
  globalReservationId : Option String
  subscriptionId : Option String
  deriving DecidableEq, Repr

abbrev Details := List (String × List Finding)

def sideText : Side → String
  | .aggregator => "aggregator"
  | .uPA => "uPA"

/-- `_INDENT`. -/
def indent : String := "    "

def Finding.lines (finding : Finding) : List String :=
  let side := sideText finding.side
  let connection := finding.connectionId
  let subscription := (truthy finding.subscriptionId).elim "no subscription" fun id =>
    s!"subscription {id}"
  let ids := [some s!"{side} connection {connection}",
    (truthy finding.childConnectionId).map fun id => s!"child {id}",
    if finding.side = .aggregator then some subscription else none,
    (truthy finding.globalReservationId).map fun id => s!"global reservation {id}"]
  let stp := finding.stpId
  let vlans := finding.vlans
  s!"{indent}{indent}{stp}: VLAN {vlans}" ::
    ids.reduceOption.map fun id => s!"{indent}{indent}{indent}{id}"

/-- `_holders`. -/
def holders (order : SetOrder HeldVlan) (repr : StpVlan → String)
    (aggregatorReservations : List AggregatorReservation) (upaReservations : List UpaReservation) :
    Except PyError (Dict StpVlan (Finset Holder)) := do
  let aggregator ← unionM reservationHeldVlans aggregatorReservations
  let upa ← unionM upaHeldVlans upaReservations
  pure (groupPairs repr (order.list 0 (aggregator ∪ upa)))

def findingKey (key : String × Holder) : String ×ₗ String ×ₗ String :=
  toLex (key.1, toLex (key.2.connectionId, key.2.childConnectionId.getD ""))

/-- `_findings`, for the section of a title. -/
def findings (orders : ReportOrders) (repr : StpVlan → String)
    (holders : Dict StpVlan (Finset Holder)) (subscriptions : Dict String String) (title : String)
    (pairs : Finset StpVlan) : Except PyError (List Finding) := do
  let held ← ((orders.pairs title).list 0 pairs).mapM fun pair =>
    match holders.get? pair with
    | some found => .ok (((orders.holders pair).list 0 found).map fun holder =>
        ((pair.1, holder), pair.2))
    | none => .error (.keyError (repr pair))
  let byStpAndHolder := groupPairs findingKey held.flatten
  pure (byStpAndHolder.entries.map fun e =>
    { stpId := e.1.1
      vlans := collapseRanges (sorted e.2)
      side := e.1.2.side
      connectionId := e.1.2.connectionId
      childConnectionId := e.1.2.childConnectionId
      globalReservationId := e.1.2.globalReservationId
      subscriptionId := subscriptions.get? e.1.2.connectionId })

def details (orders : ReportOrders) (repr : StpVlan → String)
    (holders : Dict StpVlan (Finset Holder)) (subscriptions : Dict String String)
    (sections : Sections) : Except PyError Details :=
  (sections.titled.filter fun e => e.2 ≠ ∅).mapM fun e => do
    let found ← findings orders repr holders subscriptions e.1 e.2
    pure (e.1, found)

def report (details : Details) : String :=
  "\n".intercalate (details.flatMap fun e =>
    (indent ++ e.1 ++ ":") :: e.2.flatMap Finding.lines)

theorem scope_ok_iff {upas : List Upa} {stps : List Stp} :
    (∃ found, scope upas stps = .ok found) ↔
      ∀ stp ∈ stps, networkOf stp.stpId ∈ served upas →
        ∃ allowed, vlanSet stp.labelGroup = .ok allowed := by
  constructor
  · rintro ⟨found, h⟩ stp hstp hserved
    obtain ⟨ranges, hranges, _⟩ := bind_eq_ok.mp h
    obtain ⟨_, _, h⟩ := exists_of_mapM hranges (List.mem_filter.mpr ⟨hstp, by simpa using hserved⟩)
    exact (bind_eq_ok.mp h).imp fun _ => And.left
  · intro h
    obtain ⟨ranges, hranges⟩ := exists_mapM (f := fun stp : Stp => do
      let allowed ← vlanSet stp.labelGroup
      pure (stp.stpId, allowed)) (l := stps.filter fun stp => networkOf stp.stpId ∈ served upas)
      fun stp hstp => by
        rw [List.mem_filter, decide_eq_true_eq] at hstp
        obtain ⟨allowed, hallowed⟩ := h stp hstp.1 hstp.2
        exact ⟨_, bind_eq_ok.mpr ⟨allowed, hallowed, rfl⟩⟩
    exact ⟨_, bind_eq_ok.mpr ⟨ranges, hranges, rfl⟩⟩

def Within (ranges : Dict String (Finset Int)) (pair : StpVlan) : Prop :=
  ∃ allowed, ranges.get? pair.1 = some allowed ∧ pair.2 ∈ allowed

def Sections.all (sections : Sections) : Finset StpVlan :=
  sections.unknown ∪ sections.lost ∪ sections.failedOnly ∪ sections.outside

/-- A holder of the pair: a segment of a reservation at the aggregator that names it, such a
reservation itself where only an own end does, or a reservation at a uPA. -/
def HeldBy (aggregatorReservations : List AggregatorReservation)
    (upaReservations : List UpaReservation) (pair : StpVlan) (holder : Holder) : Prop :=
  (∃ reservation ∈ aggregatorReservations,
    (∃ segment ∈ reservation.segments.getD [], segment.Holds pair ∧
      holder = reservation.holder segment.connectionId) ∨
    holder = reservation.holder none ∧ reservation.OwnHolds pair ∧
      ¬ reservation.SegmentHolds pair) ∨
  ∃ reservation ∈ upaReservations, reservation.Holds pair ∧
    holder = ⟨.uPA, reservation.connectionId, none, reservation.globalReservationId⟩

theorem holders_order {repr : StpVlan → String} (hinj : Function.Injective repr)
    (order order' : SetOrder HeldVlan) (aggregatorReservations : List AggregatorReservation)
    (upaReservations : List UpaReservation) :
    holders order repr aggregatorReservations upaReservations =
      holders order' repr aggregatorReservations upaReservations := by
  have hsame : ∀ held : Finset HeldVlan,
      groupPairs repr (order.list 0 held) = groupPairs repr (order'.list 0 held) := by
    intro held
    apply groupPairs_congr fun _ _ _ _ h => hinj h
    intro e
    rw [SetOrder.mem_list, SetOrder.mem_list]
  simp only [holders, hsame]

/-! ## Ascending sets -/

/-- The fields of a holder as an ordered key. -/
def holderKey (holder : Holder) : Bool ×ₗ String ×ₗ WithBot String ×ₗ WithBot String :=
  toLex (holder.side = .uPA, toLex (holder.connectionId,
    toLex (holder.childConnectionId, holder.globalReservationId)))

theorem holderKey_injective : Function.Injective holderKey := by
  rintro ⟨side, connectionId, child, global⟩ ⟨side', connectionId', child', global'⟩ h
  simp only [holderKey, toLex_inj, Prod.mk.injEq, decide_eq_decide] at h
  obtain ⟨hside, rfl, hids⟩ := h
  obtain ⟨rfl, rfl⟩ := Prod.mk.inj hids
  cases side <;> cases side' <;> simp_all

def heldKey (held : HeldVlan) :
    (String ×ₗ Int) ×ₗ Bool ×ₗ String ×ₗ WithBot String ×ₗ WithBot String :=
  toLex (toLex held.1, holderKey held.2)

theorem heldKey_injective : Function.Injective heldKey := by
  rintro ⟨pair, holder⟩ ⟨pair', holder'⟩ h
  simp only [heldKey, toLex_inj, Prod.mk.injEq] at h
  rw [h.1, holderKey_injective h.2]

def ascendingOrders : ReportOrders where
  held := SetOrder.ofKey heldKey heldKey_injective
  pairs := fun _ => byStpAndVlan
  holders := fun _ => SetOrder.ofKey holderKey holderKey_injective

end NsiOrchestrator.Tasks
