import NsiOrchestrator.Lib.Grouping
import NsiOrchestrator.Lib.SetOrder
import NsiOrchestrator.Vlans.Ranges
import Mathlib.Data.Finset.Prod
import Mathlib.Data.Prod.Lex
import Mathlib.Data.String.Basic

/-! # The VLANs reservations hold

A reservation at the aggregator holds the VLANs of every child segment and of its
own two ends until it is terminated. A reservation at a uPA holds those of its ends
by SuPA's rule. The held pairs are sets: the lists of the source are only ever read
as such.
-/

namespace NsiOrchestrator.Vlans

open Text Outcome

/-! ## What the aggregator proxy answers -/

structure AggregatorP2ps where
  capacity : Int
  sourceStp : String
  destStp : String
  deriving DecidableEq, Repr

@[ext]
structure AggregatorCriteria where
  p2ps : AggregatorP2ps
  deriving DecidableEq, Repr

structure AggregatorSegment where
  connectionId : Option String
  sourceStp : Option String
  destStp : Option String
  deriving DecidableEq, Repr

structure AggregatorReservation where
  connectionId : String
  status : String
  globalReservationId : Option String
  lastError : Option String
  criteria : Option AggregatorCriteria
  segments : Option (List AggregatorSegment)
  deriving DecidableEq, Repr

structure UpaReservation where
  connectionId : String
  globalReservationId : Option String
  reservationState : String
  lifecycleState : String
  sourceStp : Option String
  destStp : Option String
  deriving DecidableEq, Repr

inductive Side where
  | aggregator
  | uPA
  deriving DecidableEq, Repr

structure Holder where
  side : Side
  connectionId : String
  childConnectionId : Option String
  globalReservationId : Option String
  deriving DecidableEq, Repr

abbrev HeldVlan := StpVlan × Holder

/-! ## Held pairs -/

/-- `"?vlan="`. -/
def label : Chars := ['?', 'v', 'l', 'a', 'n', '=']

def endpointVlanPairs (endpoint : Option String) : Except PyError (Finset StpVlan) := do
  let (stpId, vlanSpec) := partition label (endpoint.getD "").toList
  let vlans ← vlanSet (String.ofList vlanSpec)
  pure (vlans.image fun vlan => (String.ofList stpId, vlan))

/-- The union of the sets a loop computes. -/
def unionM {α β : Type} [DecidableEq β] (f : α → Except PyError (Finset β)) (l : List α) :
    Except PyError (Finset β) := do
  let sets ← l.mapM f
  pure (sets.foldr (· ∪ ·) ∅)

def held (endpoints : List (Option String)) (holder : Holder) : Except PyError (Finset HeldVlan) :=
  unionM (fun endpoint => do
    let pairs ← endpointVlanPairs endpoint
    pure (pairs.image fun pair => (pair, holder))) endpoints

def reservationHeldVlans (reservation : AggregatorReservation) :
    Except PyError (Finset HeldVlan) := do
  let own : Holder := ⟨.aggregator, reservation.connectionId, none, reservation.globalReservationId⟩
  let segments ← unionM (fun segment : AggregatorSegment =>
    held [segment.sourceStp, segment.destStp]
      { own with childConnectionId := segment.connectionId })
    (reservation.segments.getD [])
  let covered := segments.image Prod.fst
  let p2ps := reservation.criteria.map AggregatorCriteria.p2ps
  let ends ← held (p2ps.elim [] fun p => [some p.sourceStp, some p.destStp]) own
  pure (segments ∪ ends.filter fun h => h.1 ∉ covered)

def heldReservations (reservations : List AggregatorReservation) : List AggregatorReservation :=
  reservations.filter fun reservation => reservation.status ≠ "TERMINATED"

def reservationsVlanPairs (reservations : List AggregatorReservation) :
    Except PyError (Finset StpVlan) :=
  unionM (fun reservation => do
    let heldVlans ← reservationHeldVlans reservation
    pure (heldVlans.image Prod.fst)) reservations

def upaReleasedLifecycleStates : List String := ["Failed", "PassedEndTime", "Terminated"]

def upaHoldingReservationStates : List String :=
  ["ReserveHeld", "ReserveCommitting", "ReserveStart"]

def upaHoldsVlans (reservation : UpaReservation) : Bool :=
  reservation.lifecycleState ∉ upaReleasedLifecycleStates ∧
    reservation.reservationState ∈ upaHoldingReservationStates

def upaHeldVlans (reservation : UpaReservation) : Except PyError (Finset HeldVlan) :=
  let holder : Holder := ⟨.uPA, reservation.connectionId, none, reservation.globalReservationId⟩
  held (if upaHoldsVlans reservation then [reservation.sourceStp, reservation.destStp] else [])
    holder

def upaVlanPairs (reservations : List UpaReservation) : Except PyError (Finset StpVlan) :=
  unionM (fun reservation => do
    let heldVlans ← upaHeldVlans reservation
    pure (heldVlans.image Prod.fst)) reservations

/-! ## What is held, by its ends -/

theorem unionM_returns {α β : Type} [DecidableEq β] {f : α → Except PyError (Finset β)} {l : List α}
    {s : Finset β} (h : unionM f l = .ok s) : ∀ a ∈ l, ∃ t, f a = .ok t := by
  obtain ⟨sets, hsets, _⟩ := bind_eq_ok.mp h
  exact fun a ha => (exists_of_mapM hsets ha).imp fun _ => And.right

theorem unionM_ok {α β : Type} [DecidableEq β] {f : α → Except PyError (Finset β)} {l : List α}
    (h : ∀ a ∈ l, ∃ t, f a = .ok t) : ∃ s, unionM f l = .ok s := by
  obtain ⟨sets, hsets⟩ := exists_mapM h
  exact ⟨_, bind_eq_ok.mpr ⟨sets, hsets, rfl⟩⟩

theorem unionM_onlyRaises {α β : Type} [DecidableEq β] {kind : PyError → Prop}
    {f : α → Except PyError (Finset β)} (h : ∀ a, OnlyRaises kind (f a)) (l : List α) :
    OnlyRaises kind (unionM f l) :=
  (OnlyRaises.mapM h l).bind fun _ => .pure _

theorem mem_unionM {α β : Type} [DecidableEq β] {f : α → Except PyError (Finset β)} {l : List α}
    {s : Finset β} (h : unionM f l = .ok s) (x : β) :
    x ∈ s ↔ ∃ a ∈ l, ∃ t, f a = .ok t ∧ x ∈ t := by
  obtain ⟨sets, hsets, hs⟩ := bind_eq_ok.mp h
  cases pure_eq_ok.mp hs
  rw [mapM_eq_ok] at hsets
  clear h hs
  induction hsets with
  | nil => simp
  | cons hx _ ih => simp [ih, hx]

theorem image_ok_iff {α β : Type} [DecidableEq β] {x : Except PyError (Finset α)} {g : α → β} :
    (∃ s, (do let t ← x; pure (t.image g)) = Except.ok (ε := PyError) s) ↔ ∃ t, x = .ok t := by
  simp only [bind_eq_ok, pure_eq_ok]
  constructor
  · rintro ⟨_, t, ht, _⟩
    exact ⟨t, ht⟩
  · rintro ⟨t, ht⟩
    exact ⟨_, t, ht, rfl⟩

theorem exists_image_iff {α β γ : Type} [DecidableEq γ] {f : α → Except PyError (Finset β)}
    {g : β → γ} {l : List α} {x : γ} {p : α → Prop}
    (hreturns : ∀ a ∈ l, ∃ t, (do let u ← f a; pure (u.image g)) = Except.ok (ε := PyError) t)
    (hspec : ∀ a u, f a = .ok u → (x ∈ u.image g ↔ p a)) :
    (∃ a ∈ l, ∃ t, (do let u ← f a; pure (u.image g)) = Except.ok (ε := PyError) t ∧ x ∈ t) ↔
      ∃ a ∈ l, p a := by
  refine exists_congr fun a => and_congr_right fun ha => ?_
  obtain ⟨t, ht⟩ := hreturns a ha
  obtain ⟨u, hu, rfl⟩ := by simpa only [bind_eq_ok, pure_eq_ok] using ht
  simp only [ht, Except.ok.injEq, exists_eq_left', hspec a u hu]

/-- The endpoint is the STP with a label that covers the VLAN. -/
def Names (endpoint : Option String) (pair : StpVlan) : Prop :=
  ∃ spec, endpoint = some s!"{pair.1}?vlan={spec}" ∧ Covers spec pair.2

theorem toList_labelled (stpId spec : String) :
    s!"{stpId}?vlan={spec}".toList = stpId.toList ++ (label ++ spec.toList) := by
  simp [label, toString]

/-- What is read from an endpoint is what it names. -/
theorem mem_endpointVlanPairs {endpoint : Option String} {pairs : Finset StpVlan}
    (h : endpointVlanPairs endpoint = .ok pairs) (pair : StpVlan) :
    pair ∈ pairs ↔ Names endpoint pair := by
  obtain ⟨vlans, hvlans, h⟩ := bind_eq_ok.mp h
  cases pure_eq_ok.mp h
  obtain ⟨stpId, vlan⟩ := pair
  simp only [Finset.mem_image, Prod.mk.injEq, vlanSet_covers hvlans]
  constructor
  · rintro ⟨_, hcovers, rfl, rfl⟩
    have hlabel : label <:+: (endpoint.getD "").toList := by
      by_contra hnone
      rw [partition_eq_self hnone] at hcovers
      exact not_covers_empty _ hcovers
    cases endpoint with
    | none => exact absurd hlabel (by decide)
    | some text =>
        refine ⟨_, congrArg some (String.toList_inj.mp ?_), hcovers⟩
        rw [toList_labelled, String.toList_ofList, String.toList_ofList]
        exact (append_partition hlabel).symm
  · rintro ⟨spec, rfl, hcovers⟩
    simp only [Option.getD_some, toList_labelled] at hvlans ⊢
    have hcut := append_partition (List.infix_append' stpId.toList label spec.toList)
    -- Neither spec holds a question mark, so both labels are the last one.
    have hlast : ∀ {text : Chars}, '?' ∉ text → '?' ∉ ['v', 'l', 'a', 'n', '='] ++ text := by
      intro text htext hin
      exact (List.mem_append.mp hin).elim (by decide) htext
    have hspec := question_notMem_of_vlanSet hcovers.choose_spec.1
    have hread := question_notMem_of_vlanSet hvlans
    rw [String.toList_ofList] at hread
    obtain ⟨hid, htext⟩ := append_cons_inj (hlast hread) (hlast hspec) hcut
    exact ⟨vlan, by rw [List.append_cancel_left htext, String.ofList_toList]; exact hcovers,
      by rw [hid, String.ofList_toList], rfl⟩

/-- Every end of a reservation: those of its segments, then its own two. -/
def AggregatorReservation.ends (reservation : AggregatorReservation) : List (Option String) :=
  (reservation.segments.getD []).flatMap (fun segment => [segment.sourceStp, segment.destStp]) ++
    (reservation.criteria.elim [] fun c => [some c.p2ps.sourceStp, some c.p2ps.destStp])

theorem AggregatorReservation.ends_eq (reservation : AggregatorReservation) : reservation.ends =
    (reservation.segments.getD []).flatMap (fun segment => [segment.sourceStp, segment.destStp]) ++
      (reservation.criteria.map AggregatorCriteria.p2ps).elim []
        fun p => [some p.sourceStp, some p.destStp] := by
  unfold ends
  cases reservation.criteria <;> rfl

theorem mem_held {endpoints : List (Option String)} {holder holder' : Holder}
    {s : Finset HeldVlan} (h : held endpoints holder = .ok s) (pair : StpVlan) :
    (pair, holder') ∈ s ↔ holder' = holder ∧ ∃ endpoint ∈ endpoints, Names endpoint pair := by
  rw [mem_unionM h]
  simp only [bind_eq_ok, pure_eq_ok]
  constructor
  · rintro ⟨endpoint, hin, _, ⟨pairs, hpairs, rfl⟩, hmem⟩
    obtain ⟨_, hpair, heq⟩ := Finset.mem_image.mp hmem
    cases heq
    exact ⟨rfl, endpoint, hin, (mem_endpointVlanPairs hpairs pair).mp hpair⟩
  · rintro ⟨rfl, endpoint, hin, hnames⟩
    obtain ⟨pairs, hpairs⟩ := image_ok_iff.mp (unionM_returns h endpoint hin)
    exact ⟨endpoint, hin, _, ⟨pairs, hpairs, rfl⟩,
      Finset.mem_image_of_mem _ ((mem_endpointVlanPairs hpairs pair).mpr hnames)⟩

/-- An end of the segment names the pair. -/
def AggregatorSegment.Holds (segment : AggregatorSegment) (pair : StpVlan) : Prop :=
  ∃ endpoint ∈ [segment.sourceStp, segment.destStp], Names endpoint pair

def AggregatorReservation.SegmentHolds (reservation : AggregatorReservation) (pair : StpVlan) :
    Prop :=
  ∃ segment ∈ reservation.segments.getD [], segment.Holds pair

def AggregatorReservation.OwnHolds (reservation : AggregatorReservation) (pair : StpVlan) : Prop :=
  ∃ endpoint ∈ (reservation.criteria.map AggregatorCriteria.p2ps).elim []
    (fun p => [some p.sourceStp, some p.destStp]), Names endpoint pair

/-- The holder a segment's pairs are listed with; without a child it is the reservation's own. -/
def AggregatorReservation.holder (reservation : AggregatorReservation)
    (childConnectionId : Option String) : Holder :=
  ⟨.aggregator, reservation.connectionId, childConnectionId, reservation.globalReservationId⟩

/-- Who a pair is listed with: the segments with an end that names it, else the reservation itself
for its own ends. -/
theorem mem_reservationHeldVlans_holder {reservation : AggregatorReservation}
    {s : Finset HeldVlan} (h : reservationHeldVlans reservation = .ok s) (pair : StpVlan)
    (holder : Holder) :
    (pair, holder) ∈ s ↔
      (∃ segment ∈ reservation.segments.getD [], segment.Holds pair ∧
        holder = reservation.holder segment.connectionId) ∨
      holder = reservation.holder none ∧ reservation.OwnHolds pair ∧
        ¬ reservation.SegmentHolds pair := by
  obtain ⟨segments, hsegments, h⟩ := bind_eq_ok.mp h
  obtain ⟨own, hown, h⟩ := bind_eq_ok.mp h
  cases pure_eq_ok.mp h
  have hseg : ∀ holder, (pair, holder) ∈ segments ↔ ∃ segment ∈ reservation.segments.getD [],
      segment.Holds pair ∧ holder = reservation.holder segment.connectionId := by
    intro holder
    rw [mem_unionM hsegments]
    refine exists_congr fun segment => and_congr_right fun hin => ?_
    obtain ⟨t, ht⟩ := unionM_returns hsegments segment hin
    simp only [ht, Except.ok.injEq, exists_eq_left', mem_held ht pair]
    exact and_comm
  have hcovered : pair ∈ segments.image Prod.fst ↔ reservation.SegmentHolds pair := by
    simp only [Finset.mem_image, Prod.exists, exists_and_right, exists_eq_right, hseg]
    constructor
    · rintro ⟨_, segment, hin, hholds, _⟩
      exact ⟨segment, hin, hholds⟩
    · rintro ⟨segment, hin, hholds⟩
      exact ⟨_, segment, hin, hholds, rfl⟩
  rw [Finset.mem_union, hseg, Finset.mem_filter, mem_held hown pair, hcovered, and_assoc]
  rfl

theorem AggregatorReservation.exists_ends_iff {reservation : AggregatorReservation}
    {pair : StpVlan} : (∃ endpoint ∈ reservation.ends, Names endpoint pair) ↔
      reservation.SegmentHolds pair ∨ reservation.OwnHolds pair := by
  simp only [AggregatorReservation.ends_eq, List.mem_append, List.mem_flatMap, or_and_right,
    exists_or, SegmentHolds, OwnHolds, AggregatorSegment.Holds]
  refine or_congr_left ?_
  constructor
  · rintro ⟨endpoint, ⟨segment, hin, hend⟩, hnames⟩
    exact ⟨segment, hin, endpoint, hend, hnames⟩
  · rintro ⟨segment, hin, endpoint, hend, hnames⟩
    exact ⟨endpoint, ⟨segment, hin, hend⟩, hnames⟩

/-- A pair is held exactly when an end names it: an own end left out for a segment
is named by that segment. -/
theorem mem_reservationHeldVlans {reservation : AggregatorReservation} {s : Finset HeldVlan}
    (h : reservationHeldVlans reservation = .ok s) (pair : StpVlan) :
    pair ∈ s.image Prod.fst ↔ ∃ endpoint ∈ reservation.ends, Names endpoint pair := by
  rw [reservation.exists_ends_iff]
  simp only [Finset.mem_image, Prod.exists, exists_and_right, exists_eq_right,
    mem_reservationHeldVlans_holder h]
  constructor
  · rintro ⟨_, ⟨segment, hin, hholds, _⟩ | ⟨_, hown, _⟩⟩
    · exact .inl ⟨segment, hin, hholds⟩
    · exact .inr hown
  · intro hholds
    by_cases hsegment : reservation.SegmentHolds pair
    · obtain ⟨segment, hin, hsegment⟩ := hsegment
      exact ⟨_, .inl ⟨segment, hin, hsegment, rfl⟩⟩
    · exact ⟨_, .inr ⟨rfl, hholds.resolve_left hsegment, hsegment⟩⟩

def Parses (endpoint : Option String) : Prop := ∃ pairs, endpointVlanPairs endpoint = .ok pairs

theorem unionM_ok_iff {α β : Type} [DecidableEq β] {f : α → Except PyError (Finset β)}
    {l : List α} :
    (∃ s, unionM f l = .ok s) ↔ ∀ a ∈ l, ∃ t, f a = .ok t :=
  ⟨fun ⟨_, h⟩ => unionM_returns h, unionM_ok⟩

theorem held_ok_iff {endpoints : List (Option String)} {holder : Holder} :
    (∃ s, held endpoints holder = .ok s) ↔ ∀ endpoint ∈ endpoints, Parses endpoint := by
  rw [held, unionM_ok_iff]
  simp only [image_ok_iff, Parses]

theorem reservationHeldVlans_ok_iff {reservation : AggregatorReservation} :
    (∃ s, reservationHeldVlans reservation = .ok s) ↔
      ∀ endpoint ∈ reservation.ends, Parses endpoint := by
  have hends : (∀ endpoint ∈ reservation.ends, Parses endpoint) ↔
      (∀ segment ∈ reservation.segments.getD [],
        ∀ endpoint ∈ [segment.sourceStp, segment.destStp], Parses endpoint) ∧
      ∀ endpoint ∈ (reservation.criteria.map AggregatorCriteria.p2ps).elim []
        (fun p => [some p.sourceStp, some p.destStp]), Parses endpoint := by
    simp only [AggregatorReservation.ends_eq, List.forall_mem_append, List.forall_mem_flatMap]
  rw [hends]
  constructor
  · rintro ⟨s, h⟩
    obtain ⟨segments, hsegments, h⟩ := bind_eq_ok.mp h
    obtain ⟨own, howned, _⟩ := bind_eq_ok.mp h
    exact ⟨fun segment hin => held_ok_iff.mp (unionM_returns hsegments segment hin),
      held_ok_iff.mp ⟨own, howned⟩⟩
  · rintro ⟨hsegments, howned⟩
    obtain ⟨segments, hsegments⟩ := unionM_ok fun segment hin =>
      held_ok_iff.mpr (hsegments segment hin)
    obtain ⟨own, howned⟩ := held_ok_iff.mpr howned
    exact ⟨_, bind_eq_ok.mpr ⟨segments, hsegments, bind_eq_ok.mpr ⟨own, howned, rfl⟩⟩⟩

theorem reservationsVlanPairs_ok_iff {reservations : List AggregatorReservation} :
    (∃ s, reservationsVlanPairs reservations = .ok s) ↔
      ∀ reservation ∈ reservations, ∀ endpoint ∈ reservation.ends, Parses endpoint := by
  rw [reservationsVlanPairs, unionM_ok_iff]
  simp only [image_ok_iff, reservationHeldVlans_ok_iff]

/-- An end of the reservation names the pair. -/
def AggregatorReservation.Holds (reservation : AggregatorReservation) (pair : StpVlan) : Prop :=
  ∃ endpoint ∈ reservation.ends, Names endpoint pair

theorem mem_reservationsVlanPairs {reservations : List AggregatorReservation} {s : Finset StpVlan}
    (h : reservationsVlanPairs reservations = .ok s) (pair : StpVlan) :
    pair ∈ s ↔ ∃ reservation ∈ reservations, reservation.Holds pair := by
  rw [mem_unionM h]
  exact exists_image_iff (unionM_returns h) fun _ _ ht => mem_reservationHeldVlans ht pair

theorem held_onlyRaises (endpoints : List (Option String)) (holder : Holder) :
    OnlyRaises PyError.IsValueError (held endpoints holder) :=
  unionM_onlyRaises (fun _ => ((vlanSet_onlyRaises _).bind fun _ => .pure _).bind fun _ => .pure _)
    _

theorem reservationsVlanPairs_onlyRaises (reservations : List AggregatorReservation) :
    OnlyRaises PyError.IsValueError (reservationsVlanPairs reservations) :=
  unionM_onlyRaises (fun _ => ((unionM_onlyRaises (fun _ => held_onlyRaises _ _) _).bind
    fun _ => (held_onlyRaises _ _).bind fun _ => .pure _).bind fun _ => .pure _) _

/-- A reservation that has not released its VLANs names the pair at an end. -/
def UpaReservation.Holds (reservation : UpaReservation) (pair : StpVlan) : Prop :=
  upaHoldsVlans reservation ∧ (Names reservation.sourceStp pair ∨ Names reservation.destStp pair)

theorem upaVlanPairs_ok_iff {reservations : List UpaReservation} :
    (∃ s, upaVlanPairs reservations = .ok s) ↔ ∀ reservation ∈ reservations,
      upaHoldsVlans reservation → Parses reservation.sourceStp ∧ Parses reservation.destStp := by
  rw [upaVlanPairs, unionM_ok_iff]
  refine forall₂_congr fun reservation _ => ?_
  rw [image_ok_iff, upaHeldVlans, held_ok_iff]
  cases upaHoldsVlans reservation <;> simp

theorem mem_heldReservations {reservations : List AggregatorReservation}
    {reservation : AggregatorReservation} :
    reservation ∈ heldReservations reservations ↔
      reservation ∈ reservations ∧ reservation.status ≠ "TERMINATED" := by
  simp [heldReservations]

/-! ## Labelled endpoints -/

theorem endpointVlanPairs_labelled {stpId : String} (h : ¬ label <:+: stpId.toList) (n : ℕ) :
    endpointVlanPairs (some s!"{stpId}?vlan={(n : Int)}") = .ok {(stpId, (n : Int))} := by
  have htext : (s!"{stpId}?vlan={(n : Int)}").toList =
      stpId.toList ++ (label ++ (toString (n : Int)).toList) := toList_labelled stpId _
  simp only [endpointVlanPairs, Option.getD_some, htext]
  rw [label, partition_append (by decide) h]
  simp only [String.ofList_toList, vlanSet_single]
  simp [bind, Except.bind, pure, Except.pure]

theorem endpointVlanPairs_bare {stpId : String} (h : ¬ label <:+: stpId.toList) :
    endpointVlanPairs (some stpId) = .ok ∅ := by
  simp only [endpointVlanPairs, Option.getD_some, partition_eq_self h]
  rw [show String.ofList [] = "" from rfl, vlanSet_empty]
  simp [bind, Except.bind, pure, Except.pure]

theorem parses_labelled_iff {stpId : String} {n : ℕ} :
    Parses (some s!"{stpId}?vlan={(n : Int)}") ↔ ¬ label <:+: stpId.toList := by
  constructor
  · rintro ⟨pairs, hpairs⟩ hin
    have htext : (s!"{stpId}?vlan={(n : Int)}").toList =
        stpId.toList ++ (label ++ (toString (n : Int)).toList) := toList_labelled stpId _
    simp only [endpointVlanPairs, Option.getD_some, htext, bind_eq_ok] at hpairs
    obtain ⟨vlans, hvlans, _⟩ := hpairs
    have hquestion : '?' ∈ (partition label (stpId.toList ++
        (label ++ (toString (n : Int)).toList))).2 :=
      (suffix_partition hin _).subset (by simp [label])
    exact question_notMem_of_vlanSet hvlans (by simpa using hquestion)
  · exact fun h => ⟨_, endpointVlanPairs_labelled h n⟩

/-! ## Grouping -/

section Group

variable {κ β ι : Type*} [DecidableEq κ] [DecidableEq β] [LinearOrder ι]

def groupPairs (sortKey : κ → ι) (pairs : List (κ × β)) : Dict κ (Finset β) :=
  let ordered := pairs.insertionSort fun a b => sortKey a.1 ≤ sortKey b.1
  Dict.ofPairs ((groupRuns ordered).map fun group => (group.1, group.2.toFinset))

theorem mem_keys_groupPairs {sortKey : κ → ι} {pairs : List (κ × β)} {k : κ} :
    k ∈ (groupPairs sortKey pairs).keys ↔ k ∈ pairs.map Prod.fst := by
  rw [groupPairs, Dict.mem_keys_ofPairs, List.map_map]
  change k ∈ (groupRuns _).map Prod.fst ↔ _
  rw [mem_keys_groupRuns]
  exact ((List.perm_insertionSort _ pairs).map Prod.fst).mem_iff

/-- A key has the values of its last run. -/
theorem get?_groupPairs (sortKey : κ → ι) (pairs : List (κ × β)) (k : κ) :
    (groupPairs sortKey pairs).get? k = (lastRun k (groupRuns
      (pairs.insertionSort fun a b => sortKey a.1 ≤ sortKey b.1))).map List.toFinset := by
  rw [lastRun, Option.map_map]
  exact Dict.get?_ofPairs_map Prod.fst (fun group : κ × List β => group.2.toFinset) _ k

variable {sortKey : κ → ι} {pairs : List (κ × β)}

theorem mem_groupPairs_of_nodup (hnodup : ((groupRuns
    (pairs.insertionSort fun a b => sortKey a.1 ≤ sortKey b.1)).map Prod.fst).Nodup) {k : κ}
    {values : Finset β} :
    (k, values) ∈ (groupPairs sortKey pairs).entries ↔
      k ∈ pairs.map Prod.fst ∧ ∀ v, v ∈ values ↔ (k, v) ∈ pairs := by
  have hmem : ∀ {v}, (k, v) ∈ pairs ↔ ∃ group ∈ groupRuns
      (pairs.insertionSort fun a b => sortKey a.1 ≤ sortKey b.1), group.1 = k ∧ v ∈ group.2 := by
    intro v
    rw [← mem_groupRuns, List.mem_insertionSort]
  have hunique : ∀ {group group'}, group ∈ groupRuns (pairs.insertionSort fun a b =>
      sortKey a.1 ≤ sortKey b.1) → group' ∈ groupRuns (pairs.insertionSort fun a b =>
      sortKey a.1 ≤ sortKey b.1) → group.1 = group'.1 → group = group' :=
    fun h h' heq => List.inj_on_of_nodup_map hnodup h h' heq
  rw [groupPairs, Dict.entries_ofPairs (by simpa [Function.comp_def] using hnodup)]
  simp only [List.mem_map, Prod.mk.injEq]
  constructor
  · rintro ⟨group, hgroup, rfl, rfl⟩
    obtain ⟨v, hv⟩ := List.exists_mem_of_ne_nil group.2 (groupRuns_ne_nil hgroup)
    refine ⟨⟨(group.1, v), hmem.mpr ⟨group, hgroup, rfl, hv⟩, rfl⟩, fun v => ?_⟩
    rw [List.mem_toFinset, hmem]
    constructor
    · exact fun hv => ⟨group, hgroup, rfl, hv⟩
    · rintro ⟨group', hgroup', hkey, hv⟩
      rwa [← hunique hgroup' hgroup hkey]
  · rintro ⟨⟨⟨_, v⟩, hv, rfl⟩, hvalues⟩
    obtain ⟨group, hgroup, hkey, _⟩ := hmem.mp hv
    refine ⟨group, hgroup, hkey, ?_⟩
    ext v
    rw [List.mem_toFinset, hvalues, hmem]
    constructor
    · exact fun hv => ⟨group, hgroup, hkey, hv⟩
    · rintro ⟨group', hgroup', hkey', hv⟩
      rwa [← hunique hgroup' hgroup (hkey'.trans hkey.symm)]

variable (hinj : ∀ a ∈ pairs, ∀ b ∈ pairs, sortKey a.1 = sortKey b.1 → a.1 = b.1)

include hinj

omit [DecidableEq β] in
theorem groupRuns_sorted_ascending :
    ((groupRuns (pairs.insertionSort fun a b => sortKey a.1 ≤ sortKey b.1)).map Prod.fst).Pairwise
      fun k k' => sortKey k < sortKey k' := by
  have : IsTrans (κ × β) fun a b => sortKey a.1 ≤ sortKey b.1 := ⟨fun _ _ _ h h' => le_trans h h'⟩
  have : Std.Total fun a b : κ × β => sortKey a.1 ≤ sortKey b.1 := ⟨fun a b => le_total _ _⟩
  refine groupRuns_ascending (List.pairwise_insertionSort _ pairs) fun a ha b hb => ?_
  rw [List.mem_insertionSort] at ha hb
  exact hinj a ha b hb

theorem groupPairs_ascending :
    (groupPairs sortKey pairs).keys.Pairwise fun k k' => sortKey k < sortKey k' := by
  have hkeys := groupRuns_sorted_ascending hinj
  rw [Dict.keys, groupPairs, Dict.entries_ofPairs]
  · simpa [Function.comp_def] using hkeys
  · simpa [Function.comp_def, List.Nodup] using hkeys.imp fun h heq => (heq ▸ h).false

theorem mem_groupPairs {k : κ} {values : Finset β} :
    (k, values) ∈ (groupPairs sortKey pairs).entries ↔
      k ∈ pairs.map Prod.fst ∧ ∀ v, v ∈ values ↔ (k, v) ∈ pairs :=
  mem_groupPairs_of_nodup ((groupRuns_sorted_ascending hinj).imp fun h heq => (heq ▸ h).false)

theorem mem_getD_groupPairs {k : κ} {v : β} :
    v ∈ ((groupPairs sortKey pairs).get? k).getD ∅ ↔ (k, v) ∈ pairs := by
  cases h : (groupPairs sortKey pairs).get? k with
  | some values =>
      exact ((mem_groupPairs hinj).mp (Dict.get?_eq_some.mp h)).2 v
  | none =>
      simp only [Option.getD_none, Finset.notMem_empty, false_iff]
      intro hv
      have hmem : (k, (pairs.filterMap fun e => if e.1 = k then some e.2 else none).toFinset) ∈
          (groupPairs sortKey pairs).entries := by
        rw [mem_groupPairs hinj]
        refine ⟨List.mem_map_of_mem hv, fun v => ?_⟩
        simp [eq_comm]
      rw [Dict.get?_eq_some.mpr hmem] at h
      cases h

end Group

def groupByStp (order : SetOrder StpVlan) (pairs : Finset StpVlan) : Dict String (Finset Int) :=
  groupPairs id (order.list 0 pairs)

def byStpAndVlan : SetOrder StpVlan :=
  SetOrder.ofKey (κ := String ×ₗ Int) toLex toLex.injective

theorem mem_groupByStp {order : SetOrder StpVlan} {pairs : Finset StpVlan} {stpId : String}
    {vlan : Int} :
    vlan ∈ ((groupByStp order pairs).get? stpId).getD ∅ ↔ (stpId, vlan) ∈ pairs := by
  rw [groupByStp, mem_getD_groupPairs fun _ _ _ _ h => h, SetOrder.mem_list]

end NsiOrchestrator.Vlans
