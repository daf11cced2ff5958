import NsiOrchestrator.Vlans.Codec
import NsiOrchestrator.Vlans.Held

/-! # Who holds a VLAN of a path

An aggregator reservation lists every VLAN on its ends, a segment's with the
segment as child. An own end that a segment also names is left out, which drops the
second attribution and never the VLAN.
-/

namespace NsiOrchestrator.Vlans

open Text Outcome

/-- The VLAN spec of an endpoint string. -/
def vlanSpec (endpoint : Option String) : String :=
  String.ofList (partition label (endpoint.getD "").toList).2

section Attribution

variable {reservation : AggregatorReservation} {s : Finset HeldVlan}
  (h : reservationHeldVlans reservation = .ok s)

include h

theorem segment_named {segment : AggregatorSegment}
    (hin : segment ∈ reservation.segments.getD []) {pair : StpVlan} (hholds : segment.Holds pair) :
    (pair, reservation.holder segment.connectionId) ∈ s :=
  (mem_reservationHeldVlans_holder h pair _).mpr (.inl ⟨segment, hin, hholds, rfl⟩)

theorem named_without_child
    (hids : ∀ segment ∈ reservation.segments.getD [], segment.connectionId.isSome)
    (pair : StpVlan) :
    (∃ holder, (pair, holder) ∈ s ∧ holder.childConnectionId = none) ↔
      reservation.OwnHolds pair ∧ ¬ reservation.SegmentHolds pair := by
  constructor
  · rintro ⟨holder, hmem, hnone⟩
    rcases (mem_reservationHeldVlans_holder h pair holder).mp hmem with
      ⟨segment, hin, _, rfl⟩ | ⟨_, hown⟩
    · have hsome := hids segment hin
      rw [show segment.connectionId = none from hnone] at hsome
      cases hsome
    · exact hown
  · intro hown
    exact ⟨_, (mem_reservationHeldVlans_holder h pair _).mpr (.inr ⟨rfl, hown⟩), rfl⟩

theorem named_with_child {pair : StpVlan} {holder : Holder} (hmem : (pair, holder) ∈ s)
    (hchild : holder.childConnectionId ≠ none) : reservation.SegmentHolds pair := by
  rcases (mem_reservationHeldVlans_holder h pair holder).mp hmem with
    ⟨segment, hin, hholds, _⟩ | ⟨rfl, _⟩
  · exact ⟨segment, hin, hholds⟩
  · exact absurd rfl hchild

theorem pairs_mono {segments : Option (List AggregatorSegment)} {s' : Finset HeldVlan}
    (h' : reservationHeldVlans { reservation with segments := segments } = .ok s')
    (hsub : reservation.segments.getD [] ⊆ segments.getD []) :
    s.image Prod.fst ⊆ s'.image Prod.fst := by
  intro pair hpair
  rw [mem_reservationHeldVlans h, reservation.exists_ends_iff] at hpair
  rw [mem_reservationHeldVlans h', AggregatorReservation.exists_ends_iff]
  exact hpair.imp_left fun ⟨segment, hin, hholds⟩ => ⟨segment, hsub hin, hholds⟩

end Attribution

/-- What a reservation lists when the labels of its ends can be read. The pairs are
those its ends name. Every end of a segment is listed with the segment. Where every
segment has an id, a pair is listed without one exactly when only an own end names it.
Without its segments a reservation still lists its own ends, and with one more
segment everything it listed. -/
theorem reservationHeldVlans_attribution {reservation : AggregatorReservation}
    (hparses : ∀ endpoint ∈ reservation.ends, Parses endpoint) :
    (∀ endpoint ∈ reservation.ends, ∃ pairs, endpointVlanPairs endpoint = .ok pairs ∧
      ∀ pair, pair ∈ pairs ↔ Names endpoint pair) ∧
    ∃ s, reservationHeldVlans reservation = .ok s ∧
      (∀ pair, pair ∈ s.image Prod.fst ↔ ∃ endpoint ∈ reservation.ends, Names endpoint pair) ∧
      (∀ segment ∈ reservation.segments.getD [], ∀ pair, segment.Holds pair →
        (pair, reservation.holder segment.connectionId) ∈ s) ∧
      ((∀ segment ∈ reservation.segments.getD [], segment.connectionId.isSome) → ∀ pair,
        ((∃ holder, (pair, holder) ∈ s ∧ holder.childConnectionId = none) ↔
          reservation.OwnHolds pair ∧ ¬ reservation.SegmentHolds pair) ∧
        ¬ ((∃ holder, (pair, holder) ∈ s ∧ holder.childConnectionId = none) ∧
          ∃ holder, (pair, holder) ∈ s ∧ holder.childConnectionId ≠ none)) ∧
      (∃ s', reservationHeldVlans { reservation with segments := none } = .ok s' ∧
        ∀ pair, reservation.OwnHolds pair → pair ∈ s'.image Prod.fst) ∧
      ∀ before after segment, reservation.segments.getD [] = before ++ after →
        Parses segment.sourceStp → Parses segment.destStp →
        ∃ s', reservationHeldVlans
            { reservation with segments := some (before ++ segment :: after) } = .ok s' ∧
          s.image Prod.fst ⊆ s'.image Prod.fst := by
  refine ⟨fun endpoint hin => (hparses endpoint hin).imp fun pairs hpairs =>
    ⟨hpairs, mem_endpointVlanPairs hpairs⟩, ?_⟩
  obtain ⟨s, h⟩ := reservationHeldVlans_ok_iff.mpr hparses
  refine ⟨s, h, mem_reservationHeldVlans h, fun segment hin pair => segment_named h hin,
    fun hids pair => ⟨named_without_child h hids pair, ?_⟩, ?_, ?_⟩
  · rintro ⟨hnone, holder, hmem, hchild⟩
    exact ((named_without_child h hids pair).mp hnone).2 (named_with_child h hmem hchild)
  · have hown : ∀ endpoint ∈ { reservation with segments := none }.ends, Parses endpoint := by
      intro endpoint hin
      refine hparses endpoint ?_
      rw [AggregatorReservation.ends_eq, List.mem_append] at hin ⊢
      exact .inr (hin.resolve_left List.not_mem_nil)
    obtain ⟨s', h'⟩ := reservationHeldVlans_ok_iff.mpr hown
    refine ⟨s', h', fun pair hholds => ?_⟩
    rw [mem_reservationHeldVlans h', AggregatorReservation.exists_ends_iff]
    exact .inr hholds
  · intro before after segment hsegments hsource hdest
    have hmore : ∀ endpoint ∈ { reservation with
        segments := some (before ++ segment :: after) }.ends, Parses endpoint := by
      intro endpoint hin
      simp only [AggregatorReservation.ends_eq, Option.getD_some, List.flatMap_append,
        List.flatMap_cons, List.mem_append] at hin
      simp only [AggregatorReservation.ends_eq, hsegments, List.flatMap_append,
        List.mem_append] at hparses
      rcases hin with (hin | hin | hin) | hin
      · exact hparses endpoint (.inl (.inl hin))
      · rcases List.mem_pair.mp hin with rfl | rfl
        · exact hsource
        · exact hdest
      · exact hparses endpoint (.inl (.inr hin))
      · exact hparses endpoint (.inr hin)
    obtain ⟨s', h'⟩ := reservationHeldVlans_ok_iff.mpr hmore
    refine ⟨s', h', pairs_mono h h' ?_⟩
    rw [hsegments, Option.getD_some]
    intro other hin
    rcases List.mem_append.mp hin with hin | hin
    · exact List.mem_append_left _ hin
    · exact List.mem_append_right _ (List.mem_cons_of_mem _ hin)

def partlyCovered : AggregatorReservation :=
  ⟨"c", "RESERVED", none, none, some ⟨⟨10, "X?vlan=1-2", "Z?vlan=2"⟩⟩,
    some [⟨some "c1", some "X?vlan=1", none⟩]⟩

theorem partlyCovered_attributed :
    ∃ s, reservationHeldVlans partlyCovered = .ok s ∧
      (("X", 1), partlyCovered.holder (some "c1")) ∈ s ∧ ("X", 2) ∈ s.image Prod.fst := by
  have hparses : ∀ endpoint ∈ partlyCovered.ends, Parses endpoint := by
    intro endpoint hin
    simp only [AggregatorReservation.ends, partlyCovered, Option.getD_some, List.flatMap_cons,
      List.flatMap_nil, List.append_nil, Option.elim_some, List.cons_append, List.nil_append,
      List.mem_cons, List.not_mem_nil, or_false] at hin
    rcases hin with rfl | rfl | rfl | rfl
    · exact ⟨_, rfl⟩
    · exact ⟨_, rfl⟩
    · exact ⟨_, rfl⟩
    · exact ⟨_, rfl⟩
  obtain ⟨_, s, h, hpairs, hsegments, _⟩ := reservationHeldVlans_attribution hparses
  refine ⟨s, h, hsegments ⟨some "c1", some "X?vlan=1", none⟩ List.mem_cons_self _ ?_, ?_⟩
  · exact ⟨_, List.mem_cons_self, "1", rfl, _, rfl, by decide⟩
  · refine (hpairs _).mpr ⟨some "X?vlan=1-2", ?_, "1-2", rfl, _, rfl, by decide⟩
    decide

end NsiOrchestrator.Vlans
