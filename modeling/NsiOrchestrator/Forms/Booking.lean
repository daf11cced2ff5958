import NsiOrchestrator.Forms.Generators

/-! # No double booking at form time

A VLAN the two pages accept is in range, covered by the label group of its STP, and
held by no other reservation. The pages see reservations only through the map of
VLANs in use.
-/

namespace NsiOrchestrator.Forms

open Outcome Vlans Ero Fields

/-! ## The map of VLANs in use -/

/-- A reservation that still holds its VLANs and is not about to be released. -/
def Blocks (releasedConnectionId : Option String) (reservation : AggregatorReservation) : Prop :=
  reservation.status ≠ "TERMINATED" ∧ some reservation.connectionId ≠ releasedConnectionId

theorem mem_vlansInUseByStp {order : SetOrder StpVlan} {reservations : List AggregatorReservation}
    {released : Option String} {inUse : InUse}
    (h : vlansInUseByStp order reservations released = .ok inUse) (stpId : String) (vlan : Int) :
    vlan ∈ inUse.on stpId ↔
      ∃ reservation ∈ reservations, Blocks released reservation ∧
        reservation.Holds (stpId, vlan) := by
  obtain ⟨pairs, hpairs, h⟩ := bind_eq_ok.mp h
  cases pure_eq_ok.mp h
  rw [InUse.on, mem_groupByStp, mem_reservationsVlanPairs hpairs]
  simp only [List.mem_filter, mem_heldReservations, decide_eq_true_eq, Blocks, and_assoc]

/-! ## Accepted VLANs -/

/-- The VLAN can be booked on the STP: no other reservation holds it there. -/
structure Bookable (reservations : List AggregatorReservation) (released : Option String)
    (stp : Stp) (vlan : Int) : Prop where
  lower : 1 ≤ vlan
  upper : vlan ≤ 4094
  covered : Covers stp.labelGroup vlan
  free : ∀ reservation ∈ reservations, Blocks released reservation →
    ¬ reservation.Holds (stp.stpId, vlan)

section Accepted

variable {order : SetOrder StpVlan} {reservations : List AggregatorReservation}
  {released : Option String} {inUse : InUse}
  (huse : vlansInUseByStp order reservations released = .ok inUse)
  {topology : SdpTopology}

include huse

theorem free_of_notMem {stpId : String} {vlan : Int} (h : vlan ∉ inUse.on stpId) :
    ∀ reservation ∈ reservations, Blocks released reservation →
      ¬ reservation.Holds (stpId, vlan) := by
  rw [mem_vlansInUseByStp huse] at h
  exact fun reservation hin hblocks hholds => h ⟨reservation, hin, hblocks, hholds⟩

theorem bookable_of_vlanAccepted {stps : List Stp} {values : ConnectionFields}
    {form : ConnectionForm} (hstps : (stps.map Stp.stpId).Nodup)
    (hform : connectionForm stps topology inUse values = .ok form)
    {stpId : String} {vlan : Int} (h : form.VlanAccepted stpId vlan) :
    ∃ stp ∈ stps, stp.stpId = stpId ∧ (∀ stp' ∈ stps, stp'.stpId = stpId → stp' = stp) ∧
      Bookable reservations released stp vlan := by
  obtain ⟨hlower, hupper, ⟨labelGroup, hgroup, hcovers⟩, hfree⟩ := h
  obtain ⟨stp, hstp, rfl, rfl⟩ := connectionForm_labelGroup hform hgroup
  rw [(connectionForm_fields hform).2.2.1] at hfree
  exact ⟨stp, hstp, rfl, fun stp' hstp' heq => List.inj_on_of_nodup_map hstps hstp' hstp heq,
    hlower, hupper, hcovers, free_of_notMem huse hfree⟩

theorem bookable_of_pageAccepts {sdps : Dict String Sdp} {defaults : SdpVlans} {raw : SdpVlanFields}
    {includeSdps : List String} {vlans : List (Option Int)}
    (htopology : sdpTopology sdps = .ok topology)
    (haccepts : PageAccepts topology inUse defaults raw includeSdps vlans)
    {i : ℕ} {sdpId : String} {vlan : Int} (hi : includeSdps[i]? = some sdpId)
    (hvlan : vlans[i]? = some (some vlan)) :
    ∃ sdp, sdps.get? sdpId = some sdp ∧ Bookable reservations released sdp.stps.1 vlan ∧
      Bookable reservations released sdp.stps.2 vlan := by
  obtain ⟨field, _, hfield, hvlan', _, haccepted⟩ := haccepts.field i sdpId hi
  obtain ⟨hlower, hupper, hallowed, hfree⟩ :=
    haccepted vlan (Option.some.inj (hvlan'.symm.trans hvlan))
  simp only [sdpVlanField, bind_eq_ok, lookup_eq_ok, pure_eq_ok] at hfield
  obtain ⟨allowed, hvlans, stpIds, hstps, name, _, rfl⟩ := hfield
  obtain ⟨sdp, hsdp, hcovers⟩ := sdpTopology_vlans htopology hvlans
  obtain ⟨sdp', hsdp', rfl⟩ := (sdpTopology_stps htopology _ _).mp hstps
  obtain rfl : sdp = sdp' := Option.some.inj (hsdp.symm.trans hsdp')
  rw [Finset.mem_union, not_or] at hfree
  obtain ⟨hcoversA, hcoversZ⟩ := (hcovers vlan).mp hallowed
  exact ⟨sdp, hsdp, ⟨hlower, hupper, hcoversA, free_of_notMem huse hfree.1⟩,
    ⟨hlower, hupper, hcoversZ, free_of_notMem huse hfree.2⟩⟩

theorem bookable_of_sdpVlanInput {sdps : Dict String Sdp} {defaults : SdpVlans}
    {raw : SdpVlanFields} {includeSdps : List String} {sdpVlans : SdpVlans}
    (htopology : sdpTopology sdps = .ok topology) (hnodup : includeSdps.Nodup)
    (h : sdpVlanInput topology includeSdps inUse defaults raw = .ok sdpVlans)
    {sdpId : String} {vlan : Int} (hvlan : sdpVlans.get? sdpId = some vlan) :
    (∃ i : ℕ, includeSdps[i]? = some sdpId ∧
      (raw i).getD (defaults.get? sdpId) = some vlan) ∧
    ∃ sdp, sdps.get? sdpId = some sdp ∧ Bookable reservations released sdp.stps.1 vlan ∧
      Bookable reservations released sdp.stps.2 vlan := by
  obtain ⟨vlans, haccepts, rfl⟩ := sdpVlanInput_eq_ok.mp h
  obtain ⟨i, hi⟩ := List.mem_iff_getElem?.mp (mem_of_pinned_get? hvlan)
  have hentered := haccepts.entered hi
  rw [pinned_get? hnodup haccepts.length hi hentered] at hvlan
  exact ⟨⟨i, hi, hvlan⟩, bookable_of_pageAccepts huse htopology haccepts hi (hvlan ▸ hentered)⟩

/-- Every VLAN submitted on a pair of pages that accept it is bookable: both ends on their STPs,
and the VLAN of an SDP on both of its STPs. -/
theorem accepted_bookable {stps : List Stp} {sdps : Dict String Sdp} {values : ConnectionFields}
    {form : ConnectionForm} {eroOrder : EroOrder} {raw : ConnectionFields} {input : ConnectionInput}
    {defaults : SdpVlans} {rawVlans : SdpVlanFields} {sdpVlans : SdpVlans}
    (hstps : (stps.map Stp.stpId).Nodup) (htopology : sdpTopology sdps = .ok topology)
    (hform : connectionForm stps topology inUse values = .ok form)
    (hinput : form.validate eroOrder raw = .ok input)
    (hpage : sdpVlanInput topology input.includeSdps inUse defaults rawVlans = .ok sdpVlans) :
    ((raw.sourceStp <|> values.sourceStp) = some input.sourceStp ∧
      (raw.sourceVlan <|> values.sourceVlan) = some input.sourceVlan ∧
      ∃ stp ∈ stps, stp.stpId = input.sourceStp ∧
        (∀ stp' ∈ stps, stp'.stpId = input.sourceStp → stp' = stp) ∧
        Bookable reservations released stp input.sourceVlan) ∧
    ((raw.destinationStp <|> values.destinationStp) = some input.destinationStp ∧
      (raw.destinationVlan <|> values.destinationVlan) = some input.destinationVlan ∧
      ∃ stp ∈ stps, stp.stpId = input.destinationStp ∧
        (∀ stp' ∈ stps, stp'.stpId = input.destinationStp → stp' = stp) ∧
        Bookable reservations released stp input.destinationVlan) ∧
    (raw.includeSdps <|> some (values.includeSdps.getD [])) = some input.includeSdps ∧
    (∀ (i : ℕ) sdpId vlan, input.includeSdps[i]? = some sdpId →
      (rawVlans i).getD (defaults.get? sdpId) = some vlan → sdpVlans.get? sdpId = some vlan) ∧
    ∀ sdpId vlan, sdpVlans.get? sdpId = some vlan →
      (∃ i : ℕ, input.includeSdps[i]? = some sdpId ∧
        (rawVlans i).getD (defaults.get? sdpId) = some vlan) ∧
      ∃ sdp, sdps.get? sdpId = some sdp ∧ Bookable reservations released sdp.stps.1 vlan ∧
        Bookable reservations released sdp.stps.2 vlan := by
  have haccepts := validate_eq_ok.mp hinput
  have hdefaults := (connectionForm_fields hform).2.2.2
  refine ⟨⟨?_, ?_, bookable_of_vlanAccepted huse hstps hform haccepts.sourceAccepted⟩,
    ⟨?_, ?_, bookable_of_vlanAccepted huse hstps hform haccepts.destinationAccepted⟩, ?_,
    fun i sdpId vlan hi hvlan => ?_, fun sdpId vlan =>
      bookable_of_sdpVlanInput huse htopology haccepts.includeDistinct hpage⟩
  · rw [← haccepts.sourceStp, hdefaults, ConnectionFields.prefilled]
  · rw [← haccepts.sourceVlan, hdefaults, ConnectionFields.prefilled]
  · rw [← haccepts.destinationStp, hdefaults, ConnectionFields.prefilled]
  · rw [← haccepts.destinationVlan, hdefaults, ConnectionFields.prefilled]
  · rw [← haccepts.includeSdps, hdefaults, ConnectionFields.prefilled]
  · obtain ⟨vlans, hvlans, rfl⟩ := sdpVlanInput_eq_ok.mp hpage
    rw [← hvlan]
    exact pinned_get? haccepts.includeDistinct hvlans.length hi (hvlans.entered hi)

end Accepted

theorem accepted_bookable_line :
    (∃ stp ∈ lineInventory.stps, stp.stpId = "n:n:n:n:n:X:1" ∧
      (∀ stp' ∈ lineInventory.stps, stp'.stpId = "n:n:n:n:n:X:1" → stp' = stp) ∧
      Bookable lineReservations none stp 5) ∧
    ∃ sdp, lineInventory.sdps.get? "s" = some sdp ∧
      Bookable lineReservations none sdp.stps.1 7 ∧
      Bookable lineReservations none sdp.stps.2 7 := by
  obtain ⟨topology, inUse, values, form, _, haccept⟩ := connectionInput_eq_ok.mp lineInput_accepted
  obtain ⟨⟨_, _, hsource⟩, _, _, hentered, hbookable⟩ := accepted_bookable haccept.fetched
    (by decide) haccept.loaded haccept.built haccept.page (pathInput_eq_ok.mp haccept.path).1
  exact ⟨hsource, (hbookable "s" 7 (hentered 0 "s" 7 rfl rfl)).2⟩

end NsiOrchestrator.Forms
