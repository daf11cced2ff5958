import NsiOrchestrator.Ero.Monotone
import NsiOrchestrator.Forms.Retry
import NsiOrchestrator.Sdps.Validate

/-! # Asking again for less

The inventory grows, reservations end and a list of included SDPs is shortened. What the
pages accepted before they accept again, unless an end has become part of an SDP. The
ERO that comes of it may be another one.
-/

namespace NsiOrchestrator.Forms

open Outcome Vlans Ero Fields

/-! ## A larger inventory -/

/-- Subscriptions were only added, and the inventory can be read: label groups parse, no STP id is
refused, an STP is subscribed once and an SDP has two ends. -/
structure Grown (before after : Inventory) : Prop where
  stps : ∀ stp ∈ before.stps, stp ∈ after.stps
  sdps : ∀ sdpId sdp, before.sdps.get? sdpId = some sdp → after.sdps.get? sdpId = some sdp
  once : (after.stps.map Stp.stpId).Nodup
  twoEnds : ∀ sdpId sdp, after.sdps.get? sdpId = some sdp →
    sdp.stps.1.stpId ≠ sdp.stps.2.stpId
  readable : ∀ stp ∈ after.stps, ∃ vlans, vlanSet stp.labelGroup = .ok vlans
  named : ∀ stp ∈ after.stps, ¬ Refused stpChoice stp.stpId
  sdpsReadable : ∀ sdpId sdp, after.sdps.get? sdpId = some sdp → Sdps.Readable sdp

/-- Whatever blocks a VLAN now blocked it before. -/
def Freed (released : Option String) (before : List AggregatorReservation)
    (released' : Option String) (after : List AggregatorReservation) : Prop :=
  ∀ reservation ∈ after, Blocks released' reservation →
    reservation ∈ before ∧ Blocks released reservation

theorem inUse_freed {order : SetOrder StpVlan} (order' : SetOrder StpVlan)
    {before after : List AggregatorReservation} {released released' : Option String}
    {inUse : InUse} (hfreed : Freed released before released' after)
    (h : vlansInUseByStp order before released = .ok inUse) :
    ∃ inUse', vlansInUseByStp order' after released' = .ok inUse' ∧
      ∀ stpId, inUse'.on stpId ⊆ inUse.on stpId := by
  obtain ⟨pairs, hpairs, _⟩ := bind_eq_ok.mp h
  have hreturns : ∃ pairs', reservationsVlanPairs ((heldReservations after).filter
      fun reservation => some reservation.connectionId ≠ released') = .ok pairs' := by
    refine unionM_ok fun reservation hin => ?_
    simp only [List.mem_filter, mem_heldReservations, decide_eq_true_eq] at hin
    obtain ⟨hbefore, hstatus, hother⟩ := hfreed reservation hin.1.1 ⟨hin.1.2, hin.2⟩
    refine unionM_returns hpairs reservation ?_
    simp [mem_heldReservations, hbefore, hstatus, hother]
  obtain ⟨pairs', hpairs'⟩ := hreturns
  have h' : vlansInUseByStp order' after released' = .ok (groupByStp order' pairs') :=
    bind_eq_ok.mpr ⟨pairs', hpairs', rfl⟩
  refine ⟨_, h', fun stpId vlan hvlan => ?_⟩
  rw [mem_vlansInUseByStp h'] at hvlan
  rw [mem_vlansInUseByStp h]
  obtain ⟨reservation, hin, hblocks, hholds⟩ := hvlan
  obtain ⟨hbefore, hblocked⟩ := hfreed reservation hin hblocks
  exact ⟨reservation, hbefore, hblocked, hholds⟩

section Loaded

variable {before after : Inventory} {topology topology' : SdpTopology}
  (hgrown : Grown before after) (h : sdpTopology before.sdps = .ok topology)
  (h' : sdpTopology after.sdps = .ok topology')

theorem mem_pairs {sdps : Dict String Sdp} (h : sdpTopology sdps = .ok topology)
    (pair : Finset String) :
    pair ∈ topology.pairs ↔
      ∃ sdpId sdp, sdps.get? sdpId = some sdp ∧ pair = {sdp.stps.1.stpId, sdp.stps.2.stpId} := by
  have hstps := sdpTopology_stps h
  simp only [Dict.get?_eq_some] at hstps
  simp only [SdpTopology.pairs, List.mem_toFinset, List.mem_map, Prod.exists, hstps,
    Dict.get?_eq_some]
  constructor
  · rintro ⟨sdpId, a, z, ⟨sdp, hsdp, heq⟩, rfl⟩
    cases heq
    exact ⟨sdpId, sdp, hsdp, rfl⟩
  · rintro ⟨sdpId, sdp, hsdp, rfl⟩
    exact ⟨sdpId, _, _, ⟨sdp, hsdp, rfl⟩, rfl⟩

include hgrown h h'

theorem Grown.pairs_subset : topology.pairs ⊆ topology'.pairs := by
  intro pair hpair
  obtain ⟨sdpId, sdp, hsdp, rfl⟩ := (mem_pairs h pair).mp hpair
  exact (mem_pairs h' _).mpr ⟨sdpId, sdp, hgrown.sdps sdpId sdp hsdp, rfl⟩

theorem Grown.lookup_stps {sdpId : String} {pair : String × String}
    (hpair : lookup topology.stps sdpId = .ok pair) : lookup topology'.stps sdpId = .ok pair := by
  rw [lookup_eq_ok] at hpair ⊢
  obtain ⟨sdp, hsdp, rfl⟩ := (sdpTopology_stps h _ _).mp hpair
  exact (sdpTopology_stps h' _ _).mpr ⟨sdp, hgrown.sdps sdpId sdp hsdp, rfl⟩

theorem Grown.lookup_names {sdpId name : String}
    (hname : lookup topology.names sdpId = .ok name) : lookup topology'.names sdpId = .ok name := by
  rw [lookup_eq_ok] at hname ⊢
  obtain ⟨sdp, hsdp, rfl⟩ := (sdpTopology_names h _ _).mp hname
  exact (sdpTopology_names h' _ _).mpr ⟨sdp, hgrown.sdps sdpId sdp hsdp, rfl⟩

theorem Grown.lookup_vlans {sdpId : String} {allowed : Finset Int}
    (hallowed : lookup topology.vlans sdpId = .ok allowed) :
    lookup topology'.vlans sdpId = .ok allowed := by
  rw [lookup_eq_ok] at hallowed ⊢
  obtain ⟨sdp, hsdp, hcovers⟩ := sdpTopology_vlans h hallowed
  have hsdp' := hgrown.sdps sdpId sdp hsdp
  obtain ⟨allowed', hallowed'⟩ := Option.isSome_iff_exists.mp
    (sdpTopology_vlans_isSome h' (Option.isSome_iff_exists.mpr ⟨sdp, hsdp'⟩))
  obtain ⟨sdp', hsame, hcovers'⟩ := sdpTopology_vlans h' hallowed'
  cases Option.some.inj (hsdp'.symm.trans hsame)
  have heq : allowed' = allowed := Finset.ext fun vlan => (hcovers' vlan).trans (hcovers vlan).symm
  rw [hallowed', heq]

theorem Grown.ero (order order' : EroOrder) {sourceStp destStp : String}
    {includeSdps fewer : List String} {sdpVlans : SdpVlans} (sdpVlans' : SdpVlans)
    (hfewer : fewer.Sublist includeSdps) {ero : List String}
    (hero : topology.ero order sourceStp destStp includeSdps sdpVlans = .ok ero) :
    ∃ ero', topology'.ero order' sourceStp destStp fewer sdpVlans' = .ok ero' := by
  obtain ⟨pairs, stps, hpairs, hstps, _⟩ := ero_eq_ok.mp hero
  have hlooked : List.Forall₂ (fun sdpId pair => lookup topology'.stps sdpId = .ok pair)
      includeSdps pairs :=
    (mapM_eq_ok.mp hpairs).imp fun _ _ hpair => hgrown.lookup_stps h h' hpair
  obtain ⟨pairs', hlooked', hsub⟩ := exists_sublist_of_forall₂ hlooked hfewer
  have hknown : ∀ pair ∈ pairs, {pair.1, pair.2} ∈ topology'.pairs := fun pair hin => by
    obtain ⟨sdpId, _, hpair⟩ := exists_of_forall₂ hlooked hin
    obtain ⟨sdp, hsdp, rfl⟩ := (sdpTopology_stps h' _ _).mp (lookup_eq_ok.mp hpair)
    exact (mem_pairs h' _).mpr ⟨sdpId, sdp, hsdp, rfl⟩
  have htwo : ∀ pair ∈ topology'.pairs, pair.card = 2 := fun pair hin => by
    obtain ⟨sdpId, sdp, hsdp, rfl⟩ := (mem_pairs h' _).mp hin
    exact Finset.card_pair (hgrown.twoEnds sdpId sdp hsdp)
  obtain ⟨stps', hstps'⟩ := accepts_relaxed order order' sourceStp destStp pairs
    (hgrown.pairs_subset h h') htwo hknown hsub hstps
  exact ⟨_, ero_eq_ok.mpr ⟨pairs', stps', mapM_eq_ok.mpr hlooked', hstps', rfl⟩⟩

theorem Grown.pathSummary {includeSdps fewer : List String} {sdpVlans : SdpVlans}
    (sdpVlans' : SdpVlans) (hfewer : fewer.Sublist includeSdps) {summary : String}
    (hsummary : pathSummary topology includeSdps sdpVlans = .ok summary) :
    ∃ summary', Forms.pathSummary topology' fewer sdpVlans' = .ok summary' := by
  obtain ⟨hops, hhops, _⟩ := bind_eq_ok.mp hsummary
  obtain ⟨hops', hhops'⟩ : ∃ hops', fewer.mapM (fun sdpId => do
      let name ← lookup topology'.names sdpId
      let vlan := (sdpVlans'.get? sdpId).elim "" fun vlan => s!" (VLAN {vlan})"
      pure (name ++ vlan)) = .ok hops' := by
    refine exists_mapM fun sdpId hin => ?_
    obtain ⟨_, _, hhop⟩ := exists_of_mapM hhops (hfewer.subset hin)
    obtain ⟨name, hname, _⟩ := bind_eq_ok.mp hhop
    exact ⟨_, bind_eq_ok.mpr ⟨name, hgrown.lookup_names h h' hname, rfl⟩⟩
  exact ⟨_, bind_eq_ok.mpr ⟨hops', hhops', rfl⟩⟩

end Loaded

/-! ## The pages over it -/

def ConnectionInput.including (input : ConnectionInput) (fewer : List String) : ConnectionInput :=
  { input with includeSdps := fewer }

section Pages

variable {before after : Inventory} {topology topology' : SdpTopology} {inUse inUse' : InUse}
  (hgrown : Grown before after) (h : sdpTopology before.sdps = .ok topology)
  (h' : sdpTopology after.sdps = .ok topology')
  (hfreed : ∀ stpId, inUse'.on stpId ⊆ inUse.on stpId)

include hgrown

section Page

variable {values values' : ConnectionFields} {form form' : ConnectionForm}
  (hform : connectionForm before.stps topology inUse values = .ok form)
  (hform' : connectionForm after.stps topology' inUse' values' = .ok form')

include hform hform'

theorem Grown.offered {stpId : String} (hoffered : (form.stpOptions.get? stpId).isSome) :
    (form'.stpOptions.get? stpId).isSome := by
  obtain ⟨hmember, stp, hstp, hid⟩ := (connectionForm_offered hform stpId).mp hoffered
  exact (connectionForm_offered hform' stpId).mpr ⟨hmember, stp, hgrown.stps stp hstp, hid⟩

include hfreed

theorem Grown.vlanAccepted {stpId : String} {vlan : Int}
    (haccepted : form.VlanAccepted stpId vlan) : form'.VlanAccepted stpId vlan := by
  obtain ⟨hlower, hupper, ⟨labelGroup, hgroup, hcovers⟩, hfree⟩ := haccepted
  obtain ⟨stp, hstp, rfl, rfl⟩ := connectionForm_labelGroup hform hgroup
  obtain ⟨_, _, hinUse, _⟩ := connectionForm_fields hform
  obtain ⟨_, _, hinUse', _⟩ := connectionForm_fields hform'
  refine ⟨hlower, hupper, ⟨stp.labelGroup, ?_, hcovers⟩, fun hin => hfree ?_⟩
  · obtain ⟨options, _, hform'⟩ := bind_eq_ok.mp hform'
    cases pure_eq_ok.mp hform'
    have hkeys : ((after.stps.map fun stp => (stp.stpId, stp.labelGroup)).map Prod.fst).Nodup := by
      simpa [Function.comp_def] using hgrown.once
    rw [Dict.get?_ofPairs hkeys, List.mem_map]
    exact ⟨stp, hgrown.stps stp hstp, rfl⟩
  · rw [hinUse]
    exact hfreed _ (hinUse' ▸ hin)

include h h'

theorem Grown.accepts {order order' : EroOrder} {raw raw' : ConnectionFields}
    {input : ConnectionInput} (haccepts : form.Accepts order raw input) {fewer : List String}
    (hfewer : fewer.Sublist input.includeSdps)
    (hraw : raw'.over values'.prefilled = (input.including fewer).fields)
    (hgate : input.allowStpsInSdp = true ∨
      input.sourceStp ∉ topology'.stpIds ∧ input.destinationStp ∉ topology'.stpIds) :
    form'.Accepts order' raw' (input.including fewer) := by
  obtain ⟨hoptions, htopology, _, _⟩ := connectionForm_fields hform
  obtain ⟨hoptions', htopology', _, hdefaults'⟩ := connectionForm_fields hform'
  rw [← hdefaults'] at hraw
  constructor
  case circuitDescription => exact congrArg (·.circuitDescription) hraw
  case serviceSpeed => exact congrArg (·.serviceSpeed) hraw
  case sourceStp => exact congrArg (·.sourceStp) hraw
  case sourceVlan => exact congrArg (·.sourceVlan) hraw
  case destinationStp => exact congrArg (·.destinationStp) hraw
  case destinationVlan => exact congrArg (·.destinationVlan) hraw
  case allowStpsInSdp => exact congrArg (·.allowStpsInSdp) hraw
  case includeSdps => exact congrArg (·.includeSdps) hraw
  case excludeSdps => exact congrArg (·.excludeSdps) hraw
  case sourceOffered => exact hgrown.offered hform hform' haccepts.sourceOffered
  case destinationOffered => exact hgrown.offered hform hform' haccepts.destinationOffered
  case sourceAccepted => exact hgrown.vlanAccepted hfreed hform hform' haccepts.sourceAccepted
  case destinationAccepted =>
    exact hgrown.vlanAccepted hfreed hform hform' haccepts.destinationAccepted
  case includeDistinct => exact hfewer.nodup haccepts.includeDistinct
  case includeOffered =>
    intro sdpId hin
    have hoffered := haccepts.includeOffered sdpId (hfewer.subset hin)
    rw [hoptions] at hoffered
    obtain ⟨name, hname⟩ := Option.isSome_iff_exists.mp hoffered
    have := hgrown.lookup_names h h' (lookup_eq_ok.mpr hname)
    rw [hoptions', lookup_eq_ok.mp this]
    rfl
  case excludeDistinct => exact haccepts.excludeDistinct
  case excludeOffered =>
    intro sdpId hin
    simp [ConnectionInput.including, haccepts.endpoints.excludeSdps] at hin
  case endpoints =>
    obtain ⟨ero, hero⟩ := haccepts.endpoints.routable
    rw [htopology] at hero
    refine ⟨haccepts.endpoints.distinct, htopology' ▸ hgate, haccepts.endpoints.excludeSdps, ?_⟩
    rw [htopology']
    exact hgrown.ero h h' order order' .empty hfewer hero

end Page

include h h' hfreed

theorem Grown.pageAccepts {defaults defaults' : SdpVlans} {raw raw' : SdpVlanFields}
    {includeSdps fewer : List String} {sdpVlans : SdpVlans} (hnodup : includeSdps.Nodup)
    (hpins : sdpVlanInput topology includeSdps inUse defaults raw = .ok sdpVlans)
    (hfewer : fewer.Sublist includeSdps)
    (hraw : ∀ (i : ℕ) sdpId, fewer[i]? = some sdpId →
      (raw' i).getD (defaults'.get? sdpId) = sdpVlans.get? sdpId) :
    PageAccepts topology' inUse' defaults' raw' fewer (fewer.map sdpVlans.get?) := by
  obtain ⟨vlans, haccepts, rfl⟩ := sdpVlanInput_eq_ok.mp hpins
  refine ⟨by simp, fun i sdpId hi => ?_⟩
  obtain ⟨j, hj⟩ := List.mem_iff_getElem?.mp (hfewer.subset (List.mem_of_getElem? hi))
  obtain ⟨field, vlan, hfield, hvlan, _, haccepted⟩ := haccepts.field j sdpId hj
  simp only [sdpVlanField, bind_eq_ok, pure_eq_ok] at hfield
  obtain ⟨allowed, hallowed, stps, hstps, name, hname, rfl⟩ := hfield
  have hpinned := pinned_get? hnodup haccepts.length hj hvlan
  refine ⟨_, vlan, bind_eq_ok.mpr ⟨allowed, hgrown.lookup_vlans h h' hallowed, bind_eq_ok.mpr
    ⟨stps, hgrown.lookup_stps h h' hstps, bind_eq_ok.mpr
      ⟨name, hgrown.lookup_names h h' hname, rfl⟩⟩⟩, ?_, ?_, fun v hv => ?_⟩
  · rw [List.getElem?_map, hi, Option.map_some, hpinned]
  · exact (hraw i sdpId hi).trans hpinned
  · obtain ⟨hlower, hupper, hin, hfree⟩ := haccepted v hv
    rw [Finset.mem_union, not_or] at hfree
    refine ⟨hlower, hupper, hin, ?_⟩
    rw [Finset.mem_union, not_or]
    exact ⟨fun hin => hfree.1 (hfreed _ hin), fun hin => hfree.2 (hfreed _ hin)⟩

end Pages

/-! ## Both pages -/

/-- What a submission asks for, made again over a larger inventory, fewer blocked VLANs
and fewer of its SDPs, is accepted with the same VLANs, unless an end has become part of
an SDP and that was not allowed. -/
theorem connectionInput_relaxed {orders : Orders} (orders' : Orders) {before after : Inventory}
    {reservations reservations' : List AggregatorReservation} {released released' : Option String}
    {values : Except PyError ConnectionFields} {values' : ConnectionFields}
    {defaults defaults' : SdpVlans} {raw raw' : ConnectionFields}
    {rawVlans rawVlans' : SdpVlanFields} {submission : Submission} {fewer : List String}
    (hgrown : Grown before after) (hfreed : Freed released reservations released' reservations')
    (haccepted : connectionInput orders before reservations released values defaults raw rawVlans =
      .ok submission)
    (hfewer : fewer.Sublist submission.input.includeSdps)
    (hraw : raw'.over values'.prefilled = (submission.input.including fewer).fields)
    (hpins : ∀ (i : ℕ) sdpId, fewer[i]? = some sdpId →
      (rawVlans' i).getD (defaults'.get? sdpId) = submission.path.sdpVlans.get? sdpId)
    (hgate : submission.input.allowStpsInSdp = true ∨
      ¬ InSdp after submission.input.sourceStp ∧ ¬ InSdp after submission.input.destinationStp) :
    ∃ submission', connectionInput orders' after reservations' released' (.ok values') defaults'
        raw' rawVlans' = .ok submission' ∧
      submission'.input = submission.input.including fewer ∧
      ∀ sdpId ∈ fewer, submission'.path.sdpVlans.get? sdpId =
        submission.path.sdpVlans.get? sdpId := by
  obtain ⟨topology, inUse, _, form, _, haccept⟩ := connectionInput_eq_ok.mp haccepted
  obtain ⟨topology', h'⟩ := Sdps.sdpTopology_loads_iff.mpr hgrown.sdpsReadable
  obtain ⟨inUse', hinUse', hless⟩ := inUse_freed orders'.pairs hfreed haccept.fetched
  have hbuilt : ∃ form', connectionForm after.stps topology' inUse' values' = .ok form' :=
    connectionForm_ok_iff.mpr ⟨hgrown.readable, hgrown.named⟩
  obtain ⟨form', hform'⟩ := hbuilt
  have hpage := validate_eq_ok.mp haccept.page
  obtain ⟨hpinned, ⟨summary, hsummary⟩, hero⟩ := pathInput_eq_ok.mp haccept.path
  have hnodup : fewer.Nodup := hfewer.nodup hpage.includeDistinct
  rw [← mem_stpIds h', ← mem_stpIds h'] at hgate
  have hpage' : form'.Accepts orders'.ero raw' (submission.input.including fewer) :=
    hgrown.accepts haccept.loaded h' hless haccept.built hform' hpage hfewer hraw hgate
  have hpins' := hgrown.pageAccepts haccept.loaded h' hless hpage.includeDistinct hpinned hfewer
    hpins
  have hvlans : ∀ sdpId ∈ fewer, (Dict.ofPairs (pinnedPairs (fewer.zip
      (fewer.map submission.path.sdpVlans.get?)))).get? sdpId =
        submission.path.sdpVlans.get? sdpId := fun sdpId hin => by
    obtain ⟨i, hi⟩ := List.mem_iff_getElem?.mp hin
    exact pinned_get? hnodup hpins'.length hi (by rw [List.getElem?_map, hi, Option.map_some])
  obtain ⟨summary', hsummary'⟩ := hgrown.pathSummary haccept.loaded h' _ hfewer hsummary
  obtain ⟨ero', hero'⟩ := hgrown.ero haccept.loaded h' orders.ero orders'.ero _ hfewer hero
  refine ⟨⟨submission.input.including fewer, ⟨ero', _⟩⟩, connectionInput_eq_ok.mpr ⟨topology',
    inUse', values', form', rfl, h', hinUse', hform', validate_eq_ok.mpr hpage',
    pathInput_eq_ok.mpr ⟨?_, ?_, ?_⟩⟩, rfl, hvlans⟩
  · exact sdpVlanInput_eq_ok.mpr ⟨_, hpins', rfl⟩
  · exact ⟨summary', hsummary'⟩
  · exact hero'

def widerInventory : Inventory where
  stps := lineInventory.stps ++ [⟨"n:n:n:n:n:X:3", "x3", 100, "1-9"⟩,
    ⟨"n:n:n:n:n:Y:3", "y3", 100, "1-9"⟩]
  sdps := lineInventory.sdps.insert "t"
    ⟨"x-y again", ⟨"n:n:n:n:n:X:3", "x3", 100, "1-9"⟩, ⟨"n:n:n:n:n:Y:3", "y3", 100, "1-9"⟩⟩

theorem widerInventory_grown : Grown lineInventory widerInventory := by
  have hrange : ∃ vlans, vlanSet "1-9" = .ok vlans := ⟨_, rfl⟩
  have hsdps : ∀ e ∈ widerInventory.sdps.entries, e.2.stps.1.stpId ≠ e.2.stps.2.stpId ∧
      e.2.stps.1.labelGroup = "1-9" ∧ e.2.stps.2.labelGroup = "1-9" := by decide
  have hkept : ∀ e ∈ lineInventory.sdps.entries, e ∈ widerInventory.sdps.entries := by decide
  constructor
  case stps => exact fun stp hstp => List.mem_append_left _ hstp
  case sdps => exact fun _ _ hsdp => Dict.get?_eq_some.mpr (hkept _ (Dict.get?_eq_some.mp hsdp))
  case once => decide
  case twoEnds => exact fun _ _ hsdp => (hsdps _ (Dict.get?_eq_some.mp hsdp)).1
  case readable => simp [widerInventory, lineInventory, hrange]
  case named => decide
  case sdpsReadable =>
    intro sdpId sdp hsdp
    obtain ⟨_, ha, hz⟩ := hsdps _ (Dict.get?_eq_some.mp hsdp)
    exact ⟨ha ▸ hrange, hz ▸ hrange⟩

theorem connectionInput_relaxed_line :
    ∃ submission, connectionInput ascending widerInventory [] none (.ok .untouched) .empty
        lineFields linePins = .ok submission ∧
      submission.input = lineSubmission.input.including ["s"] ∧
      ∀ sdpId ∈ ["s"], submission.path.sdpVlans.get? sdpId =
        lineSubmission.path.sdpVlans.get? sdpId := by
  have hpins : ∀ (i : ℕ) sdpId, ["s"][i]? = some sdpId →
      (linePins i).getD (Dict.empty.get? sdpId) = lineSubmission.path.sdpVlans.get? sdpId := by
    rintro (_ | i) sdpId hi
    · cases hi
      rfl
    · cases hi
  exact connectionInput_relaxed ascending widerInventory_grown (by simp [Freed]) lineInput_accepted
    (by decide) rfl hpins (.inr (by decide))

end NsiOrchestrator.Forms
