import NsiOrchestrator.Forms.Pinning

/-! # Retry with its pages left as they are

The pages of a retry are prefilled from what the circuit stores. Everything an accepted
create was given comes back that way, but for the tick that allows STPs in an SDP.
-/

namespace NsiOrchestrator.Forms

open Outcome Vlans Ero Fields Text Mdp2p

def ConnectionFields.over (raw defaults : ConnectionFields) : ConnectionFields where
  circuitDescription := raw.circuitDescription <|> defaults.circuitDescription
  serviceSpeed := raw.serviceSpeed <|> defaults.serviceSpeed
  sourceStp := raw.sourceStp <|> defaults.sourceStp
  sourceVlan := raw.sourceVlan <|> defaults.sourceVlan
  destinationStp := raw.destinationStp <|> defaults.destinationStp
  destinationVlan := raw.destinationVlan <|> defaults.destinationVlan
  allowStpsInSdp := raw.allowStpsInSdp <|> defaults.allowStpsInSdp
  includeSdps := raw.includeSdps <|> defaults.includeSdps
  excludeSdps := raw.excludeSdps <|> defaults.excludeSdps

def ConnectionInput.fields (input : ConnectionInput) : ConnectionFields where
  circuitDescription := some input.circuitDescription
  serviceSpeed := some input.serviceSpeed
  sourceStp := some input.sourceStp
  sourceVlan := some input.sourceVlan
  destinationStp := some input.destinationStp
  destinationVlan := some input.destinationVlan
  allowStpsInSdp := some input.allowStpsInSdp
  includeSdps := some input.includeSdps
  excludeSdps := some input.excludeSdps

/-- Both pages of a retry are left at their defaults, whether those are submitted or not. -/
structure LeavesPages (vc : Vc) (raw : ConnectionFields) (rawVlans : SdpVlanFields) : Prop where
  connection : ∀ values, retryValues vc = .ok values → raw.over values.prefilled = values.prefilled
  sdpVlans : ∀ (i : ℕ) c, (included vc)[i]? = some c →
    ∀ vlan, rawVlans i = some vlan → vlan = (storedSdpVlans vc).get? c.sdp.ownerSubscriptionId

def Submission.again (submission : Submission) (circuitDescription : String) : Submission :=
  { submission with
    input :=
      { submission.input with circuitDescription := circuitDescription, allowStpsInSdp := false } }

def OthersUnchanged (connectionId : Option String) (before after : List AggregatorReservation) :
    Prop :=
  ∀ reservation, some reservation.connectionId ≠ connectionId →
    (reservation ∈ after ↔ reservation ∈ before)

def InSdp (inventory : Inventory) (stpId : String) : Prop :=
  ∃ e ∈ inventory.sdps.entries, stpId = e.2.stps.1.stpId ∨ stpId = e.2.stps.2.stpId

instance (inventory : Inventory) (stpId : String) : Decidable (InSdp inventory stpId) :=
  inferInstanceAs (Decidable (∃ e ∈ inventory.sdps.entries, _))

theorem mem_stpIds {inventory : Inventory} {topology : SdpTopology}
    (h : sdpTopology inventory.sdps = .ok topology) (stpId : String) :
    stpId ∈ topology.stpIds ↔ InSdp inventory stpId := by
  have hstps := sdpTopology_stps h
  simp only [Dict.get?_eq_some] at hstps
  simp only [SdpTopology.stpIds, List.mem_toFinset, List.mem_flatMap, Prod.exists, hstps, InSdp,
    List.mem_cons, List.not_mem_nil, or_false]
  constructor
  · rintro ⟨sdpId, a, z, ⟨sdp, hsdp, heq⟩, hend⟩
    cases heq
    exact ⟨sdpId, sdp, hsdp, hend⟩
  · rintro ⟨sdpId, sdp, hsdp, hend⟩
    exact ⟨sdpId, _, _, ⟨sdp, hsdp, rfl⟩, hend⟩

theorem LeavesPages.untouched (vc : Vc) : LeavesPages vc .untouched fun _ => none where
  connection _ _ := rfl
  sdpVlans _ _ _ _ h := nomatch h

/-! ## Reading the stored circuit back -/

section Stored

variable {inventory : Inventory} {submission : Submission} {vc : Vc}
  (hstores : Stores inventory submission vc)

include hstores

theorem included_owners : (included vc).map (fun c => c.sdp.ownerSubscriptionId) =
    submission.input.includeSdps := by
  have hforall := includeConstraints_forall₂ hstores.constraints
  refine List.ext_getElem (by simp [hforall.length_eq]) fun i hi hi' => ?_
  have hc : i < (included vc).length := by simpa using hi
  obtain ⟨_, _, heq⟩ := hforall.get hi' hc
  simp only [List.get_eq_getElem] at heq
  rw [List.getElem_map, heq]

theorem retryValues_stored (hexclude : submission.input.excludeSdps = []) :
    ∃ values, retryValues vc = .ok values ∧
      values.prefilled = (submission.again vc.circuitDescription).input.fields := by
  refine ⟨_, bind_eq_ok.mpr ⟨submission.input.sourceVlan, ?_, bind_eq_ok.mpr
    ⟨submission.input.destinationVlan, ?_, rfl⟩⟩, ?_⟩
  · rw [hstores.source, int_toString]
  · rw [hstores.destination, int_toString]
  · simp [ConnectionFields.prefilled, ConnectionInput.fields, Submission.again, hstores.speed,
      hstores.source, hstores.destination, included_owners hstores, hexclude]

end Stored

/-! ## Pages with fewer VLANs in use -/

theorem inUse_after {order : SetOrder StpVlan} (order' : SetOrder StpVlan)
    {before after : List AggregatorReservation}
    {connectionId : Option String} {inUse : InUse}
    (hothers : OthersUnchanged connectionId before after)
    (h : vlansInUseByStp order before none = .ok inUse) :
    ∃ inUse', vlansInUseByStp order' after connectionId = .ok inUse' ∧
      ∀ stpId, inUse'.on stpId ⊆ inUse.on stpId := by
  obtain ⟨pairs, hpairs, _⟩ := bind_eq_ok.mp h
  have hreturns : ∃ pairs', reservationsVlanPairs ((heldReservations after).filter
      fun reservation =>
      some reservation.connectionId ≠ connectionId) = .ok pairs' := by
    refine unionM_ok fun reservation hin => ?_
    simp only [List.mem_filter, mem_heldReservations, decide_eq_true_eq] at hin
    refine unionM_returns hpairs reservation ?_
    simp [mem_heldReservations, hin.1.2, (hothers _ hin.2).mp hin.1.1]
  obtain ⟨pairs', hpairs'⟩ := hreturns
  have h' : vlansInUseByStp order' after connectionId = .ok (groupByStp order' pairs') :=
    bind_eq_ok.mpr ⟨pairs', hpairs', rfl⟩
  refine ⟨_, h', fun stpId vlan hvlan => ?_⟩
  rw [mem_vlansInUseByStp h'] at hvlan
  rw [mem_vlansInUseByStp h]
  obtain ⟨reservation, hin, ⟨hstatus, hother⟩, hholds⟩ := hvlan
  exact ⟨reservation, (hothers _ hother).mp hin, ⟨hstatus, nofun⟩, hholds⟩

theorem ero_order {topology : SdpTopology} (order order' : EroOrder) (sourceStp destStp : String)
    (includeSdps : List String) (sdpVlans : SdpVlans) :
    topology.ero order sourceStp destStp includeSdps sdpVlans =
      topology.ero order' sourceStp destStp includeSdps sdpVlans := by
  simp only [SdpTopology.ero, eroStps_order order order']

theorem connectionForm_again {stps : List Stp} {topology : SdpTopology} {inUse : InUse}
    {values : ConnectionFields} {form : ConnectionForm}
    (h : connectionForm stps topology inUse values = .ok form) (inUse' : InUse)
    (values' : ConnectionFields) :
    ∃ form', connectionForm stps topology inUse' values' = .ok form' ∧
      form'.labelGroupById = form.labelGroupById := by
  obtain ⟨form', h'⟩ := connectionForm_ok_iff.mpr (connectionForm_ok_iff.mp ⟨form, h⟩)
  refine ⟨form', h', ?_⟩
  rw [connectionForm_labelGroups h', connectionForm_labelGroups h]

theorem ConnectionForm.Accepts.fields {form : ConnectionForm} {order : EroOrder}
    {raw : ConnectionFields} {input : ConnectionInput} (h : form.Accepts order raw input) :
    raw.over form.defaults = input.fields := by
  simp only [ConnectionFields.over, h.circuitDescription, h.serviceSpeed, h.sourceStp, h.sourceVlan,
    h.destinationStp, h.destinationVlan, h.allowStpsInSdp, h.includeSdps, h.excludeSdps,
    ConnectionInput.fields]

theorem ConnectionForm.VlanAccepted.mono {form form' : ConnectionForm} {stpId : String} {vlan : Int}
    (h : form.VlanAccepted stpId vlan) (hgroups : form'.labelGroupById = form.labelGroupById)
    (hinUse : form'.inUseByStp.on stpId ⊆ form.inUseByStp.on stpId) :
    form'.VlanAccepted stpId vlan := by
  obtain ⟨hlower, hupper, hgroup, hfree⟩ := h
  exact ⟨hlower, hupper, hgroups ▸ hgroup, fun hin => hfree (hinUse hin)⟩

/-- A page over fewer VLANs in use accepts an input again, without the tick if it has no need of
it. -/
theorem ConnectionForm.Accepts.again {stps : List Stp} {topology : SdpTopology}
    {inUse inUse' : InUse}
    {values values' : ConnectionFields} {form form' : ConnectionForm} {order order' : EroOrder}
    {raw raw' : ConnectionFields} {input : ConnectionInput}
    (hform : connectionForm stps topology inUse values = .ok form)
    (hform' : connectionForm stps topology inUse' values' = .ok form')
    (hgroups : form'.labelGroupById = form.labelGroupById)
    (hfewer : ∀ stpId, inUse'.on stpId ⊆ inUse.on stpId) (h : form.Accepts order raw input)
    {circuitDescription : String}
    (hraw : raw'.over form'.defaults = ConnectionInput.fields
      { input with circuitDescription := circuitDescription, allowStpsInSdp := false })
    (hsource : input.sourceStp ∉ topology.stpIds)
    (hdestination : input.destinationStp ∉ topology.stpIds) :
    form'.Accepts order' raw'
      { input with circuitDescription := circuitDescription, allowStpsInSdp := false } := by
  obtain ⟨hoptions, htopology, hinUse, _⟩ := connectionForm_fields hform
  obtain ⟨hoptions', htopology', hinUse', _⟩ := connectionForm_fields hform'
  have hoffered : ∀ {stpId}, (form.stpOptions.get? stpId).isSome →
      (form'.stpOptions.get? stpId).isSome := fun h =>
    (connectionForm_offered hform' _).mpr ((connectionForm_offered hform _).mp h)
  have hvlan : ∀ {stpId vlan}, form.VlanAccepted stpId vlan → form'.VlanAccepted stpId vlan :=
    fun h => h.mono hgroups (by rw [hinUse, hinUse']; exact hfewer _)
  constructor
  case circuitDescription => exact congrArg (·.circuitDescription) hraw
  case serviceSpeed => exact congrArg (·.serviceSpeed) hraw
  case sourceStp => exact congrArg (·.sourceStp) hraw
  case sourceVlan => exact congrArg (·.sourceVlan) hraw
  case destinationStp => exact congrArg (·.destinationStp) hraw
  case destinationVlan => exact congrArg (·.destinationVlan) hraw
  case allowStpsInSdp => exact congrArg (·.allowStpsInSdp) hraw
  case includeSdps => exact congrArg (·.includeSdps) hraw
  case excludeSdps => exact congrArg (·.excludeSdps) hraw
  case sourceOffered => exact hoffered h.sourceOffered
  case destinationOffered => exact hoffered h.destinationOffered
  case sourceAccepted => exact hvlan h.sourceAccepted
  case destinationAccepted => exact hvlan h.destinationAccepted
  case includeDistinct => exact h.includeDistinct
  case excludeDistinct => exact h.excludeDistinct
  case includeOffered =>
    intro sdp hin
    rw [hoptions', ← hoptions]
    exact h.includeOffered sdp hin
  case excludeOffered =>
    intro sdp hin
    rw [hoptions', ← hoptions]
    exact h.excludeOffered sdp hin
  case endpoints =>
    obtain ⟨ero, hero⟩ := h.endpoints.routable
    refine ⟨h.endpoints.distinct, .inr (htopology' ▸ ⟨hsource, hdestination⟩),
      h.endpoints.excludeSdps, ero, ?_⟩
    rw [htopology', ero_order order' order, ← htopology]
    exact hero

theorem PageAccepts.again {topology : SdpTopology} {inUse inUse' : InUse}
    {defaults defaults' : SdpVlans}
    {raw raw' : SdpVlanFields} {includeSdps : List String} {vlans : List (Option Int)}
    (h : PageAccepts topology inUse defaults raw includeSdps vlans)
    (hinUse : ∀ stpId, inUse'.on stpId ⊆ inUse.on stpId)
    (hdefaults : ∀ (i : ℕ) sdpId, includeSdps[i]? = some sdpId →
      some (defaults'.get? sdpId) = vlans[i]? ∧
        ∀ vlan, raw' i = some vlan → vlan = defaults'.get? sdpId) :
    PageAccepts topology inUse' defaults' raw' includeSdps vlans := by
  refine ⟨h.length, fun i sdpId hsdp => ?_⟩
  obtain ⟨field, vlan, hfield, hvlan, _, haccepted⟩ := h.field i sdpId hsdp
  obtain ⟨hdefault, hraw⟩ := hdefaults i sdpId hsdp
  simp only [sdpVlanField, bind_eq_ok, lookup_eq_ok, pure_eq_ok] at hfield
  obtain ⟨allowed, hallowed, stps, hstps, name, hname, rfl⟩ := hfield
  refine ⟨_, vlan, bind_eq_ok.mpr ⟨allowed, lookup_eq_ok.mpr hallowed, bind_eq_ok.mpr ⟨stps,
    lookup_eq_ok.mpr hstps, bind_eq_ok.mpr ⟨name, lookup_eq_ok.mpr hname, rfl⟩⟩⟩, hvlan, ?_, ?_⟩
  · have heq : defaults'.get? sdpId = vlan := Option.some.inj (hdefault.trans hvlan)
    cases hsubmitted : raw' i with
    | none => exact heq
    | some submitted => exact (hraw _ hsubmitted).trans heq
  · intro v hv
    obtain ⟨hlower, hupper, hin, hfree⟩ := haccepted v hv
    rw [Finset.mem_union, not_or] at hfree
    refine ⟨hlower, hupper, hin, ?_⟩
    rw [Finset.mem_union, not_or]
    exact ⟨fun hin => hfree.1 (hinUse _ hin), fun hin => hfree.2 (hinUse _ hin)⟩

/-! ## What a retry accepts -/

section Accepted

variable {orders orders' : Orders} {inventory : Inventory}
  {before after : List AggregatorReservation}
  {submission submission' : Submission} {vc : Vc} {raw raw₀ : ConnectionFields}
  {rawVlans rawVlans₀ : SdpVlanFields}

theorem storedSdpVlans_submission {topology : SdpTopology} {inUse : InUse} {defaults : SdpVlans}
    (hnodup : submission.input.includeSdps.Nodup)
    (hpins : sdpVlanInput topology submission.input.includeSdps inUse defaults rawVlans₀ =
      .ok submission.path.sdpVlans)
    (hstores : Stores inventory submission vc) : storedSdpVlans vc = submission.path.sdpVlans := by
  obtain ⟨vlans, haccepts, heq⟩ := sdpVlanInput_eq_ok.mp hpins
  rw [heq]
  exact storedSdpVlans_eq hnodup haccepts.length (heq ▸ hstores.constraints)

theorem retryInput_again (orders' : Orders)
    (hcreate : createInput orders inventory before raw₀ rawVlans₀ = .ok submission)
    (hstores : Stores inventory submission vc) (hstate : vc.state ∈ retryableStates)
    (hothers : OthersUnchanged vc.connectionId before after) (hleaves : LeavesPages vc raw rawVlans)
    (hsource : ¬ InSdp inventory submission.input.sourceStp)
    (hdestination : ¬ InSdp inventory submission.input.destinationStp) :
    retryInput orders' inventory after vc raw rawVlans =
      .ok (submission.again vc.circuitDescription) := by
  obtain ⟨topology, inUse, _, form, _, haccept⟩ := connectionInput_eq_ok.mp hcreate
  have hpage := validate_eq_ok.mp haccept.page
  obtain ⟨hpins, hsummary, hero⟩ := pathInput_eq_ok.mp haccept.path
  obtain ⟨inUse', hinUse', hfewer⟩ := inUse_after orders'.pairs hothers haccept.fetched
  obtain ⟨values, hvalues, hprefilled⟩ := retryValues_stored hstores hpage.endpoints.excludeSdps
  obtain ⟨form', hform', hgroups⟩ := connectionForm_again haccept.built inUse' values
  have hraw : raw.over form'.defaults = (submission.again vc.circuitDescription).input.fields := by
    rw [(connectionForm_fields hform').2.2.2, hleaves.connection _ hvalues, hprefilled]
  refine retryInput_eq_ok.mpr ⟨hstate, connectionInput_eq_ok.mpr ⟨topology, inUse', values, form',
    hvalues, haccept.loaded, hinUse', hform', validate_eq_ok.mpr ?_,
    pathInput_eq_ok.mpr ⟨?_, hsummary, ?_⟩⟩⟩
  · rw [← mem_stpIds haccept.loaded] at hsource hdestination
    exact hpage.again haccept.built hform' hgroups hfewer hraw hsource hdestination
  · have hstored := storedSdpVlans_submission hpage.includeDistinct hpins hstores
    obtain ⟨vlans, haccepts, heq⟩ := sdpVlanInput_eq_ok.mp hpins
    refine sdpVlanInput_eq_ok.mpr ⟨vlans, haccepts.again hfewer fun i sdpId hsdp => ?_, heq⟩
    rw [hstored]
    constructor
    · obtain ⟨_, vlan, _, hvlan, _⟩ := haccepts.field i sdpId hsdp
      rw [hvlan, heq, pinned_get? hpage.includeDistinct haccepts.length hsdp hvlan]
    · rw [← hstored]
      change submission.input.includeSdps[i]? = some sdpId at hsdp
      rw [← included_owners hstores, List.getElem?_map] at hsdp
      obtain ⟨c, hc, rfl⟩ := Option.map_eq_some_iff.mp hsdp
      exact hleaves.sdpVlans i c hc
  · rw [ero_order orders'.ero orders.ero]
    exact hero

/-- A retry whose pages are left is rejected only for an end that is part of an SDP. -/
theorem retryInput_left_iff
    (hcreate : createInput orders inventory before raw₀ rawVlans₀ = .ok submission)
    (hstores : Stores inventory submission vc) (hstate : vc.state ∈ retryableStates)
    (hothers : OthersUnchanged vc.connectionId before after)
    (hleaves : LeavesPages vc raw rawVlans) :
    retryInput orders' inventory after vc raw rawVlans = .ok submission' ↔
      submission' = submission.again vc.circuitDescription ∧
        ¬ InSdp inventory submission.input.sourceStp ∧
        ¬ InSdp inventory submission.input.destinationStp := by
  constructor
  · intro h
    obtain ⟨topology, inUse, values, form, hvalues, haccept⟩ :=
      connectionInput_eq_ok.mp (retryInput_eq_ok.mp h).2
    have hpage := validate_eq_ok.mp haccept.page
    obtain ⟨_, htopology, _, hdefaults⟩ := connectionForm_fields haccept.built
    have hfields : submission'.input.fields =
        (submission.again vc.circuitDescription).input.fields := by
      obtain ⟨_, _, _, _, _, hcreated⟩ := connectionInput_eq_ok.mp hcreate
      obtain ⟨_, hvalues', hprefilled⟩ :=
        retryValues_stored hstores (validate_eq_ok.mp hcreated.page).endpoints.excludeSdps
      cases hvalues.symm.trans hvalues'
      rw [← hpage.fields, hdefaults, hleaves.connection _ hvalues, hprefilled]
    have hgate : ¬ InSdp inventory submission.input.sourceStp ∧
        ¬ InSdp inventory submission.input.destinationStp := by
      have hallow := Option.some.inj (congrArg ConnectionFields.allowStpsInSdp hfields)
      have hsource := Option.some.inj (congrArg ConnectionFields.sourceStp hfields)
      have hdestination := Option.some.inj (congrArg ConnectionFields.destinationStp hfields)
      rcases hpage.endpoints.gate with htick | hgate
      · cases hallow.symm.trans htick
      · rwa [htopology, mem_stpIds haccept.loaded, mem_stpIds haccept.loaded, hsource,
          hdestination] at hgate
    have hagain := retryInput_again orders' hcreate hstores hstate hothers hleaves
      hgate.1 hgate.2
    exact ⟨Except.ok.inj (h.symm.trans hagain), hgate⟩
  · rintro ⟨rfl, hsource, hdestination⟩
    exact retryInput_again orders' hcreate hstores hstate hothers hleaves hsource hdestination

end Accepted

end NsiOrchestrator.Forms
