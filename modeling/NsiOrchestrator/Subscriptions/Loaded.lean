import NsiOrchestrator.Forms.Pinning
import NsiOrchestrator.Subscriptions.Links

/-! # What the connection forms load

The pages read the blocks of the STP and SDP subscriptions that are not terminated. Along
every run the blocks load, STP ids are distinct, and every id is one a dropdown offers.
-/

namespace NsiOrchestrator.Subscriptions

open Outcome Forms Mdp2p Transition

/-! ## Loading -/

def subscribedStps (table : Table) : Except PyError (List Stp) :=
  (subscriptionIdsForProductType .serviceTerminationPoint table).mapM fun subscriptionId => do
    let stp ← fromSubscription ProductBlock.stp? table subscriptionId
    pure stp.toStp

def sdpFromSubscription (table : Table) (subscriptionId : String) : Except PyError Sdp := do
  let sdp ← fromSubscription ProductBlock.sdp? table subscriptionId
  let a ← fromSubscription ProductBlock.stp? table sdp.stps.1
  let z ← fromSubscription ProductBlock.stp? table sdp.stps.2
  pure ⟨sdp.sdpName, a.toStp, z.toStp⟩

def subscribedSdps (table : Table) : Except PyError (Dict String Sdp) := do
  let sdps ← (subscriptionIdsForProductType .serviceDemarcationPoint table).mapM
    fun subscriptionId => do
      let sdp ← sdpFromSubscription table subscriptionId
      pure (subscriptionId, sdp)
  pure (Dict.ofPairs sdps)

theorem find_of_productType {table : Table}
    (hids : (table.map Subscription.subscriptionId).Nodup) {productType : ProductType}
    {subscriptionId : String}
    (h : subscriptionId ∈ subscriptionIdsForProductType productType table) :
    ∃ s ∈ table, find table subscriptionId = some s ∧ s.block.productType = productType ∧
      s.status ≠ .terminated := by
  obtain ⟨s, hs, rfl⟩ := List.mem_map.mp h
  obtain ⟨hs, hlive⟩ := List.mem_filter.mp hs
  obtain ⟨hproduct, hlive⟩ := of_decide_eq_true hlive
  exact ⟨s, hs, find_of_mem hids hs, hproduct, hlive⟩

theorem Owns.stp {table : Table} {subscriptionId value : String}
    (h : Owns table .stpId subscriptionId value) :
    ∃ b, fromSubscription ProductBlock.stp? table subscriptionId = .ok b := by
  obtain ⟨s, hs, hvalue⟩ := h
  cases hblock : s.block with
  | stp b => exact ⟨b, fromSubscription_eq_ok.mpr ⟨s, hs, by rw [hblock]; rfl⟩⟩
  | _ => simp [hblock, ProductBlock.resource] at hvalue

theorem isMember_of_fromSubscription {table : Table} (hnamed : ∀ s ∈ table, Named s.block)
    {subscriptionId : String} {b : StpBlock}
    (h : fromSubscription ProductBlock.stp? table subscriptionId = .ok b) :
    isMember stpChoice b.stpId := by
  obtain ⟨s, hs, hb⟩ := fromSubscription_eq_ok.mp h
  have hname := hnamed s (mem_of_find hs).1
  rwa [stp?_eq_some.mp hb] at hname

theorem filterMap_of_forall₂ {table rows : Table} {stps : List Stp}
    (h : List.Forall₂ (fun s stp => held table s = some (.stp stp.stpId)) rows stps) :
    rows.filterMap (held table) = stps.map fun stp => Identity.stp stp.stpId := by
  induction h with
  | nil => rfl
  | cons hs _ ih => rw [List.map_cons, ← ih, List.filterMap_cons_some hs]

/-! ## Every run -/

section Runs

variable {table : Table} (h : inventory.Reachable table)

include h

theorem subscribedStps_ok : ∃ stps, subscribedStps table = .ok stps := by
  refine exists_mapM fun subscriptionId hin => ?_
  obtain ⟨s, _, hfind, hproduct, _⟩ := find_of_productType (consistent_of_reachable h).ids hin
  cases hblock : s.block with
  | stp b =>
      exact ⟨_, bind_eq_ok.mpr ⟨b, fromSubscription_eq_ok.mpr ⟨s, hfind, by rw [hblock]; rfl⟩, rfl⟩⟩
  | _ => simp [hblock, ProductBlock.productType] at hproduct

theorem subscribedSdps_ok : ∃ sdps, subscribedSdps table = .ok sdps := by
  have hloads : ∀ subscriptionId ∈ subscriptionIdsForProductType .serviceDemarcationPoint table,
      ∃ sdp, sdpFromSubscription table subscriptionId = .ok sdp := by
    intro subscriptionId hin
    obtain ⟨s, hs, hfind, hproduct, _⟩ := find_of_productType (consistent_of_reachable h).ids hin
    have hlinked := linked_of_reachable h s hs
    cases hblock : s.block with
    | sdp b =>
        rw [hblock] at hlinked
        obtain ⟨_, _, ha, hz⟩ := hlinked
        obtain ⟨a, ha⟩ := ha.stp
        obtain ⟨z, hz⟩ := hz.stp
        exact ⟨_, bind_eq_ok.mpr ⟨b, fromSubscription_eq_ok.mpr ⟨s, hfind, by rw [hblock]; rfl⟩,
          bind_eq_ok.mpr ⟨a, ha, bind_eq_ok.mpr ⟨z, hz, rfl⟩⟩⟩⟩
    | _ => simp [hblock, ProductBlock.productType] at hproduct
  obtain ⟨sdps, hsdps⟩ := exists_mapM (f := fun subscriptionId => do
    let sdp ← sdpFromSubscription table subscriptionId
    pure (subscriptionId, sdp)) fun subscriptionId hin => by
      obtain ⟨sdp, hsdp⟩ := hloads subscriptionId hin
      exact ⟨_, bind_eq_ok.mpr ⟨sdp, hsdp, rfl⟩⟩
  exact ⟨_, bind_eq_ok.mpr ⟨sdps, hsdps, rfl⟩⟩

/-- Every subscribed STP can be chosen on the connection form, and was when it was created. -/
theorem subscribedStps_offered {stps : List Stp} (hstps : subscribedStps table = .ok stps) :
    ∀ stp ∈ stps, isMember stpChoice stp.stpId := by
  intro stp hstp
  obtain ⟨_, _, hload⟩ := exists_of_mem_mapM hstps hstp
  obtain ⟨b, hb, hload⟩ := bind_eq_ok.mp hload
  cases pure_eq_ok.mp hload
  exact isMember_of_fromSubscription (named_of_reachable h) hb

/-- So can the STPs of every subscribed SDP. -/
theorem sdpEnds_offered {sdps : Dict String Sdp} (hsdps : subscribedSdps table = .ok sdps) :
    EndsOffered sdps := by
  intro sdpId sdp hsdp
  obtain ⟨loaded, hloaded, hsdps⟩ := bind_eq_ok.mp hsdps
  cases pure_eq_ok.mp hsdps
  have hin := Dict.mem_of_mem_ofPairs (Dict.get?_eq_some.mp hsdp)
  obtain ⟨_, _, hload⟩ := exists_of_mem_mapM hloaded hin
  obtain ⟨sdp', hload, hpair⟩ := bind_eq_ok.mp hload
  cases pure_eq_ok.mp hpair
  obtain ⟨_, _, hload⟩ := bind_eq_ok.mp hload
  obtain ⟨a, ha, hload⟩ := bind_eq_ok.mp hload
  obtain ⟨z, hz, hload⟩ := bind_eq_ok.mp hload
  cases pure_eq_ok.mp hload
  have hnamed := named_of_reachable h
  exact ⟨isMember_of_fromSubscription hnamed ha, isMember_of_fromSubscription hnamed hz⟩

theorem subscribedStps_nodup {stps : List Stp} (hstps : subscribedStps table = .ok stps) :
    (stps.map Stp.stpId).Nodup := by
  have hconsistent := consistent_of_reachable h
  rw [subscribedStps, subscriptionIdsForProductType, mapM_eq_ok, List.forall₂_map_left_iff] at hstps
  have hheld : List.Forall₂ (fun s stp => held table s = some (.stp stp.stpId))
      (table.filter fun s => s.block.productType = .serviceTerminationPoint ∧
        s.status ≠ .terminated) stps := by
    refine List.forall₂_iff_get.mpr ⟨hstps.length_eq, fun i hi hi' => ?_⟩
    have hload := hstps.get hi hi'
    have hmem := List.get_mem _ ⟨i, hi⟩
    generalize List.get _ ⟨i, hi⟩ = s at hload hmem
    obtain ⟨hs, hlive⟩ := List.mem_filter.mp hmem
    obtain ⟨b, hb, hload⟩ := bind_eq_ok.mp hload
    obtain ⟨s', hfind, hblock⟩ := fromSubscription_eq_ok.mp hb
    obtain rfl : s = s' := Option.some.inj ((find_of_mem hconsistent.ids hs).symm.trans hfind)
    rw [← pure_eq_ok.mp hload]
    refine held_eq_some.mpr ⟨(of_decide_eq_true hlive).2, ?_⟩
    rw [identity, stp?_eq_some.mp hblock]
  have hnodup : (stps.map fun stp => Identity.stp stp.stpId).Nodup :=
    filterMap_of_forall₂ hheld ▸ hconsistent.once.sublist (List.filter_sublist.filterMap _)
  rw [← Function.comp_def Identity.stp Stp.stpId, ← List.map_map] at hnodup
  exact hnodup.of_map _

end Runs

end NsiOrchestrator.Subscriptions
