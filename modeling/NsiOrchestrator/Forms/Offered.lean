import NsiOrchestrator.Forms.Generators
import NsiOrchestrator.Vlans.Codec

/-! # What the forms offer

The label of an STP and the description of an SDP field show the VLANs that are free.
They are the VLANs the validators of these fields accept.
-/

namespace NsiOrchestrator.Forms

open Outcome Vlans Fields

/-! ## The free ranges as text -/

theorem noneAvailable_unreadable (vlan : Int) : ¬ Covers "none available" vlan := by
  rintro ⟨vlans, hvlans, _⟩
  rw [show vlanSet "none available" = .error (.valueError (.invalidLiteral "none available"))
    from rfl] at hvlans
  cases hvlans

theorem freeRanges_covers {allowed : Finset Int} (hnonneg : ∀ vlan ∈ allowed, 0 ≤ vlan)
    (inUse : Finset Int) (vlan : Int) :
    freeRanges allowed inUse ≠ "none available" ∧ Covers (freeRanges allowed inUse) vlan ↔
      vlan ∈ allowed ∧ vlan ∉ inUse := by
  have hread : vlanSet (collapseRanges (sorted (allowed \ inUse))) = .ok (allowed \ inUse) :=
    vlanSet_collapseRanges fun vlan hvlan => hnonneg vlan (Finset.mem_sdiff.mp hvlan).1
  have hcovers : Covers (collapseRanges (sorted (allowed \ inUse))) vlan ↔
      vlan ∈ allowed ∧ vlan ∉ inUse := by
    rw [← vlanSet_covers hread, Finset.mem_sdiff]
  unfold freeRanges
  by_cases hempty : collapseRanges (sorted (allowed \ inUse)) = ""
  · have hnot : ¬ (vlan ∈ allowed ∧ vlan ∉ inUse) := by
      rw [hempty, vlanSet_empty, Except.ok.injEq] at hread
      rw [← Finset.mem_sdiff, ← hread]
      exact Finset.notMem_empty vlan
    simp [hempty, hnot]
  · simp only [hempty, if_false, hcovers]
    refine and_iff_right_of_imp fun hfree hnone => ?_
    exact noneAvailable_unreadable vlan (hnone ▸ hcovers.mpr hfree)

theorem vlanInLabelGroup_eq {labelGroup : String} {vlans : Finset Int}
    (h : vlanSet labelGroup = .ok vlans) (vlan : Int) :
    vlanInLabelGroup vlan labelGroup = .ok (decide (vlan ∈ vlans)) := by
  obtain ⟨ranges, hranges, _⟩ := bind_eq_ok.mp h
  obtain ⟨within, hwithin⟩ : ∃ within, vlanInLabelGroup vlan labelGroup = .ok within :=
    ⟨_, bind_eq_ok.mpr ⟨ranges, hranges, rfl⟩⟩
  have hiff : within = true ↔ vlan ∈ vlans := by
    rw [vlanSet_covers h, ← vlanInLabelGroup_iff, hwithin, Except.ok.injEq]
  rw [hwithin]
  congr 1
  rw [Bool.eq_iff_iff, hiff, decide_eq_true_iff]

/-! ## The options of the connection form -/

def optionLabel (stp : Stp) (usedInSdp : Finset String) (available : String) : String :=
  let sdpMarker := if stp.stpId ∈ usedInSdp then ", in SDP" else ""
  s!"{stp.stpName} (VLAN {available}{sdpMarker})"

section Options

variable {stps : List Stp} {inUse : InUse}

theorem stpSelector_eq_choices (inUse : InUse) (usedInSdp : Finset String)
    (hstps : ∀ stp ∈ stps, ∃ vlans, vlanSet stp.labelGroup = .ok vlans) :
    ∃ available : Stp → String,
      (∀ stp ∈ stps, availableVlanRanges stp.labelGroup (inUse.on stp.stpId) =
        .ok (available stp)) ∧
      stpSelector stps usedInSdp inUse = choices stpChoice (Dict.ofPairs (stps.map fun stp =>
        (stp.stpId, optionLabel stp usedInSdp (available stp)))) := by
  let available : Stp → String := fun stp =>
    freeRanges ((vlanSet stp.labelGroup).toOption.getD ∅) (inUse.on stp.stpId)
  have havailable : ∀ stp ∈ stps, availableVlanRanges stp.labelGroup (inUse.on stp.stpId) =
      .ok (available stp) := by
    intro stp hstp
    obtain ⟨vlans, hvlans⟩ := hstps stp hstp
    simp only [availableVlanRanges, available, hvlans]
    rfl
  refine ⟨available, havailable, ?_⟩
  have hlabels : (stps.mapM fun stp => do
      let sdpMarker := if stp.stpId ∈ usedInSdp then ", in SDP" else ""
      let free ← availableVlanRanges stp.labelGroup (inUse.on stp.stpId)
      pure (stp.stpId, s!"{stp.stpName} (VLAN {free}{sdpMarker})")) = Except.ok (ε := PyError)
        (stps.map fun stp => (stp.stpId, optionLabel stp usedInSdp (available stp))) := by
    refine mapM_eq_map fun stp hstp => ?_
    simp only [havailable stp hstp]
    rfl
  rw [stpSelector, hlabels]
  rfl

/-- The option of an STP, with its free ranges, accepts the VLANs it shows. -/
theorem option_accepts {topology : SdpTopology} {values : ConnectionFields}
    {form : ConnectionForm} (h : connectionForm stps topology inUse values = .ok form)
    {stpId : String} (hin : stpId ∈ stps.map Stp.stpId) :
    ∃ stp ∈ stps, ∃ available, stp.stpId = stpId ∧
      form.stpOptions.get? stpId = (if isMember stpChoice stpId then
        some (optionLabel stp topology.stpIds available) else none) ∧
      ∀ vlan, form.vlanWithinStpRange (some stpId) vlan = .ok vlan ↔
        available ≠ "none available" ∧ Covers available vlan := by
  obtain ⟨hstps, _⟩ := connectionForm_ok_iff.mp ⟨form, h⟩
  obtain ⟨available, havailable, hselector⟩ :=
    stpSelector_eq_choices inUse topology.stpIds hstps
  obtain ⟨options, hoptions, h⟩ := bind_eq_ok.mp h
  cases pure_eq_ok.mp h
  rw [hselector] at hoptions
  -- Both maps of the form keep the last STP of an id.
  obtain ⟨stp, hfind⟩ : ∃ stp, stps.reverse.find? (fun stp => stp.stpId = stpId) = some stp := by
    rw [← Option.isSome_iff_exists, List.find?_isSome]
    obtain ⟨stp, hstp, rfl⟩ := List.mem_map.mp hin
    exact ⟨stp, List.mem_reverse.mpr hstp, by simp⟩
  have hstp : stp ∈ stps := List.mem_reverse.mp (List.mem_of_find?_eq_some hfind)
  have hid : stp.stpId = stpId := by simpa using List.find?_some hfind
  obtain ⟨vlans, hvlans⟩ := hstps stp hstp
  have hfree : available stp = freeRanges vlans (inUse.on stpId) := by
    have h := havailable stp hstp
    rw [availableVlanRanges, hvlans, hid] at h
    exact (Except.ok.inj h).symm
  refine ⟨stp, hstp, available stp, hid, ?_, fun vlan => ?_⟩
  · rw [get?_choices hoptions, Dict.get?_ofPairs_map, hfind, Option.map_some]
  · rw [vlanWithinStpRange_eq_ok, hfree, freeRanges_covers (vlanSet_nonneg hvlans),
      Dict.get?_ofPairs_map, hfind, Option.map_some]
    simp [vlanSet_covers hvlans]

end Options

/-! ## The fields of the SDP page -/

theorem sdpTopology_ok {sdps : Dict String Sdp} (hsdps : ∀ e ∈ sdps.entries,
    WellFormed e.2.stps.1.labelGroup ∧ WellFormed e.2.stps.2.labelGroup) :
    ∃ topology, sdpTopology sdps = .ok topology := by
  obtain ⟨vlans, hvlans⟩ : ∃ vlans, (sdps.entries.mapM fun e => do
      let a ← vlanSet e.2.stps.1.labelGroup
      let z ← vlanSet e.2.stps.2.labelGroup
      pure (e.1, a ∩ z)) = .ok vlans := by
    refine exists_mapM fun e he => ?_
    obtain ⟨a, ha⟩ := (hsdps e he).1.vlanSet
    obtain ⟨z, hz⟩ := (hsdps e he).2.vlanSet
    exact ⟨_, bind_eq_ok.mpr ⟨a, ha, bind_eq_ok.mpr ⟨z, hz, rfl⟩⟩⟩
  exact ⟨_, bind_eq_ok.mpr ⟨vlans, hvlans, rfl⟩⟩

def fieldDescription (free : String) : String :=
  s!"Optional, free: {free}; leave empty to let the PCE choose"

theorem description_accepts {sdps : Dict String Sdp} {topology : SdpTopology}
    (h : sdpTopology sdps = .ok topology) (inUse : InUse) (defaults : SdpVlans) {sdpId : String}
    (hin : (sdps.get? sdpId).isSome) :
    ∃ field free, sdpVlanField topology defaults inUse sdpId = .ok field ∧
      field.description = fieldDescription free ∧
      ∀ loc vlan, 1 ≤ vlan → vlan ≤ 4094 →
        (field.validate loc (some (some vlan)) = .ok (some vlan) ↔
          free ≠ "none available" ∧ Covers free vlan) := by
  obtain ⟨sdp, hsdp⟩ := Option.isSome_iff_exists.mp hin
  obtain ⟨allowed, hallowed⟩ := Option.isSome_iff_exists.mp (sdpTopology_vlans_isSome h hin)
  have hname := (sdpTopology_names h sdpId _).mpr ⟨sdp, hsdp, rfl⟩
  have hstps := (sdpTopology_stps h sdpId _).mpr ⟨sdp, hsdp, rfl⟩
  have hnonneg : ∀ vlan ∈ allowed, 0 ≤ vlan := by
    intro vlan hvlan
    obtain ⟨_, _, hboth⟩ := sdpTopology_vlans h hallowed
    exact covers_nonneg ((hboth vlan).mp hvlan).1
  have hfield : sdpVlanField topology defaults inUse sdpId =
      .ok ⟨allowed, inUse.on sdp.stps.1.stpId ∪ inUse.on sdp.stps.2.stpId, defaults.get? sdpId,
        s!"VLAN on {sdp.sdpName}", fieldDescription (freeRanges allowed
          (inUse.on sdp.stps.1.stpId ∪ inUse.on sdp.stps.2.stpId))⟩ := by
    simp only [sdpVlanField, bind_eq_ok, lookup_eq_ok, pure_eq_ok]
    exact ⟨_, hallowed, _, hstps, _, hname, rfl⟩
  refine ⟨_, _, hfield, rfl, fun loc vlan hlow hhigh => ?_⟩
  rw [sdpVlanField_validate_eq_ok, freeRanges_covers hnonneg]
  simp [hlow, hhigh]

/-! ## What is offered is accepted -/

/-- With well-formed label groups the page of an SDP is built, and the connection form is
unless it is refused a name. An STP option and an SDP field accept a VLAN exactly when their own
text of free ranges names it. -/
theorem accepts_offered {stps : List Stp} {sdps : Dict String Sdp} (inUse : InUse)
    (values : ConnectionFields) (defaults : SdpVlans)
    (hstps : ∀ stp ∈ stps, WellFormed stp.labelGroup)
    (hsdps : ∀ e ∈ sdps.entries,
      WellFormed e.2.stps.1.labelGroup ∧ WellFormed e.2.stps.2.labelGroup) :
    ∃ topology, sdpTopology sdps = .ok topology ∧
      ((∃ form, connectionForm stps topology inUse values = .ok form) ↔
        ∀ stp ∈ stps, ¬ Refused stpChoice stp.stpId) ∧
      (∀ form, connectionForm stps topology inUse values = .ok form →
        ∀ stpId ∈ stps.map Stp.stpId, ∃ stp ∈ stps, ∃ available, stp.stpId = stpId ∧
          form.stpOptions.get? stpId = (if isMember stpChoice stpId then
            some (optionLabel stp topology.stpIds available) else none) ∧
          ∀ vlan, form.vlanWithinStpRange (some stpId) vlan = .ok vlan ↔
            available ≠ "none available" ∧ Covers available vlan) ∧
      (∀ sdpId ∈ sdps.keys, ∃ field free,
        sdpVlanField topology defaults inUse sdpId = .ok field ∧
        field.description = fieldDescription free ∧
        ∀ loc vlan, 1 ≤ vlan → vlan ≤ 4094 →
          (field.validate loc (some (some vlan)) = .ok (some vlan) ↔
            free ≠ "none available" ∧ Covers free vlan)) ∧
      ∀ stp ∈ stps, ∃ vlans, vlanSet stp.labelGroup = .ok vlans ∧
        ∀ vlan, vlanInLabelGroup vlan stp.labelGroup = .ok (decide (vlan ∈ vlans)) := by
  obtain ⟨topology, htopology⟩ := sdpTopology_ok hsdps
  refine ⟨topology, htopology, ?_, fun form hform stpId hin => option_accepts hform hin,
    fun sdpId hin => ?_, fun stp hstp => ?_⟩
  · rw [connectionForm_ok_iff]
    exact and_iff_right fun stp hstp => (hstps stp hstp).vlanSet
  · exact description_accepts htopology inUse defaults (Dict.get?_isSome.mpr hin)
  · obtain ⟨vlans, hvlans⟩ := (hstps stp hstp).vlanSet
    exact ⟨vlans, hvlans, vlanInLabelGroup_eq hvlans⟩

theorem accepts_offered_line : ∃ topology form,
    sdpTopology lineInventory.sdps = .ok topology ∧
    connectionForm lineInventory.stps topology .empty .untouched = .ok form ∧
    ∃ stp ∈ lineInventory.stps, ∃ available, stp.stpId = "n:n:n:n:n:X:1" ∧
      form.stpOptions.get? "n:n:n:n:n:X:1" = some (optionLabel stp topology.stpIds available) ∧
      ∀ vlan, form.vlanWithinStpRange (some "n:n:n:n:n:X:1") vlan = .ok vlan ↔
        available ≠ "none available" ∧ Covers available vlan := by
  have hrange : WellFormed "1-9" :=
    wellFormed_range ['1'] ['9'] (Text.numeral_toDigits 1) (Text.numeral_toDigits 9)
  have hstps : ∀ stp ∈ lineInventory.stps, WellFormed stp.labelGroup := by
    simp [lineInventory, hrange]
  have hsdps : ∀ e ∈ lineInventory.sdps.entries,
      WellFormed e.2.stps.1.labelGroup ∧ WellFormed e.2.stps.2.labelGroup := by
    simp [lineInventory, hrange]
  obtain ⟨topology, htopology, hbuilt, hoptions, _⟩ :=
    accepts_offered .empty .untouched .empty hstps hsdps
  obtain ⟨form, hform⟩ := hbuilt.mpr (by decide)
  obtain ⟨stp, hstp, available, hid, hoption, haccepts⟩ :=
    hoptions form hform "n:n:n:n:n:X:1" (by decide)
  exact ⟨topology, form, htopology, hform, stp, hstp, available, hid, hoption, haccepts⟩

end NsiOrchestrator.Forms
