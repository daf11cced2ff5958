import NsiOrchestrator.Forms.Offered

/-! # Validating the VLANs of an SDP

A VLAN that only one end of an SDP allows cannot cross it. Validate reports such VLANs
at the end that allows them; the forms of a circuit withhold them without a word.
-/

namespace NsiOrchestrator.Sdps

open Outcome Vlans Forms

/-! ## The step -/

/-- An end of the SDP in the details of the error. -/
structure SdpEnd where
  stpId : String
  vlans : String
  onlyHere : String
  deriving DecidableEq, Repr

/-- `_end`. -/
def sdpEnd (stp : Stp) (onlyHere : Finset Int) : SdpEnd :=
  ⟨stp.stpId, stp.labelGroup, collapseRanges (sorted onlyHere)⟩

def SdpEnd.line (e : SdpEnd) : String :=
  s!"    {e.stpId}: VLAN {e.vlans}" ++
    (if e.onlyHere = "" then "" else s!", only here: {e.onlyHere}")

/-- Both ends, with the VLANs that only one of them allows. -/
def sdpEnds (sdp : Sdp) (vlansA vlansZ : Finset Int) : List SdpEnd :=
  [sdpEnd sdp.stps.1 (vlansA \ vlansZ), sdpEnd sdp.stps.2 (vlansZ \ vlansA)]

def differentVlans (ends : List SdpEnd) : String :=
  "The STPs of this SDP allow different VLANs:\n" ++ "\n".intercalate (ends.map SdpEnd.line)

def validateSdpVlansMatch (sdp : Sdp) : Except (StepError (List SdpEnd)) Unit := do
  let vlansA ← stepping (vlanSet sdp.stps.1.labelGroup)
  let vlansZ ← stepping (vlanSet sdp.stps.2.labelGroup)
  if vlansA = vlansZ then pure ()
  else
    let ends := sdpEnds sdp vlansA vlansZ
    .error (.inconsistentData (differentVlans ends) ends)

/-! ## What it reports -/

theorem validateSdpVlansMatch_eq {sdp : Sdp} {vlansA vlansZ : Finset Int}
    (ha : vlanSet sdp.stps.1.labelGroup = .ok vlansA)
    (hz : vlanSet sdp.stps.2.labelGroup = .ok vlansZ) :
    validateSdpVlansMatch sdp =
      if vlansA = vlansZ then .ok ()
      else .error (.inconsistentData (differentVlans (sdpEnds sdp vlansA vlansZ))
        (sdpEnds sdp vlansA vlansZ)) := by
  unfold validateSdpVlansMatch
  rw [ha, hz]
  rfl

theorem vlanSet_onlyHere {spec : String} {here : Finset Int} (h : vlanSet spec = .ok here)
    (stp : Stp) (there : Finset Int) :
    vlanSet (sdpEnd stp (here \ there)).onlyHere = .ok (here \ there) := by
  refine vlanSet_collapseRanges fun vlan hvlan => ?_
  exact vlanSet_nonneg h vlan (Finset.mem_sdiff.mp hvlan).1

/-- The end of an STP, whose ranges are the VLANs that the STP advertises and the form of a
circuit withholds. -/
structure Reports (allowed : Finset Int) (stp : Stp) (reported : SdpEnd) : Prop where
  stpId : reported.stpId = stp.stpId
  vlans : reported.vlans = stp.labelGroup
  onlyHere : ∃ withheld, vlanSet reported.onlyHere = .ok withheld ∧
    ∀ vlan, vlan ∈ withheld ↔ Covers stp.labelGroup vlan ∧ vlan ∉ allowed

theorem reports_of_vlanSet {stp : Stp} {here there allowed : Finset Int}
    (h : vlanSet stp.labelGroup = .ok here)
    (hallowed : ∀ vlan, vlan ∈ allowed ↔ vlan ∈ here ∧ vlan ∈ there) :
    Reports allowed stp (sdpEnd stp (here \ there)) := by
  refine ⟨rfl, rfl, here \ there, vlanSet_onlyHere h stp there, fun vlan => ?_⟩
  rw [← vlanSet_covers h, Finset.mem_sdiff, hallowed]
  constructor
  · rintro ⟨hhere, hthere⟩
    exact ⟨hhere, fun hboth => hthere hboth.2⟩
  · rintro ⟨hhere, hnot⟩
    exact ⟨hhere, fun hthere => hnot ⟨hhere, hthere⟩⟩

theorem sdpVlanField_allowed {sdps : Dict String Sdp} {topology : SdpTopology}
    (h : sdpTopology sdps = .ok topology) {sid : String} {sdp : Sdp}
    (hsdp : sdps.get? sid = some sdp) {defaults : SdpVlans} {inUseByStp : InUse}
    {field : SdpVlanField} (hfield : sdpVlanField topology defaults inUseByStp sid = .ok field) :
    ∃ vlansA vlansZ, vlanSet sdp.stps.1.labelGroup = .ok vlansA ∧
      vlanSet sdp.stps.2.labelGroup = .ok vlansZ ∧ field.allowed = vlansA ∩ vlansZ := by
  obtain ⟨allowed, hallowed, hfield⟩ := bind_eq_ok.mp hfield
  obtain ⟨stps, _, hfield⟩ := bind_eq_ok.mp hfield
  obtain ⟨name, _, hfield⟩ := bind_eq_ok.mp hfield
  cases pure_eq_ok.mp hfield
  obtain ⟨vlans, hvlans, h⟩ := bind_eq_ok.mp h
  cases pure_eq_ok.mp h
  have hin := Dict.mem_of_mem_ofPairs (Dict.get?_eq_some.mp (lookup_eq_ok.mp hallowed))
  obtain ⟨e, he, hload⟩ := exists_of_mem_mapM hvlans hin
  obtain ⟨vlansA, ha, hload⟩ := bind_eq_ok.mp hload
  obtain ⟨vlansZ, hz, hload⟩ := bind_eq_ok.mp hload
  cases pure_eq_ok.mp hload
  have hsame : e.2 = sdp := Option.some.inj ((Dict.get?_eq_some.mpr he).symm.trans hsdp)
  subst hsame
  exact ⟨vlansA, vlansZ, ha, hz, rfl⟩

def Readable (sdp : Sdp) : Prop :=
  (∃ vlansA, vlanSet sdp.stps.1.labelGroup = .ok vlansA) ∧
    ∃ vlansZ, vlanSet sdp.stps.2.labelGroup = .ok vlansZ

theorem readable_iff {sdp : Sdp} :
    Readable sdp ↔ ∀ e, validateSdpVlansMatch sdp ≠ .error (.raised e) := by
  constructor
  · rintro ⟨⟨vlansA, ha⟩, ⟨vlansZ, hz⟩⟩ e
    rw [validateSdpVlansMatch_eq ha hz]
    split <;> simp
  · intro hnone
    cases ha : vlanSet sdp.stps.1.labelGroup with
    | error e => exact absurd (by rw [validateSdpVlansMatch, ha]; rfl) (hnone e)
    | ok vlansA =>
        cases hz : vlanSet sdp.stps.2.labelGroup with
        | error e => exact absurd (by rw [validateSdpVlansMatch, ha, hz]; rfl) (hnone e)
        | ok vlansZ => exact ⟨⟨vlansA, ha⟩, vlansZ, hz⟩

theorem sdpTopology_loads_iff {sdps : Dict String Sdp} :
    (∃ topology, sdpTopology sdps = .ok topology) ↔
      ∀ sid sdp, sdps.get? sid = some sdp → Readable sdp := by
  constructor
  · rintro ⟨topology, h⟩ sid sdp hsdp
    obtain ⟨loaded, hloaded, _⟩ := bind_eq_ok.mp h
    obtain ⟨_, _, hload⟩ := exists_of_mapM hloaded (Dict.get?_eq_some.mp hsdp)
    obtain ⟨vlansA, ha, hload⟩ := bind_eq_ok.mp hload
    obtain ⟨vlansZ, hz, _⟩ := bind_eq_ok.mp hload
    exact ⟨⟨vlansA, ha⟩, vlansZ, hz⟩
  · intro hreadable
    have hload : ∀ e ∈ sdps.entries, ∃ loaded : String × Finset Int, (do
        let a ← vlanSet e.2.stps.1.labelGroup
        let z ← vlanSet e.2.stps.2.labelGroup
        pure (e.1, a ∩ z)) = Except.ok loaded := by
      intro e he
      obtain ⟨⟨vlansA, ha⟩, vlansZ, hz⟩ := hreadable e.1 e.2 (Dict.get?_eq_some.mpr he)
      exact ⟨_, bind_eq_ok.mpr ⟨vlansA, ha, bind_eq_ok.mpr ⟨vlansZ, hz, rfl⟩⟩⟩
    obtain ⟨loaded, hloaded⟩ := exists_mapM hload
    exact ⟨_, bind_eq_ok.mpr ⟨loaded, hloaded, rfl⟩⟩

/-- What the step tells about the VLANs the field of the SDP allows. -/
structure Tells (sdp : Sdp) (allowed : Finset Int) : Prop where
  passes : validateSdpVlansMatch sdp = .ok () ↔
    ∀ vlan, Covers sdp.stps.1.labelGroup vlan ∨ Covers sdp.stps.2.labelGroup vlan → vlan ∈ allowed
  reports : ∀ e, validateSdpVlansMatch sdp = .error e → ∃ message a z,
    e = .inconsistentData message [a, z] ∧
      Reports allowed sdp.stps.1 a ∧ Reports allowed sdp.stps.2 z

theorem tells_of_vlanSet {sdp : Sdp} {vlansA vlansZ : Finset Int}
    (ha : vlanSet sdp.stps.1.labelGroup = .ok vlansA)
    (hz : vlanSet sdp.stps.2.labelGroup = .ok vlansZ) : Tells sdp (vlansA ∩ vlansZ) := by
  have heq := validateSdpVlansMatch_eq ha hz
  by_cases hsame : vlansA = vlansZ
  · rw [if_pos hsame] at heq
    refine ⟨iff_of_true heq fun vlan hvlan => ?_, fun e he => ?_⟩
    · rw [← vlanSet_covers ha, ← vlanSet_covers hz] at hvlan
      simpa [hsame] using hvlan
    · rw [heq] at he
      cases he
  · rw [if_neg hsame] at heq
    have hforth : Reports (vlansA ∩ vlansZ) sdp.stps.1 (sdpEnd sdp.stps.1 (vlansA \ vlansZ)) :=
      reports_of_vlanSet ha fun vlan => Finset.mem_inter
    have hback : Reports (vlansA ∩ vlansZ) sdp.stps.2 (sdpEnd sdp.stps.2 (vlansZ \ vlansA)) :=
      reports_of_vlanSet hz fun vlan => Finset.mem_inter.trans and_comm
    refine ⟨iff_of_false (by simp [heq]) fun hall => hsame ?_, fun e he => ?_⟩
    · -- a VLAN of either end is allowed, so the other end has it too
      ext vlan
      have hvlan := hall vlan
      rw [← vlanSet_covers ha, ← vlanSet_covers hz, Finset.mem_inter] at hvlan
      exact ⟨fun hin => (hvlan (.inl hin)).2, fun hin => (hvlan (.inr hin)).1⟩
    · rw [heq] at he
      cases he
      exact ⟨_, _, _, rfl, hforth, hback⟩

/-- The forms of a circuit can be built when the step raises nothing but its report for any SDP.
Whatever is in use, it then passes for an SDP when the field of the SDP allows every VLAN that an
end advertises, and otherwise reports, at each end, exactly those the field withholds. -/
theorem sdpVlans_reported (sdps : Dict String Sdp) :
    ((∃ topology, sdpTopology sdps = .ok topology) ↔
      ∀ sid sdp, sdps.get? sid = some sdp → ∀ e, validateSdpVlansMatch sdp ≠ .error (.raised e)) ∧
    ∀ topology, sdpTopology sdps = .ok topology → ∀ sid sdp, sdps.get? sid = some sdp →
      ∀ defaults inUseByStp, ∃ field, sdpVlanField topology defaults inUseByStp sid = .ok field ∧
        Tells sdp field.allowed := by
  refine ⟨?_, fun topology h sid sdp hsdp defaults inUseByStp => ?_⟩
  · simp only [sdpTopology_loads_iff, readable_iff]
  · obtain ⟨field, _, hfield, _⟩ := description_accepts h inUseByStp defaults (by rw [hsdp]; rfl)
    obtain ⟨vlansA, vlansZ, ha, hz, hallowed⟩ := sdpVlanField_allowed h hsdp hfield
    exact ⟨field, hfield, hallowed ▸ tells_of_vlanSet ha hz⟩

example : validateSdpVlansMatch ⟨"A-Z", ⟨"a", "A", 1, "7-8"⟩, ⟨"z", "Z", 1, "8"⟩⟩ =
    .error (.inconsistentData ("The STPs of this SDP allow different VLANs:\n" ++
      "    a: VLAN 7-8, only here: 7\n    z: VLAN 8") [⟨"a", "7-8", "7"⟩, ⟨"z", "8", ""⟩]) := by
  decide +kernel

end NsiOrchestrator.Sdps
