import NsiOrchestrator.Vlans.Stored

/-! # Reconciling an STP with the DDS

The advertised capacity and VLAN range replace the stored ones, unless the range leaves
out a VLAN that a circuit stores on the STP.
-/

namespace NsiOrchestrator.Stps

open Outcome Vlans

/-- `DdsServiceTerminationPoint`. -/
structure DdsStp where
  id : String
  name : String
  capacityBits : Int
  labelGroup : String
  switchingServiceId : String
  deriving DecidableEq, Repr

def DdsStp.capacityMbits (stp : DdsStp) : Int := stp.capacityBits / 1000000

/-- `stp_by_id`: of an id that is advertised twice, the last one. -/
def stpById (advertised : List DdsStp) : Dict String DdsStp :=
  Dict.ofPairs (advertised.map fun stp => (stp.id, stp))

structure Stranded where
  labelGroup : String
  stranded : Dict Int (List String)
  deriving DecidableEq

def strandedLines (stranded : Dict Int (List String)) : String :=
  "\n".intercalate (stranded.entries.map fun e =>
    let ids := ", ".intercalate e.2
    s!"    VLAN {e.1}: subscription {ids}")

def refusedRange (stpId labelGroup : String) (stranded : Dict Int (List String)) :
    StepError Stranded :=
  .inconsistentData
    (s!"The DDS range {labelGroup} of {stpId} leaves out VLANs that " ++
      "subscriptions use; move or terminate them and retry:\n" ++ strandedLines stranded)
    ⟨labelGroup, stranded⟩

/-- `reconcile_dds_attributes`: what it returns or raises, and the block of the subscription that it
leaves. The circuits are those of all non-terminated subscriptions. -/
def reconcileInPlace (order : SetOrder StpVlan) (circuits : List (String × VcInactive))
    (advertised : List DdsStp) (stp : Stp) : Except (StepError Stranded) Unit × Stp :=
  match (stpById advertised).get? stp.stpId with
  | none => (.ok (), stp)
  | some ddsStp =>
      match vlansOutside order circuits stp.stpId ddsStp.labelGroup with
      | .error e => (.error (.raised e), stp)
      | .ok stranded =>
          if stranded.entries ≠ [] then
            (.error (refusedRange stp.stpId ddsStp.labelGroup stranded), stp)
          else
            let stp := { stp with capacity := ddsStp.capacityMbits }
            (.ok (), { stp with labelGroup := ddsStp.labelGroup })

/-- The block after a step that returns. -/
def reconcileDdsAttributes (order : SetOrder StpVlan) (circuits : List (String × VcInactive))
    (advertised : List DdsStp) (stp : Stp) : Except (StepError Stranded) Stp :=
  let (outcome, stp') := reconcileInPlace order circuits advertised stp
  outcome.map fun _ => stp'

theorem reconcileDdsAttributes_eq_ok {order : SetOrder StpVlan}
    {circuits : List (String × VcInactive)} {advertised : List DdsStp} {stp stp' : Stp} :
    reconcileDdsAttributes order circuits advertised stp = .ok stp' ↔
      ((stpById advertised).get? stp.stpId = none ∧ stp' = stp) ∨
      ∃ ddsStp stranded, (stpById advertised).get? stp.stpId = some ddsStp ∧
        vlansOutside order circuits stp.stpId ddsStp.labelGroup = .ok stranded ∧
        stranded.entries = [] ∧
        stp' = { stp with capacity := ddsStp.capacityMbits, labelGroup := ddsStp.labelGroup } := by
  unfold reconcileDdsAttributes reconcileInPlace
  cases (stpById advertised).get? stp.stpId with
  | none => simp [Except.map, eq_comm (a := stp)]
  | some ddsStp =>
      cases hout : vlansOutside order circuits stp.stpId ddsStp.labelGroup with
      | error e => simp [hout, Except.map]
      | ok stranded =>
          by_cases hnil : stranded.entries = [] <;> simp [hout, Except.map, hnil, eq_comm]

/-! ## What is advertised for an STP -/

def lastAdvertised (advertised : List DdsStp) (stpId : String) : Option DdsStp :=
  advertised.reverse.find? fun ddsStp => ddsStp.id = stpId

theorem stpById_get? (advertised : List DdsStp) (stpId : String) :
    (stpById advertised).get? stpId = lastAdvertised advertised stpId := by
  rw [stpById, Dict.get?_ofPairs_map DdsStp.id fun stp => stp]
  simp [lastAdvertised]

theorem lastAdvertised_eq_none {advertised : List DdsStp} {stpId : String} :
    lastAdvertised advertised stpId = none ↔ ∀ ddsStp ∈ advertised, ddsStp.id ≠ stpId := by
  simp [lastAdvertised]

/-! ## When a reconcile raises -/

/-- The range of the item and the VLANs of the circuits can be read. -/
structure Readable (circuits : List (String × VcInactive)) (ddsStp : DdsStp) : Prop where
  range : ∃ allowed, vlanSet ddsStp.labelGroup = .ok allowed
  circuits : ∀ circuit ∈ circuits, VcReadable circuit.2

/-- The subscription stores the VLAN on the STP, outside the range. A block without an STP
id is on no STP. -/
def Strands (circuits : List (String × VcInactive)) (stpId labelGroup : String) (vlan : Int)
    (subscriptionId : String) : Prop :=
  stpId ≠ "" ∧ ¬ Covers labelGroup vlan ∧
    ∃ vc, (subscriptionId, vc) ∈ circuits ∧ StoresOn vc stpId vlan

theorem leftOut_iff {circuits : List (String × VcInactive)}
    (hreadable : ∀ circuit ∈ circuits, VcReadable circuit.2) {stpId labelGroup : String}
    {vlan : Int} {subscriptionId : String} :
    LeftOut circuits stpId labelGroup vlan subscriptionId ↔
      Strands circuits stpId labelGroup vlan subscriptionId := by
  constructor
  · rintro ⟨hout, vc, hin, stored, hstored, hmem⟩
    obtain ⟨hne, hstores⟩ := (mem_storedVlans hstored stpId vlan).mp hmem
    exact ⟨hne, hout, vc, hin, hstores⟩
  · rintro ⟨hne, hout, vc, hin, hstores⟩
    obtain ⟨stored, hstored⟩ := storedVlans_ok_iff.mpr (hreadable _ hin)
    exact ⟨hout, vc, hin, stored, hstored, (mem_storedVlans hstored stpId vlan).mpr ⟨hne, hstores⟩⟩

/-- The reported map: the stranded VLANs in order, each with the ids of the subscriptions
that store it. -/
structure Reported (circuits : List (String × VcInactive)) (stpId labelGroup : String)
    (stranded : Dict Int (List String)) : Prop where
  ascending : stranded.keys.Pairwise (· < ·)
  ids : ∀ vlan ids, (vlan, ids) ∈ stranded.entries ↔ ids ≠ [] ∧ ids.Pairwise (· < ·) ∧
    ∀ sid, sid ∈ ids ↔ Strands circuits stpId labelGroup vlan sid

section Outcomes

variable (order : SetOrder StpVlan) {circuits : List (String × VcInactive)}
  {advertised : List DdsStp} {stp : Stp} {ddsStp : DdsStp}

theorem reconcile_unadvertised (h : lastAdvertised advertised stp.stpId = none) :
    reconcileDdsAttributes order circuits advertised stp = .ok stp := by
  rw [reconcileDdsAttributes, reconcileInPlace, stpById_get?, h]
  rfl

theorem reconcileInPlace_error {e : StepError Stranded}
    (h : reconcileDdsAttributes order circuits advertised stp = .error e) :
    (reconcileInPlace order circuits advertised stp).2 = stp := by
  revert h
  unfold reconcileDdsAttributes reconcileInPlace
  cases (stpById advertised).get? stp.stpId with
  | none => simp
  | some ddsStp =>
      cases hout : vlansOutside order circuits stp.stpId ddsStp.labelGroup with
      | error e => simp [hout]
      | ok stranded => by_cases hnil : stranded.entries = [] <;> simp [hout, Except.map, hnil]

theorem reconcile_unreadable (h : lastAdvertised advertised stp.stpId = some ddsStp)
    (hreadable : ¬ Readable circuits ddsStp) :
    ∃ message, reconcileDdsAttributes order circuits advertised stp =
      .error (.raised (.valueError message)) := by
  cases hout : vlansOutside order circuits stp.stpId ddsStp.labelGroup with
  | ok stranded =>
      obtain ⟨hrange, hcircuits⟩ := vlansOutside_ok_iff.mp ⟨stranded, hout⟩
      exact absurd ⟨hrange, hcircuits⟩ hreadable
  | error e =>
      obtain ⟨message, rfl⟩ := vlansOutside_onlyRaises order circuits stp.stpId ddsStp.labelGroup e
        hout
      refine ⟨message, ?_⟩
      simp only [reconcileDdsAttributes, reconcileInPlace, stpById_get?, h, hout]
      rfl

theorem reconcile_stranded (h : lastAdvertised advertised stp.stpId = some ddsStp)
    (hreadable : Readable circuits ddsStp)
    (hstrands : ∃ vlan sid, Strands circuits stp.stpId ddsStp.labelGroup vlan sid) :
    ∃ message stranded, reconcileDdsAttributes order circuits advertised stp =
      .error (.inconsistentData message ⟨ddsStp.labelGroup, stranded⟩) ∧
      Reported circuits stp.stpId ddsStp.labelGroup stranded := by
  obtain ⟨stranded, hout⟩ : ∃ stranded,
      vlansOutside order circuits stp.stpId ddsStp.labelGroup = .ok stranded :=
    vlansOutside_ok_iff.mpr ⟨hreadable.range, hreadable.circuits⟩
  have hne : stranded.entries ≠ [] := by
    intro hnil
    obtain ⟨vlan, sid, hstrands⟩ := hstrands
    exact (vlansOutside_entries_nil hout).mp hnil vlan sid
      ((leftOut_iff hreadable.circuits).mpr hstrands)
  have hraised : ∃ message, reconcileDdsAttributes order circuits advertised stp =
      .error (.inconsistentData message ⟨ddsStp.labelGroup, stranded⟩) := by
    simp only [reconcileDdsAttributes, reconcileInPlace, stpById_get?, h, hout, ne_eq, hne,
      not_false_eq_true, if_true]
    exact ⟨_, rfl⟩
  obtain ⟨message, hraised⟩ := hraised
  refine ⟨message, stranded, hraised, vlansOutside_ascending hout, fun vlan ids => ?_⟩
  rw [mem_vlansOutside hout]
  simp only [leftOut_iff hreadable.circuits]

theorem reconcile_updated (h : lastAdvertised advertised stp.stpId = some ddsStp)
    (hreadable : Readable circuits ddsStp)
    (hstrands : ∀ vlan sid, ¬ Strands circuits stp.stpId ddsStp.labelGroup vlan sid) :
    reconcileDdsAttributes order circuits advertised stp =
      .ok { stp with capacity := ddsStp.capacityMbits, labelGroup := ddsStp.labelGroup } := by
  obtain ⟨stranded, hout⟩ : ∃ stranded,
      vlansOutside order circuits stp.stpId ddsStp.labelGroup = .ok stranded :=
    vlansOutside_ok_iff.mpr ⟨hreadable.range, hreadable.circuits⟩
  refine reconcileDdsAttributes_eq_ok.mpr (.inr ⟨ddsStp, stranded, ?_, hout, ?_, rfl⟩)
  · rw [stpById_get?, h]
  · rw [vlansOutside_entries_nil hout]
    intro vlan sid hleft
    exact hstrands vlan sid ((leftOut_iff hreadable.circuits).mp hleft)

end Outcomes

/-- A reconcile raises exactly when the STP is advertised and a text cannot be read or a
subscription is stranded. Then nothing is updated, and stranded VLANs are reported with
the subscriptions that store them. Otherwise both attributes are the advertised ones
and nothing is stranded; an STP that is not advertised keeps its own. -/
theorem reconcileDdsAttributes_outcome (order : SetOrder StpVlan)
    (circuits : List (String × VcInactive)) (advertised : List DdsStp) (stp : Stp) :
    ((∃ e, reconcileDdsAttributes order circuits advertised stp = .error e) ↔
      ∃ ddsStp, lastAdvertised advertised stp.stpId = some ddsStp ∧
        (¬ Readable circuits ddsStp ∨
          ∃ vlan sid, Strands circuits stp.stpId ddsStp.labelGroup vlan sid)) ∧
    (∀ e, reconcileDdsAttributes order circuits advertised stp = .error e →
      (reconcileInPlace order circuits advertised stp).2 = stp ∧
      ∃ ddsStp, lastAdvertised advertised stp.stpId = some ddsStp ∧
        (¬ Readable circuits ddsStp ∧ (∃ message, e = .raised (.valueError message)) ∨
          Readable circuits ddsStp ∧ ∃ message stranded,
            e = .inconsistentData message ⟨ddsStp.labelGroup, stranded⟩ ∧
            Reported circuits stp.stpId ddsStp.labelGroup stranded)) ∧
    ((∀ ddsStp ∈ advertised, ddsStp.id ≠ stp.stpId) →
      reconcileDdsAttributes order circuits advertised stp = .ok stp) ∧
    ∀ ddsStp stp', lastAdvertised advertised stp.stpId = some ddsStp →
      reconcileDdsAttributes order circuits advertised stp = .ok stp' →
      stp' = { stp with capacity := ddsStp.capacityMbits, labelGroup := ddsStp.labelGroup } ∧
        ∀ vlan sid, ¬ Strands circuits stp.stpId stp'.labelGroup vlan sid := by
  rw [← lastAdvertised_eq_none]
  cases hlast : lastAdvertised advertised stp.stpId with
  | none => simp [reconcile_unadvertised order hlast]
  | some ddsStp =>
      by_cases hreadable : Readable circuits ddsStp
      · by_cases hstrands : ∃ vlan sid, Strands circuits stp.stpId ddsStp.labelGroup vlan sid
        · obtain ⟨message, stranded, hraised, hreported⟩ :=
            reconcile_stranded order hlast hreadable hstrands
          have hkept := reconcileInPlace_error order hraised
          rw [hraised]
          refine ⟨by simp [hstrands], ?_, by simp, by simp⟩
          rintro e h
          cases h
          exact ⟨hkept, ddsStp, rfl, .inr ⟨hreadable, message, stranded, rfl, hreported⟩⟩
        · have hnone : ∀ vlan sid, ¬ Strands circuits stp.stpId ddsStp.labelGroup vlan sid :=
            fun vlan sid h => hstrands ⟨vlan, sid, h⟩
          rw [reconcile_updated order hlast hreadable hnone]
          refine ⟨by simp [hreadable, hnone], by simp, by simp, ?_⟩
          rintro _ _ h h'
          cases h
          cases h'
          exact ⟨rfl, hnone⟩
      · obtain ⟨message, hraised⟩ := reconcile_unreadable order hlast hreadable
        have hkept := reconcileInPlace_error order hraised
        rw [hraised]
        refine ⟨by simp [hreadable], ?_, by simp, by simp⟩
        rintro e h
        cases h
        exact ⟨hkept, ddsStp, rfl, .inl ⟨hreadable, message, rfl⟩⟩

/-- An advertised range that is no VLAN spec raises with nothing stored on the STP. -/
theorem unreadable_range_raises : ∃ message,
    reconcileDdsAttributes byStpAndVlan [] [⟨"X:1", "x1", 1000000, "any", "X:ss"⟩]
        ⟨"X:1", "x1", 1, "1-9"⟩ = .error (.raised (.valueError message)) ∧
      ∀ vlan sid, ¬ Strands [] "X:1" "any" vlan sid := by
  refine ⟨.invalidLiteral "any", by decide +kernel, ?_⟩
  rintro vlan sid ⟨_, _, vc, hin, _⟩
  exact List.not_mem_nil hin

/-- A VLAN stored on an STP without an id is on no STP: a range that leaves it out is not
refused. -/
theorem emptyId_not_stranded :
    ∃ vc : VcInactive, StoresOn vc "" 20 ∧ ¬ Covers "1-9" 20 ∧
      reconcileDdsAttributes byStpAndVlan [("a", vc)] [⟨"", "x1", 1000000, "1-9", "X:ss"⟩]
        ⟨"", "x1", 1, "1-99"⟩ = .ok ⟨"", "x1", 1, "1-9"⟩ := by
  have hrange : vlanSet "1-9" = .ok {1, 2, 3, 4, 5, 6, 7, 8, 9} := by decide +kernel
  refine ⟨⟨(⟨some "20", some ⟨some ""⟩⟩, ⟨none, none⟩), []⟩, .inl ⟨rfl, "20", rfl, ?_⟩, ?_, ?_⟩
  · decide +kernel
  · rw [← vlanSet_covers hrange]
    decide
  · decide +kernel

end NsiOrchestrator.Stps
