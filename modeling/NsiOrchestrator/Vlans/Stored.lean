import NsiOrchestrator.Products
import NsiOrchestrator.Vlans.Held

/-! # The VLANs circuits store

A circuit stores the VLANs of its two access points, and the pinned VLAN of an
included SDP on both of its STPs. What blocks in an early lifecycle leave open is
skipped.
-/

namespace NsiOrchestrator.Vlans

open Outcome

/-- `if text`: neither absent nor empty. -/
def truthy (text : Option String) : Option String := text.filter (· ≠ "")

theorem truthy_eq_some {text : Option String} {s : String} :
    truthy text = some s ↔ text = some s ∧ s ≠ "" := by
  simp [truthy, Option.filter_eq_some_iff]

/-- The pairs one constraint contributes to `pinned_sdp_vlans`. -/
def constraintPinned (constraint : SdpConstraintInactive) : List StpVlan :=
  match constraint.constraintType, constraint.sdp, constraint.vlan with
  | some .include, some sdp, some vlan =>
      [sdp.stps.1, sdp.stps.2].filterMap fun stp => (truthy stp.stpId).map (·, vlan)
  | _, _, _ => []

def pinnedSdpVlans (constraints : List SdpConstraintInactive) : Finset StpVlan :=
  (constraints.flatMap constraintPinned).toFinset

/-- The pair one access point contributes to `_stored_vlans`. -/
def sapStored (sap : SapInactive) : Except PyError (List StpVlan) :=
  match sap.stp.bind fun stp => truthy stp.stpId, truthy sap.vlan with
  | some stpId, some vlan => do
      let vlan' ← int vlan.toList
      pure [(stpId, vlan')]
  | _, _ => pure []

def storedVlans (vc : VcInactive) : Except PyError (Finset StpVlan) := do
  let source ← sapStored vc.saps.1
  let destination ← sapStored vc.saps.2
  pure ((source ++ destination).toFinset ∪ pinnedSdpVlans vc.sdpConstraints)

/-- The VLANs outside the label group, each with the ids of the subscriptions that
store it on the STP. -/
def vlansOutside (order : SetOrder StpVlan) (circuits : List (String × VcInactive)) (stpId : String)
    (labelGroup : String) : Except PyError (Dict Int (List String)) := do
  let allowed ← vlanSet labelGroup
  let pairs ← circuits.mapM fun circuit => do
    let stored ← storedVlans circuit.2
    pure (((order.list 0 stored).filter fun pair => pair.1 = stpId ∧ pair.2 ∉ allowed).map
      fun pair => (pair.2, circuit.1))
  pure (Dict.ofPairs ((groupPairs id pairs.flatten).entries.map fun e => (e.1, sorted e.2)))

theorem mem_pinnedSdpVlans {constraints : List SdpConstraint} {pair : StpVlan} :
    pair ∈ pinnedSdpVlans (constraints.map SdpConstraint.toInactive) ↔
      ∃ c ∈ constraints, c.constraintType = .include ∧ c.vlan = some pair.2 ∧
        (pair.1 = c.sdp.stpIds.1 ∨ pair.1 = c.sdp.stpIds.2) ∧ pair.1 ≠ "" := by
  obtain ⟨stpId, vlan⟩ := pair
  simp only [pinnedSdpVlans, List.mem_toFinset, List.mem_flatMap, List.mem_map,
    exists_exists_and_eq_and]
  refine exists_congr fun c => and_congr_right fun _ => ?_
  obtain ⟨constraintType, sdp, vlan'⟩ := c
  rcases constraintType with _ | _
  · cases vlan' with
    | none => simp [constraintPinned, SdpConstraint.toInactive]
    | some vlan' =>
        simp only [constraintPinned, SdpConstraint.toInactive, List.mem_filterMap, List.mem_cons,
          List.not_mem_nil, or_false, exists_eq_or_imp, exists_eq_left, Option.map_eq_some_iff,
          truthy_eq_some, Option.some.injEq, Prod.mk.injEq, true_and]
        grind
  · simp [constraintPinned, SdpConstraint.toInactive]

theorem sapStored_toInactive (sap : Sap) : sapStored sap.toInactive =
    if sap.stpId ≠ "" ∧ sap.vlan ≠ "" then
      (int sap.vlan.toList).map fun vlan => [(sap.stpId, vlan)]
    else .ok [] := by
  by_cases hstp : sap.stpId = ""
  · simp [sapStored, Sap.toInactive, truthy, hstp, pure, Except.pure]
  · by_cases hvlan : sap.vlan = ""
    · simp [sapStored, Sap.toInactive, truthy, hvlan, pure, Except.pure]
    · simp only [sapStored, Sap.toInactive, truthy, Option.bind_some, ne_eq, hstp, hvlan,
        not_false_eq_true, decide_true, Option.filter_some, if_true, and_self]
      cases int sap.vlan.toList <;> rfl

/-! ## What a circuit stores on an STP -/

def SapOn (sap : SapInactive) (stpId : String) (vlan : Int) : Prop :=
  sap.stp.bind StpInactive.stpId = some stpId ∧
    ∃ text, sap.vlan = some text ∧ int text.toList = .ok vlan

/-- The VLAN is pinned on an included SDP with the STP at either end. -/
def PinnedOn (constraint : SdpConstraintInactive) (stpId : String) (vlan : Int) : Prop :=
  constraint.constraintType = some .include ∧ constraint.vlan = some vlan ∧
    ∃ sdp, constraint.sdp = some sdp ∧
      (sdp.stps.1.stpId = some stpId ∨ sdp.stps.2.stpId = some stpId)

def StoresOn (vc : VcInactive) (stpId : String) (vlan : Int) : Prop :=
  SapOn vc.saps.1 stpId vlan ∨ SapOn vc.saps.2 stpId vlan ∨
    ∃ constraint ∈ vc.sdpConstraints, PinnedOn constraint stpId vlan

/-- The access point has an STP and a VLAN, both with a text. -/
def SapGiven (sap : SapInactive) (stpId text : String) : Prop :=
  sap.stp.bind StpInactive.stpId = some stpId ∧ stpId ≠ "" ∧ sap.vlan = some text ∧ text ≠ ""

def SapReadable (sap : SapInactive) : Prop :=
  ∀ stpId text, SapGiven sap stpId text → ∃ vlan, int text.toList = .ok vlan

def VcReadable (vc : VcInactive) : Prop := SapReadable vc.saps.1 ∧ SapReadable vc.saps.2

theorem sapStored_cases (sap : SapInactive) :
    (∃ stpId text, SapGiven sap stpId text ∧
      sapStored sap = (int text.toList).map fun vlan => [(stpId, vlan)]) ∨
    sapStored sap = .ok [] ∧ ∀ stpId text, ¬ SapGiven sap stpId text := by
  have hstp : (sap.stp.bind fun stp => truthy stp.stpId) =
      truthy (sap.stp.bind StpInactive.stpId) := by
    cases sap.stp <;> rfl
  unfold sapStored
  rw [hstp]
  split
  · next stpId text hid htext =>
      rw [truthy_eq_some] at hid htext
      refine .inl ⟨stpId, text, ⟨hid.1, hid.2, htext.1, htext.2⟩, ?_⟩
      cases int text.toList <;> rfl
  · next hnone =>
      refine .inr ⟨rfl, ?_⟩
      rintro stpId text ⟨hid, hne, htext, hne'⟩
      exact hnone stpId text (truthy_eq_some.mpr ⟨hid, hne⟩) (truthy_eq_some.mpr ⟨htext, hne'⟩)

theorem sapGiven_unique {sap : SapInactive} {stpId stpId' text text' : String}
    (h : SapGiven sap stpId text) (h' : SapGiven sap stpId' text') :
    stpId = stpId' ∧ text = text' :=
  ⟨Option.some.inj (h.1.symm.trans h'.1), Option.some.inj (h.2.2.1.symm.trans h'.2.2.1)⟩

theorem sapStored_ok_iff {sap : SapInactive} :
    (∃ stored, sapStored sap = .ok stored) ↔ SapReadable sap := by
  rcases sapStored_cases sap with ⟨stpId, text, hgiven, heq⟩ | ⟨heq, hnone⟩
  · rw [heq]
    constructor
    · rintro ⟨stored, h⟩ stpId' text' hgiven'
      obtain ⟨rfl, rfl⟩ := sapGiven_unique hgiven hgiven'
      cases hint : int text.toList with
      | ok vlan => exact ⟨vlan, rfl⟩
      | error e => simp [hint, Except.map] at h
    · intro h
      obtain ⟨vlan, hvlan⟩ := h stpId text hgiven
      exact ⟨[(stpId, vlan)], by rw [hvlan]; rfl⟩
  · exact ⟨fun _ stpId text hgiven => absurd hgiven (hnone stpId text), fun _ => ⟨[], heq⟩⟩

theorem int_empty (vlan : Int) : int [] ≠ .ok vlan := by
  rw [show int [] = .error (.valueError (.invalidLiteral "")) from rfl]
  simp

theorem mem_sapStored {sap : SapInactive} {stored : List StpVlan} (h : sapStored sap = .ok stored)
    (stpId : String) (vlan : Int) : (stpId, vlan) ∈ stored ↔ stpId ≠ "" ∧ SapOn sap stpId vlan := by
  rcases sapStored_cases sap with ⟨stpId', text, hgiven, heq⟩ | ⟨heq, hnone⟩
  · rw [heq] at h
    cases hint : int text.toList with
    | error e => simp [hint, Except.map] at h
    | ok vlan' =>
        rw [hint] at h
        cases h
        simp only [List.mem_singleton, Prod.mk.injEq, SapOn, hgiven.1, hgiven.2.2.1,
          Option.some.injEq, exists_eq_left', hint, Except.ok.injEq]
        constructor
        · rintro ⟨rfl, rfl⟩
          exact ⟨hgiven.2.1, rfl, rfl⟩
        · rintro ⟨_, rfl, rfl⟩
          exact ⟨rfl, rfl⟩
  · rw [heq] at h
    cases h
    simp only [List.not_mem_nil, false_iff]
    rintro ⟨hstp, hid, text, htext, hint⟩
    refine hnone stpId text ⟨hid, hstp, htext, ?_⟩
    rintro rfl
    exact int_empty vlan hint

theorem mem_constraintPinned {constraint : SdpConstraintInactive} {stpId : String} {vlan : Int} :
    (stpId, vlan) ∈ constraintPinned constraint ↔
      stpId ≠ "" ∧ PinnedOn constraint stpId vlan := by
  unfold constraintPinned PinnedOn
  split
  · next sdp vlan' htype hsdp hvlan =>
      simp only [List.mem_filterMap, List.mem_cons, List.not_mem_nil, or_false, exists_eq_or_imp,
        exists_eq_left, Option.map_eq_some_iff, truthy_eq_some, Prod.mk.injEq, htype, hsdp, hvlan,
        Option.some.injEq, exists_eq_left', true_and]
      grind
  · next hnone =>
      simp only [List.not_mem_nil, false_iff]
      rintro ⟨_, htype, hvlan, sdp, hsdp, _⟩
      exact hnone sdp vlan htype hsdp hvlan

theorem storedVlans_ok_iff {vc : VcInactive} :
    (∃ stored, storedVlans vc = .ok stored) ↔ VcReadable vc := by
  rw [VcReadable, ← sapStored_ok_iff, ← sapStored_ok_iff]
  simp only [storedVlans, bind_eq_ok, pure_eq_ok]
  constructor
  · rintro ⟨_, source, hsource, destination, hdestination, _⟩
    exact ⟨⟨source, hsource⟩, destination, hdestination⟩
  · rintro ⟨⟨source, hsource⟩, destination, hdestination⟩
    exact ⟨_, source, hsource, destination, hdestination, rfl⟩

theorem mem_storedVlans {vc : VcInactive} {stored : Finset StpVlan}
    (h : storedVlans vc = .ok stored) (stpId : String) (vlan : Int) :
    (stpId, vlan) ∈ stored ↔ stpId ≠ "" ∧ StoresOn vc stpId vlan := by
  obtain ⟨source, hsource, h⟩ := bind_eq_ok.mp h
  obtain ⟨destination, hdestination, h⟩ := bind_eq_ok.mp h
  cases pure_eq_ok.mp h
  simp only [Finset.mem_union, List.mem_toFinset, List.mem_append, pinnedSdpVlans, List.mem_flatMap,
    mem_sapStored hsource, mem_sapStored hdestination, mem_constraintPinned, StoresOn]
  constructor
  · rintro ((⟨hne, h⟩ | ⟨hne, h⟩) | ⟨constraint, hin, hne, h⟩)
    · exact ⟨hne, .inl h⟩
    · exact ⟨hne, .inr (.inl h)⟩
    · exact ⟨hne, .inr (.inr ⟨constraint, hin, h⟩)⟩
  · rintro ⟨hne, h | h | ⟨constraint, hin, h⟩⟩
    · exact .inl (.inl ⟨hne, h⟩)
    · exact .inl (.inr ⟨hne, h⟩)
    · exact .inr ⟨constraint, hin, hne, h⟩

/-! ## The VLANs outside a range -/

/-- The subscription stores the VLAN on the STP, and the label group leaves it out. -/
def LeftOut (circuits : List (String × VcInactive)) (stpId labelGroup : String) (vlan : Int)
    (subscriptionId : String) : Prop :=
  ¬ Covers labelGroup vlan ∧ ∃ vc, (subscriptionId, vc) ∈ circuits ∧
    ∃ stored, storedVlans vc = .ok stored ∧ (stpId, vlan) ∈ stored

section Outside

variable {order : SetOrder StpVlan} {circuits : List (String × VcInactive)}
  {stpId labelGroup : String} {stranded : Dict Int (List String)}

theorem vlansOutside_ok_iff :
    (∃ stranded, vlansOutside order circuits stpId labelGroup = .ok stranded) ↔
      (∃ allowed, vlanSet labelGroup = .ok allowed) ∧
        ∀ circuit ∈ circuits, VcReadable circuit.2 := by
  constructor
  · rintro ⟨stranded, h⟩
    obtain ⟨allowed, hallowed, h⟩ := bind_eq_ok.mp h
    obtain ⟨pairs, hpairs, _⟩ := bind_eq_ok.mp h
    refine ⟨⟨allowed, hallowed⟩, fun circuit hin => storedVlans_ok_iff.mp ?_⟩
    obtain ⟨_, _, hcircuit⟩ := exists_of_mapM hpairs hin
    exact (bind_eq_ok.mp hcircuit).imp fun _ => And.left
  · rintro ⟨⟨allowed, hallowed⟩, hreadable⟩
    obtain ⟨pairs, hpairs⟩ := exists_mapM (f := fun circuit : String × VcInactive => do
      let stored ← storedVlans circuit.2
      pure (((order.list 0 stored).filter fun pair => pair.1 = stpId ∧ pair.2 ∉ allowed).map
        fun pair => (pair.2, circuit.1))) (l := circuits) fun circuit hin => by
        obtain ⟨stored, hstored⟩ := storedVlans_ok_iff.mpr (hreadable circuit hin)
        exact ⟨_, bind_eq_ok.mpr ⟨stored, hstored, rfl⟩⟩
    exact ⟨_, bind_eq_ok.mpr ⟨allowed, hallowed, bind_eq_ok.mpr ⟨pairs, hpairs, rfl⟩⟩⟩

theorem vlansOutside_onlyRaises (order : SetOrder StpVlan) (circuits : List (String × VcInactive))
    (stpId labelGroup : String) :
    OnlyRaises PyError.IsValueError (vlansOutside order circuits stpId labelGroup) := by
  have hsap : ∀ sap, OnlyRaises PyError.IsValueError (sapStored sap) := by
    intro sap
    rcases sapStored_cases sap with ⟨_, text, _, heq⟩ | ⟨heq, _⟩
    · rw [heq]
      exact (int_onlyRaises text.toList).bind fun _ => .pure _
    · rw [heq]
      exact .pure _
  exact (vlanSet_onlyRaises _).bind fun _ => (OnlyRaises.mapM (fun _ =>
    ((hsap _).bind fun _ => (hsap _).bind fun _ => .pure _).bind fun _ => .pure _) _).bind
      fun _ => .pure _

theorem vlansOutside_eq (h : vlansOutside order circuits stpId labelGroup = .ok stranded) :
    ∃ pairs : List (Int × String),
      (∀ vlan sid, (vlan, sid) ∈ pairs ↔ LeftOut circuits stpId labelGroup vlan sid) ∧
      stranded.entries = (groupPairs id pairs).entries.map fun e => (e.1, sorted e.2) := by
  obtain ⟨allowed, hallowed, h⟩ := bind_eq_ok.mp h
  obtain ⟨pairs, hpairs, h⟩ := bind_eq_ok.mp h
  cases pure_eq_ok.mp h
  refine ⟨pairs.flatten, fun vlan sid => ?_, Dict.entries_ofPairs ?_⟩
  · rw [List.mem_flatten, LeftOut, ← vlanSet_covers hallowed]
    constructor
    · rintro ⟨found, hfound, hmem⟩
      obtain ⟨⟨sid', vc⟩, hin, hcircuit⟩ := exists_of_mem_mapM hpairs hfound
      obtain ⟨stored, hstored, hcircuit⟩ := bind_eq_ok.mp hcircuit
      cases pure_eq_ok.mp hcircuit
      obtain ⟨⟨_, _⟩, hpair, heq⟩ := List.mem_map.mp hmem
      cases heq
      simp only [List.mem_filter, SetOrder.mem_list, decide_eq_true_eq] at hpair
      obtain ⟨hpair, rfl, hout⟩ := hpair
      exact ⟨hout, vc, hin, stored, hstored, hpair⟩
    · rintro ⟨hout, vc, hin, stored, hstored, hpair⟩
      obtain ⟨found, hfound, hcircuit⟩ := exists_of_mapM hpairs hin
      obtain ⟨stored', hstored', hcircuit⟩ := bind_eq_ok.mp hcircuit
      cases hstored.symm.trans hstored'
      cases pure_eq_ok.mp hcircuit
      exact ⟨_, hfound, by simp [hpair, hout]⟩
  · simpa [Function.comp_def] using (groupPairs id pairs.flatten).nodup

theorem vlansOutside_ascending
    (h : vlansOutside order circuits stpId labelGroup = .ok stranded) :
    stranded.keys.Pairwise (· < ·) := by
  obtain ⟨pairs, _, hentries⟩ := vlansOutside_eq h
  have hkeys : stranded.keys = (groupPairs id pairs).keys := by
    simp [Dict.keys, hentries, Function.comp_def]
  rw [hkeys]
  exact groupPairs_ascending fun _ _ _ _ h => h

/-- Every VLAN left out is listed, with the ids of exactly the subscriptions that store it. -/
theorem mem_vlansOutside (h : vlansOutside order circuits stpId labelGroup = .ok stranded)
    (vlan : Int) (ids : List String) :
    (vlan, ids) ∈ stranded.entries ↔ ids ≠ [] ∧ ids.Pairwise (· < ·) ∧
      ∀ sid, sid ∈ ids ↔ LeftOut circuits stpId labelGroup vlan sid := by
  obtain ⟨pairs, hpairs, hentries⟩ := vlansOutside_eq h
  have hgroup : ∀ {values : Finset String}, (vlan, values) ∈ (groupPairs id pairs).entries ↔
      vlan ∈ pairs.map Prod.fst ∧ ∀ sid, sid ∈ values ↔ (vlan, sid) ∈ pairs :=
    mem_groupPairs fun _ _ _ _ h => h
  rw [hentries, List.mem_map]
  constructor
  · rintro ⟨⟨_, values⟩, hmem, heq⟩
    cases heq
    obtain ⟨hkey, hvalues⟩ := hgroup.mp hmem
    refine ⟨?_, sorted_ascending values, fun sid => ?_⟩
    · obtain ⟨⟨_, sid⟩, hin, rfl⟩ := List.mem_map.mp hkey
      exact List.ne_nil_of_mem (mem_sorted.mpr ((hvalues sid).mpr hin))
    · rw [mem_sorted, hvalues, hpairs]
  · rintro ⟨hne, hascending, hids⟩
    refine ⟨(vlan, ids.toFinset), hgroup.mpr ⟨?_, fun sid => ?_⟩, ?_⟩
    · obtain ⟨sid, hsid⟩ := List.exists_mem_of_ne_nil ids hne
      exact List.mem_map_of_mem (f := Prod.fst) ((hpairs vlan sid).mpr ((hids sid).mp hsid))
    · rw [List.mem_toFinset, hids, hpairs]
    · rw [sorted_toFinset hascending]

theorem vlansOutside_entries_nil
    (h : vlansOutside order circuits stpId labelGroup = .ok stranded) :
    stranded.entries = [] ↔ ∀ vlan sid, ¬ LeftOut circuits stpId labelGroup vlan sid := by
  obtain ⟨pairs, hpairs, hentries⟩ := vlansOutside_eq h
  have hkeys : ∀ vlan, vlan ∈ (groupPairs id pairs).keys ↔ vlan ∈ pairs.map Prod.fst :=
    fun vlan => mem_keys_groupPairs
  have hnil : (groupPairs id pairs).entries = [] ↔ pairs = [] := by
    rw [← List.map_eq_nil_iff (f := Prod.fst), List.eq_nil_iff_forall_not_mem]
    simp only [Dict.keys] at hkeys
    simp only [hkeys, ← List.eq_nil_iff_forall_not_mem, List.map_eq_nil_iff]
  rw [hentries, List.map_eq_nil_iff, hnil, List.eq_nil_iff_forall_not_mem]
  constructor
  · exact fun hnone vlan sid hleft => hnone (vlan, sid) ((hpairs vlan sid).mpr hleft)
  · exact fun hnone pair hpair => hnone pair.1 pair.2 ((hpairs _ _).mp hpair)

theorem vlansOutside_nil (h : vlansOutside order circuits stpId labelGroup = .ok stranded)
    (hnil : stranded.entries = []) :
    ∀ circuit ∈ circuits, ∃ stored, storedVlans circuit.2 = .ok stored ∧
      ∀ vlan, (stpId, vlan) ∈ stored → Covers labelGroup vlan := by
  intro circuit hin
  obtain ⟨stored, hstored⟩ :=
    storedVlans_ok_iff.mpr ((vlansOutside_ok_iff.mp ⟨stranded, h⟩).2 circuit hin)
  refine ⟨stored, hstored, fun vlan hvlan => ?_⟩
  by_contra hout
  exact (vlansOutside_entries_nil h).mp hnil vlan circuit.1
    ⟨hout, circuit.2, hin, stored, hstored, hvlan⟩

end Outside

end NsiOrchestrator.Vlans
