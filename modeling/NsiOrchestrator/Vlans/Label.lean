import NsiOrchestrator.Ero.Stps
import NsiOrchestrator.Vlans.Codec
import NsiOrchestrator.Vlans.Held

/-! # The VLAN label of an STP

A label is written after the id of an STP and read back by two splitters. One cuts
at `?vlan=` and gives the pairs the endpoint holds. The other cuts at the question
mark and gives the network, so that routing does not see the label.
-/

namespace NsiOrchestrator.Vlans

open Text Outcome Ero

/-- What a label says: one VLAN, or the ranges of a set of VLANs. -/
inductive VlanSpec
  | vlan (n : ℕ)
  | ranges (vlans : Finset ℕ)

def VlanSpec.text : VlanSpec → String
  | .vlan n => toString (n : Int)
  | .ranges vlans => collapseRanges (sorted (vlans.image (Nat.cast : ℕ → Int)))

def VlanSpec.vlans : VlanSpec → Finset Int
  | .vlan n => {(n : Int)}
  | .ranges vlans => vlans.image Nat.cast

def labelled (stpId : String) (spec : VlanSpec) : String :=
  let text := spec.text
  s!"{stpId}?vlan={text}"

theorem labelled_toList (stpId : String) (spec : VlanSpec) :
    (labelled stpId spec).toList = stpId.toList ++ (label ++ spec.text.toList) := by
  simp [labelled, label, toString]

/-! ## The pairs -/

theorem VlanSpec.vlanSet_text (spec : VlanSpec) : vlanSet spec.text = .ok spec.vlans := by
  cases spec with
  | vlan n => exact vlanSet_single n
  | ranges vlans => exact vlanSet_collapseRanges natCast_nonneg_of_mem

theorem endpointVlanPairs_spec {stpId : String} (h : '?' ∉ stpId.toList) (spec : VlanSpec) :
    endpointVlanPairs (some (labelled stpId spec)) =
      .ok (spec.vlans.image fun vlan => (stpId, vlan)) := by
  have hlabel : ¬ label <:+: stpId.toList := not_infix_of_not_mem h
  simp only [endpointVlanPairs, Option.getD_some, labelled_toList]
  rw [label, partition_append (by decide) hlabel]
  simp only [String.ofList_toList, spec.vlanSet_text]
  rfl

theorem labelled_injective {stpId stpId' : String} (h : '?' ∉ stpId.toList)
    (h' : '?' ∉ stpId'.toList) {n n' : ℕ}
    (heq : labelled stpId (.vlan n) = labelled stpId' (.vlan n')) : stpId = stpId' ∧ n = n' := by
  have hread := endpointVlanPairs_spec h (.vlan n)
  rw [heq, endpointVlanPairs_spec h' (.vlan n')] at hread
  have hpairs : ({(stpId', (n' : Int))} : Finset StpVlan) = {(stpId, (n : Int))} := by
    simpa [VlanSpec.vlans] using hread
  obtain ⟨rfl, hn⟩ := Prod.mk.inj (Finset.singleton_inj.mp hpairs)
  exact ⟨rfl, by exact_mod_cast hn.symm⟩

theorem endpointVlanPairs_unlabelled {endpoint : Option String}
    (h : ∀ text, endpoint = some text → ¬ label <:+: text.toList) :
    endpointVlanPairs endpoint = .ok ∅ := by
  cases endpoint with
  | none => rfl
  | some text => exact endpointVlanPairs_bare (h text rfl)

/-! ## The network -/

theorem networkOf_labelled (stpId : String) (spec : VlanSpec) :
    networkOf (labelled stpId spec) = networkOf stpId := by
  have htext : (labelled stpId spec).toList =
      stpId.toList ++ '?' :: (['v', 'l', 'a', 'n', '='] ++ spec.text.toList) := by
    rw [labelled_toList, label, List.cons_append]
  simp only [networkOf, htext, headD_splitOn_append]

theorem networkOf_networkOf (x : String) : networkOf (networkOf x) = networkOf x := by
  let plain := (x.toList.splitOn '?').headD []
  let parts := (plain.splitOn ':').take networkComponents
  have hx : (networkOf x).toList = [':'].intercalate parts := String.toList_ofList
  have hplain : '?' ∉ plain := by
    obtain ⟨first, rest, hfirst⟩ := List.exists_cons_of_ne_nil (List.splitOn_ne_nil '?' x.toList)
    have hin : plain ∈ x.toList.splitOn '?' := by
      simp only [plain, hfirst, List.headD_cons, List.mem_cons, true_or]
    exact not_mem_of_mem_splitOn hin
  have hpart : ∀ part ∈ parts, part ∈ plain.splitOn ':' := fun _ h => List.mem_of_mem_take h
  have hquestion : '?' ∉ [':'].intercalate parts := by
    intro h
    rcases mem_of_mem_intercalate h with h | ⟨part, hin, h⟩
    · simp at h
    · exact hplain (subset_of_mem_splitOn (hpart part hin) h)
  have hne : parts ≠ [] := by
    rw [ne_eq, List.take_eq_nil_iff, not_or]
    exact ⟨by decide, List.splitOn_ne_nil ':' plain⟩
  have hsplit : ([':'].intercalate parts).splitOn ':' = parts :=
    List.splitOn_intercalate ':' (fun part hin => not_mem_of_mem_splitOn (hpart part hin)) hne
  have htake : parts.take networkComponents = parts := List.take_take ..
  rw [networkOf, hx, List.splitOn_eq_singleton hquestion, List.headD_cons, hsplit, htake]
  rfl

/-! ## The label and the route -/

def withLabel (stpId : String) (spec : Option VlanSpec) : String :=
  spec.elim stpId (labelled stpId)

theorem networkOf_withLabel (stpId : String) (spec : Option VlanSpec) :
    networkOf (withLabel stpId spec) = networkOf stpId := by
  cases spec with
  | none => rfl
  | some spec => exact networkOf_labelled stpId spec

theorem eroStps_congr {source source' destination destination' : String}
    (hsource : networkOf source = networkOf source')
    (hdestination : networkOf destination = networkOf destination') (order order' : EroOrder)
    (includedSdps : List (String × String)) (sdpPairs : Finset (Finset String)) :
    eroStps order source destination includedSdps sdpPairs =
      eroStps order' source' destination' includedSdps sdpPairs := by
  rw [eroStps_order order order']
  simp only [eroStps, hsource, hdestination]

/-- For every STP id without a question mark the label is a codec: an endpoint holds
exactly the labelled VLANs on the id, distinct pairs have distinct labels, and the label
is not part of the network. So the route is the same with and without labels. -/
theorem stpLabel_codec {stpId : String} (h : '?' ∉ stpId.toList) :
    (∀ n : ℕ, endpointVlanPairs (some (labelled stpId (.vlan n))) = .ok {(stpId, (n : Int))}) ∧
    (∀ vlans : Finset ℕ, endpointVlanPairs (some (labelled stpId (.ranges vlans))) =
      .ok (vlans.image fun vlan : ℕ => (stpId, (vlan : Int)))) ∧
    (∀ endpoint : Option String, (∀ text, endpoint = some text → ¬ label <:+: text.toList) →
      endpointVlanPairs endpoint = .ok ∅) ∧
    (∀ stpId' : String, '?' ∉ stpId'.toList → ∀ n n' : ℕ,
      labelled stpId (.vlan n) = labelled stpId' (.vlan n') → stpId = stpId' ∧ n = n') ∧
    (∀ spec, networkOf (labelled stpId spec) = networkOf stpId) ∧
    (∀ x, networkOf (networkOf x) = networkOf x) ∧
    ∀ (order order' : EroOrder) (source destination : String) (spec spec' : Option VlanSpec)
      (includedSdps : List (String × String)) (sdpPairs : Finset (Finset String)),
      eroStps order (withLabel source spec) (withLabel destination spec') includedSdps sdpPairs =
        eroStps order' source destination includedSdps sdpPairs := by
  refine ⟨?_, ?_, ?_, ?_, networkOf_labelled stpId, networkOf_networkOf, ?_⟩
  · intro n
    rw [endpointVlanPairs_spec h, VlanSpec.vlans, Finset.image_singleton]
  · intro vlans
    rw [endpointVlanPairs_spec h, VlanSpec.vlans, Finset.image_image]
    rfl
  · intro endpoint hendpoint
    exact endpointVlanPairs_unlabelled hendpoint
  · intro stpId' h' n n' heq
    exact labelled_injective h h' heq
  · intro order order' source destination spec spec' includedSdps sdpPairs
    exact eroStps_congr (networkOf_withLabel source spec) (networkOf_withLabel destination spec')
      order order' includedSdps sdpPairs

/-- An id with less than six components. -/
theorem stpLabel_codec_short :
    endpointVlanPairs (some (labelled "a:b:port-1" (.vlan 100))) = .ok {("a:b:port-1", 100)} ∧
    networkOf (labelled "a:b:port-1" (.vlan 100)) = networkOf "a:b:port-1" := by
  have hid : '?' ∉ "a:b:port-1".toList := by decide
  have h := stpLabel_codec hid
  exact ⟨h.1 100, h.2.2.2.2.1 (.vlan 100)⟩

end NsiOrchestrator.Vlans
