import NsiOrchestrator.Ero.Stps
import NsiOrchestrator.Products
import NsiOrchestrator.Vlans.Held

/-! # The SDP topology of the forms

Every SDP subscription, loaded once: its name, its pair of STPs and the VLANs both
of its ends advertise, by subscription id.
-/

namespace NsiOrchestrator.Forms

open Outcome Vlans Ero

/-- SDP subscription id to pinned VLAN. -/
abbrev SdpVlans := Dict String Int

structure SdpTopology where
  names : Dict String String
  stps : Dict String (String × String)
  vlans : Dict String (Finset Int)
  deriving DecidableEq

/-- The SDP topology as an undirected edge set. -/
def SdpTopology.pairs (topology : SdpTopology) : Finset (Finset String) :=
  (topology.stps.entries.map fun e => {e.2.1, e.2.2}).toFinset

def SdpTopology.stpIds (topology : SdpTopology) : Finset String :=
  (topology.stps.entries.flatMap fun e => [e.2.1, e.2.2]).toFinset

/-- `d[key]`. -/
def lookup {β : Type} (d : Dict String β) (key : String) : Except PyError β :=
  match d.get? key with
  | some b => .ok b
  | none => .error (.keyError key)

@[simp] theorem lookup_eq_ok {β : Type} {d : Dict String β} {key : String} {b : β} :
    lookup d key = .ok b ↔ d.get? key = some b := by
  unfold lookup
  split <;> simp_all

/-- `zip(xs, ys, strict=True)`. -/
def zipStrict {α β : Type} (xs : List α) (ys : List β) : Except PyError (List (α × β)) :=
  if ys.length < xs.length then .error (.valueError "zip() argument 2 is shorter than argument 1")
  else if xs.length < ys.length then
    .error (.valueError "zip() argument 2 is longer than argument 1")
  else .ok (xs.zip ys)

theorem zipStrict_of_length {α β : Type} {xs : List α} {ys : List β} (h : xs.length = ys.length) :
    zipStrict xs ys = .ok (xs.zip ys) := by
  simp [zipStrict, h]

/-- An element of an ERO: the STP, with its VLAN if one is pinned. -/
def eroElement (stp : String) (vlan : Option Int) : String :=
  match vlan with
  | none => stp
  | some vlan => s!"{stp}?vlan={vlan}"

/-- `SdpTopology.ero`. -/
def SdpTopology.ero (topology : SdpTopology) (order : EroOrder) (sourceStp destStp : String)
    (includeSdps : List String) (sdpVlans : SdpVlans) : Except PyError (List String) := do
  let pairs ← includeSdps.mapM (lookup topology.stps)
  let stps ← eroStps order sourceStp destStp pairs topology.pairs
  let vlans := includeSdps.map sdpVlans.get?
  let zipped ← zipStrict stps vlans
  pure (zipped.map fun e => eroElement e.1 e.2)

/-- `sdp_topology`, over the SDP blocks by subscription id. -/
def sdpTopology (sdps : Dict String Sdp) : Except PyError SdpTopology := do
  let vlans ← sdps.entries.mapM fun e => do
    let a ← vlanSet e.2.stps.1.labelGroup
    let z ← vlanSet e.2.stps.2.labelGroup
    pure (e.1, a ∩ z)
  pure
    { names := Dict.ofPairs (sdps.entries.map fun e => (e.1, e.2.sdpName))
      stps := Dict.ofPairs (sdps.entries.map fun e => (e.1, (e.2.stps.1.stpId, e.2.stps.2.stpId)))
      vlans := Dict.ofPairs vlans }

theorem ero_eq_ok {topology : SdpTopology} {order : EroOrder} {sourceStp destStp : String}
    {includeSdps : List String} {sdpVlans : SdpVlans} {ero : List String} :
    topology.ero order sourceStp destStp includeSdps sdpVlans = .ok ero ↔
      ∃ pairs stps, includeSdps.mapM (lookup topology.stps) = .ok pairs ∧
        eroStps order sourceStp destStp pairs topology.pairs = .ok stps ∧
        ero = (stps.zip (includeSdps.map sdpVlans.get?)).map fun e => eroElement e.1 e.2 := by
  simp only [SdpTopology.ero, bind_eq_ok, pure_eq_ok]
  constructor
  · rintro ⟨pairs, hpairs, stps, hstps, zipped, hzipped, rfl⟩
    refine ⟨pairs, stps, hpairs, hstps, ?_⟩
    have hlength : stps.length = (includeSdps.map sdpVlans.get?).length := by
      rw [(eroStps_ends order sourceStp destStp hstps).length_eq, List.length_map,
        (mapM_eq_ok.mp hpairs).length_eq]
    rw [zipStrict_of_length hlength] at hzipped
    cases hzipped
    rfl
  · rintro ⟨pairs, stps, hpairs, hstps, rfl⟩
    have hlength : stps.length = (includeSdps.map sdpVlans.get?).length := by
      rw [(eroStps_ends order sourceStp destStp hstps).length_eq, List.length_map,
        (mapM_eq_ok.mp hpairs).length_eq]
    exact ⟨pairs, hpairs, stps, hstps, _, zipStrict_of_length hlength, rfl⟩

/-! ## A loaded topology -/

section Loaded

variable {sdps : Dict String Sdp} {topology : SdpTopology} (h : sdpTopology sdps = .ok topology)

include h

theorem sdpTopology_names (sid name : String) :
    topology.names.get? sid = some name ↔ ∃ sdp, sdps.get? sid = some sdp ∧ sdp.sdpName = name := by
  obtain ⟨vlans, _, h⟩ := bind_eq_ok.mp h
  cases pure_eq_ok.mp h
  rw [Dict.get?_ofPairs (by simpa [Function.comp_def] using sdps.nodup)]
  simp [Dict.get?_eq_some]

theorem sdpTopology_stps (sid : String) (pair : String × String) :
    topology.stps.get? sid = some pair ↔
      ∃ sdp, sdps.get? sid = some sdp ∧ (sdp.stps.1.stpId, sdp.stps.2.stpId) = pair := by
  obtain ⟨vlans, _, h⟩ := bind_eq_ok.mp h
  cases pure_eq_ok.mp h
  rw [Dict.get?_ofPairs (by simpa [Function.comp_def] using sdps.nodup)]
  simp [Dict.get?_eq_some]

theorem sdpTopology_vlans {sid : String} {allowed : Finset Int}
    (hallowed : topology.vlans.get? sid = some allowed) :
    ∃ sdp, sdps.get? sid = some sdp ∧ ∀ vlan, vlan ∈ allowed ↔
      Covers sdp.stps.1.labelGroup vlan ∧ Covers sdp.stps.2.labelGroup vlan := by
  obtain ⟨vlans, hvlans, h⟩ := bind_eq_ok.mp h
  cases pure_eq_ok.mp h
  obtain ⟨e, he, hload⟩ :=
    exists_of_mem_mapM hvlans (Dict.mem_of_mem_ofPairs (Dict.get?_eq_some.mp hallowed))
  obtain ⟨a, ha, hload⟩ := bind_eq_ok.mp hload
  obtain ⟨z, hz, hload⟩ := bind_eq_ok.mp hload
  cases pure_eq_ok.mp hload
  refine ⟨e.2, Dict.get?_eq_some.mpr he, fun vlan => ?_⟩
  rw [Finset.mem_inter, vlanSet_covers ha, vlanSet_covers hz]

theorem sdpTopology_vlans_isSome {sid : String} (hin : (sdps.get? sid).isSome) :
    (topology.vlans.get? sid).isSome := by
  obtain ⟨vlans, hvlans, h⟩ := bind_eq_ok.mp h
  cases pure_eq_ok.mp h
  obtain ⟨e, he, rfl⟩ := List.mem_map.mp (Dict.get?_isSome.mp hin)
  obtain ⟨loaded, hmem, hload⟩ := exists_of_mapM hvlans he
  obtain ⟨a, _, hload⟩ := bind_eq_ok.mp hload
  obtain ⟨z, _, hload⟩ := bind_eq_ok.mp hload
  cases pure_eq_ok.mp hload
  rw [Dict.get?_isSome, Dict.mem_keys_ofPairs]
  exact List.mem_map.mpr ⟨_, hmem, rfl⟩

theorem sdpTopology_keys (sid : String) :
    (topology.names.get? sid).isSome ↔ (sdps.get? sid).isSome := by
  simp only [Option.isSome_iff_exists, sdpTopology_names h]
  constructor
  · rintro ⟨_, sdp, hsdp, _⟩
    exact ⟨sdp, hsdp⟩
  · rintro ⟨sdp, hsdp⟩
    exact ⟨_, sdp, hsdp, rfl⟩

end Loaded

end NsiOrchestrator.Forms
