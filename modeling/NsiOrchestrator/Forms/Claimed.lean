import NsiOrchestrator.Ero.Symmetry
import NsiOrchestrator.Forms.Generators

/-! # The VLANs a request asks for

Both pages check a VLAN against the reservations of others, and neither against the
rest of the request. The route search fills most of that gap: a route that never
re-enters a network keeps its STPs apart, except where it arrives by one SDP and
leaves by the next, or where an endpoint is itself an end of an SDP.
-/

namespace NsiOrchestrator.Forms

open Outcome Vlans Ero

/-- The VLAN pinned on an SDP, on both of its STPs. -/
def pinnedEnds (topology : SdpTopology) (sdpVlans : SdpVlans) (sdpId : String) : List StpVlan :=
  match topology.stps.get? sdpId, sdpVlans.get? sdpId with
  | some (a, z), some vlan => [(a, vlan), (z, vlan)]
  | _, _ => []

/-- What a circuit asks for along its path: on the source, on every included SDP and on
the destination. -/
def pathClaims (topology : SdpTopology) (input : ConnectionInput) (sdpVlans : SdpVlans) :
    List (List StpVlan) :=
  [(input.sourceStp, input.sourceVlan)] ::
    input.includeSdps.map (pinnedEnds topology sdpVlans) ++
      [[(input.destinationStp, input.destinationVlan)]]

/-! ## Claims along a route -/

section Route

variable {N α : Type*} {hop : N → N → Prop} {dest x : N} {todo : List (N × N)} {r : List N}

/-- Claims made in networks of a route can only meet between neighbours: a route leaves
every network for good. -/
theorem Crossing.pairwise_of_chain (network : α → N) (h : Crossing hop dest todo x r)
    (hnodup : r.Nodup) {first last : List α} {claims : List (List α)}
    (hfirst : ∀ p ∈ first, network p = x ∨ network p ∉ r)
    (hclaims : List.Forall₂ (fun c claim => ∀ p ∈ claim, network p = c.1 ∨ network p = c.2)
      todo claims)
    (hlast : ∀ p ∈ last, network p = dest)
    (hchain : (first :: claims ++ [last]).IsChain List.Disjoint) :
    (first :: claims ++ [last]).Pairwise List.Disjoint := by
  induction h generalizing first claims with
  | arrive =>
      cases List.forall₂_nil_left_iff.mp hclaims
      simpa using hchain
  | @hop todo x y r hxy hrest ih =>
      obtain ⟨hx, hr⟩ := List.nodup_cons.mp hnodup
      refine ih hr (fun p hp => ?_) hclaims hchain
      rcases hfirst p hp with rfl | hp
      · exact .inr hx
      · exact .inr fun hin => hp (List.mem_cons_of_mem x hin)
  | @cross todo near far r hrest ih =>
      obtain ⟨hnear, hr⟩ := List.nodup_cons.mp hnodup
      obtain ⟨claim, claims, hclaim, hlater, rfl⟩ := List.forall₂_cons_left_iff.mp hclaims
      simp only [List.cons_append, List.isChain_cons_cons] at hchain
      have hpairwise := ih hr (fun p hp => (hclaim p hp).elim (fun heq => .inr (heq ▸ hnear)) .inl)
        hlater hchain.2
      -- what is claimed further on is claimed in a network entered later
      have hafter : ∀ later ∈ claims ++ [last], ∀ p ∈ later, network p ∈ r := by
        intro later hin p hp
        rcases List.mem_append.mp hin with hin | hin
        · obtain ⟨c, hc, hends⟩ := exists_of_forall₂ hlater hin
          rcases hends p hp with heq | heq
          · exact heq ▸ (hrest.todo_mem c hc).1
          · exact heq ▸ (hrest.todo_mem c hc).2
        · rw [List.mem_singleton] at hin
          subst hin
          exact hlast p hp ▸ hrest.dest_mem
      refine List.pairwise_cons.mpr ⟨fun later hin => ?_, hpairwise⟩
      rcases List.mem_cons.mp hin with rfl | hin
      · exact hchain.1
      · intro p hp hp'
        have hmem := hafter later hin p hp'
        rcases hfirst p hp with heq | hnew
        · exact hnear (heq ▸ hmem)
        · exact hnew (List.mem_cons_of_mem near hmem)

end Route

/-! ## Claims of an accepted request -/

section Accepted

variable {topology : SdpTopology} {sdpVlans : SdpVlans}

theorem mem_pinnedEnds {sdpId : String} {p : StpVlan} :
    p ∈ pinnedEnds topology sdpVlans sdpId ↔ ∃ pair, topology.stps.get? sdpId = some pair ∧
      sdpVlans.get? sdpId = some p.2 ∧ (p.1 = pair.1 ∨ p.1 = pair.2) := by
  unfold pinnedEnds
  split
  · next a z vlan hstps hvlan =>
      obtain ⟨stp, vlan'⟩ := p
      simp only [List.mem_cons, List.not_mem_nil, or_false, hstps, hvlan, Option.some.injEq,
        exists_eq_left', Prod.mk.injEq]
      rw [← or_and_right, and_comm, eq_comm (a := vlan)]
  · next hnone =>
      constructor
      · intro hp
        simp at hp
      · rintro ⟨pair, hstps, hvlan, _⟩
        exact (hnone pair.1 pair.2 p.2 hstps hvlan).elim

theorem pinnedEnds_nodup {sdpId : String}
    (h : ∀ pair, topology.stps.get? sdpId = some pair → pair.1 ≠ pair.2) :
    (pinnedEnds topology sdpVlans sdpId).Nodup := by
  unfold pinnedEnds
  split
  · next a z vlan hstps _ =>
      have hends : a ≠ z := h (a, z) hstps
      simp [hends]
  · exact List.nodup_nil

/-- The orientation of an accepted list of SDPs, next to the SDPs it is of. -/
def Oriented (topology : SdpTopology) (includeSdps : List String)
    (oriented : List (String × String)) : Prop :=
  List.Forall₂ (fun o sdpId => ∃ pair, topology.stps.get? sdpId = some pair ∧
    (o = pair ∨ o = pair.swap)) oriented includeSdps

theorem oriented_of_mem_orientations {includeSdps : List String}
    {pairs oriented : List (String × String)}
    (hpairs : includeSdps.mapM (lookup topology.stps) = .ok pairs)
    (ho : oriented ∈ orientations pairs) : Oriented topology includeSdps oriented := by
  rw [mem_orientations] at ho
  rw [mapM_eq_ok] at hpairs
  unfold Oriented
  induction hpairs generalizing oriented with
  | nil => exact List.forall₂_nil_right_iff.mp ho ▸ .nil
  | @cons sdpId pair _ _ hpair _ ih =>
      obtain ⟨o, rest, hends, hrest, rfl⟩ := List.forall₂_cons_right_iff.mp ho
      exact .cons ⟨pair, lookup_eq_ok.mp hpair, hends⟩ (ih hrest)

theorem exists_route {order : EroOrder} {sourceStp destStp : String} {includeSdps : List String}
    {ero : List String} (hne : includeSdps ≠ [])
    (h : topology.ero order sourceStp destStp includeSdps sdpVlans = .ok ero) :
    ∃ oriented r, Oriented topology includeSdps oriented ∧
      IsRoute topology.pairs sourceStp destStp oriented r := by
  obtain ⟨pairs, stps, hpairs, hstps, _⟩ := ero_eq_ok.mp h
  have hpairsne : pairs ≠ [] := by
    rintro rfl
    exact hne (List.forall₂_nil_right_iff.mp (mapM_eq_ok.mp hpairs))
  obtain ⟨_, _, oriented, ho, r, hr⟩ :=
    ((eroStps_accepts_iff order sourceStp destStp).mp ⟨stps, hstps⟩).resolve_left hpairsne
  exact ⟨oriented, r, oriented_of_mem_orientations hpairs ho, hr⟩

end Accepted

theorem pathClaims_pairwise {order : EroOrder} {topology : SdpTopology} {input : ConnectionInput}
    {sdpVlans : SdpVlans} {ero : List String} (hdistinct : input.sourceStp ≠ input.destinationStp)
    (hero : topology.ero order input.sourceStp input.destinationStp input.includeSdps sdpVlans =
      .ok ero) :
    (∀ claims ∈ pathClaims topology input sdpVlans, claims.Nodup) ∧
      ((pathClaims topology input sdpVlans).IsChain List.Disjoint →
        (pathClaims topology input sdpVlans).Pairwise List.Disjoint) := by
  by_cases hne : input.includeSdps = []
  · simp [pathClaims, hne, hdistinct, hdistinct.symm]
  · obtain ⟨oriented, r, horiented, hcrossing, hnodup⟩ := exists_route hne hero
    have hends : ∀ sdpId ∈ input.includeSdps, ∀ pair, topology.stps.get? sdpId = some pair →
        pair.1 ≠ pair.2 := by
      intro sdpId hin pair hpair heq
      obtain ⟨o, ho, pair', hpair', hread⟩ := exists_of_forall₂ horiented hin
      have hnetworks := hcrossing.near_ne_far hnodup _ (List.mem_map_of_mem ho)
      rw [hpair, Option.some.injEq] at hpair'
      subst hpair'
      rcases hread with rfl | rfl
      · exact hnetworks (congrArg networkOf heq)
      · exact hnetworks (congrArg networkOf heq.symm)
    constructor
    · intro claims hclaims
      simp only [pathClaims, List.cons_append, List.mem_cons, List.mem_append, List.mem_map,
        List.not_mem_nil, or_false] at hclaims
      rcases hclaims with rfl | ⟨sdpId, hin, rfl⟩ | rfl
      · exact List.nodup_singleton _
      · exact pinnedEnds_nodup (hends sdpId hin)
      · exact List.nodup_singleton _
    · refine Crossing.pairwise_of_chain (fun p : StpVlan => networkOf p.1) hcrossing hnodup ?_ ?_ ?_
      · simp
      · rw [List.forall₂_map_left_iff, List.forall₂_map_right_iff]
        refine horiented.imp fun o sdpId hread p hp => ?_
        obtain ⟨pair, hpair, hread⟩ := hread
        obtain ⟨pair', hpair', _, hend⟩ := mem_pinnedEnds.mp hp
        rw [hpair, Option.some.injEq] at hpair'
        subst hpair'
        rcases hread with rfl | rfl <;> rcases hend with heq | heq <;> simp [heq]
      · simp

theorem ends_mem_stpIds {topology : SdpTopology} {sdpVlans : SdpVlans} {sdpId : String}
    {p : StpVlan} (h : p ∈ pinnedEnds topology sdpVlans sdpId) : p.1 ∈ topology.stpIds := by
  obtain ⟨pair, hpair, _, hend⟩ := mem_pinnedEnds.mp h
  simp only [SdpTopology.stpIds, List.mem_toFinset, List.mem_flatMap]
  exact ⟨_, Dict.get?_eq_some.mp hpair, by simpa using hend⟩

/-- No two neighbours on the path ask for the same VLAN on an STP they share. The
endpoints are the neighbours of the first and of the last SDP. -/
structure NeighboursApart (topology : SdpTopology) (input : ConnectionInput)
    (sdpVlans : SdpVlans) : Prop where
  source : ∀ sdpId ∈ input.includeSdps.head?,
    (input.sourceStp, input.sourceVlan) ∉ pinnedEnds topology sdpVlans sdpId
  destination : ∀ sdpId ∈ input.includeSdps.getLast?,
    (input.destinationStp, input.destinationVlan) ∉ pinnedEnds topology sdpVlans sdpId
  sdps : input.includeSdps.IsChain fun sdpId next =>
    List.Disjoint (pinnedEnds topology sdpVlans sdpId) (pinnedEnds topology sdpVlans next)

theorem neighboursApart_iff {topology : SdpTopology} {input : ConnectionInput}
    {sdpVlans : SdpVlans} (hdistinct : input.sourceStp ≠ input.destinationStp) :
    NeighboursApart topology input sdpVlans ↔
      (pathClaims topology input sdpVlans).IsChain List.Disjoint := by
  have hfields : NeighboursApart topology input sdpVlans ↔
      (∀ sdpId ∈ input.includeSdps.head?,
        (input.sourceStp, input.sourceVlan) ∉ pinnedEnds topology sdpVlans sdpId) ∧
      (∀ sdpId ∈ input.includeSdps.getLast?,
        (input.destinationStp, input.destinationVlan) ∉ pinnedEnds topology sdpVlans sdpId) ∧
      input.includeSdps.IsChain fun sdpId next =>
        List.Disjoint (pinnedEnds topology sdpVlans sdpId) (pinnedEnds topology sdpVlans next) :=
    ⟨fun h => ⟨h.source, h.destination, h.sdps⟩, fun h => ⟨h.1, h.2.1, h.2.2⟩⟩
  rw [hfields, pathClaims, List.isChain_append, List.isChain_cons, List.isChain_map,
    List.getLast?_cons, List.getLast?_map, List.head?_map]
  cases hlast : input.includeSdps.getLast? with
  | none =>
      rw [List.getLast?_eq_none_iff] at hlast
      simp [hlast, hdistinct.symm]
  | some sdpId =>
      simp only [Option.mem_def, Option.map_eq_some_iff, forall_exists_index, and_imp,
        forall_apply_eq_imp_iff₂, List.singleton_disjoint, Option.some.injEq, forall_eq',
        Option.map_some, Option.getD_some, List.isChain_singleton, List.head?_cons,
        List.disjoint_singleton, true_and]
      tauto

/-- An accepted request asks for no VLAN twice on one STP exactly when no two neighbours
on its path do. An endpoint only shares an STP with an SDP where the form was told to
allow it. -/
theorem pathClaims_nodup_iff {stps : List Stp} {topology : SdpTopology} {inUse : InUse}
    {values : ConnectionFields} {form : ConnectionForm} {order order' : EroOrder}
    {raw : ConnectionFields} {input : ConnectionInput} {defaults : SdpVlans}
    {rawVlans : SdpVlanFields} {path : Path}
    (hform : connectionForm stps topology inUse values = .ok form)
    (hpage : form.validate order raw = .ok input)
    (hpath : pathInput topology order' input inUse defaults rawVlans = .ok path) :
    ((pathClaims topology input path.sdpVlans).flatten.Nodup ↔
      NeighboursApart topology input path.sdpVlans) ∧
    (input.allowStpsInSdp = false → ∀ sdpId,
      (input.sourceStp, input.sourceVlan) ∉ pinnedEnds topology path.sdpVlans sdpId ∧
      (input.destinationStp, input.destinationVlan) ∉ pinnedEnds topology path.sdpVlans sdpId) := by
  have haccepts := (validate_eq_ok.mp hpage).endpoints
  obtain ⟨_, _, hero⟩ := pathInput_eq_ok.mp hpath
  obtain ⟨hnodup, hpairwise⟩ := pathClaims_pairwise haccepts.distinct hero
  constructor
  · rw [List.nodup_flatten, neighboursApart_iff haccepts.distinct]
    exact ⟨fun h => h.2.isChain, fun h => ⟨hnodup, hpairwise h⟩⟩
  · intro hallow sdpId
    have htopology : form.topology = topology := by
      obtain ⟨_, _, hform⟩ := bind_eq_ok.mp hform
      cases pure_eq_ok.mp hform
      rfl
    have hgate := haccepts.gate.resolve_left (by simp [hallow])
    rw [htopology] at hgate
    exact ⟨fun hin => hgate.1 (ends_mem_stpIds hin), fun hin => hgate.2 (ends_mem_stpIds hin)⟩

/-! ## A line of two networks -/

def lineTopology : SdpTopology where
  names := ⟨[("s", "x-y")], by simp⟩
  stps := ⟨[("s", ("n:n:n:n:n:Y:2", "n:n:n:n:n:X:2"))], by simp⟩
  vlans := ⟨[("s", {1, 2, 3, 4, 5, 6, 7, 8, 9})], by simp⟩

/-- The source is the near end of the SDP, and its VLAN is the one pinned there. -/
theorem source_claimed_twice :
    ∃ form input path,
      connectionForm lineInventory.stps lineTopology .empty .untouched = .ok form ∧
      form.validate ascending.ero { lineFields with
        sourceStp := some "n:n:n:n:n:X:2", sourceVlan := some 7, allowStpsInSdp := some true } =
          .ok input ∧
      pathInput lineTopology ascending.ero input .empty .empty linePins = .ok path ∧
      ¬ (pathClaims lineTopology input path.sdpVlans).flatten.Nodup := by
  refine ⟨_, ⟨"circuit", 10, "n:n:n:n:n:X:2", 7, "n:n:n:n:n:Y:1", 6, true, ["s"], []⟩,
    ⟨["n:n:n:n:n:X:2?vlan=7"], ⟨[("s", 7)], by simp⟩⟩, rfl, ?_, ?_, ?_⟩ <;> decide +kernel

theorem pathClaims_nodup_line :
    ∃ form input path,
      connectionForm lineInventory.stps lineTopology .empty .untouched = .ok form ∧
      form.validate ascending.ero lineFields = .ok input ∧
      pathInput lineTopology ascending.ero input .empty .empty linePins = .ok path ∧
      NeighboursApart lineTopology input path.sdpVlans := by
  obtain ⟨form, hform⟩ : ∃ form,
      connectionForm lineInventory.stps lineTopology .empty .untouched = .ok form := ⟨_, rfl⟩
  have hpage : form.validate ascending.ero lineFields = .ok lineSubmission.input := by
    cases hform
    decide +kernel
  have hpath : pathInput lineTopology ascending.ero lineSubmission.input .empty .empty linePins =
      .ok lineSubmission.path := by decide +kernel
  exact ⟨form, _, _, hform, hpage, hpath,
    (pathClaims_nodup_iff hform hpage hpath).1.mp (by decide +kernel)⟩

end NsiOrchestrator.Forms
