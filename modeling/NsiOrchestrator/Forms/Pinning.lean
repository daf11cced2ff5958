import NsiOrchestrator.Forms.Booking
import NsiOrchestrator.Forms.Generators

/-! # A pinned VLAN stays with its SDP

The pin of a field travels by position into the ERO, by SDP into the stored
constraints, and by SDP into the fields of a later retry.
-/

namespace NsiOrchestrator.Forms

open Outcome Vlans Ero Fields Text

/-! ## Labels of ERO elements -/

/-- An STP id the aggregator can label: not empty, and free of `?`. -/
def PlainId (stpId : String) : Prop := stpId ≠ "" ∧ '?' ∉ stpId.toList

instance (stpId : String) : Decidable (PlainId stpId) := inferInstanceAs (Decidable (_ ∧ _))

/-- The STPs of the SDPs are among those that a dropdown can offer. No other STP is subscribed:
`Subscriptions.sdpEnds_offered`. -/
def EndsOffered (sdps : Dict String Sdp) : Prop :=
  ∀ sdpId sdp, sdps.get? sdpId = some sdp →
    isMember stpChoice sdp.stps.1.stpId ∧ isMember stpChoice sdp.stps.2.stpId

/-- The endpoint without its `?vlan=` suffix. -/
def stripLabel (endpoint : String) : String := String.ofList (partition label endpoint.toList).1

theorem not_infix_label {stpId : String} (h : '?' ∉ stpId.toList) : ¬ label <:+: stpId.toList :=
  not_infix_of_not_mem h

theorem eroElement_toList (stp : String) (vlan : Int) :
    (eroElement stp (some vlan)).toList = stp.toList ++ (label ++ showInt vlan) := by
  simp [eroElement, label, showInt, toString]

theorem stripLabel_eroElement {stp : String} (h : '?' ∉ stp.toList) (vlan : Option Int) :
    stripLabel (eroElement stp vlan) = stp := by
  cases vlan with
  | none => simp [stripLabel, eroElement, partition_eq_self (not_infix_label h)]
  | some vlan =>
      rw [stripLabel, eroElement_toList, label, partition_append (by decide) (not_infix_label h),
        String.ofList_toList]

theorem eroElement_carries {stp : String} (h : '?' ∉ stp.toList) (vlan : Option Int) (v : Int) :
    (∃ bare : String, eroElement stp vlan = s!"{bare}?vlan={v}") ↔ vlan = some v := by
  have hshow : ∀ n, '?' ∉ showInt n := fun n hn => by
    rcases mem_showInt hn with h | h <;> simp at h
  constructor
  · rintro ⟨stp', heq⟩
    change eroElement stp vlan = eroElement stp' (some v) at heq
    have heq := congrArg String.toList heq
    rw [eroElement_toList] at heq
    cases vlan with
    | none =>
        refine absurd ?_ h
        rw [show stp = eroElement stp none from rfl, heq]
        simp [label]
    | some w =>
        rw [eroElement_toList] at heq
        have hrest : '?' ∉ ['v', 'l', 'a', 'n', '='] ++ showInt w := by
          simp [hshow w]
        obtain ⟨_, _, hlabel⟩ := (List.append_cons_inj_of_notMem h hrest).mp heq
        rw [showInt_injective (List.append_cancel_left hlabel)]
  · rintro rfl
    exact ⟨stp, rfl⟩

theorem endpointVlanPairs_eroElement {stp : String} (h : '?' ∉ stp.toList) {vlan : Option Int}
    (hvlan : ∀ v, vlan = some v → 1 ≤ v) :
    endpointVlanPairs (some (eroElement stp vlan)) = .ok (vlan.elim ∅ fun v => {(stp, v)}) := by
  cases vlan with
  | none => exact endpointVlanPairs_bare (not_infix_label h)
  | some v =>
      obtain ⟨n, rfl⟩ := Int.eq_ofNat_of_zero_le (le_trans (by decide) (hvlan v rfl))
      exact endpointVlanPairs_labelled (not_infix_label h) n

/-! ## Positions and keys -/

theorem pinned_map_get? {includeSdps : List String} {vlans : List (Option Int)}
    (hnodup : includeSdps.Nodup) (hlength : includeSdps.length = vlans.length) :
    includeSdps.map (Dict.ofPairs (pinnedPairs (includeSdps.zip vlans))).get? = vlans := by
  refine List.ext_getElem (by simpa using hlength) fun i hi hi' => ?_
  rw [List.getElem_map]
  exact pinned_get? hnodup hlength (List.getElem?_eq_getElem (by simpa using hi))
    (List.getElem?_eq_getElem hi')

theorem ero_bare_eq_ok {topology : SdpTopology} {order : EroOrder} {sourceStp destStp : String}
    {includeSdps bare : List String} :
    topology.ero order sourceStp destStp includeSdps .empty = .ok bare ↔
      ∃ pairs, includeSdps.mapM (lookup topology.stps) = .ok pairs ∧
        eroStps order sourceStp destStp pairs topology.pairs = .ok bare := by
  have hunlabelled : ∀ {pairs stps}, includeSdps.mapM (lookup topology.stps) = .ok pairs →
      eroStps order sourceStp destStp pairs topology.pairs = .ok stps →
      (stps.zip (includeSdps.map (Dict.empty : SdpVlans).get?)).map (fun e => eroElement e.1 e.2) =
        stps := fun hpairs hstps => by
    have hlength := (eroStps_ends order sourceStp destStp hstps).length_eq.trans
      (mapM_eq_ok.mp hpairs).length_eq.symm
    refine List.ext_getElem (by simp [hlength]) fun i hi hi' => ?_
    simp [Dict.get?, Dict.empty, eroElement]
  rw [ero_eq_ok]
  constructor
  · rintro ⟨pairs, stps, hpairs, hstps, rfl⟩
    exact ⟨pairs, hpairs, by rwa [hunlabelled hpairs hstps]⟩
  · rintro ⟨pairs, hpairs, hstps⟩
    exact ⟨pairs, bare, hpairs, hstps, (hunlabelled hpairs hstps).symm⟩

/-- Pins do not move the ERO: with any of them it is the one without, labelled. -/
theorem ero_of_bare {topology : SdpTopology} {order : EroOrder} {sourceStp destStp : String}
    {includeSdps bare : List String}
    (h : topology.ero order sourceStp destStp includeSdps .empty = .ok bare) (order' : EroOrder)
    (sdpVlans : SdpVlans) :
    topology.ero order' sourceStp destStp includeSdps sdpVlans =
      .ok ((bare.zip (includeSdps.map sdpVlans.get?)).map fun e => eroElement e.1 e.2) := by
  obtain ⟨pairs, hpairs, hstps⟩ := ero_bare_eq_ok.mp h
  rw [eroStps_order order order'] at hstps
  exact ero_eq_ok.mpr ⟨pairs, bare, hpairs, hstps, rfl⟩

theorem bare_end {topology : SdpTopology} {order : EroOrder} {sourceStp destStp : String}
    {includeSdps bare : List String}
    (h : topology.ero order sourceStp destStp includeSdps .empty = .ok bare) :
    List.Forall₂ (fun stp sdpId => ∃ pair, topology.stps.get? sdpId = some pair ∧
      (stp = pair.1 ∨ stp = pair.2)) bare includeSdps := by
  obtain ⟨pairs, hpairs, hstps⟩ := ero_bare_eq_ok.mp h
  have hends := eroStps_ends order sourceStp destStp hstps
  have hpairs := mapM_eq_ok.mp hpairs
  rw [List.forall₂_iff_get]
  refine ⟨hends.length_eq.trans hpairs.length_eq.symm, fun i hi hi' => ?_⟩
  have hi'' : i < pairs.length := hends.length_eq ▸ hi
  exact ⟨pairs[i], lookup_eq_ok.mp (hpairs.get hi' hi''), hends.get hi hi''⟩

theorem pathSummary_ok {topology : SdpTopology} {includeSdps : List String} {sdpVlans : SdpVlans}
    (h : ∀ sdpId ∈ includeSdps, (topology.names.get? sdpId).isSome) :
    ∃ summary, pathSummary topology includeSdps sdpVlans = .ok summary := by
  obtain ⟨hops, hhops⟩ := exists_mapM (f := fun sdpId => do
      let name ← lookup topology.names sdpId
      let vlan := (sdpVlans.get? sdpId).elim "" fun vlan => s!" (VLAN {vlan})"
      pure (name ++ vlan)) (l := includeSdps) fun sdpId hin => by
    obtain ⟨name, hname⟩ := Option.isSome_iff_exists.mp (h sdpId hin)
    exact ⟨_, bind_eq_ok.mpr ⟨name, lookup_eq_ok.mpr hname, rfl⟩⟩
  exact ⟨_, bind_eq_ok.mpr ⟨hops, hhops, rfl⟩⟩

/-! ## Stored constraints -/

theorem includeConstraints_ok {sdps : Dict String Sdp} {includeSdps : List String}
    (sdpVlans : SdpVlans) (h : ∀ sdpId ∈ includeSdps, (sdps.get? sdpId).isSome) :
    ∃ constraints, includeConstraints sdps includeSdps sdpVlans = .ok constraints :=
  exists_mapM fun sdpId hin => by
    obtain ⟨sdp, hsdp⟩ := Option.isSome_iff_exists.mp (h sdpId hin)
    exact ⟨_, bind_eq_ok.mpr ⟨_, by simp [sdpBlockFor, hsdp]; rfl, rfl⟩⟩

theorem includeConstraints_forall₂ {sdps : Dict String Sdp} {includeSdps : List String}
    {sdpVlans : SdpVlans} {constraints : List SdpConstraint}
    (h : includeConstraints sdps includeSdps sdpVlans = .ok constraints) :
    List.Forall₂ (fun sdpId c => ∃ sdp, sdps.get? sdpId = some sdp ∧
      c = ⟨.include, ⟨sdpId, sdp.stps.1.stpId, sdp.stps.2.stpId⟩, sdpVlans.get? sdpId⟩)
      includeSdps constraints := by
  refine (mapM_eq_ok.mp h).imp fun sdpId c hc => ?_
  obtain ⟨link, hlink, hc⟩ := bind_eq_ok.mp hc
  unfold sdpBlockFor at hlink
  split at hlink
  · next sdp hsdp =>
      cases hlink
      exact ⟨sdp, hsdp, (pure_eq_ok.mp hc).symm⟩
  · cases hlink

theorem storedSdpVlans_eq {sdps : Dict String Sdp} {includeSdps : List String}
    {vlans : List (Option Int)} {vc : Vc} (hnodup : includeSdps.Nodup)
    (hlength : includeSdps.length = vlans.length)
    (h : includeConstraints sdps includeSdps (Dict.ofPairs (pinnedPairs (includeSdps.zip vlans))) =
      .ok (included vc)) :
    storedSdpVlans vc = Dict.ofPairs (pinnedPairs (includeSdps.zip vlans)) := by
  have hforall := includeConstraints_forall₂ h
  have hzip : (included vc).map (fun c => (c.sdp.ownerSubscriptionId, c.vlan)) =
      includeSdps.zip vlans := by
    refine List.ext_getElem (by simp [← hforall.length_eq, hlength]) fun i hi hi' => ?_
    have hc : i < (included vc).length := by simpa using hi
    have hs : i < includeSdps.length := hforall.length_eq ▸ hc
    have hv : i < vlans.length := hlength ▸ hs
    obtain ⟨sdp, _, hstored⟩ := hforall.get hs hc
    simp only [List.get_eq_getElem] at hstored
    rw [List.getElem_map, hstored, List.getElem_zip,
      pinned_get? hnodup hlength (List.getElem?_eq_getElem hs) (List.getElem?_eq_getElem hv)]
  rw [storedSdpVlans, ← hzip, pinnedPairs, List.filterMap_map]
  rfl

/-! ## Pins and their SDPs -/

/-- The pins of a page follow their SDPs into the ERO and the stored constraints, and
back into the fields of any later page. -/
structure PinsFollow (includeSdps : List String) (vlans : List (Option Int))
    (bare ero : List String)
    (constraints : List SdpConstraint) : Prop where
  unlabelled : ero.map stripLabel = bare
  labelled : ∀ (i : ℕ) (v : Int), (∃ stp : String, ero[i]? = some s!"{stp}?vlan={v}") ↔
    vlans[i]? = some (some v)
  stored : List.Forall₂ (fun (e : String × Option Int) c => c.constraintType = .include ∧
    c.sdp.ownerSubscriptionId = e.1 ∧ c.vlan = e.2) (includeSdps.zip vlans) constraints
  held : ∀ (i : ℕ) element, ero[i]? = some element → ∃ stp vlan, vlans[i]? = some vlan ∧
    endpointVlanPairs (some element) = .ok (vlan.elim ∅ fun v => {(stp, v)}) ∧
    ∀ v, vlan = some v → (stp, v) ∈ pinnedSdpVlans (constraints.map SdpConstraint.toInactive)
  prefilled : ∀ vc topology inUse includeSdps' fields, included vc = constraints →
    sdpVlanForm topology includeSdps' (storedSdpVlans vc) inUse = .ok fields →
    ∀ (j : ℕ) sdpId field, includeSdps'[j]? = some sdpId → fields[j]? = some field →
      ∀ v, field.default = some v ↔
        ∃ i : ℕ, includeSdps[i]? = some sdpId ∧ vlans[i]? = some (some v)

section Pins

variable {stps : List Stp} {sdps : Dict String Sdp} {topology : SdpTopology} {inUse : InUse}
  {values : ConnectionFields} {form : ConnectionForm} {order : EroOrder} {raw : ConnectionFields}
  {input : ConnectionInput} {defaults : SdpVlans} {rawVlans : SdpVlanFields}
  {includeSdps : List String} {fields : List SdpVlanField} {vlans : List (Option Int)}

theorem prefilled_default {vc : Vc} {topology' : SdpTopology} {inUse' : InUse}
    {includeSdps' : List String} (hnodup : includeSdps.Nodup)
    (hlength : includeSdps.length = vlans.length)
    (hconstraints : includeConstraints sdps includeSdps
      (Dict.ofPairs (pinnedPairs (includeSdps.zip vlans))) = .ok (included vc))
    (hfields : sdpVlanForm topology' includeSdps' (storedSdpVlans vc) inUse' = .ok fields)
    {j : ℕ} {sdpId : String} {field : SdpVlanField} (hsdp : includeSdps'[j]? = some sdpId)
    (hfield : fields[j]? = some field) (v : Int) :
    field.default = some v ↔ ∃ i : ℕ, includeSdps[i]? = some sdpId ∧ vlans[i]? = some (some v) := by
  have hdefault : field.default = (storedSdpVlans vc).get? sdpId := by
    obtain ⟨hj, rfl⟩ := List.getElem?_eq_some_iff.mp hsdp
    obtain ⟨hj', rfl⟩ := List.getElem?_eq_some_iff.mp hfield
    have := (mapM_eq_ok.mp hfields).get hj hj'
    simp only [sdpVlanField, bind_eq_ok, lookup_eq_ok, pure_eq_ok, List.get_eq_getElem] at this
    obtain ⟨_, _, _, _, _, _, heq⟩ := this
    rw [← heq]
  rw [hdefault, storedSdpVlans_eq hnodup hlength hconstraints]
  constructor
  · intro h
    obtain ⟨i, hi⟩ := List.mem_iff_getElem?.mp (mem_of_pinned_get? h)
    obtain ⟨hi', _⟩ := List.getElem?_eq_some_iff.mp hi
    have hvlan := List.getElem?_eq_getElem (hlength ▸ hi' : i < vlans.length)
    rw [pinned_get? hnodup hlength hi hvlan] at h
    exact ⟨i, hi, by rw [hvlan, h]⟩
  · rintro ⟨i, hi, hvlan⟩
    exact pinned_get? hnodup hlength hi hvlan

theorem bare_plain {bare : List String} (htopology : sdpTopology sdps = .ok topology)
    (hids : ∀ sdpId sdp, sdps.get? sdpId = some sdp →
      PlainId sdp.stps.1.stpId ∧ PlainId sdp.stps.2.stpId)
    {sourceStp destStp : String}
    (hbare : topology.ero order sourceStp destStp includeSdps .empty = .ok bare)
    (i : ℕ) (hi : i < bare.length) : PlainId bare[i] := by
  have hends := bare_end hbare
  obtain ⟨pair, hpair, hend⟩ := hends.get hi (hends.length_eq ▸ hi)
  obtain ⟨sdp, hsdp, rfl⟩ := (sdpTopology_stps htopology _ _).mp hpair
  rcases hend with hend | hend
  · exact (congrArg PlainId hend).mpr (hids _ sdp hsdp).1
  · exact (congrArg PlainId hend).mpr (hids _ sdp hsdp).2

theorem eroElements_get? {bare : List String} {i : ℕ} {element : String} :
    ((bare.zip vlans).map fun e => eroElement e.1 e.2)[i]? = some element ↔
      ∃ (hi : i < bare.length) (hi' : i < vlans.length),
        element = eroElement bare[i] vlans[i] := by
  rw [List.getElem?_eq_some_iff]
  simp only [List.length_map, List.length_zip, List.getElem_map, List.getElem_zip, lt_inf_iff,
    eq_comm (b := element)]
  constructor
  · rintro ⟨⟨hi, hi'⟩, h⟩
    exact ⟨hi, hi', h⟩
  · rintro ⟨hi, hi', h⟩
    exact ⟨⟨hi, hi'⟩, h⟩

/-- What follows from an ERO of plain ends and the pins of an accepted page. -/
theorem pinsFollow_of_accepts {bare : List String} {constraints : List SdpConstraint}
    (htopology : sdpTopology sdps = .ok topology)
    (hids : ∀ sdpId sdp, sdps.get? sdpId = some sdp →
      PlainId sdp.stps.1.stpId ∧ PlainId sdp.stps.2.stpId)
    (hnodup : includeSdps.Nodup)
    (haccepts : PageAccepts topology inUse defaults rawVlans includeSdps vlans)
    {sourceStp destStp : String}
    (hbare : topology.ero order sourceStp destStp includeSdps .empty = .ok bare)
    (hconstraints : includeConstraints sdps includeSdps
      (Dict.ofPairs (pinnedPairs (includeSdps.zip vlans))) = .ok constraints) :
    PinsFollow includeSdps vlans bare ((bare.zip vlans).map fun e => eroElement e.1 e.2)
      constraints := by
  have hends := bare_end hbare
  have hlength : bare.length = vlans.length := hends.length_eq.trans haccepts.length
  have hstored := includeConstraints_forall₂ hconstraints
  have hplain := bare_plain htopology hids hbare
  constructor
  case unlabelled =>
    refine List.ext_getElem (by simp [hlength]) fun i hi hi' => ?_
    rw [List.getElem_map, List.getElem_map, List.getElem_zip,
      stripLabel_eroElement (hplain i hi').2]
  case labelled =>
    intro i v
    constructor
    · rintro ⟨stp, hstp⟩
      obtain ⟨hi, hi', heq⟩ := eroElements_get?.mp hstp
      rw [List.getElem?_eq_getElem hi',
        (eroElement_carries (hplain i hi).2 vlans[i] v).mp ⟨stp, heq.symm⟩]
    · intro hvlan
      obtain ⟨hi', hvlan⟩ := List.getElem?_eq_some_iff.mp hvlan
      have hi : i < bare.length := hlength ▸ hi'
      exact ⟨bare[i], eroElements_get?.mpr ⟨hi, hi', by rw [hvlan]; rfl⟩⟩
  case stored =>
    rw [List.forall₂_iff_get]
    have hzip : (includeSdps.zip vlans).length = includeSdps.length := by
      simp [haccepts.length]
    refine ⟨hzip.trans hstored.length_eq, fun i hi hi' => ?_⟩
    have hs : i < includeSdps.length := hzip ▸ hi
    have hv : i < vlans.length := haccepts.length ▸ hs
    obtain ⟨sdp, _, hc⟩ := hstored.get hs hi'
    rw [hc]
    simp only [List.get_eq_getElem, List.getElem_zip, true_and]
    exact pinned_get? hnodup haccepts.length (List.getElem?_eq_getElem hs)
      (List.getElem?_eq_getElem hv)
  case held =>
    intro i element h
    obtain ⟨hi, hi', rfl⟩ := eroElements_get?.mp h
    have hs : i < includeSdps.length := hends.length_eq ▸ hi
    have hc : i < constraints.length := hstored.length_eq ▸ hs
    obtain ⟨_, vlan, _, hvlan, _, hrange⟩ :=
      haccepts.field i includeSdps[i] (List.getElem?_eq_getElem hs)
    obtain ⟨_, rfl⟩ := List.getElem?_eq_some_iff.mp hvlan
    refine ⟨bare[i], vlans[i], hvlan, endpointVlanPairs_eroElement (hplain i hi).2 fun v hv =>
      (hrange v hv).1, fun v hv => ?_⟩
    obtain ⟨sdp, hsdp, hstore⟩ := hstored.get hs hc
    obtain ⟨pair, hpair, hend⟩ := hends.get hi hs
    obtain ⟨sdp', hsdp', rfl⟩ := (sdpTopology_stps htopology _ _).mp hpair
    obtain rfl : sdp = sdp' := Option.some.inj (hsdp.symm.trans hsdp')
    refine mem_pinnedSdpVlans.mpr ⟨constraints[i], List.getElem_mem hc, ?_, ?_, ?_, (hplain i hi).1⟩
    · exact congrArg SdpConstraint.constraintType hstore
    · rw [← hv]
      exact (congrArg SdpConstraint.vlan hstore).trans
        (pinned_get? hnodup haccepts.length (List.getElem?_eq_getElem hs) hvlan)
    · have hlink : constraints[i].sdp = ⟨_, sdp.stps.1.stpId, sdp.stps.2.stpId⟩ :=
        congrArg SdpConstraint.sdp hstore
      rw [hlink]
      exact hend
  case prefilled =>
    rintro vc topology' inUse' includeSdps' fields rfl hfields j sdpId field hsdp hfield v
    exact prefilled_default hnodup haccepts.length hconstraints hfields hsdp hfield v

/-- With SDP ends free of `?`, which `create_stp` offered once, an accepted pair of pages always
gives an ERO, whose pins follow their SDPs. -/
theorem accepted_pins_follow (htopology : sdpTopology sdps = .ok topology)
    (hids : ∀ sdpId sdp, sdps.get? sdpId = some sdp →
      '?' ∉ sdp.stps.1.stpId.toList ∧ '?' ∉ sdp.stps.2.stpId.toList)
    (hoffered : EndsOffered sdps)
    (hform : connectionForm stps topology inUse values = .ok form)
    (hinput : form.validate order raw = .ok input)
    (hfields : sdpVlanForm topology input.includeSdps defaults inUse = .ok fields)
    (hvlans : validateSdpVlans fields rawVlans = .ok vlans) :
    ∃ bare ero sdpVlans constraints,
      topology.ero order input.sourceStp input.destinationStp input.includeSdps .empty = .ok bare ∧
      (∀ order', pathInput topology order' input inUse defaults rawVlans = .ok ⟨ero, sdpVlans⟩) ∧
      includeConstraints sdps input.includeSdps sdpVlans = .ok constraints ∧
      (∀ (i : ℕ) sdpId, input.includeSdps[i]? = some sdpId →
        vlans[i]? = some ((rawVlans i).getD (defaults.get? sdpId))) ∧
      PinsFollow input.includeSdps vlans bare ero constraints := by
  have hplain : ∀ sdpId sdp, sdps.get? sdpId = some sdp →
      PlainId sdp.stps.1.stpId ∧ PlainId sdp.stps.2.stpId := by
    intro sdpId sdp hsdp
    obtain ⟨hfirst, hsecond⟩ := hoffered sdpId sdp hsdp
    obtain ⟨hfirst', hsecond'⟩ := hids sdpId sdp hsdp
    exact ⟨⟨ne_empty_of_isMember hfirst, hfirst'⟩, ⟨ne_empty_of_isMember hsecond, hsecond'⟩⟩
  have hpage := validate_eq_ok.mp hinput
  have haccepts := pageAccepts_iff.mpr ⟨fields, hfields, hvlans⟩
  obtain ⟨hoptions, htopology', _⟩ := connectionForm_fields hform
  obtain ⟨bare, hbare⟩ := hpage.endpoints.routable
  rw [htopology'] at hbare
  have hnames : ∀ sdpId ∈ input.includeSdps, (topology.names.get? sdpId).isSome :=
    fun sdpId hin =>
    hoptions ▸ hpage.includeOffered sdpId hin
  let sdpVlans := Dict.ofPairs (pinnedPairs (input.includeSdps.zip vlans))
  obtain ⟨constraints, hconstraints⟩ : ∃ constraints,
      includeConstraints sdps input.includeSdps sdpVlans = .ok constraints :=
        includeConstraints_ok sdpVlans
    fun sdpId hin => (sdpTopology_keys htopology sdpId).mp (hnames sdpId hin)
  refine ⟨bare, _, sdpVlans, constraints, hbare, fun order' => ?_, hconstraints,
    fun i sdpId hsdp => haccepts.entered hsdp,
    pinsFollow_of_accepts htopology hplain hpage.includeDistinct haccepts hbare hconstraints⟩
  refine pathInput_eq_ok.mpr ⟨sdpVlanInput_eq_ok.mpr ⟨vlans, haccepts, rfl⟩,
    pathSummary_ok hnames, ?_⟩
  rw [ero_of_bare hbare, pinned_map_get? hpage.includeDistinct haccepts.length]

end Pins

theorem accepted_pins_follow_line : ∃ constraints,
    PinsFollow ["s"] [some 7] ["n:n:n:n:n:X:2"] ["n:n:n:n:n:X:2?vlan=7"] constraints := by
  obtain ⟨topology, inUse, values, form, _, haccept⟩ := connectionInput_eq_ok.mp lineInput_accepted
  obtain ⟨hvlans, _, hero⟩ := pathInput_eq_ok.mp haccept.path
  obtain ⟨vlans, haccepts, hpins⟩ := sdpVlanInput_eq_ok.mp hvlans
  obtain ⟨fields, hfields, hvlans⟩ := pageAccepts_iff.mp haccepts
  have hsdps : ∀ e ∈ lineInventory.sdps.entries,
      ('?' ∉ e.2.stps.1.stpId.toList ∧ '?' ∉ e.2.stps.2.stpId.toList) ∧
        isMember stpChoice e.2.stps.1.stpId ∧ isMember stpChoice e.2.stps.2.stpId := by
    decide
  obtain ⟨bare, ero, sdpVlans, constraints, hbare, hpath, _, _, hfollow⟩ :=
    accepted_pins_follow haccept.loaded (fun _ _ h => (hsdps _ (Dict.get?_eq_some.mp h)).1)
      (fun _ _ h => (hsdps _ (Dict.get?_eq_some.mp h)).2) haccept.built haccept.page hfields hvlans
  obtain ⟨rfl, _⟩ := Path.mk.inj (Except.ok.inj ((hpath ascending.ero).symm.trans haccept.path))
  have hbare' : bare = ["n:n:n:n:n:X:2"] := hfollow.unlabelled.symm.trans (by decide +kernel)
  have hvlans' : vlans = [some 7] := by
    have hlength := haccepts.length
    obtain ⟨v, rfl⟩ := List.length_eq_one_iff.mp (hlength.symm.trans rfl)
    have := (hfollow.labelled 0 7).mp ⟨"n:n:n:n:n:X:2", rfl⟩
    simpa using this
  exact ⟨constraints, hbare' ▸ hvlans' ▸ hfollow⟩

end NsiOrchestrator.Forms
