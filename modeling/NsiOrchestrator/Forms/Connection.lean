import NsiOrchestrator.Forms.Choices
import NsiOrchestrator.Forms.Topology
import NsiOrchestrator.Forms.Fields

/-! # The connection form

The page create and retry share: two endpoints with their VLANs, and the SDPs the
path has to cross. Values arrive with their types already checked.
-/

namespace NsiOrchestrator.Forms

open Outcome Vlans Ero Fields

/-! ## What is offered -/

/-- VLANs in use, by STP id. -/
abbrev InUse := Dict String (Finset Int)

def InUse.on (inUse : InUse) (stpId : String) : Finset Int := (inUse.get? stpId).getD ∅

def vlansInUseByStp (order : SetOrder StpVlan) (reservations : List AggregatorReservation)
    (releasedConnectionId : Option String) : Except PyError InUse := do
  let held := (heldReservations reservations).filter fun reservation =>
    some reservation.connectionId ≠ releasedConnectionId
  let pairs ← reservationsVlanPairs held
  pure (groupByStp order pairs)

def freeRanges (allowed inUse : Finset Int) : String :=
  let ranges := collapseRanges (sorted (allowed \ inUse))
  if ranges = "" then "none available" else ranges

def availableVlanRanges (labelGroup : String) (inUse : Finset Int) : Except PyError String := do
  let allowed ← vlanSet labelGroup
  pure (freeRanges allowed inUse)

/-- The class name of the dropdowns of STPs. -/
def stpChoice : String := "ServiceTerminationPoint"

/-- `stp_selector`: the label of every STP, by STP id. -/
def stpSelector (stps : List Stp) (usedInSdp : Finset String) (inUse : InUse) :
    Except PyError (Dict String String) := do
  let options ← stps.mapM fun stp => do
    let sdpMarker := if stp.stpId ∈ usedInSdp then ", in SDP" else ""
    let available ← availableVlanRanges stp.labelGroup (inUse.on stp.stpId)
    pure (stp.stpId, s!"{stp.stpName} (VLAN {available}{sdpMarker})")
  choices stpChoice (Dict.ofPairs options)

/-! ## The page -/

structure ConnectionFields where
  circuitDescription : Option String
  serviceSpeed : Option Int
  sourceStp : Option String
  sourceVlan : Option Int
  destinationStp : Option String
  destinationVlan : Option Int
  allowStpsInSdp : Option Bool
  includeSdps : Option (List String)
  excludeSdps : Option (List String)
  deriving DecidableEq, Repr

def ConnectionFields.untouched : ConnectionFields :=
  ⟨none, none, none, none, none, none, none, none, none⟩

def ConnectionFields.prefilled (values : ConnectionFields) : ConnectionFields :=
  { values with
    allowStpsInSdp := some false
    includeSdps := some (values.includeSdps.getD [])
    excludeSdps := some [] }

structure ConnectionInput where
  circuitDescription : String
  serviceSpeed : Int
  sourceStp : String
  sourceVlan : Int
  destinationStp : String
  destinationVlan : Int
  allowStpsInSdp : Bool
  includeSdps : List String
  excludeSdps : List String
  deriving DecidableEq, Repr

structure ConnectionForm where
  stpOptions : Dict String String
  sdpOptions : Dict String String
  labelGroupById : Dict String String
  topology : SdpTopology
  inUseByStp : InUse
  defaults : ConnectionFields
  deriving DecidableEq

def connectionForm (stps : List Stp) (topology : SdpTopology) (inUseByStp : InUse)
    (values : ConnectionFields) : Except PyError ConnectionForm := do
  let stpOptions ← stpSelector stps topology.stpIds inUseByStp
  -- The names of the other dropdown are uuids, which all make members.
  pure
    { stpOptions := stpOptions
      sdpOptions := topology.names
      labelGroupById := Dict.ofPairs (stps.map fun stp => (stp.stpId, stp.labelGroup))
      topology := topology
      inUseByStp := inUseByStp
      defaults := values.prefilled }

def choice (loc : String) (options : Dict String String) (submitted default : Option String) :
    Except FormError String := do
  let value ← required loc submitted default
  if (options.get? value).isSome then pure value else reject loc .notOffered

def choiceList (loc : String) (options : Dict String String)
    (submitted default : Option (List String)) : Except FormError (List String) := do
  let values ← required loc submitted default
  if ∀ value ∈ values, (options.get? value).isSome then
    if values.Nodup then pure values else reject loc .repeatedItems
  else reject loc .notOffered

/-- `Vlan`: an integer from 1 to 4094. -/
def checkVlan (loc : String) (vlan : Int) : Except FormError Int :=
  if vlan < 1 then reject loc (.greaterThanEqual 1)
  else if 4094 < vlan then reject loc (.lessThanEqual 4094)
  else pure vlan

/-- `_vlan_within_stp_range`; the STP is absent when its own field was rejected. -/
def ConnectionForm.vlanWithinStpRange (form : ConnectionForm) (stp : Option String) (vlan : Int) :
    Except PyError Int :=
  match stp with
  | none => .ok vlan
  | some stpId => do
      let labelGroup ← lookup form.labelGroupById stpId
      let within ← vlanInLabelGroup vlan labelGroup
      raiseIf (within = false)
        (.valueError s!"must be within the STP's VLAN range ({labelGroup})")
      raiseIf (vlan ∈ form.inUseByStp.on stpId)
        (.valueError "is already in use on the selected STP")
      pure vlan

def ConnectionForm.vlanField (form : ConnectionForm) (loc : String) (stp : Option String)
    (submitted default : Option Int) : Except FormError Int := do
  let vlan ← required loc submitted default
  let vlan ← checkVlan loc vlan
  validator loc (form.vlanWithinStpRange stp vlan)

/-- `_check_endpoints`. -/
def ConnectionForm.checkEndpoints (form : ConnectionForm) (order : EroOrder)
    (input : ConnectionInput) : Except PyError Unit := do
  raiseIf (input.sourceStp = input.destinationStp)
    (.valueError "Source and destination STP must be different")
  raiseIf (input.allowStpsInSdp = false ∧
      (input.sourceStp ∈ form.topology.stpIds ∨ input.destinationStp ∈ form.topology.stpIds))
    (.valueError "A selected STP is part of an SDP; tick 'allow stps in sdp' to use it anyway")
  raiseIf (∃ sdp ∈ input.includeSdps, sdp ∈ input.excludeSdps)
    (.valueError "An SDP cannot be both included and excluded")
  raiseIf (input.excludeSdps ≠ [])
    (.valueError "Excluding SDPs from the path is not yet supported by the aggregator")
  if input.includeSdps = [] then pure ()
  else
    let _ ← form.topology.ero order input.sourceStp input.destinationStp input.includeSdps .empty
    pure ()

def ConnectionForm.validate (form : ConnectionForm) (order : EroOrder) (raw : ConnectionFields) :
    Except FormError ConnectionInput := do
  let sourceStp := choice "source_stp" form.stpOptions raw.sourceStp form.defaults.sourceStp
  let destinationStp :=
    choice "destination_stp" form.stpOptions raw.destinationStp form.defaults.destinationStp
  let (description, speed, source, sourceVlan, destination, destinationVlan, allow, include',
    exclude) ←
    both (required "circuit_description" raw.circuitDescription form.defaults.circuitDescription)
    <| both (required "service_speed" raw.serviceSpeed form.defaults.serviceSpeed)
    <| both sourceStp
    <| both (form.vlanField "source_vlan" sourceStp.toOption raw.sourceVlan
      form.defaults.sourceVlan)
    <| both destinationStp
    <| both (form.vlanField "destination_vlan" destinationStp.toOption raw.destinationVlan
        form.defaults.destinationVlan)
    <| both (required "allow_stps_in_sdp" raw.allowStpsInSdp form.defaults.allowStpsInSdp)
    <| both (choiceList "include_sdps" form.sdpOptions raw.includeSdps form.defaults.includeSdps)
        (choiceList "exclude_sdps" form.sdpOptions raw.excludeSdps form.defaults.excludeSdps)
  let input : ConnectionInput :=
    ⟨description, speed, source, sourceVlan, destination, destinationVlan, allow, include', exclude⟩
  validator "" (form.checkEndpoints order input)
  pure input

/-! ## The inventory behind the page -/

section Inventory

variable {stps : List Stp} {usedInSdp : Finset String} {inUse : InUse}

theorem stpSelector_labels {options : Dict String String}
    (h : stpSelector stps usedInSdp inUse = .ok options) :
    (∀ stp ∈ stps, ∃ vlans, vlanSet stp.labelGroup = .ok vlans) ∧
      ∃ labels : List (String × String), labels.map Prod.fst = stps.map Stp.stpId ∧
        choices stpChoice (Dict.ofPairs labels) = .ok options := by
  obtain ⟨labels, hlabels, hchoices⟩ := bind_eq_ok.mp h
  refine ⟨fun stp hstp => ?_, labels, ?_, hchoices⟩
  · obtain ⟨_, _, hlabel⟩ := exists_of_mapM hlabels hstp
    obtain ⟨_, havailable, _⟩ := bind_eq_ok.mp hlabel
    obtain ⟨vlans, hvlans, _⟩ := bind_eq_ok.mp havailable
    exact ⟨vlans, hvlans⟩
  · refine map_of_mapM hlabels fun stp label hlabel => ?_
    obtain ⟨_, _, hlabel⟩ := bind_eq_ok.mp hlabel
    cases pure_eq_ok.mp hlabel
    rfl

theorem stpSelector_ok_iff : (∃ options, stpSelector stps usedInSdp inUse = .ok options) ↔
    (∀ stp ∈ stps, ∃ vlans, vlanSet stp.labelGroup = .ok vlans) ∧
      ∀ stp ∈ stps, ¬ Refused stpChoice stp.stpId := by
  have hnames : ∀ {labels : List (String × String)}, labels.map Prod.fst = stps.map Stp.stpId →
      ((∀ name ∈ (Dict.ofPairs labels).keys, ¬ Refused stpChoice name) ↔
        ∀ stp ∈ stps, ¬ Refused stpChoice stp.stpId) := by
    intro labels hids
    simp only [Dict.mem_keys_ofPairs, hids, List.forall_mem_map]
  constructor
  · rintro ⟨options, h⟩
    obtain ⟨hreadable, labels, hids, hchoices⟩ := stpSelector_labels h
    exact ⟨hreadable, (hnames hids).mp (choices_eq_ok.mp hchoices).1⟩
  · rintro ⟨hreadable, haccepted⟩
    obtain ⟨labels, hlabels⟩ : ∃ labels, stps.mapM (fun stp : Stp => do
        let sdpMarker := if stp.stpId ∈ usedInSdp then ", in SDP" else ""
        let available ← availableVlanRanges stp.labelGroup (inUse.on stp.stpId)
        pure (stp.stpId, s!"{stp.stpName} (VLAN {available}{sdpMarker})")) = .ok labels := by
      refine exists_mapM fun stp hstp => ?_
      obtain ⟨vlans, hvlans⟩ := hreadable stp hstp
      exact ⟨_, bind_eq_ok.mpr ⟨_, bind_eq_ok.mpr ⟨vlans, hvlans, rfl⟩, rfl⟩⟩
    have hids : labels.map Prod.fst = stps.map Stp.stpId := map_of_mapM hlabels fun stp e he => by
      obtain ⟨_, _, he⟩ := bind_eq_ok.mp he
      cases pure_eq_ok.mp he
      rfl
    exact ⟨_, bind_eq_ok.mpr ⟨labels, hlabels,
      choices_eq_ok.mpr ⟨(hnames hids).mpr haccepted, rfl⟩⟩⟩

variable {topology : SdpTopology} {values : ConnectionFields}

/-- The page is built when the label groups can be read and no STP id is refused. -/
theorem connectionForm_ok_iff :
    (∃ form, connectionForm stps topology inUse values = .ok form) ↔
      (∀ stp ∈ stps, ∃ vlans, vlanSet stp.labelGroup = .ok vlans) ∧
        ∀ stp ∈ stps, ¬ Refused stpChoice stp.stpId := by
  constructor
  · rintro ⟨_, h⟩
    obtain ⟨options, hoptions, _⟩ := bind_eq_ok.mp h
    exact stpSelector_ok_iff.mp ⟨options, hoptions⟩
  · intro h
    have hoptions : ∃ options, stpSelector stps topology.stpIds inUse = .ok options :=
      stpSelector_ok_iff.mpr h
    obtain ⟨options, hoptions⟩ := hoptions
    exact ⟨_, bind_eq_ok.mpr ⟨options, hoptions, rfl⟩⟩

variable {form : ConnectionForm} (h : connectionForm stps topology inUse values = .ok form)

include h

theorem connectionForm_labelGroup {stpId labelGroup : String}
    (hget : form.labelGroupById.get? stpId = some labelGroup) :
    ∃ stp ∈ stps, stp.stpId = stpId ∧ stp.labelGroup = labelGroup := by
  obtain ⟨options, _, h⟩ := bind_eq_ok.mp h
  cases pure_eq_ok.mp h
  have := Dict.mem_of_mem_ofPairs (Dict.get?_eq_some.mp hget)
  simpa using this

theorem connectionForm_offered (stpId : String) :
    (form.stpOptions.get? stpId).isSome ↔
      isMember stpChoice stpId ∧ ∃ stp ∈ stps, stp.stpId = stpId := by
  obtain ⟨options, hoptions, h⟩ := bind_eq_ok.mp h
  cases pure_eq_ok.mp h
  obtain ⟨_, labels, hids, hchoices⟩ := stpSelector_labels hoptions
  simp only [get?_choices hchoices]
  split
  · next hmember =>
      rw [Dict.get?_isSome, Dict.mem_keys_ofPairs, hids, List.mem_map]
      simp [hmember]
  · next hmember => simp [hmember]

theorem connectionForm_fields : form.sdpOptions = topology.names ∧ form.topology = topology ∧
    form.inUseByStp = inUse ∧ form.defaults = values.prefilled := by
  obtain ⟨options, _, h⟩ := bind_eq_ok.mp h
  cases pure_eq_ok.mp h
  exact ⟨rfl, rfl, rfl, rfl⟩

theorem connectionForm_labelGroups : form.labelGroupById =
    Dict.ofPairs (stps.map fun stp => (stp.stpId, stp.labelGroup)) := by
  obtain ⟨options, _, h⟩ := bind_eq_ok.mp h
  cases pure_eq_ok.mp h
  rfl

end Inventory

/-! ## What is accepted -/

def ConnectionForm.VlanAccepted (form : ConnectionForm) (stpId : String) (vlan : Int) : Prop :=
  1 ≤ vlan ∧ vlan ≤ 4094 ∧
    (∃ labelGroup, form.labelGroupById.get? stpId = some labelGroup ∧ Covers labelGroup vlan) ∧
    vlan ∉ form.inUseByStp.on stpId

theorem vlanWithinStpRange_eq_ok {form : ConnectionForm} {stpId : String} {vlan vlan' : Int} :
    form.vlanWithinStpRange (some stpId) vlan = .ok vlan' ↔ vlan = vlan' ∧
      (∃ labelGroup, form.labelGroupById.get? stpId = some labelGroup ∧ Covers labelGroup vlan) ∧
      vlan ∉ form.inUseByStp.on stpId := by
  simp only [ConnectionForm.vlanWithinStpRange, bind_eq_ok, lookup_eq_ok, ← vlanInLabelGroup_iff,
    raiseIf_eq_ok, pure_eq_ok]
  constructor
  · rintro ⟨labelGroup, hgroup, within, hwithin, _, hin, _, huse, rfl⟩
    rw [Bool.not_eq_false] at hin
    exact ⟨rfl, ⟨labelGroup, hgroup, hin ▸ hwithin⟩, huse⟩
  · rintro ⟨rfl, ⟨labelGroup, hgroup, hwithin⟩, huse⟩
    exact ⟨labelGroup, hgroup, true, hwithin, (), by simp, (), huse, rfl⟩

theorem checkVlan_eq_ok {loc : String} {vlan vlan' : Int} :
    checkVlan loc vlan = .ok vlan' ↔ vlan = vlan' ∧ 1 ≤ vlan ∧ vlan ≤ 4094 := by
  unfold checkVlan
  split
  · simp; omega
  · split
    · simp; omega
    · simp only [pure_eq_ok]; omega

theorem choice_eq_ok (loc : String) {options : Dict String String}
    {submitted default : Option String} {value : String} :
    choice loc options submitted default = .ok value ↔
      (submitted <|> default) = some value ∧ (options.get? value).isSome := by
  simp only [choice, bind_eq_ok, required_eq_ok]
  constructor
  · rintro ⟨a, ha, h⟩
    split at h
    · next hoffered => exact pure_eq_ok.mp h ▸ ⟨ha, hoffered⟩
    · exact absurd h reject_ne_ok
  · rintro ⟨ha, hoffered⟩
    exact ⟨value, ha, by rw [if_pos hoffered]; rfl⟩

theorem choiceList_eq_ok {loc : String} {options : Dict String String}
    {submitted default : Option (List String)} {values : List String} :
    choiceList loc options submitted default = .ok values ↔
      (submitted <|> default) = some values ∧ values.Nodup ∧
        ∀ value ∈ values, (options.get? value).isSome := by
  simp only [choiceList, bind_eq_ok, required_eq_ok]
  constructor
  · rintro ⟨a, ha, h⟩
    split at h
    · next hoffered =>
        split at h
        · next hnodup => exact pure_eq_ok.mp h ▸ ⟨ha, hnodup, hoffered⟩
        · exact absurd h reject_ne_ok
    · exact absurd h reject_ne_ok
  · rintro ⟨ha, hnodup, hoffered⟩
    exact ⟨values, ha, by rw [if_pos hoffered, if_pos hnodup]; rfl⟩

theorem vlanField_eq_ok {form : ConnectionForm} {loc stpId : String}
    {submitted default : Option Int} {vlan : Int} :
    form.vlanField loc (some stpId) submitted default = .ok vlan ↔
      (submitted <|> default) = some vlan ∧ form.VlanAccepted stpId vlan := by
  simp only [ConnectionForm.vlanField, bind_eq_ok, required_eq_ok, checkVlan_eq_ok,
    validator_eq_ok, vlanWithinStpRange_eq_ok, ConnectionForm.VlanAccepted]
  grind

structure ConnectionForm.EndpointsAccepted (form : ConnectionForm) (order : EroOrder)
    (input : ConnectionInput) : Prop where
  distinct : input.sourceStp ≠ input.destinationStp
  gate : input.allowStpsInSdp = true ∨
    input.sourceStp ∉ form.topology.stpIds ∧ input.destinationStp ∉ form.topology.stpIds
  excludeSdps : input.excludeSdps = []
  routable : ∃ ero, form.topology.ero order input.sourceStp input.destinationStp input.includeSdps
    .empty = .ok ero

theorem ero_nil (topology : SdpTopology) (order : EroOrder) (sourceStp destStp : String)
    (sdpVlans : SdpVlans) : topology.ero order sourceStp destStp [] sdpVlans = .ok [] := rfl

theorem checkEndpoints_eq_ok {form : ConnectionForm} {order : EroOrder} {input : ConnectionInput} :
    form.checkEndpoints order input = .ok () ↔ form.EndpointsAccepted order input := by
  simp only [ConnectionForm.checkEndpoints, bind_eq_ok, raiseIf_eq_ok]
  constructor
  · rintro ⟨_, hdistinct, _, hgate, _, _, _, hexclude, hero⟩
    refine ⟨hdistinct, ?_, not_not.mp hexclude, ?_⟩
    · cases hallow : input.allowStpsInSdp with
      | true => exact .inl rfl
      | false => exact .inr (not_or.mp fun hin => hgate ⟨hallow, hin⟩)
    · by_cases hnil : input.includeSdps = []
      · exact ⟨[], by rw [hnil, ero_nil]⟩
      · rw [if_neg hnil] at hero
        obtain ⟨ero, hero, _⟩ := bind_eq_ok.mp hero
        exact ⟨ero, hero⟩
  · rintro ⟨hdistinct, hgate, hexclude, ero, hero⟩
    refine ⟨(), hdistinct, (), ?_, (), by simp [hexclude], (), by simp [hexclude], ?_⟩
    · rintro ⟨hallow, hin⟩
      rcases hgate with hgate | hgate
      · simp [hallow] at hgate
      · exact hin.elim hgate.1 hgate.2
    · by_cases hnil : input.includeSdps = []
      · rw [if_pos hnil]
        rfl
      · rw [if_neg hnil]
        exact bind_eq_ok.mpr ⟨ero, hero, rfl⟩

/-- What the page accepts: submitted or default values that pass every check. -/
structure ConnectionForm.Accepts (form : ConnectionForm) (order : EroOrder) (raw : ConnectionFields)
    (input : ConnectionInput) : Prop where
  circuitDescription :
    (raw.circuitDescription <|> form.defaults.circuitDescription) = some input.circuitDescription
  serviceSpeed : (raw.serviceSpeed <|> form.defaults.serviceSpeed) = some input.serviceSpeed
  sourceStp : (raw.sourceStp <|> form.defaults.sourceStp) = some input.sourceStp
  sourceOffered : (form.stpOptions.get? input.sourceStp).isSome
  sourceVlan : (raw.sourceVlan <|> form.defaults.sourceVlan) = some input.sourceVlan
  sourceAccepted : form.VlanAccepted input.sourceStp input.sourceVlan
  destinationStp : (raw.destinationStp <|> form.defaults.destinationStp) = some input.destinationStp
  destinationOffered : (form.stpOptions.get? input.destinationStp).isSome
  destinationVlan :
    (raw.destinationVlan <|> form.defaults.destinationVlan) = some input.destinationVlan
  destinationAccepted : form.VlanAccepted input.destinationStp input.destinationVlan
  allowStpsInSdp : (raw.allowStpsInSdp <|> form.defaults.allowStpsInSdp) = some input.allowStpsInSdp
  includeSdps : (raw.includeSdps <|> form.defaults.includeSdps) = some input.includeSdps
  includeDistinct : input.includeSdps.Nodup
  includeOffered : ∀ sdp ∈ input.includeSdps, (form.sdpOptions.get? sdp).isSome
  excludeSdps : (raw.excludeSdps <|> form.defaults.excludeSdps) = some input.excludeSdps
  excludeDistinct : input.excludeSdps.Nodup
  excludeOffered : ∀ sdp ∈ input.excludeSdps, (form.sdpOptions.get? sdp).isSome
  endpoints : form.EndpointsAccepted order input

theorem validate_eq_ok {form : ConnectionForm} {order : EroOrder} {raw : ConnectionFields}
    {input : ConnectionInput} :
    form.validate order raw = .ok input ↔ form.Accepts order raw input := by
  simp only [ConnectionForm.validate, bind_eq_ok, both_eq_ok, required_eq_ok, choiceList_eq_ok,
    validator_eq_ok, pure_eq_ok]
  constructor
  · rintro ⟨p, ⟨hdescription, hspeed, hsource, hsourceVlan, hdestination, hdestinationVlan, hallow,
      hinclude, hexclude⟩, _, hendpoints, rfl⟩
    rw [hsource] at hsourceVlan
    rw [hdestination] at hdestinationVlan
    obtain ⟨hsource, hsourceOffered⟩ := (choice_eq_ok _).mp hsource
    obtain ⟨hdestination, hdestinationOffered⟩ := (choice_eq_ok _).mp hdestination
    obtain ⟨hsourceVlan, hsourceAccepted⟩ := vlanField_eq_ok.mp hsourceVlan
    obtain ⟨hdestinationVlan, hdestinationAccepted⟩ := vlanField_eq_ok.mp hdestinationVlan
    exact ⟨hdescription, hspeed, hsource, hsourceOffered, hsourceVlan, hsourceAccepted,
      hdestination,
      hdestinationOffered, hdestinationVlan, hdestinationAccepted, hallow, hinclude.1, hinclude.2.1,
      hinclude.2.2, hexclude.1, hexclude.2.1, hexclude.2.2, checkEndpoints_eq_ok.mp hendpoints⟩
  · intro h
    have hsource := (choice_eq_ok "source_stp").mpr ⟨h.sourceStp, h.sourceOffered⟩
    have hdestination :=
      (choice_eq_ok "destination_stp").mpr ⟨h.destinationStp, h.destinationOffered⟩
    refine ⟨(input.circuitDescription, input.serviceSpeed, input.sourceStp, input.sourceVlan,
      input.destinationStp, input.destinationVlan, input.allowStpsInSdp, input.includeSdps,
      input.excludeSdps), ⟨h.circuitDescription, h.serviceSpeed, hsource, ?_, hdestination, ?_,
      h.allowStpsInSdp, ⟨h.includeSdps, h.includeDistinct, h.includeOffered⟩,
      h.excludeSdps, h.excludeDistinct, h.excludeOffered⟩, (),
      checkEndpoints_eq_ok.mpr h.endpoints, rfl⟩
    · rw [hsource]
      exact vlanField_eq_ok.mpr ⟨h.sourceVlan, h.sourceAccepted⟩
    · rw [hdestination]
      exact vlanField_eq_ok.mpr ⟨h.destinationVlan, h.destinationAccepted⟩

end NsiOrchestrator.Forms
