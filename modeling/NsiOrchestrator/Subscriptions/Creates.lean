import NsiOrchestrator.Forms.Connection
import NsiOrchestrator.Stps.Reconcile
import NsiOrchestrator.Subscriptions.Table

/-! # Creating an inventory subscription

Every create form offers the items of a dds-proxy answer that have no subscription yet
and whose parents have one. The construct step looks the parents up again. The
summary page shows what was entered and is left out.
-/

namespace NsiOrchestrator.Subscriptions

open Outcome Fields Forms Stps

/-- What a create draws for its subscription: a uuid and the tag of the product. -/
structure NewSubscription where
  subscriptionId : String
  productTag : String
  deriving DecidableEq, Repr

def NewSubscription.provisioning (new : NewSubscription) (block : ProductBlock) : Subscription :=
  Subscription.describe ⟨new.subscriptionId, .provisioning, new.productTag, block, ""⟩

/-! ## Topologies -/

structure DdsTopology where
  id : String
  name : String
  deriving DecidableEq, Repr

def subscribedTopologyIds (table : Table) : Finset String :=
  subscribedValues .topology .topologyId table

def availableTopologies (table : Table) (answer : List DdsTopology) : List DdsTopology :=
  answer.filter fun topology => topology.id ∉ subscribedTopologyIds table

def topologySelector (topologies : List DdsTopology) : Except PyError (Dict String String) :=
  choices "TopologyChoice" (Dict.ofPairs (topologies.map fun topology =>
    (topology.id, s!"{topology.name} ({topology.id})")))

structure CreateTopologyInput where
  topologyId : String
  topologyName : String
  deriving DecidableEq, Repr

/-- `initial_input_form_generator` of `create_topology`. -/
def createTopologyInput (table : Table) (answer : List DdsTopology) (topology : Option String) :
    Except FormError CreateTopologyInput := do
  let topologies := availableTopologies table answer
  let topologyNameById := Dict.ofPairs (topologies.map fun topology => (topology.id, topology.name))
  let options ← raising (topologySelector topologies)
  let topologyId ← choice "topology" options topology none
  let topologyName ← raising (lookup topologyNameById topologyId)
  pure ⟨topologyId, topologyName⟩

def constructTopologyModel (new : NewSubscription) (input : CreateTopologyInput) : Subscription :=
  new.provisioning (.topology ⟨input.topologyId, input.topologyName⟩)

/-! ## Parents -/

def blockFor {β : Type} (block? : ProductBlock → Option β) (productType : ProductType)
    (resourceType : ResourceType) (table : Table) (value : String) : Except PyError (String × β) :=
  match subscriptionIdForValue productType resourceType table value with
  | none => .error .assertionError
  | some subscriptionId => do
      let block ← fromSubscription block? table subscriptionId
      pure (subscriptionId, block)

def topologyBlockFor : Table → String → Except PyError (String × TopologyBlock) :=
  blockFor ProductBlock.topology? .topology .topologyId

def switchingserviceBlockFor : Table → String → Except PyError (String × SwitchingServiceBlock) :=
  blockFor ProductBlock.switchingService? .switchingService .switchingServiceId

def stpBlockFor : Table → String → Except PyError (String × StpBlock) :=
  blockFor ProductBlock.stp? .serviceTerminationPoint .stpId

/-! ## Switching services -/

structure DdsSwitchingService where
  id : String
  topologyId : String
  deriving DecidableEq, Repr

def availableSwitchingServices (table : Table) (answer : List DdsSwitchingService) :
    List DdsSwitchingService :=
  answer.filter fun service =>
    service.id ∉ subscribedValues .switchingService .switchingServiceId table ∧
      service.topologyId ∈ subscribedValues .topology .topologyId table

def switchingserviceSelector (services : List DdsSwitchingService) :
    Except PyError (Dict String String) :=
  choices "SwitchingService" (Dict.ofPairs (services.map fun service => (service.id, service.id)))

structure CreateSwitchingserviceInput where
  switchingServiceId : String
  switchingServiceName : String
  topologyId : String
  deriving DecidableEq, Repr

/-- `initial_input_form_generator` of `create_switchingservice`. -/
def createSwitchingserviceInput (table : Table) (answer : List DdsSwitchingService)
    (switchingServiceId switchingServiceName : Option String) :
    Except FormError CreateSwitchingserviceInput := do
  let services := availableSwitchingServices table answer
  let topologyIdById := Dict.ofPairs (services.map fun service => (service.id, service.topologyId))
  let options ← raising (switchingserviceSelector services)
  let (id, name) ←
    both (choice "switching_service_id" options switchingServiceId none)
      (required "switching_service_name" switchingServiceName none)
  let topologyId ← raising (lookup topologyIdById id)
  pure ⟨id, name, topologyId⟩

def constructSwitchingserviceModel (table : Table) (new : NewSubscription)
    (input : CreateSwitchingserviceInput) : Except PyError Subscription := do
  let (topology, _) ← topologyBlockFor table input.topologyId
  pure (new.provisioning
    (.switchingService ⟨input.switchingServiceId, input.switchingServiceName, topology⟩))

/-! ## STPs -/

def availableServiceTerminationPoints (table : Table) (answer : List DdsStp) : List DdsStp :=
  answer.filter fun stp =>
    stp.id ∉ subscribedValues .serviceTerminationPoint .stpId table ∧
      stp.switchingServiceId ∈ subscribedValues .switchingService .switchingServiceId table

/-- `stp_selector` of `create_stp`. -/
def ddsStpSelector (stps : List DdsStp) : Except PyError (Dict String String) :=
  choices stpChoice (Dict.ofPairs (stps.map fun stp => (stp.id, s!"{stp.name} ({stp.id})")))

structure CreateStpInput where
  stp : Stp
  switchingServiceId : String
  deriving DecidableEq, Repr

/-- `initial_input_form_generator` of `create_stp`. -/
def createStpInput (table : Table) (answer : List DdsStp) (stpId : Option String) :
    Except FormError CreateStpInput := do
  let stps := availableServiceTerminationPoints table answer
  let options ← raising (ddsStpSelector stps)
  let stpId ← choice "stp_id" options stpId none
  let chosen ← raising (lookup (stpById stps) stpId)
  pure ⟨⟨chosen.id, chosen.name, chosen.capacityMbits, chosen.labelGroup⟩,
    chosen.switchingServiceId⟩

def constructStpModel (table : Table) (new : NewSubscription) (input : CreateStpInput) :
    Except PyError Subscription := do
  let (switchingService, _) ← switchingserviceBlockFor table input.switchingServiceId
  pure (new.provisioning (.stp ⟨input.stp, switchingService⟩))

/-! ## SDPs -/

structure DdsSdp where
  stpAId : String
  stpZId : String
  deriving DecidableEq, Repr

def availableServiceDemarcationPoints (table : Table) (answer : List DdsSdp) :
    Except PyError (List DdsSdp) := do
  let subscribedPairs ← subscribedSdpPairs table
  let subscribedStps := subscribedValues .serviceTerminationPoint .stpId table
  pure (answer.filter fun sdp =>
    {sdp.stpAId, sdp.stpZId} ∉ subscribedPairs ∧ {sdp.stpAId, sdp.stpZId} ⊆ subscribedStps)

/-- The text without `urn:ogf:network:` in front. -/
def shortStpId (stpId : String) : String :=
  let start := "urn:ogf:network:".toList
  if start <+: stpId.toList then String.ofList (stpId.toList.drop start.length) else stpId

/-- The key of an SDP in its dropdown. -/
def DdsSdp.key (sdp : DdsSdp) : String :=
  let a := sdp.stpAId
  let z := sdp.stpZId
  s!"{a}|{z}"

/-- `sdp_selector` of `create_sdp`. -/
def ddsSdpSelector (table : Table) (sdps : List DdsSdp) : Except PyError (Dict String String) :=
  let descriptions := subscriptionDescriptionsForValues .serviceTerminationPoint .stpId table
  let side := fun stpId =>
    match descriptions.get? stpId with
    | some description => if description = "" then shortStpId stpId else description
    | none => shortStpId stpId
  choices "ServiceDemarcationPoint" (Dict.ofPairs (sdps.map fun sdp =>
    let a := side sdp.stpAId
    let z := side sdp.stpZId
    (sdp.key, s!"{a} <-> {z}")))

structure CreateSdpInput where
  sdpName : String
  stpAId : String
  stpZId : String
  deriving DecidableEq, Repr

/-- `initial_input_form_generator` of `create_sdp`. -/
def createSdpInput (table : Table) (answer : List DdsSdp)
    (serviceDemarcationPoint sdpName : Option String) : Except FormError CreateSdpInput := do
  let sdps ← raising (availableServiceDemarcationPoints table answer)
  let sdpByKey := Dict.ofPairs (sdps.map fun sdp => (sdp.key, sdp))
  let options ← raising (ddsSdpSelector table sdps)
  let (key, name) ←
    both (choice "service_demarcation_point" options serviceDemarcationPoint none)
      (required "sdp_name" sdpName none)
  let chosen ← raising (lookup sdpByKey key)
  pure ⟨name, chosen.stpAId, chosen.stpZId⟩

def constructSdpModel (table : Table) (new : NewSubscription) (input : CreateSdpInput) :
    Except PyError Subscription := do
  let (stpA, _) ← stpBlockFor table input.stpAId
  let (stpZ, _) ← stpBlockFor table input.stpZId
  pure (new.provisioning (.sdp ⟨input.sdpName, stpA, stpZ⟩))

/-! ## What the forms accept -/

theorem lookup_ofPairs_mem {ι β : Type} {key : ι → String} {value : ι → β} {items : List ι}
    {k : String} {b : β}
    (h : lookup (Dict.ofPairs (items.map fun i => (key i, value i))) k = .ok b) :
    ∃ i ∈ items, key i = k ∧ value i = b := by
  have hmem := Dict.mem_of_mem_ofPairs (Dict.get?_eq_some.mp (lookup_eq_ok.mp h))
  obtain ⟨i, hi, heq⟩ := List.mem_map.mp hmem
  cases heq
  exact ⟨i, hi, rfl, rfl⟩

theorem createTopologyInput_eq_ok {table : Table} {answer : List DdsTopology}
    {topology : Option String} {input : CreateTopologyInput}
    (h : createTopologyInput table answer topology = .ok input) :
    input.topologyId ∉ subscribedTopologyIds table ∧
      ⟨input.topologyId, input.topologyName⟩ ∈ answer := by
  obtain ⟨_, _, h⟩ := bind_eq_ok.mp h
  obtain ⟨id, _, h⟩ := bind_eq_ok.mp h
  obtain ⟨name, hname, h⟩ := bind_eq_ok.mp h
  cases pure_eq_ok.mp h
  obtain ⟨item, hitem, rfl, rfl⟩ := lookup_ofPairs_mem (raising_eq_ok.mp hname)
  obtain ⟨hanswer, hnew⟩ := List.mem_filter.mp hitem
  exact ⟨of_decide_eq_true hnew, hanswer⟩

theorem createSwitchingserviceInput_eq_ok {table : Table} {answer : List DdsSwitchingService}
    {switchingServiceId switchingServiceName : Option String} {input : CreateSwitchingserviceInput}
    (h : createSwitchingserviceInput table answer switchingServiceId switchingServiceName =
      .ok input) :
    input.switchingServiceId ∉ subscribedValues .switchingService .switchingServiceId table ∧
      input.topologyId ∈ subscribedValues .topology .topologyId table ∧
      ⟨input.switchingServiceId, input.topologyId⟩ ∈ answer := by
  obtain ⟨_, _, h⟩ := bind_eq_ok.mp h
  obtain ⟨⟨id, name⟩, _, h⟩ := bind_eq_ok.mp h
  obtain ⟨topologyId, htopology, h⟩ := bind_eq_ok.mp h
  cases pure_eq_ok.mp h
  obtain ⟨item, hitem, rfl, rfl⟩ := lookup_ofPairs_mem (raising_eq_ok.mp htopology)
  obtain ⟨hanswer, hfree⟩ := List.mem_filter.mp hitem
  obtain ⟨hnew, hparent⟩ := of_decide_eq_true hfree
  exact ⟨hnew, hparent, hanswer⟩

theorem createStpInput_eq_ok {table : Table} {answer : List DdsStp} {stpId : Option String}
    {input : CreateStpInput} (h : createStpInput table answer stpId = .ok input) :
    input.stp.stpId ∉ subscribedValues .serviceTerminationPoint .stpId table ∧
      input.switchingServiceId ∈ subscribedValues .switchingService .switchingServiceId table ∧
      ∃ item ∈ answer, item.id = input.stp.stpId ∧
        item.switchingServiceId = input.switchingServiceId ∧
        item.capacityMbits = input.stp.capacity ∧ item.labelGroup = input.stp.labelGroup := by
  obtain ⟨_, _, h⟩ := bind_eq_ok.mp h
  obtain ⟨id, _, h⟩ := bind_eq_ok.mp h
  obtain ⟨chosen, hchosen, h⟩ := bind_eq_ok.mp h
  cases pure_eq_ok.mp h
  obtain ⟨item, hitem, _, rfl⟩ := lookup_ofPairs_mem (raising_eq_ok.mp hchosen)
  obtain ⟨hanswer, hfree⟩ := List.mem_filter.mp hitem
  obtain ⟨hnew, hparent⟩ := of_decide_eq_true hfree
  exact ⟨hnew, hparent, item, hanswer, rfl, rfl, rfl, rfl⟩

theorem isMember_of_createStpInput {table : Table} {answer : List DdsStp} {stpId : Option String}
    {input : CreateStpInput} (h : createStpInput table answer stpId = .ok input) :
    isMember stpChoice input.stp.stpId := by
  obtain ⟨options, hoptions, h⟩ := bind_eq_ok.mp h
  obtain ⟨id, hid, h⟩ := bind_eq_ok.mp h
  obtain ⟨chosen, hchosen, h⟩ := bind_eq_ok.mp h
  cases pure_eq_ok.mp h
  obtain ⟨item, _, rfl, rfl⟩ := lookup_ofPairs_mem (raising_eq_ok.mp hchosen)
  exact isMember_of_choices (raising_eq_ok.mp hoptions) ((choice_eq_ok _).mp hid).2

theorem createSdpInput_eq_ok {table : Table} {answer : List DdsSdp}
    {serviceDemarcationPoint sdpName : Option String} {input : CreateSdpInput}
    (h : createSdpInput table answer serviceDemarcationPoint sdpName = .ok input) :
    (∃ pairs, subscribedSdpPairs table = .ok pairs ∧ {input.stpAId, input.stpZId} ∉ pairs) ∧
      input.stpAId ∈ subscribedValues .serviceTerminationPoint .stpId table ∧
      input.stpZId ∈ subscribedValues .serviceTerminationPoint .stpId table ∧
      ⟨input.stpAId, input.stpZId⟩ ∈ answer := by
  obtain ⟨sdps, hsdps, h⟩ := bind_eq_ok.mp h
  obtain ⟨_, _, h⟩ := bind_eq_ok.mp h
  obtain ⟨⟨key, name⟩, _, h⟩ := bind_eq_ok.mp h
  obtain ⟨chosen, hchosen, h⟩ := bind_eq_ok.mp h
  cases pure_eq_ok.mp h
  obtain ⟨pairs, hpairs, hsdps⟩ := bind_eq_ok.mp (raising_eq_ok.mp hsdps)
  cases pure_eq_ok.mp hsdps
  obtain ⟨item, hitem, _, rfl⟩ := lookup_ofPairs_mem (raising_eq_ok.mp hchosen)
  obtain ⟨hanswer, hfree⟩ := List.mem_filter.mp hitem
  obtain ⟨hnew, hparents⟩ := of_decide_eq_true hfree
  rw [Finset.insert_subset_iff, Finset.singleton_subset_iff] at hparents
  exact ⟨⟨pairs, hpairs, hnew⟩, hparents.1, hparents.2, hanswer⟩

end NsiOrchestrator.Subscriptions
