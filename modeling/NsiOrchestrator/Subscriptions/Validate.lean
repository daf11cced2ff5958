import NsiOrchestrator.Lib.Repr
import NsiOrchestrator.Lib.SetOrder
import NsiOrchestrator.Stps.Validate
import NsiOrchestrator.Subscriptions.Links

/-! # Validating the inventory against the DDS

The nightly check of a subscription finds its item in an answer of the dds-proxy and
compares what is stored of it, its parent among it. Along runs whose answers do not
contradict each other it only ever reports an item that is gone. `printable` is what
`repr` takes for printable beyond ASCII.
-/

namespace NsiOrchestrator.Subscriptions

open Outcome Fields Forms Stps Mdp2p Vlans Transition

/-! ## The steps -/

/-- What the dds-proxy answers on its four endpoints. -/
structure Catalogue where
  topologies : List DdsTopology
  switchingServices : List DdsSwitchingService
  stps : List DdsStp
  sdps : List DdsSdp

def validateTopologyPresentInDds (answer : List DdsTopology) (block : TopologyBlock) :
    Except PyError TopologyBlock :=
  if block.topologyId ∈ answer.map DdsTopology.id then .ok block
  else
    .error (.inconsistentData (s!"Topology {block.topologyId} is no longer present in the " ++
      "dds-proxy /topologies endpoint"))

/-- `validate_switchingservice_present_in_dds`, of a service that is linked to the topology. -/
def validateSwitchingservicePresentInDds (answer : List DdsSwitchingService)
    (block : SwitchingServiceBlock) (storedTopologyId : String) :
    Except PyError SwitchingServiceBlock :=
  match answer.find? fun service => service.id = block.switchingServiceId with
  | none =>
      .error (.inconsistentData (s!"Switching service {block.switchingServiceId} is no longer " ++
        "present in the dds-proxy /switching-services endpoint"))
  | some ddsService => do
      raiseIf (ddsService.topologyId ≠ storedTopologyId) (.inconsistentData
        (s!"Switching service {block.switchingServiceId} moved topology: stored " ++
          s!"{storedTopologyId}, DDS advertises {ddsService.topologyId}"))
      pure block

/-- `validate_sdp_present_in_dds`, of an SDP that ends on the pair. -/
def validateSdpPresentInDds (printable : Char → Bool) (answer : List DdsSdp) (block : SdpBlock)
    (pair : Finset String) : Except PyError SdpBlock :=
  if pair ∈ (answer.map fun sdp => ({sdp.stpAId, sdp.stpZId} : Finset String)).toFinset then
    .ok block
  else
    .error (.inconsistentData ("Service demarcation point " ++
      String.ofList (Text.reprList printable (sorted pair)) ++
      " is no longer present in the dds-proxy /service-demarcation-points endpoint"))

/-- The DDS step of the validate workflow of a subscription, whose blocks are loaded first. -/
def validatePresentInDds (printable : Char → Bool) (answer : Catalogue) (table : Table)
    (subscription : Subscription) : Except PyError Subscription :=
  match subscription.block with
  | .topology block => do
      let _ ← validateTopologyPresentInDds answer.topologies block
      pure subscription
  | .switchingService block => do
      let topology ← fromSubscription ProductBlock.topology? table block.topology
      let _ ← validateSwitchingservicePresentInDds answer.switchingServices block
        topology.topologyId
      pure subscription
  | .stp block => do
      let switchingService ←
        fromSubscription ProductBlock.switchingService? table block.switchingService
      let _ ← validateStpPresentInDds answer.stps block.toStp switchingService.switchingServiceId
      pure subscription
  | .sdp block => do
      let pair ← sdpPair table block
      let _ ← validateSdpPresentInDds printable answer.sdps block pair
      pure subscription

/-! ## Answers that do not contradict each other -/

structure Catalogue.Within (answer C : Catalogue) : Prop where
  topologies : answer.topologies ⊆ C.topologies
  switchingServices : answer.switchingServices ⊆ C.switchingServices
  stps : answer.stps ⊆ C.stps
  sdps : answer.sdps ⊆ C.sdps

structure Catalogue.Distinct (C : Catalogue) : Prop where
  switchingServices : (C.switchingServices.map DdsSwitchingService.id).Nodup
  stps : (C.stps.map DdsStp.id).Nodup

/-- The dds-proxy answers with items of the catalogue. -/
def Event.AnsweredFrom (C : Catalogue) : Event → Prop
  | .createTopology answer _ _ => answer ⊆ C.topologies
  | .createSwitchingservice answer _ _ _ => answer ⊆ C.switchingServices
  | .createStp answer _ _ => answer ⊆ C.stps
  | .createSdp answer _ _ _ => answer ⊆ C.sdps
  | .reconcileStp _ _ _ answer => answer ⊆ C.stps
  | _ => True

/-- What is stored of a block is what the catalogue has of its item. -/
def Sourced (C : Catalogue) (table : Table) : ProductBlock → Prop
  | .switchingService block => ∃ item ∈ C.switchingServices, item.id = block.switchingServiceId ∧
      Owns table .topologyId block.topology item.topologyId
  | .stp block => ∃ item ∈ C.stps, item.id = block.stpId ∧ item.capacityMbits = block.capacity ∧
      item.labelGroup = block.labelGroup ∧
      Owns table .switchingServiceId block.switchingService item.switchingServiceId
  | _ => True

section Sourced

variable {C : Catalogue} {table table' : Table}

theorem Sourced.mono (howns : ∀ resourceType subscriptionId value,
      Owns table resourceType subscriptionId value → Owns table' resourceType subscriptionId value)
    {block : ProductBlock} (h : Sourced C table block) : Sourced C table' block := by
  cases block with
  | switchingService block =>
      obtain ⟨item, hitem, hid, hparent⟩ := h
      exact ⟨item, hitem, hid, howns _ _ _ hparent⟩
  | stp block =>
      obtain ⟨item, hitem, hid, hcapacity, hrange, hparent⟩ := h
      exact ⟨item, hitem, hid, hcapacity, hrange, howns _ _ _ hparent⟩
  | _ => trivial

theorem Sourced.rename {block : ProductBlock} (h : Sourced C table block) (name : String) :
    Sourced C table (block.rename name) := by
  cases block <;> exact h

theorem Sourced.reconciled {order : SetOrder StpVlan} {circuits : List (String × VcInactive)}
    {answer : List DdsStp} {s s' : Subscription} (hdistinct : C.Distinct)
    (hanswer : answer ⊆ C.stps) (h : Sourced C table s.block)
    (hreconciled : reconciled order circuits answer s = some s') : Sourced C table s'.block := by
  unfold Subscriptions.reconciled at hreconciled
  split at hreconciled
  · next block hblock =>
      obtain ⟨stp, hstp, rfl⟩ := Option.map_eq_some_iff.mp hreconciled
      rw [hblock] at h
      obtain ⟨item, hitem, hid, hrest⟩ := h
      rcases reconcileDdsAttributes_eq_ok.mp (toOption_eq_some.mp hstp) with
        ⟨_, rfl⟩ | ⟨ddsStp, _, hddsStp, _, _, rfl⟩
      · exact ⟨item, hitem, hid, hrest⟩
      · rw [stpById_get?] at hddsStp
        have hin : ddsStp ∈ answer := by
          simpa using List.mem_of_find?_eq_some hddsStp
        have hsame : ddsStp = item := by
          refine List.inj_on_of_nodup_map hdistinct.stps (hanswer hin) hitem ?_
          rw [hid]
          simpa using List.find?_some hddsStp
        subst hsame
        exact ⟨ddsStp, hitem, hid, rfl, rfl, hrest.2.2⟩
  · cases hreconciled

/-! ## Runs -/

theorem sourced_register {new : Subscription} (h : ∀ s ∈ table, Sourced C table s.block)
    (hregister : register table new = some table') (hnew : Sourced C table new.block) :
    ∀ s ∈ table', Sourced C table' s.block := by
  unfold register at hregister
  split at hregister
  · cases hregister
  cases hregister
  intro s hs
  refine Sourced.mono (fun _ _ _ howns => howns.snoc new) ?_
  rcases List.mem_append.mp hs with hs | hs
  · exact h s hs
  · exact List.mem_singleton.mp hs ▸ hnew

theorem sourced_onSubscription {subscriptionId : String}
    {step : Subscription → Option Subscription} (hconsistent : Consistent table)
    (h : ∀ s ∈ table, Sourced C table s.block)
    (hstep : ∀ s s', step s = some s' → s'.subscriptionId = s.subscriptionId ∧
      s'.block.fixed = s.block.fixed ∧ (Sourced C table s.block → Sourced C table s'.block))
    (hnext : onSubscription table subscriptionId step = some table') :
    ∀ s ∈ table', Sourced C table' s.block := by
  unfold onSubscription at hnext
  split at hnext
  · cases hnext
  next s hfind =>
    split at hnext
    · cases hnext
    next hlive =>
      obtain ⟨changed, hchanged, rfl⟩ := Option.map_eq_some_iff.mp hnext
      obtain ⟨hid, hfixed, hsourced⟩ := hstep s changed hchanged
      obtain ⟨hs, _⟩ := mem_of_find hfind
      intro s' hs'
      refine Sourced.mono (fun _ _ _ howns => howns.save hconsistent.ids ⟨hs, hid, hfixed⟩) ?_
      obtain ⟨r, hr, rfl⟩ := List.mem_map.mp hs'
      split
      · exact hsourced (h s hs)
      · exact h r hr

theorem sourced_next {event : Event} (hdistinct : C.Distinct) (hconsistent : Consistent table)
    (h : ∀ s ∈ table, Sourced C table s.block) (hanswered : event.AnsweredFrom C)
    (hnext : next table event = some table') : ∀ s ∈ table', Sourced C table' s.block := by
  cases event with
  | createTopology answer topology new =>
      obtain ⟨input, _, hregister⟩ := Option.bind_eq_some_iff.mp hnext
      exact sourced_register h hregister trivial
  | createSwitchingservice answer switchingServiceId switchingServiceName new =>
      obtain ⟨input, hinput, hnext⟩ := Option.bind_eq_some_iff.mp hnext
      obtain ⟨model, hmodel, hregister⟩ := Option.bind_eq_some_iff.mp hnext
      have hinput := toOption_eq_some.mp hinput
      obtain ⟨_, _, hitem⟩ := createSwitchingserviceInput_eq_ok hinput
      obtain ⟨topology, howner, hconstruct⟩ := hconsistent.constructSwitchingservice new hinput
      rw [hconstruct] at hmodel
      cases hmodel
      exact sourced_register h hregister ⟨_, hanswered hitem, rfl, howner.owns hconsistent⟩
  | createStp answer stpId new =>
      obtain ⟨input, hinput, hnext⟩ := Option.bind_eq_some_iff.mp hnext
      obtain ⟨model, hmodel, hregister⟩ := Option.bind_eq_some_iff.mp hnext
      have hinput := toOption_eq_some.mp hinput
      obtain ⟨_, _, item, hitem, hid, hparent, hcapacity, hrange⟩ := createStpInput_eq_ok hinput
      obtain ⟨switchingService, howner, hconstruct⟩ := hconsistent.constructStp new hinput
      rw [hconstruct] at hmodel
      cases hmodel
      exact sourced_register h hregister
        ⟨item, hanswered hitem, hid, hcapacity, hrange, hparent ▸ howner.owns hconsistent⟩
  | createSdp answer serviceDemarcationPoint sdpName new =>
      obtain ⟨input, hinput, hnext⟩ := Option.bind_eq_some_iff.mp hnext
      obtain ⟨model, hmodel, hregister⟩ := Option.bind_eq_some_iff.mp hnext
      obtain ⟨a, z, _, _, hconstruct, _⟩ :=
        hconsistent.constructSdp new (toOption_eq_some.mp hinput)
      rw [hconstruct] at hmodel
      cases hmodel
      exact sourced_register h hregister trivial
  | updateSubscription subscriptionId name =>
      refine sourced_onSubscription hconsistent h (fun s s' hs => ?_) hnext
      cases hs
      exact ⟨rfl, s.block.rename_fixed name, fun hsourced => hsourced.rename name⟩
  | setStatus | updateSubscriptionDescription | terminate =>
      refine sourced_onSubscription hconsistent h (fun s s' hs => ?_) hnext
      cases hs
      exact ⟨rfl, rfl, fun hsourced => hsourced⟩
  | reconcileStp subscriptionId order circuits answer =>
      refine sourced_onSubscription hconsistent h (fun s s' hs => ?_) hnext
      obtain ⟨hid, hfixed⟩ := reconciled_kept hs
      exact ⟨hid, hfixed, fun hsourced => hsourced.reconciled hdistinct hanswered hs⟩

theorem sourced_of_reachable (hdistinct : C.Distinct)
    (h : (inventory.restrict fun _ event => event.AnsweredFrom C).Reachable table) :
    ∀ s ∈ table, Sourced C table s.block := by
  induction h with
  | init h =>
      obtain rfl := h
      simp
  | step hbefore hstep ih =>
      exact sourced_next hdistinct (consistent_of_reachable hbefore.of_restrict) ih hstep.1 hstep.2

end Sourced

/-! ## What validation reports -/

/-- The answer has an item of what a subscription is the subscription of. -/
def Advertises (answer : Catalogue) : Identity → Prop
  | .topology topologyId => ∃ item ∈ answer.topologies, item.id = topologyId
  | .switchingService switchingServiceId =>
      ∃ item ∈ answer.switchingServices, item.id = switchingServiceId
  | .stp stpId => ∃ item ∈ answer.stps, item.id = stpId
  | .sdp stpIds => ∃ item ∈ answer.sdps, {item.stpAId, item.stpZId} = stpIds

/-- Every message of an item that is gone. -/
def noLongerPresent (printable : Char → Bool) : Identity → String
  | .topology topologyId =>
      s!"Topology {topologyId} is no longer present in the " ++ "dds-proxy /topologies endpoint"
  | .switchingService switchingServiceId =>
      s!"Switching service {switchingServiceId} is no longer " ++
        "present in the dds-proxy /switching-services endpoint"
  | .stp stpId =>
      s!"Service termination point {stpId} " ++
        "is no longer present in the dds-proxy /service-termination-points endpoint"
  | .sdp stpIds =>
      "Service demarcation point " ++ String.ofList (Text.reprList printable (sorted stpIds)) ++
        " is no longer present in the dds-proxy /service-demarcation-points endpoint"

theorem find?_of_distinct {ι : Type*} {key : ι → String} {answer items : List ι}
    (hanswer : answer ⊆ items) (hdistinct : (items.map key).Nodup) {item : ι}
    (hitem : item ∈ items) :
    ((∃ found ∈ answer, key found = key item) ∧
        answer.find? (fun found => key found = key item) = some item) ∨
      (¬ ∃ found ∈ answer, key found = key item) ∧
        answer.find? (fun found => key found = key item) = none := by
  cases hfind : answer.find? (fun found => key found = key item) with
  | none =>
      refine .inr ⟨?_, rfl⟩
      simpa using List.find?_eq_none.mp hfind
  | some found =>
      have hin := List.mem_of_find?_eq_some hfind
      have hkey : key found = key item := by simpa using List.find?_some hfind
      exact .inl ⟨⟨found, hin, hkey⟩,
        congrArg some (List.inj_on_of_nodup_map hdistinct (hanswer hin) hitem hkey)⟩

/-- In every run whose answers come from one catalogue, validation against another such answer
passes when the item of the subscription is in it, and else reports that it is gone: never a drift
or a move. -/
theorem inventory_validates {C : Catalogue} (hdistinct : C.Distinct) {table : Table}
    (h : (inventory.restrict fun _ event => event.AnsweredFrom C).Reachable table)
    {s : Subscription} (hs : s ∈ table) :
    ∃ i, identity table s = some i ∧ ∀ printable answer, answer.Within C →
      (Advertises answer i → validatePresentInDds printable answer table s = .ok s) ∧
      (¬ Advertises answer i → validatePresentInDds printable answer table s =
        .error (.inconsistentData (noLongerPresent printable i))) := by
  have hsourced := sourced_of_reachable hdistinct h s hs
  obtain ⟨i, hi⟩ := (consistent_of_reachable h.of_restrict).identified s hs
  refine ⟨i, hi, fun printable answer hwithin => ?_⟩
  cases hblock : s.block with
  | topology block =>
      simp only [identity, hblock, Option.some.injEq] at hi
      subst hi
      have hmem : Advertises answer (.topology block.topologyId) ↔
          block.topologyId ∈ answer.topologies.map DdsTopology.id := by
        simp [Advertises]
      simp only [validatePresentInDds, hblock, validateTopologyPresentInDds, hmem]
      constructor
      · intro hin
        rw [if_pos hin]
        rfl
      · intro hnot
        rw [if_neg hnot]
        rfl
  | switchingService block =>
      simp only [identity, hblock, Option.some.injEq] at hi
      subst hi
      rw [hblock] at hsourced
      obtain ⟨item, hitem, hid, hparent⟩ := hsourced
      obtain ⟨topology, hload, htopology⟩ := hparent.topology
      have hfind := find?_of_distinct hwithin.switchingServices hdistinct.switchingServices hitem
      simp only [validatePresentInDds, hblock, hload, validateSwitchingservicePresentInDds]
      rw [hid] at hfind
      obtain ⟨hin, hfind⟩ | ⟨hnot, hfind⟩ := hfind
      · rw [hfind]
        exact ⟨fun _ => by simp [raiseIf, bind, Except.bind, pure, Except.pure, htopology],
          fun h => absurd hin h⟩
      · rw [hfind]
        exact ⟨fun h => absurd h hnot, fun _ => rfl⟩
  | stp block =>
      simp only [identity, hblock, Option.some.injEq] at hi
      subst hi
      rw [hblock] at hsourced
      obtain ⟨item, hitem, hid, hcapacity, hrange, hparent⟩ := hsourced
      obtain ⟨switchingService, hload, hswitchingService⟩ := hparent.switchingService
      have hfind := find?_of_distinct hwithin.stps hdistinct.stps hitem
      simp only [validatePresentInDds, hblock, hload, validateStpPresentInDds]
      rw [hid] at hfind
      obtain ⟨hin, hfind⟩ | ⟨hnot, hfind⟩ := hfind
      · rw [hfind]
        refine ⟨fun _ => ?_, fun h => absurd hin h⟩
        simp [raiseIf, bind, Except.bind, pure, Except.pure, hcapacity, hrange, hswitchingService]
      · rw [hfind]
        exact ⟨fun h => absurd h hnot, fun _ => rfl⟩
  | sdp block =>
      obtain ⟨pair, hpair, rfl⟩ := (identity_sdp hblock).mp hi
      have hmem : Advertises answer (.sdp pair) ↔ pair ∈
          (answer.sdps.map fun sdp => ({sdp.stpAId, sdp.stpZId} : Finset String)).toFinset := by
        simp [Advertises]
      simp only [validatePresentInDds, hblock, hpair, validateSdpPresentInDds, hmem]
      constructor
      · intro hin
        simp only [bind, Except.bind, if_pos hin]
        rfl
      · intro hnot
        simp only [bind, Except.bind, if_neg hnot]
        rfl

/-! ## The line's inventory -/

def lineCatalogue : Catalogue where
  topologies := [⟨"t", "T"⟩]
  switchingServices := [⟨"s", "t"⟩]
  stps := [⟨"x", "X", 1000000, "1-9", "s"⟩, ⟨"y", "Y", 1000000, "1-9", "s"⟩]
  sdps := [⟨"y", "x"⟩]

theorem lineEvents_answered : ∀ event ∈ lineEvents, event.AnsweredFrom lineCatalogue := by
  simp [lineEvents, Event.AnsweredFrom, lineCatalogue]

def lineStpY : Subscription :=
  ⟨"5", .provisioning, "STP", .stp ⟨⟨"y", "Y", 1, "1-9"⟩, "2"⟩, "STP Y"⟩

/-- The STP has what the DDS advertises of it, and the SDP is gone when the DDS drops it. -/
theorem inventory_validates_line :
    validatePresentInDds (fun _ => false) ⟨[], [], [⟨"y", "Y", 1000000, "1-9", "s"⟩], []⟩ lineTable
        lineStpY = .ok lineStpY ∧
    validatePresentInDds (fun _ => false) ⟨[], [], [⟨"y", "Y", 1000000, "1-9", "s"⟩], []⟩ lineTable
        ⟨"6", .provisioning, "SDP", .sdp ⟨"Y-X", "5", "4"⟩, "SDP Y-X"⟩ =
      .error (.inconsistentData (noLongerPresent (fun _ => false) (.sdp {"y", "x"}))) := by
  have hrun : lineEvents.foldlM next [] = some lineTable := by decide +kernel
  have hreachable : (inventory.restrict fun _ event =>
      event.AnsweredFrom lineCatalogue).Reachable lineTable := by
    refine System.Reachable.foldlM ?_ (.init rfl) hrun
    exact fun event hevent _ _ hnext => ⟨lineEvents_answered event hevent, hnext⟩
  have hdistinct : lineCatalogue.Distinct := ⟨by decide, by decide⟩
  have hwithin : Catalogue.Within ⟨[], [], [⟨"y", "Y", 1000000, "1-9", "s"⟩], []⟩
      lineCatalogue := by
    constructor <;> simp [lineCatalogue]
  constructor
  · obtain ⟨i, hi, hvalidates⟩ := inventory_validates hdistinct hreachable (s := lineStpY)
      (by decide +kernel)
    obtain rfl : Identity.stp "y" = i := Option.some.inj hi
    exact (hvalidates _ _ hwithin).1 ⟨_, List.mem_cons_self, rfl⟩
  · obtain ⟨i, hi, hvalidates⟩ := inventory_validates hdistinct hreachable
      (s := ⟨"6", .provisioning, "SDP", .sdp ⟨"Y-X", "5", "4"⟩, "SDP Y-X"⟩) (by decide +kernel)
    obtain rfl : Identity.sdp {"y", "x"} = i :=
      Option.some.inj ((by decide +kernel : _ = _).symm.trans hi)
    exact (hvalidates _ _ hwithin).2 (by simp [Advertises])

end NsiOrchestrator.Subscriptions
