import NsiOrchestrator.Lib.Transition
import NsiOrchestrator.Subscriptions.Creates

/-! # Runs over the inventory

A create evaluates its form and constructs its subscription before another form is
evaluated; its remaining steps, and the runs of modify, terminate and reconcile, come
in any order. A run starts on a subscription that is not terminated, and no other run
starts on it before it ends.
-/

namespace NsiOrchestrator.Subscriptions

open Outcome Fields Forms Stps Mdp2p Vlans Transition

/-! ## Runs -/

inductive Event where
  | createTopology (answer : List DdsTopology) (topology : Option String) (new : NewSubscription)
  | createSwitchingservice (answer : List DdsSwitchingService)
      (switchingServiceId switchingServiceName : Option String) (new : NewSubscription)
  | createStp (answer : List DdsStp) (stpId : Option String) (new : NewSubscription)
  | createSdp (answer : List DdsSdp) (serviceDemarcationPoint sdpName : Option String)
      (new : NewSubscription)
  /-- `set_status` of a create or modify run. -/
  | setStatus (subscriptionId : String) (status : Lifecycle)
  /-- `update_subscription` of a modify run, with the name of its form. -/
  | updateSubscription (subscriptionId name : String)
  | updateSubscriptionDescription (subscriptionId : String)
  | terminate (subscriptionId : String)
  /-- `reconcile_dds_attributes`, over any circuits. -/
  | reconcileStp (subscriptionId : String) (order : SetOrder StpVlan)
      (circuits : List (String × VcInactive)) (answer : List DdsStp)

def register (table : Table) (new : Subscription) : Option Table :=
  if new.subscriptionId ∈ table.map Subscription.subscriptionId then none else some (table ++ [new])

/-- A step on a subscription that is not terminated. -/
def onSubscription (table : Table) (subscriptionId : String)
    (step : Subscription → Option Subscription) : Option Table :=
  match find table subscriptionId with
  | none => none
  | some subscription =>
      if subscription.status = .terminated then none
      else (step subscription).map (save table)

/-- `reconcile_dds_attributes` on an STP subscription. -/
def reconciled (order : SetOrder StpVlan) (circuits : List (String × VcInactive))
    (answer : List DdsStp) (subscription : Subscription) : Option Subscription :=
  match subscription.block with
  | .stp block =>
      (reconcileDdsAttributes order circuits answer block.toStp).toOption.map fun stp =>
        { subscription with block := .stp ⟨stp, block.switchingService⟩ }
  | _ => none

/-- The table after an event; nothing when it cannot occur or raises. -/
def next (table : Table) : Event → Option Table
  | .createTopology answer topology new => do
      let input ← (createTopologyInput table answer topology).toOption
      register table (constructTopologyModel new input)
  | .createSwitchingservice answer switchingServiceId switchingServiceName new => do
      let input ← (createSwitchingserviceInput table answer switchingServiceId
        switchingServiceName).toOption
      let model ← (constructSwitchingserviceModel table new input).toOption
      register table model
  | .createStp answer stpId new => do
      let input ← (createStpInput table answer stpId).toOption
      let model ← (constructStpModel table new input).toOption
      register table model
  | .createSdp answer serviceDemarcationPoint sdpName new => do
      let input ← (createSdpInput table answer serviceDemarcationPoint sdpName).toOption
      let model ← (constructSdpModel table new input).toOption
      register table model
  | .setStatus subscriptionId status =>
      onSubscription table subscriptionId fun subscription =>
        some { subscription with status := status }
  | .updateSubscription subscriptionId name =>
      onSubscription table subscriptionId fun subscription =>
        some { subscription with block := subscription.block.rename name }
  | .updateSubscriptionDescription subscriptionId =>
      onSubscription table subscriptionId fun subscription => some subscription.describe
  | .terminate subscriptionId =>
      onSubscription table subscriptionId fun subscription =>
        some { subscription with status := .terminated }
  | .reconcileStp subscriptionId order circuits answer =>
      onSubscription table subscriptionId (reconciled order circuits answer)

/-- Runs from an empty inventory. -/
def inventory : System Table Event where
  init table := table = []
  step table event table' := next table event = some table'

/-! ## The invariant -/

structure Consistent (table : Table) : Prop where
  ids : (table.map Subscription.subscriptionId).Nodup
  once : HeldOnce (held table) table
  identified : ∀ s ∈ table, ∃ i, identity table s = some i

theorem consistent_nil : Consistent [] :=
  ⟨List.nodup_nil, List.nodup_nil, by simp⟩

theorem Consistent.register {table table' : Table} {new : Subscription} {i : Identity}
    (h : Consistent table) (hidentity : identity table new = some i)
    (hnew : i ∉ table.filterMap (held table))
    (hregister : register table new = some table') : Consistent table' := by
  unfold Subscriptions.register at hregister
  split at hregister
  · cases hregister
  next hfresh =>
    cases hregister
    have hkept : ∀ s i, identity table s = some i → identity (table ++ [new]) s = some i :=
      fun s i hs => identity_kept (keepsStps_snoc table new) rfl hs
    have hsame : ∀ s ∈ table, held (table ++ [new]) s = held table s := by
      intro s hs
      obtain ⟨i, hi⟩ := h.identified s hs
      unfold held
      rw [hi, hkept s i hi]
    refine ⟨?_, h.once.snoc hsame fun k hk => ?_, fun s hs => ?_⟩
    · rw [List.map_append, List.map_singleton, ← List.concat_eq_append]
      exact h.ids.concat hfresh
    · obtain ⟨_, hk⟩ := held_eq_some.mp hk
      rw [hkept new i hidentity, Option.some.injEq] at hk
      exact hk ▸ hnew
    · rcases List.mem_append.mp hs with hs | hs
      · obtain ⟨i, hi⟩ := h.identified s hs
        exact ⟨i, hkept s i hi⟩
      · rw [List.mem_singleton] at hs
        exact ⟨i, hs ▸ hkept new i hidentity⟩

theorem Consistent.save {table : Table} {s changed : Subscription} (h : Consistent table)
    (hlive : s.status ≠ .terminated) (hchanged : Changed table s changed) :
    Consistent (save table changed) := by
  have hkept : ∀ r ∈ table, ∀ i, identity table r = some i →
      identity (Subscriptions.save table changed)
        (if r.subscriptionId = changed.subscriptionId then changed else r) = some i :=
    fun r hr i hi => identity_kept (keepsStps_save h.ids hchanged)
      (hchanged.fixed_of_mem h.ids hr) hi
  refine ⟨?_, h.once.map _ fun r hr => ?_, fun s' hs' => ?_⟩
  · have hids : (Subscriptions.save table changed).map Subscription.subscriptionId =
        table.map Subscription.subscriptionId := by
      unfold Subscriptions.save
      rw [List.map_map]
      refine List.map_congr_left fun r _ => ?_
      by_cases hid : r.subscriptionId = changed.subscriptionId <;> simp [hid]
    exact hids ▸ h.ids
  · obtain ⟨i, hi⟩ := h.identified r hr
    have hnow := hkept r hr i hi
    by_cases hid : r.subscriptionId = changed.subscriptionId
    · have hrs : r = s := List.inj_on_of_nodup_map h.ids hr hchanged.stored (hid.trans hchanged.id)
      rw [if_pos hid] at hnow ⊢
      by_cases hstatus : changed.status = .terminated
      · exact .inr (if_pos hstatus)
      · left
        rw [held_eq_some.mpr ⟨hstatus, hnow⟩, held_eq_some.mpr ⟨hrs ▸ hlive, hi⟩]
    · left
      rw [if_neg hid] at hnow ⊢
      unfold held
      rw [hnow, hi]
  · obtain ⟨r, hr, rfl⟩ := List.mem_map.mp hs'
    obtain ⟨i, hi⟩ := h.identified r hr
    exact ⟨i, hkept r hr i hi⟩

/-! ## Parents -/

/-- The only subscription that is not terminated with the value: the query that looks it
up returns one row. -/
structure SoleOwner (resourceType : ResourceType) (table : Table) (value : String)
    (owner : Subscription) : Prop where
  stored : owner ∈ table
  holds : owner.value resourceType.productType resourceType = some value
  rows : rowsFor resourceType.productType resourceType table value = [(owner, value)]

theorem SoleOwner.resource {resourceType : ResourceType} {table : Table} {value : String}
    {owner : Subscription} (h : SoleOwner resourceType table value owner) :
    owner.block.resource resourceType = some value := by
  have hvalue := h.holds
  unfold Subscription.value at hvalue
  split at hvalue
  · exact hvalue
  · cases hvalue

theorem Consistent.sole_owner {table : Table} (h : Consistent table) (resourceType : ResourceType)
    {value : String}
    (hvalue : value ∈ subscribedValues resourceType.productType resourceType table) :
    ∃ owner, SoleOwner resourceType table value owner := by
  obtain ⟨owner, hstored, hheld⟩ :=
    List.mem_filterMap.mp ((mem_subscribedValues resourceType).mp hvalue)
  refine ⟨owner, hstored, (value_eq_some resourceType table).mpr hheld, ?_⟩
  rw [rowsFor_eq, h.once.filter_eq hstored hheld, List.map_singleton]

theorem Consistent.blockFor {table : Table} (h : Consistent table) {β : Type}
    {block? : ProductBlock → Option β} {resourceType : ResourceType} {value : String}
    {owner : Subscription} (howner : SoleOwner resourceType table value owner) {b : β}
    (hb : block? owner.block = some b) :
    blockFor block? resourceType.productType resourceType table value =
      .ok (owner.subscriptionId, b) := by
  have hload : fromSubscription block? table owner.subscriptionId = .ok b :=
    fromSubscription_eq_ok.mpr ⟨owner, find_of_mem h.ids howner.stored, hb⟩
  unfold Subscriptions.blockFor subscriptionIdForValue
  rw [howner.rows]
  simp only [List.head?_cons, Option.map_some, hload]
  rfl

theorem Consistent.topologyBlockFor {table : Table} (h : Consistent table) {topologyId : String}
    {owner : Subscription} (howner : SoleOwner .topologyId table topologyId owner) :
    ∃ b, topologyBlockFor table topologyId = .ok (owner.subscriptionId, b) := by
  have hresource := howner.resource
  cases hblock : owner.block with
  | topology b => exact ⟨b, h.blockFor howner (by rw [hblock]; rfl)⟩
  | _ => simp [hblock, ProductBlock.resource] at hresource

theorem Consistent.switchingserviceBlockFor {table : Table} (h : Consistent table)
    {switchingServiceId : String} {owner : Subscription}
    (howner : SoleOwner .switchingServiceId table switchingServiceId owner) :
    ∃ b, switchingserviceBlockFor table switchingServiceId = .ok (owner.subscriptionId, b) := by
  have hresource := howner.resource
  cases hblock : owner.block with
  | switchingService b => exact ⟨b, h.blockFor howner (by rw [hblock]; rfl)⟩
  | _ => simp [hblock, ProductBlock.resource] at hresource

theorem Consistent.stpBlockFor {table : Table} (h : Consistent table) {stpId : String}
    {owner : Subscription} (howner : SoleOwner .stpId table stpId owner) :
    ∃ b, stpBlockFor table stpId = .ok (owner.subscriptionId, b) ∧
      fromSubscription ProductBlock.stp? table owner.subscriptionId = .ok b ∧ b.stpId = stpId := by
  have hresource := howner.resource
  cases hblock : owner.block with
  | stp b =>
      have hb : owner.block.stp? = some b := by
        rw [hblock]
        rfl
      refine ⟨b, h.blockFor howner hb,
        fromSubscription_eq_ok.mpr ⟨owner, find_of_mem h.ids howner.stored, hb⟩, ?_⟩
      simpa [hblock, ProductBlock.resource] using hresource
  | _ => simp [hblock, ProductBlock.resource] at hresource

/-! ## Creates -/

section Creates

variable {table : Table} (h : Consistent table) (new : NewSubscription)

include h

theorem Consistent.constructSwitchingservice {answer : List DdsSwitchingService}
    {switchingServiceId switchingServiceName : Option String} {input : CreateSwitchingserviceInput}
    (hinput : createSwitchingserviceInput table answer switchingServiceId switchingServiceName =
      .ok input) :
    ∃ topology, SoleOwner .topologyId table input.topologyId topology ∧
      constructSwitchingserviceModel table new input = .ok (new.provisioning (.switchingService
        ⟨input.switchingServiceId, input.switchingServiceName, topology.subscriptionId⟩)) := by
  obtain ⟨_, hparent, _⟩ := createSwitchingserviceInput_eq_ok hinput
  obtain ⟨topology, howner⟩ := h.sole_owner .topologyId hparent
  obtain ⟨b, hblock⟩ := h.topologyBlockFor howner
  exact ⟨topology, howner, by rw [constructSwitchingserviceModel, hblock]; rfl⟩

theorem Consistent.constructStp {answer : List DdsStp} {stpId : Option String}
    {input : CreateStpInput} (hinput : createStpInput table answer stpId = .ok input) :
    ∃ switchingService, SoleOwner .switchingServiceId table input.switchingServiceId
        switchingService ∧
      constructStpModel table new input =
        .ok (new.provisioning (.stp ⟨input.stp, switchingService.subscriptionId⟩)) := by
  obtain ⟨_, hparent, _⟩ := createStpInput_eq_ok hinput
  obtain ⟨switchingService, howner⟩ := h.sole_owner .switchingServiceId hparent
  obtain ⟨b, hblock⟩ := h.switchingserviceBlockFor howner
  exact ⟨switchingService, howner, by rw [constructStpModel, hblock]; rfl⟩

theorem Consistent.constructSdp {answer : List DdsSdp}
    {serviceDemarcationPoint sdpName : Option String} {input : CreateSdpInput}
    (hinput : createSdpInput table answer serviceDemarcationPoint sdpName = .ok input) :
    ∃ a z, SoleOwner .stpId table input.stpAId a ∧ SoleOwner .stpId table input.stpZId z ∧
      constructSdpModel table new input = .ok (new.provisioning
        (.sdp ⟨input.sdpName, a.subscriptionId, z.subscriptionId⟩)) ∧
      sdpPair table ⟨input.sdpName, a.subscriptionId, z.subscriptionId⟩ =
        .ok {input.stpAId, input.stpZId} := by
  obtain ⟨_, hparentA, hparentZ, _⟩ := createSdpInput_eq_ok hinput
  obtain ⟨a, hownerA⟩ := h.sole_owner .stpId hparentA
  obtain ⟨z, hownerZ⟩ := h.sole_owner .stpId hparentZ
  obtain ⟨blockA, hblockA, hloadA, hidA⟩ := h.stpBlockFor hownerA
  obtain ⟨blockZ, hblockZ, hloadZ, hidZ⟩ := h.stpBlockFor hownerZ
  refine ⟨a, z, hownerA, hownerZ, by rw [constructSdpModel, hblockA, hblockZ]; rfl, ?_⟩
  exact sdpPair_eq_ok.mpr ⟨blockA, blockZ, hloadA, hloadZ, by rw [hidA, hidZ]⟩

end Creates

/-! ## Every step keeps the table consistent -/

theorem Consistent.onSubscription {table table' : Table} (h : Consistent table)
    {subscriptionId : String} {step : Subscription → Option Subscription}
    (hstep : ∀ s s', step s = some s' →
      s'.subscriptionId = s.subscriptionId ∧ s'.block.fixed = s.block.fixed)
    (hnext : onSubscription table subscriptionId step = some table') : Consistent table' := by
  unfold Subscriptions.onSubscription at hnext
  split at hnext
  · cases hnext
  next s hfind =>
    split at hnext
    · cases hnext
    next hlive =>
      obtain ⟨changed, hchanged, rfl⟩ := Option.map_eq_some_iff.mp hnext
      obtain ⟨hid, hfixed⟩ := hstep s changed hchanged
      exact h.save hlive ⟨(mem_of_find hfind).1, hid, hfixed⟩

theorem reconciled_kept {order : SetOrder StpVlan} {circuits : List (String × VcInactive)}
    {answer : List DdsStp} {s s' : Subscription}
    (h : reconciled order circuits answer s = some s') :
    s'.subscriptionId = s.subscriptionId ∧ s'.block.fixed = s.block.fixed := by
  unfold reconciled at h
  split at h
  · next block hblock =>
      obtain ⟨stp, hstp, rfl⟩ := Option.map_eq_some_iff.mp h
      refine ⟨rfl, ?_⟩
      have hreconciled := toOption_eq_some.mp hstp
      rcases reconcileDdsAttributes_eq_ok.mp hreconciled with ⟨_, rfl⟩ | ⟨_, _, _, _, _, rfl⟩ <;>
        simp [hblock, ProductBlock.fixed]
  · cases h

/-- One step lemma for all runs: a create adds a new identity, any other step keeps those
there are or gives one up. -/
theorem next_consistent {table table' : Table} {event : Event} (h : Consistent table)
    (hnext : next table event = some table') : Consistent table' := by
  cases event with
  | createTopology answer topology new =>
      obtain ⟨input, hinput, hregister⟩ := Option.bind_eq_some_iff.mp hnext
      obtain ⟨hfree, _⟩ := createTopologyInput_eq_ok (toOption_eq_some.mp hinput)
      have hnew : Identity.topology input.topologyId ∉ table.filterMap (held table) :=
        fun hin => hfree ((mem_subscribedValues .topologyId).mpr hin)
      exact h.register rfl hnew hregister
  | createSwitchingservice answer switchingServiceId switchingServiceName new =>
      obtain ⟨input, hinput, hnext⟩ := Option.bind_eq_some_iff.mp hnext
      obtain ⟨model, hmodel, hregister⟩ := Option.bind_eq_some_iff.mp hnext
      have hinput := toOption_eq_some.mp hinput
      obtain ⟨hfree, _, _⟩ := createSwitchingserviceInput_eq_ok hinput
      obtain ⟨topology, _, hconstruct⟩ := h.constructSwitchingservice new hinput
      rw [hconstruct] at hmodel
      cases hmodel
      have hnew : Identity.switchingService input.switchingServiceId ∉
          table.filterMap (held table) :=
        fun hin => hfree ((mem_subscribedValues .switchingServiceId).mpr hin)
      exact h.register rfl hnew hregister
  | createStp answer stpId new =>
      obtain ⟨input, hinput, hnext⟩ := Option.bind_eq_some_iff.mp hnext
      obtain ⟨model, hmodel, hregister⟩ := Option.bind_eq_some_iff.mp hnext
      have hinput := toOption_eq_some.mp hinput
      obtain ⟨hfree, _, _⟩ := createStpInput_eq_ok hinput
      obtain ⟨switchingService, _, hconstruct⟩ := h.constructStp new hinput
      rw [hconstruct] at hmodel
      cases hmodel
      have hnew : Identity.stp input.stp.stpId ∉ table.filterMap (held table) :=
        fun hin => hfree ((mem_subscribedValues .stpId).mpr hin)
      exact h.register rfl hnew hregister
  | createSdp answer serviceDemarcationPoint sdpName new =>
      obtain ⟨input, hinput, hnext⟩ := Option.bind_eq_some_iff.mp hnext
      obtain ⟨model, hmodel, hregister⟩ := Option.bind_eq_some_iff.mp hnext
      have hinput := toOption_eq_some.mp hinput
      obtain ⟨⟨pairs, hpairs, hfree⟩, _⟩ := createSdpInput_eq_ok hinput
      obtain ⟨a, z, _, _, hconstruct, hpair⟩ := h.constructSdp new hinput
      rw [hconstruct] at hmodel
      cases hmodel
      have hnew : Identity.sdp {input.stpAId, input.stpZId} ∉ table.filterMap (held table) :=
        fun hin => hfree (mem_subscribedSdpPairs h.ids hpairs hin)
      have hidentity : identity table (new.provisioning
          (.sdp ⟨input.sdpName, a.subscriptionId, z.subscriptionId⟩)) =
          some (.sdp {input.stpAId, input.stpZId}) :=
        (identity_sdp rfl).mpr ⟨_, hpair, rfl⟩
      exact h.register hidentity hnew hregister
  | setStatus subscriptionId status =>
      refine h.onSubscription (fun s s' hs => ?_) hnext
      cases hs
      exact ⟨rfl, rfl⟩
  | updateSubscription subscriptionId name =>
      refine h.onSubscription (fun s s' hs => ?_) hnext
      cases hs
      exact ⟨rfl, s.block.rename_fixed name⟩
  | updateSubscriptionDescription subscriptionId =>
      refine h.onSubscription (fun s s' hs => ?_) hnext
      cases hs
      exact ⟨rfl, rfl⟩
  | terminate subscriptionId =>
      refine h.onSubscription (fun s s' hs => ?_) hnext
      cases hs
      exact ⟨rfl, rfl⟩
  | reconcileStp subscriptionId order circuits answer =>
      exact h.onSubscription (fun s s' => reconciled_kept) hnext

theorem consistent_of_reachable {table : Table} (h : inventory.Reachable table) :
    Consistent table := by
  refine h.invariant (fun table hinit => ?_) fun table event table' ih hstep => ?_
  · change table = [] at hinit
    subst hinit
    exact consistent_nil
  · exact next_consistent ih hstep

/-- In every run from an empty inventory no two subscriptions that are not terminated are
the subscription of the same topology, switching service, STP or pair of STPs, and a form
is only accepted for an item whose parents each have a sole owner, to which the
construct step links it. -/
theorem inventory_unique {table : Table} (h : inventory.Reachable table) :
    (table.Pairwise fun s s' => s.status ≠ .terminated → s'.status ≠ .terminated →
      identity table s ≠ identity table s') ∧
    (∀ s ∈ table, ∃ i, identity table s = some i) ∧
    (∀ answer switchingServiceId switchingServiceName input new,
      createSwitchingserviceInput table answer switchingServiceId switchingServiceName =
          .ok input →
        ⟨input.switchingServiceId, input.topologyId⟩ ∈ answer ∧
        ∃ topology, SoleOwner .topologyId table input.topologyId topology ∧
          constructSwitchingserviceModel table new input =
            .ok (new.provisioning (.switchingService ⟨input.switchingServiceId,
              input.switchingServiceName, topology.subscriptionId⟩))) ∧
    (∀ answer stpId input new, createStpInput table answer stpId = .ok input →
      (∃ item ∈ answer, item.id = input.stp.stpId ∧
        item.switchingServiceId = input.switchingServiceId) ∧
      ∃ switchingService,
        SoleOwner .switchingServiceId table input.switchingServiceId switchingService ∧
        constructStpModel table new input =
          .ok (new.provisioning (.stp ⟨input.stp, switchingService.subscriptionId⟩))) ∧
    ∀ answer serviceDemarcationPoint sdpName input new,
      createSdpInput table answer serviceDemarcationPoint sdpName = .ok input →
        ⟨input.stpAId, input.stpZId⟩ ∈ answer ∧
        ∃ a z, SoleOwner .stpId table input.stpAId a ∧ SoleOwner .stpId table input.stpZId z ∧
          constructSdpModel table new input = .ok (new.provisioning
            (.sdp ⟨input.sdpName, a.subscriptionId, z.subscriptionId⟩)) := by
  have hconsistent := consistent_of_reachable h
  refine ⟨?_, hconsistent.identified, ?_, ?_, ?_⟩
  · refine (heldOnce_iff_pairwise.mp hconsistent.once).imp_of_mem ?_
    intro s s' hs _ hapart hlive hlive' heq
    obtain ⟨i, hi⟩ := hconsistent.identified s hs
    exact hapart i (held_eq_some.mpr ⟨hlive, hi⟩) (held_eq_some.mpr ⟨hlive', heq ▸ hi⟩)
  · intro answer switchingServiceId switchingServiceName input new hinput
    exact ⟨(createSwitchingserviceInput_eq_ok hinput).2.2,
      hconsistent.constructSwitchingservice new hinput⟩
  · intro answer stpId input new hinput
    obtain ⟨_, _, item, hanswer, hid, hparent, _⟩ := createStpInput_eq_ok hinput
    exact ⟨⟨item, hanswer, hid, hparent⟩, hconsistent.constructStp new hinput⟩
  · intro answer serviceDemarcationPoint sdpName input new hinput
    obtain ⟨a, z, hownerA, hownerZ, hconstruct, _⟩ := hconsistent.constructSdp new hinput
    exact ⟨(createSdpInput_eq_ok hinput).2.2.2, a, z, hownerA, hownerZ, hconstruct⟩

def lineEvents : List Event :=
  [.createTopology [⟨"t", "T"⟩] (some "t") ⟨"1", "TOPOLOGY"⟩, .setStatus "1" .active,
    .createSwitchingservice [⟨"s", "t"⟩] (some "s") (some "S") ⟨"2", "SWITCH"⟩,
    .terminate "1", .createTopology [⟨"t", "T"⟩] (some "t") ⟨"3", "TOPOLOGY"⟩,
    .createStp [⟨"x", "X", 1000000, "1-9", "s"⟩] (some "x") ⟨"4", "STP"⟩,
    .createStp [⟨"y", "Y", 1000000, "1-9", "s"⟩] (some "y") ⟨"5", "STP"⟩,
    .createSdp [⟨"y", "x"⟩] (some "y|x") (some "Y-X") ⟨"6", "SDP"⟩]

def lineTable : Table :=
  [⟨"1", .terminated, "TOPOLOGY", .topology ⟨"t", "T"⟩, "TOPOLOGY T"⟩,
    ⟨"2", .provisioning, "SWITCH", .switchingService ⟨"s", "S", "1"⟩, "SWITCH S"⟩,
    ⟨"3", .provisioning, "TOPOLOGY", .topology ⟨"t", "T"⟩, "TOPOLOGY T"⟩,
    ⟨"4", .provisioning, "STP", .stp ⟨⟨"x", "X", 1, "1-9"⟩, "2"⟩, "STP X"⟩,
    ⟨"5", .provisioning, "STP", .stp ⟨⟨"y", "Y", 1, "1-9"⟩, "2"⟩, "STP Y"⟩,
    ⟨"6", .provisioning, "SDP", .sdp ⟨"Y-X", "5", "4"⟩, "SDP Y-X"⟩]

theorem inventory_unique_line :
    (lineTable.Pairwise fun s s' => s.status ≠ .terminated → s'.status ≠ .terminated →
      identity lineTable s ≠ identity lineTable s') ∧
    ∃ topology, SoleOwner .topologyId lineTable "t" topology ∧
      constructSwitchingserviceModel lineTable ⟨"7", "SWITCH"⟩ ⟨"s'", "S'", "t"⟩ =
        .ok (NewSubscription.provisioning ⟨"7", "SWITCH"⟩
          (.switchingService ⟨"s'", "S'", topology.subscriptionId⟩)) := by
  have hrun : lineEvents.foldlM next [] = some lineTable := by decide +kernel
  have hreachable : inventory.Reachable lineTable :=
    System.Reachable.foldlM (fun _ _ _ _ hnext => hnext) (.init rfl) hrun
  obtain ⟨hunique, _, hlinked, _⟩ := inventory_unique hreachable
  exact ⟨hunique, (hlinked [⟨"s'", "t"⟩] (some "s'") (some "S'") ⟨"s'", "S'", "t"⟩ ⟨"7", "SWITCH"⟩
    (by decide +kernel)).2⟩

end NsiOrchestrator.Subscriptions
