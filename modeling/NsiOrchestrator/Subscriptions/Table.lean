import NsiOrchestrator.Lib.Dict
import NsiOrchestrator.Lib.HeldOnce
import NsiOrchestrator.Lib.Outcome
import NsiOrchestrator.Mdp2p.Steps

/-! # The inventory subscriptions

Topologies, switching services, STPs and SDPs are subscriptions in one table. A block
links the block of another subscription by the subscription that owns it. The forms
find their way in the table through the values of the subscriptions that are not
terminated.
-/

namespace NsiOrchestrator.Subscriptions

open Outcome Mdp2p

/-! ## Blocks -/

structure TopologyBlock where
  topologyId : String
  topologyName : String
  deriving DecidableEq, Repr

/-- `topology` is the subscription that owns the topology. -/
structure SwitchingServiceBlock where
  switchingServiceId : String
  switchingServiceName : String
  topology : String
  deriving DecidableEq, Repr

/-- `switchingService` is the subscription that owns the switching service. -/
structure StpBlock extends Stp where
  switchingService : String
  deriving DecidableEq, Repr

/-- `stps` are the subscriptions that own the two STPs. -/
structure SdpBlock where
  sdpName : String
  stps : String × String
  deriving DecidableEq, Repr

inductive ProductBlock where
  | topology (block : TopologyBlock)
  | switchingService (block : SwitchingServiceBlock)
  | stp (block : StpBlock)
  | sdp (block : SdpBlock)
  deriving DecidableEq, Repr

inductive ProductType where
  | topology
  | switchingService
  | serviceTerminationPoint
  | serviceDemarcationPoint
  deriving DecidableEq, Repr

/-- The resource types the forms look up. -/
inductive ResourceType where
  | topologyId
  | switchingServiceId
  | stpId
  deriving DecidableEq, Repr

namespace ProductBlock

def productType : ProductBlock → ProductType
  | topology _ => .topology
  | switchingService _ => .switchingService
  | stp _ => .serviceTerminationPoint
  | sdp _ => .serviceDemarcationPoint

def resource : ProductBlock → ResourceType → Option String
  | topology block, .topologyId => some block.topologyId
  | switchingService block, .switchingServiceId => some block.switchingServiceId
  | stp block, .stpId => some block.stpId
  | _, _ => none

def name : ProductBlock → String
  | topology block => block.topologyName
  | switchingService block => block.switchingServiceName
  | stp block => block.stpName
  | sdp block => block.sdpName

/-- `update_subscription` of the modify workflows. -/
def rename (name : String) : ProductBlock → ProductBlock
  | topology block => topology { block with topologyName := name }
  | switchingService block => switchingService { block with switchingServiceName := name }
  | stp block => stp { block with stpName := name }
  | sdp block => sdp { block with sdpName := name }

def topology? : ProductBlock → Option TopologyBlock
  | topology block => some block
  | _ => none

def switchingService? : ProductBlock → Option SwitchingServiceBlock
  | switchingService block => some block
  | _ => none

def stp? : ProductBlock → Option StpBlock
  | stp block => some block
  | _ => none

def sdp? : ProductBlock → Option SdpBlock
  | sdp block => some block
  | _ => none

end ProductBlock

structure Subscription where
  subscriptionId : String
  status : Lifecycle
  productTag : String
  block : ProductBlock
  description : String
  deriving DecidableEq, Repr

/-- `description()`. -/
def Subscription.describe (subscription : Subscription) : Subscription :=
  let tag := subscription.productTag
  let name := subscription.block.name
  { subscription with description := s!"{tag} {name}" }

abbrev Table := List Subscription

/-! ## Queries -/

/-- The value of a subscription of the product that is not terminated. -/
def Subscription.value (productType : ProductType) (resourceType : ResourceType)
    (subscription : Subscription) : Option String :=
  if subscription.block.productType = productType ∧ subscription.status ≠ .terminated then
    subscription.block.resource resourceType
  else none

/-- The joined rows of `_value_select`: the subscriptions with their values. -/
def valueSelect (productType : ProductType) (resourceType : ResourceType) (table : Table) :
    List (Subscription × String) :=
  table.filterMap fun subscription =>
    (subscription.value productType resourceType).map (subscription, ·)

def subscribedValues (productType : ProductType) (resourceType : ResourceType) (table : Table) :
    Finset String :=
  ((valueSelect productType resourceType table).map Prod.snd).toFinset

/-- The rows of the query of `subscription_id_for_value`. -/
def rowsFor (productType : ProductType) (resourceType : ResourceType) (table : Table)
    (value : String) : List (Subscription × String) :=
  (valueSelect productType resourceType table).filter fun row => row.2 = value

/-- `subscription_id_for_value`: the first match. -/
def subscriptionIdForValue (productType : ProductType) (resourceType : ResourceType)
    (table : Table) (value : String) : Option String :=
  (rowsFor productType resourceType table value).head?.map fun row => row.1.subscriptionId

def subscriptionDescriptionsForValues (productType : ProductType) (resourceType : ResourceType)
    (table : Table) : Dict String String :=
  Dict.ofPairs ((valueSelect productType resourceType table).map fun row =>
    (row.2, row.1.description))

def subscriptionIdsForProductType (productType : ProductType) (table : Table) : List String :=
  (table.filter fun subscription =>
    subscription.block.productType = productType ∧ subscription.status ≠ .terminated).map
      Subscription.subscriptionId

def find (table : Table) (subscriptionId : String) : Option Subscription :=
  table.find? fun subscription => subscription.subscriptionId = subscriptionId

/-- `from_subscription` of the product whose block is given by the projection. -/
def fromSubscription {β : Type} (block? : ProductBlock → Option β) (table : Table)
    (subscriptionId : String) : Except PyError β :=
  match (find table subscriptionId).bind fun subscription => block? subscription.block with
  | some block => .ok block
  | none => .error (.valueError s!"Subscription with id: {subscriptionId}, does not exist")

/-- The STP ids of an SDP, as an unordered pair. -/
def sdpPair (table : Table) (sdp : SdpBlock) : Except PyError (Finset String) := do
  let a ← fromSubscription ProductBlock.stp? table sdp.stps.1
  let z ← fromSubscription ProductBlock.stp? table sdp.stps.2
  pure {a.stpId, z.stpId}

def subscribedSdpPairs (table : Table) : Except PyError (Finset (Finset String)) := do
  let pairs ← (subscriptionIdsForProductType .serviceDemarcationPoint table).mapM
    fun subscriptionId => do
      let sdp ← fromSubscription ProductBlock.sdp? table subscriptionId
      sdpPair table sdp
  pure pairs.toFinset

/-- A changed subscription is stored in place. -/
def save (table : Table) (changed : Subscription) : Table :=
  table.map fun subscription =>
    if subscription.subscriptionId = changed.subscriptionId then changed else subscription

/-! ## Identities -/

/-- What a subscription is the subscription of: SDPs have no id of their own. -/
inductive Identity where
  | topology (topologyId : String)
  | switchingService (switchingServiceId : String)
  | stp (stpId : String)
  | sdp (stpIds : Finset String)
  deriving DecidableEq

def identity (table : Table) (subscription : Subscription) : Option Identity :=
  match subscription.block with
  | .topology block => some (.topology block.topologyId)
  | .switchingService block => some (.switchingService block.switchingServiceId)
  | .stp block => some (.stp block.stpId)
  | .sdp block => (sdpPair table block).toOption.map .sdp

/-- A terminated subscription holds nothing. -/
def held (table : Table) (subscription : Subscription) : Option Identity :=
  if subscription.status = .terminated then none else identity table subscription

theorem identity_sdp {table : Table} {s : Subscription} {block : SdpBlock} {i : Identity}
    (hblock : s.block = .sdp block) :
    identity table s = some i ↔ ∃ pair, sdpPair table block = .ok pair ∧ .sdp pair = i := by
  simp only [identity, hblock, Option.map_eq_some_iff, toOption_eq_some]

theorem held_eq_some {table : Table} {s : Subscription} {i : Identity} :
    held table s = some i ↔ s.status ≠ .terminated ∧ identity table s = some i := by
  unfold held
  split <;> simp_all

/-- The product whose subscriptions a resource type identifies. -/
def ResourceType.productType : ResourceType → ProductType
  | topologyId => .topology
  | switchingServiceId => .switchingService
  | stpId => .serviceTerminationPoint

def ResourceType.key : ResourceType → String → Identity
  | topologyId => .topology
  | switchingServiceId => .switchingService
  | stpId => .stp

/-- A value the forms look up identifies the subscription that stores it. -/
theorem value_eq_some (resourceType : ResourceType) (table : Table) {s : Subscription}
    {v : String} :
    s.value resourceType.productType resourceType = some v ↔
      held table s = some (resourceType.key v) := by
  obtain ⟨_, status, _, block, _⟩ := s
  by_cases hstatus : status = .terminated <;> cases resourceType <;> cases block <;>
    simp [Subscription.value, held, identity, ProductBlock.productType, ProductBlock.resource,
      ResourceType.productType, ResourceType.key, hstatus]

theorem mem_subscribedValues (resourceType : ResourceType) {table : Table} {v : String} :
    v ∈ subscribedValues resourceType.productType resourceType table ↔
      resourceType.key v ∈ table.filterMap (held table) := by
  simp only [subscribedValues, valueSelect, List.mem_toFinset, List.mem_map, List.mem_filterMap,
    Option.map_eq_some_iff, value_eq_some resourceType table]
  constructor
  · rintro ⟨_, ⟨s, hs, v, hheld, rfl⟩, rfl⟩
    exact ⟨s, hs, hheld⟩
  · rintro ⟨s, hs, hheld⟩
    exact ⟨(s, v), ⟨s, hs, v, hheld, rfl⟩, rfl⟩

theorem rowsFor_eq (resourceType : ResourceType) (table : Table) (v : String) :
    rowsFor resourceType.productType resourceType table v =
      (table.filter fun s => held table s = some (resourceType.key v)).map (·, v) := by
  have hrow : ∀ s : Subscription,
      ((s.value resourceType.productType resourceType).map (s, ·)).filter
          (fun row => row.2 = v) =
        if held table s = some (resourceType.key v) then some (s, v) else none := by
    intro s
    by_cases hheld : held table s = some (resourceType.key v)
    · rw [if_pos hheld, (value_eq_some resourceType table).mpr hheld]
      simp
    · rw [if_neg hheld]
      cases hvalue : s.value resourceType.productType resourceType with
      | none => rfl
      | some v' =>
          have hne : v' ≠ v := fun heq =>
            hheld ((value_eq_some resourceType table).mp (heq ▸ hvalue))
          simp [hne]
  rw [rowsFor, valueSelect, List.filter_filterMap, ← List.filterMap_eq_map, List.filterMap_filter]
  refine List.filterMap_congr fun s _ => ?_
  simpa using hrow s

/-! ## Tables of distinct subscriptions -/

theorem mem_of_find {table : Table} {subscriptionId : String} {s : Subscription}
    (h : find table subscriptionId = some s) : s ∈ table ∧ s.subscriptionId = subscriptionId :=
  ⟨List.mem_of_find?_eq_some h, by simpa using List.find?_some h⟩

theorem find_of_mem {table : Table} (hids : (table.map Subscription.subscriptionId).Nodup)
    {s : Subscription} (hs : s ∈ table) : find table s.subscriptionId = some s := by
  cases hfind : find table s.subscriptionId with
  | none =>
      unfold find at hfind
      simpa using List.find?_eq_none.mp hfind s hs
  | some s' =>
      obtain ⟨hs', hid⟩ := mem_of_find hfind
      rw [List.inj_on_of_nodup_map hids hs' hs hid]

theorem fromSubscription_eq_ok {β : Type} {block? : ProductBlock → Option β} {table : Table}
    {subscriptionId : String} {b : β} :
    fromSubscription block? table subscriptionId = .ok b ↔
      ∃ s, find table subscriptionId = some s ∧ block? s.block = some b := by
  rw [← Option.bind_eq_some_iff, fromSubscription]
  cases (find table subscriptionId).bind fun s => block? s.block with
  | none => simp
  | some b' => simp

theorem stp?_eq_some {block : ProductBlock} {b : StpBlock} :
    block.stp? = some b ↔ block = .stp b := by
  cases block <;> simp [ProductBlock.stp?]

theorem sdpPair_eq_ok {table : Table} {sdp : SdpBlock} {pair : Finset String} :
    sdpPair table sdp = .ok pair ↔
      ∃ a z, fromSubscription ProductBlock.stp? table sdp.stps.1 = .ok a ∧
        fromSubscription ProductBlock.stp? table sdp.stps.2 = .ok z ∧
        pair = {a.stpId, z.stpId} := by
  simp only [sdpPair, bind_eq_ok, pure_eq_ok]
  constructor
  · rintro ⟨a, ha, z, hz, rfl⟩
    exact ⟨a, z, ha, hz, rfl⟩
  · rintro ⟨a, z, ha, hz, rfl⟩
    exact ⟨a, ha, z, hz, rfl⟩

theorem mem_subscribedSdpPairs {table : Table}
    (hids : (table.map Subscription.subscriptionId).Nodup) {pairs : Finset (Finset String)}
    (h : subscribedSdpPairs table = .ok pairs) {pair : Finset String}
    (hpair : Identity.sdp pair ∈ table.filterMap (held table)) : pair ∈ pairs := by
  obtain ⟨loaded, hloaded, h⟩ := bind_eq_ok.mp h
  cases pure_eq_ok.mp h
  obtain ⟨s, hs, hheld⟩ := List.mem_filterMap.mp hpair
  obtain ⟨hlive, hidentity⟩ := held_eq_some.mp hheld
  obtain ⟨sid, status, tag, block, description⟩ := s
  cases block with
  | sdp block =>
      have hid : sid ∈ subscriptionIdsForProductType .serviceDemarcationPoint table := by
        refine List.mem_map.mpr ⟨_, List.mem_filter.mpr ⟨hs, ?_⟩, rfl⟩
        simpa [ProductBlock.productType] using hlive
      obtain ⟨pair', hpair', hload⟩ := exists_of_mapM hloaded hid
      obtain ⟨sdp, hsdp, hload⟩ := bind_eq_ok.mp hload
      obtain ⟨s', hfind, hblock⟩ := fromSubscription_eq_ok.mp hsdp
      rw [find_of_mem hids hs] at hfind
      cases hfind
      cases hblock
      obtain ⟨_, hload', hsame⟩ := (identity_sdp rfl).mp hidentity
      cases hsame
      cases hload'.symm.trans hload
      exact List.mem_toFinset.mpr hpair'
  | _ => simp [identity] at hidentity

/-! ## Changes that keep identities -/

def ProductBlock.fixed : ProductBlock → ProductBlock
  | topology block => topology { block with topologyName := "" }
  | switchingService block => switchingService { block with switchingServiceName := "" }
  | stp block => stp { block with stpName := "", capacity := 0, labelGroup := "" }
  | sdp block => sdp { block with sdpName := "" }

@[simp] theorem ProductBlock.rename_fixed (name : String) (block : ProductBlock) :
    (block.rename name).fixed = block.fixed := by
  cases block <;> rfl

/-- Every STP is still found under its subscription. -/
def KeepsStps (table table' : Table) : Prop :=
  ∀ owner b, fromSubscription ProductBlock.stp? table owner = .ok b →
    ∃ b', fromSubscription ProductBlock.stp? table' owner = .ok b' ∧ b'.stpId = b.stpId

theorem identity_kept {table table' : Table} (hkeeps : KeepsStps table table')
    {s s' : Subscription} (hfixed : s'.block.fixed = s.block.fixed) {i : Identity}
    (h : identity table s = some i) : identity table' s' = some i := by
  obtain ⟨_, _, _, block, _⟩ := s
  obtain ⟨_, _, _, block', _⟩ := s'
  cases block with
  | sdp block =>
      cases block' with
      | sdp block' =>
          simp only [ProductBlock.fixed, ProductBlock.sdp.injEq, SdpBlock.mk.injEq, true_and]
            at hfixed
          obtain ⟨pair, hload, rfl⟩ := (identity_sdp rfl).mp h
          obtain ⟨a, z, ha, hz, rfl⟩ := sdpPair_eq_ok.mp hload
          obtain ⟨a', ha', hida⟩ := hkeeps _ _ ha
          obtain ⟨z', hz', hidz⟩ := hkeeps _ _ hz
          have hload' : sdpPair table' block' = .ok {a.stpId, z.stpId} :=
            sdpPair_eq_ok.mpr ⟨a', z', hfixed ▸ ha', hfixed ▸ hz', by rw [hida, hidz]⟩
          exact (identity_sdp rfl).mpr ⟨_, hload', rfl⟩
      | _ => simp [ProductBlock.fixed] at hfixed
  | _ => cases block' <;> simp_all [ProductBlock.fixed, identity]

theorem find_snoc {table : Table} {subscriptionId : String} {s new : Subscription}
    (h : find table subscriptionId = some s) : find (table ++ [new]) subscriptionId = some s := by
  unfold find at h ⊢
  rw [List.find?_append, h, Option.some_or]

theorem keepsStps_snoc (table : Table) (new : Subscription) : KeepsStps table (table ++ [new]) := by
  intro owner b h
  obtain ⟨s, hs, hb⟩ := fromSubscription_eq_ok.mp h
  exact ⟨b, fromSubscription_eq_ok.mpr ⟨s, find_snoc hs, hb⟩, rfl⟩

theorem find_save {table : Table} {subscriptionId : String} {changed : Subscription} :
    find (save table changed) subscriptionId = (find table subscriptionId).map fun s =>
      if s.subscriptionId = changed.subscriptionId then changed else s := by
  unfold find save
  rw [List.find?_map]
  congr 2
  funext s
  by_cases hid : s.subscriptionId = changed.subscriptionId <;> simp [hid]

/-- A subscription changed in what modify and reconcile write. -/
structure Changed (table : Table) (s changed : Subscription) : Prop where
  stored : s ∈ table
  id : changed.subscriptionId = s.subscriptionId
  fixed : changed.block.fixed = s.block.fixed

theorem Changed.fixed_of_mem {table : Table} {s changed : Subscription}
    (hids : (table.map Subscription.subscriptionId).Nodup) (h : Changed table s changed)
    {r : Subscription} (hr : r ∈ table) :
    (if r.subscriptionId = changed.subscriptionId then changed else r).block.fixed =
      r.block.fixed := by
  split
  · next hid =>
      rw [h.id] at hid
      rw [List.inj_on_of_nodup_map hids hr h.stored hid, h.fixed]
  · rfl

theorem keepsStps_save {table : Table} {s changed : Subscription}
    (hids : (table.map Subscription.subscriptionId).Nodup) (h : Changed table s changed) :
    KeepsStps table (save table changed) := by
  intro owner b hb
  obtain ⟨r, hr, hblock⟩ := fromSubscription_eq_ok.mp hb
  have hfixed := h.fixed_of_mem hids (mem_of_find hr).1
  rw [stp?_eq_some] at hblock
  generalize hnow : (if r.subscriptionId = changed.subscriptionId then changed else r) = now
    at hfixed
  rw [hblock] at hfixed
  cases hnowblock : now.block with
  | stp b' =>
      rw [hnowblock] at hfixed
      simp only [ProductBlock.fixed, ProductBlock.stp.injEq, StpBlock.mk.injEq, Stp.mk.injEq,
        true_and] at hfixed
      refine ⟨b', fromSubscription_eq_ok.mpr ⟨now, ?_, stp?_eq_some.mpr hnowblock⟩, hfixed.1.1⟩
      rw [find_save, hr, Option.map_some, hnow]
  | _ =>
      rw [hnowblock] at hfixed
      simp [ProductBlock.fixed] at hfixed

end NsiOrchestrator.Subscriptions
