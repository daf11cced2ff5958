import NsiOrchestrator.Subscriptions.Inventory
import Mathlib.Logic.Relation

/-! # Links between inventory subscriptions

A block is linked to the subscriptions that own its parents when it is constructed.
Nothing removes a subscription, changes a link or changes what is owned, so that along
every run the links resolve and every subscription stays what it is.
-/

namespace NsiOrchestrator.Subscriptions

open Outcome Forms Mdp2p Transition

/-! ## What a subscription owns -/

def Owns (table : Table) (resourceType : ResourceType) (subscriptionId value : String) : Prop :=
  ∃ s, find table subscriptionId = some s ∧ s.block.resource resourceType = some value

theorem resource_fixed {block block' : ProductBlock} (h : block'.fixed = block.fixed)
    (resourceType : ResourceType) : block'.resource resourceType = block.resource resourceType := by
  cases block <;> cases block' <;> simp_all [ProductBlock.fixed] <;>
    cases resourceType <;> simp_all [ProductBlock.resource]

theorem Owns.snoc {table : Table} {resourceType : ResourceType} {subscriptionId value : String}
    (h : Owns table resourceType subscriptionId value) (new : Subscription) :
    Owns (table ++ [new]) resourceType subscriptionId value := by
  obtain ⟨s, hs, hvalue⟩ := h
  exact ⟨s, find_snoc hs, hvalue⟩

theorem Owns.save {table : Table} {resourceType : ResourceType} {subscriptionId value : String}
    {s changed : Subscription} (h : Owns table resourceType subscriptionId value)
    (hids : (table.map Subscription.subscriptionId).Nodup) (hchanged : Changed table s changed) :
    Owns (save table changed) resourceType subscriptionId value := by
  obtain ⟨r, hr, hvalue⟩ := h
  refine ⟨_, by rw [find_save, hr, Option.map_some], ?_⟩
  rw [resource_fixed (hchanged.fixed_of_mem hids (mem_of_find hr).1), hvalue]

theorem Owns.topology {table : Table} {subscriptionId value : String}
    (h : Owns table .topologyId subscriptionId value) :
    ∃ b, fromSubscription ProductBlock.topology? table subscriptionId = .ok b ∧
      b.topologyId = value := by
  obtain ⟨s, hs, hvalue⟩ := h
  cases hblock : s.block with
  | topology b =>
      refine ⟨b, fromSubscription_eq_ok.mpr ⟨s, hs, by rw [hblock]; rfl⟩, ?_⟩
      simpa [hblock, ProductBlock.resource] using hvalue
  | _ => simp [hblock, ProductBlock.resource] at hvalue

theorem Owns.switchingService {table : Table} {subscriptionId value : String}
    (h : Owns table .switchingServiceId subscriptionId value) :
    ∃ b, fromSubscription ProductBlock.switchingService? table subscriptionId = .ok b ∧
      b.switchingServiceId = value := by
  obtain ⟨s, hs, hvalue⟩ := h
  cases hblock : s.block with
  | switchingService b =>
      refine ⟨b, fromSubscription_eq_ok.mpr ⟨s, hs, by rw [hblock]; rfl⟩, ?_⟩
      simpa [hblock, ProductBlock.resource] using hvalue
  | _ => simp [hblock, ProductBlock.resource] at hvalue

theorem SoleOwner.owns {table : Table} (h : Consistent table) {resourceType : ResourceType}
    {value : String} {owner : Subscription} (howner : SoleOwner resourceType table value owner) :
    Owns table resourceType owner.subscriptionId value :=
  ⟨owner, find_of_mem h.ids howner.stored, howner.resource⟩

/-! ## What an event writes -/

/-- Every parent of the block is owned by the subscription it is linked to. -/
def Linked (table : Table) : ProductBlock → Prop
  | .topology _ => True
  | .switchingService block => ∃ topologyId, Owns table .topologyId block.topology topologyId
  | .stp block => ∃ switchingServiceId,
      Owns table .switchingServiceId block.switchingService switchingServiceId
  | .sdp block => ∃ a z, Owns table .stpId block.stps.1 a ∧ Owns table .stpId block.stps.2 z

/-- The id of an STP is the name of a member of the dropdowns of STPs. -/
def Named : ProductBlock → Prop
  | .stp block => isMember stpChoice block.stpId
  | _ => True

/-- A linked subscription is added, or one that is not terminated is changed in what modify and
reconcile write. -/
inductive Written (table : Table) : Table → Prop where
  | registered {new : Subscription} : Linked table new.block → Named new.block →
      Written table (table ++ [new])
  | saved {s changed : Subscription} : s.status ≠ .terminated → Changed table s changed →
      Written table (save table changed)

theorem written_register {table table' : Table} {new : Subscription}
    (h : register table new = some table') (hnew : Linked table new.block)
    (hnamed : Named new.block) : Written table table' := by
  unfold register at h
  split at h
  · cases h
  · cases h
    exact .registered hnew hnamed

theorem written_onSubscription {table table' : Table} {subscriptionId : String}
    {step : Subscription → Option Subscription}
    (hstep : ∀ s s', step s = some s' →
      s'.subscriptionId = s.subscriptionId ∧ s'.block.fixed = s.block.fixed)
    (h : onSubscription table subscriptionId step = some table') : Written table table' := by
  unfold onSubscription at h
  split at h
  · cases h
  next s hfind =>
    split at h
    · cases h
    next hlive =>
      obtain ⟨changed, hchanged, rfl⟩ := Option.map_eq_some_iff.mp h
      obtain ⟨hid, hfixed⟩ := hstep s changed hchanged
      exact .saved hlive ⟨(mem_of_find hfind).1, hid, hfixed⟩

theorem written_of_next {table table' : Table} {event : Event} (hconsistent : Consistent table)
    (hnext : next table event = some table') : Written table table' := by
  cases event with
  | createTopology answer topology new =>
      obtain ⟨input, _, hregister⟩ := Option.bind_eq_some_iff.mp hnext
      exact written_register hregister trivial trivial
  | createSwitchingservice answer switchingServiceId switchingServiceName new =>
      obtain ⟨input, hinput, hnext⟩ := Option.bind_eq_some_iff.mp hnext
      obtain ⟨model, hmodel, hregister⟩ := Option.bind_eq_some_iff.mp hnext
      obtain ⟨topology, howner, hconstruct⟩ :=
        hconsistent.constructSwitchingservice new (toOption_eq_some.mp hinput)
      rw [hconstruct] at hmodel
      cases hmodel
      exact written_register hregister ⟨_, howner.owns hconsistent⟩ trivial
  | createStp answer stpId new =>
      obtain ⟨input, hinput, hnext⟩ := Option.bind_eq_some_iff.mp hnext
      obtain ⟨model, hmodel, hregister⟩ := Option.bind_eq_some_iff.mp hnext
      have hinput := toOption_eq_some.mp hinput
      obtain ⟨switchingService, howner, hconstruct⟩ := hconsistent.constructStp new hinput
      rw [hconstruct] at hmodel
      cases hmodel
      exact written_register hregister ⟨_, howner.owns hconsistent⟩
        (isMember_of_createStpInput hinput)
  | createSdp answer serviceDemarcationPoint sdpName new =>
      obtain ⟨input, hinput, hnext⟩ := Option.bind_eq_some_iff.mp hnext
      obtain ⟨model, hmodel, hregister⟩ := Option.bind_eq_some_iff.mp hnext
      obtain ⟨a, z, hownerA, hownerZ, hconstruct, _⟩ :=
        hconsistent.constructSdp new (toOption_eq_some.mp hinput)
      rw [hconstruct] at hmodel
      cases hmodel
      exact written_register hregister
        ⟨_, _, hownerA.owns hconsistent, hownerZ.owns hconsistent⟩ trivial
  | updateSubscription subscriptionId name =>
      refine written_onSubscription (fun s s' hs => ?_) hnext
      cases hs
      exact ⟨rfl, s.block.rename_fixed name⟩
  | setStatus | updateSubscriptionDescription | terminate =>
      refine written_onSubscription (fun s s' hs => ?_) hnext
      cases hs
      exact ⟨rfl, rfl⟩
  | reconcileStp subscriptionId order circuits answer =>
      exact written_onSubscription (fun s s' => reconciled_kept) hnext

/-! ## Links resolve -/

theorem Linked.mono {table table' : Table} (howns : ∀ resourceType subscriptionId value,
      Owns table resourceType subscriptionId value → Owns table' resourceType subscriptionId value)
    {block : ProductBlock} (h : Linked table block) : Linked table' block := by
  cases block with
  | topology => trivial
  | switchingService block => exact h.imp fun _ => howns _ _ _
  | stp block => exact h.imp fun _ => howns _ _ _
  | sdp block =>
      obtain ⟨a, z, ha, hz⟩ := h
      exact ⟨a, z, howns _ _ _ ha, howns _ _ _ hz⟩

theorem Linked.fixed {table : Table} {block block' : ProductBlock} (h : Linked table block)
    (hfixed : block'.fixed = block.fixed) : Linked table block' := by
  cases block <;> cases block' <;> simp_all [ProductBlock.fixed, Linked]

theorem Written.linked {table table' : Table} (hconsistent : Consistent table)
    (hlinked : ∀ s ∈ table, Linked table s.block) (h : Written table table') :
    ∀ s ∈ table', Linked table' s.block := by
  cases h with
  | @registered new hnew _ =>
      intro s hs
      refine Linked.mono (fun _ _ _ howns => howns.snoc new) ?_
      rcases List.mem_append.mp hs with hs | hs
      · exact hlinked s hs
      · exact List.mem_singleton.mp hs ▸ hnew
  | saved _ hchanged =>
      intro s hs
      refine Linked.mono (fun _ _ _ howns => howns.save hconsistent.ids hchanged) ?_
      obtain ⟨r, hr, rfl⟩ := List.mem_map.mp hs
      exact (hlinked r hr).fixed (hchanged.fixed_of_mem hconsistent.ids hr)

theorem linked_of_reachable {table : Table} (h : inventory.Reachable table) :
    ∀ s ∈ table, Linked table s.block := by
  induction h with
  | init h =>
      obtain rfl := h
      simp
  | step hbefore hnext ih =>
      have hconsistent := consistent_of_reachable hbefore
      exact (written_of_next hconsistent hnext).linked hconsistent ih

/-! ## STPs have names -/

theorem Named.fixed {block block' : ProductBlock} (h : Named block)
    (hfixed : block'.fixed = block.fixed) : Named block' := by
  cases block <;> cases block' <;> simp_all [ProductBlock.fixed, Named]

theorem Written.named {table table' : Table} (hconsistent : Consistent table)
    (hnamed : ∀ s ∈ table, Named s.block) (h : Written table table') :
    ∀ s ∈ table', Named s.block := by
  cases h with
  | registered _ hnew =>
      exact List.forall_mem_append.mpr ⟨hnamed, List.forall_mem_singleton.mpr hnew⟩
  | saved _ hchanged =>
      exact List.forall_mem_map.mpr fun r hr =>
        (hnamed r hr).fixed (hchanged.fixed_of_mem hconsistent.ids hr)

theorem named_of_reachable {table : Table} (h : inventory.Reachable table) :
    ∀ s ∈ table, Named s.block := by
  induction h with
  | init h =>
      obtain rfl := h
      simp
  | step hbefore hnext ih =>
      have hconsistent := consistent_of_reachable hbefore
      exact (written_of_next hconsistent hnext).named hconsistent ih

/-! ## Subscriptions stay what they are -/

/-- A later table has the subscription, with the same links and identity, and unchanged once it is
terminated. -/
structure Persists (table table' : Table) (s s' : Subscription) : Prop where
  stored : s' ∈ table'
  id : s'.subscriptionId = s.subscriptionId
  fixed : s'.block.fixed = s.block.fixed
  identity : identity table' s' = identity table s
  terminated : s.status = .terminated → s' = s

theorem Persists.trans {t t' t'' : Table} {s s' s'' : Subscription} (h : Persists t t' s s')
    (h' : Persists t' t'' s' s'') : Persists t t'' s s'' where
  stored := h'.stored
  id := h'.id.trans h.id
  fixed := h'.fixed.trans h.fixed
  identity := h'.identity.trans h.identity
  terminated hterminated := by
    have hsame := h.terminated hterminated
    rw [h'.terminated (hsame ▸ hterminated), hsame]

theorem Written.persists {table table' : Table} (hconsistent : Consistent table)
    (h : Written table table') {s : Subscription} (hs : s ∈ table) :
    ∃ s', Persists table table' s s' := by
  obtain ⟨i, hi⟩ := hconsistent.identified s hs
  cases h with
  | @registered new =>
      refine ⟨s, List.mem_append_left _ hs, rfl, rfl, ?_, fun _ => rfl⟩
      rw [hi, identity_kept (keepsStps_snoc table new) rfl hi]
  | @saved r changed hlive hchanged =>
      have hfixed := hchanged.fixed_of_mem hconsistent.ids hs
      refine ⟨_, List.mem_map_of_mem hs, ?_, hfixed, ?_, fun hterminated => if_neg ?_⟩
      · split
        · next heq => exact heq.symm
        · rfl
      · rw [hi, identity_kept (keepsStps_save hconsistent.ids hchanged) hfixed hi]
      · intro heq
        have hsame := List.inj_on_of_nodup_map hconsistent.ids hs hchanged.stored
          (heq.trans hchanged.id)
        exact hlive (hsame ▸ hterminated)

def Steps (table table' : Table) : Prop := ∃ event, next table event = some table'

/-- In every run the links of every subscription resolve, and however the run goes on the
subscription keeps its links and its identity, and stays as it is once it is terminated. -/
theorem inventory_linked {table table' : Table} (h : inventory.Reachable table)
    (hruns : Relation.ReflTransGen Steps table table') {s : Subscription} (hs : s ∈ table) :
    Linked table s.block ∧ ∃ s', Persists table table' s s' := by
  refine ⟨linked_of_reachable h s hs, ?_⟩
  have hboth : inventory.Reachable table' ∧ ∃ s', Persists table table' s s' := by
    induction hruns with
    | refl => exact ⟨h, s, hs, rfl, rfl, rfl, fun _ => rfl⟩
    | tail _ hstep ih =>
        obtain ⟨hreachable, s', hpersists⟩ := ih
        obtain ⟨event, hnext⟩ := hstep
        have hconsistent := consistent_of_reachable hreachable
        obtain ⟨s'', hpersists'⟩ :=
          (written_of_next hconsistent hnext).persists hconsistent hpersists.stored
        exact ⟨.step hreachable hnext, s'', hpersists.trans hpersists'⟩
  exact hboth.2

theorem steps_of_foldlM {events : List Event} {table table' : Table}
    (h : events.foldlM next table = some table') : Relation.ReflTransGen Steps table table' := by
  induction events generalizing table with
  | nil =>
      cases h
      exact .refl
  | cons event events ih =>
      rw [List.foldlM_cons] at h
      obtain ⟨u, hu, h⟩ := Option.bind_eq_some_iff.mp h
      exact .head ⟨event, hu⟩ (ih h)

def lineTopology : Subscription :=
  ⟨"1", .active, "TOPOLOGY", .topology ⟨"t", "T"⟩, "TOPOLOGY T"⟩

def lineService : Subscription :=
  ⟨"2", .provisioning, "SWITCH", .switchingService ⟨"s", "S", "1"⟩, "SWITCH S"⟩

theorem inventory_linked_line :
    Linked [lineTopology, lineService] lineService.block ∧
      ∃ s', Persists [lineTopology, lineService] lineTable lineService s' := by
  have hfirst : (lineEvents.take 3).foldlM next [] = some [lineTopology, lineService] := by
    decide +kernel
  have hrest : (lineEvents.drop 3).foldlM next [lineTopology, lineService] = some lineTable := by
    decide +kernel
  have hreachable : inventory.Reachable [lineTopology, lineService] :=
    System.Reachable.foldlM (fun _ _ _ _ hnext => hnext) (.init rfl) hfirst
  exact inventory_linked hreachable (steps_of_foldlM hrest) (by simp)

end NsiOrchestrator.Subscriptions
