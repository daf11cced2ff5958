import NsiOrchestrator.Forms.Pinning
import NsiOrchestrator.Mdp2p.Storing
import NsiOrchestrator.Stps.Reconcile
import Mathlib.Logic.Function.Basic

/-! # Stored VLANs and the ranges of their STPs

The circuits and the STPs they run over, with the forms, steps and reconciles of any
number of runs in any order. A form checks its VLANs against the ranges it finds, and a
reconcile checks its range against the VLANs it finds stored.
-/

namespace NsiOrchestrator.Mdp2p

open Outcome Forms Vlans Transition Stps

/-! ## The inventory -/

/-- STP ids are distinct, and an SDP ends on subscribed STPs. -/
structure Linked (inventory : Inventory) : Prop where
  distinct : (inventory.stps.map Stp.stpId).Nodup
  ends : ∀ sdpId sdp, inventory.sdps.get? sdpId = some sdp →
    sdp.stps.1 ∈ inventory.stps ∧ sdp.stps.2 ∈ inventory.stps

def replacing (stp other : Stp) : Stp := if other.stpId = stp.stpId then stp else other

/-- A changed STP is read wherever its block is linked. -/
def replaceStp (stp : Stp) (inventory : Inventory) : Inventory where
  stps := inventory.stps.map (replacing stp)
  sdps := inventory.sdps.mapValues fun sdp =>
    { sdp with stps := (replacing stp sdp.stps.1, replacing stp sdp.stps.2) }

def InRange (inventory : Inventory) (stpId : String) (vlan : Int) : Prop :=
  ∃ stp ∈ inventory.stps, stp.stpId = stpId ∧ Covers stp.labelGroup vlan

@[simp] theorem replacing_stpId (stp other : Stp) : (replacing stp other).stpId = other.stpId := by
  unfold replacing
  split <;> simp_all

theorem Linked.replace {inventory : Inventory} (h : Linked inventory) (stp : Stp) :
    Linked (replaceStp stp inventory) where
  distinct := by simpa [replaceStp, Function.comp_def] using h.distinct
  ends := by
    intro sdpId sdp hsdp
    rw [replaceStp, Dict.get?_mapValues] at hsdp
    obtain ⟨sdp, hbefore, rfl⟩ := Option.map_eq_some_iff.mp hsdp
    obtain ⟨ha, hz⟩ := h.ends sdpId sdp hbefore
    exact ⟨List.mem_map_of_mem ha, List.mem_map_of_mem hz⟩

theorem InRange.replace {inventory : Inventory} {stp : Stp} {stpId : String} {vlan : Int}
    (h : InRange inventory stpId vlan) (hcovers : stpId = stp.stpId → Covers stp.labelGroup vlan) :
    InRange (replaceStp stp inventory) stpId vlan := by
  obtain ⟨other, hin, rfl, hother⟩ := h
  refine ⟨_, List.mem_map_of_mem hin, replacing_stpId stp other, ?_⟩
  unfold replacing
  split
  · next heq => exact hcovers heq
  · exact hother

/-! ## VLANs of circuits -/

/-- The circuit stores the VLAN on the STP: at an access point, or on an included SDP. -/
def StoresVlan (vc : Vc) (stpId : String) (vlan : Int) : Prop :=
  (∃ sap ∈ [vc.saps.1, vc.saps.2], sap.stpId = stpId ∧ int sap.vlan.toList = .ok vlan) ∨
    ∃ c ∈ included vc, c.vlan = some vlan ∧ (stpId = c.sdp.stpIds.1 ∨ stpId = c.sdp.stpIds.2)

def AsksFor (inventory : Inventory) (submission : Submission) (stpId : String) (vlan : Int) :
    Prop :=
  (stpId = submission.input.sourceStp ∧ vlan = submission.input.sourceVlan) ∨
    (stpId = submission.input.destinationStp ∧ vlan = submission.input.destinationVlan) ∨
    ∃ sdpId sdp, inventory.sdps.get? sdpId = some sdp ∧
      submission.path.sdpVlans.get? sdpId = some vlan ∧
      (stpId = sdp.stps.1.stpId ∨ stpId = sdp.stps.2.stpId)

theorem AsksFor.of_replace {inventory : Inventory} {stp : Stp} {submission : Submission}
    {stpId : String} {vlan : Int} (h : AsksFor (replaceStp stp inventory) submission stpId vlan) :
    AsksFor inventory submission stpId vlan := by
  refine h.imp_right (Or.imp_right ?_)
  rintro ⟨sdpId, sdp, hsdp, hvlan, hend⟩
  rw [replaceStp, Dict.get?_mapValues] at hsdp
  obtain ⟨sdp, hbefore, rfl⟩ := Option.map_eq_some_iff.mp hsdp
  simp only [replacing_stpId] at hend
  exact ⟨sdpId, sdp, hbefore, hvlan, hend⟩

theorem StoresVlan.congr {s t : Subscription} (h : SameInput s t) {stpId : String} {vlan : Int} :
    StoresVlan t.vc stpId vlan ↔ StoresVlan s.vc stpId vlan := by
  simp only [StoresVlan, included, h.saps, h.constraints]

theorem StoresVlan.asksFor {inventory : Inventory} {submission : Submission} {vc : Vc}
    (hstores : Stores inventory submission vc) {stpId : String} {vlan : Int}
    (h : StoresVlan vc stpId vlan) : AsksFor inventory submission stpId vlan := by
  rcases h with ⟨sap, hsap, rfl, hvlan⟩ | ⟨c, hc, hvlan, hend⟩
  · simp only [hstores.source, hstores.destination, List.mem_cons, List.not_mem_nil,
      or_false] at hsap
    rcases hsap with rfl | rfl
    · rw [int_toString] at hvlan
      exact .inl ⟨rfl, (Except.ok.inj hvlan).symm⟩
    · rw [int_toString] at hvlan
      exact .inr (.inl ⟨rfl, (Except.ok.inj hvlan).symm⟩)
  · obtain ⟨i, hi, hget⟩ := List.getElem_of_mem hc
    have hforall := includeConstraints_forall₂ hstores.constraints
    obtain ⟨sdp, hsdp, heq⟩ := hforall.get (hforall.length_eq ▸ hi) hi
    simp only [List.get_eq_getElem, hget] at heq
    subst heq
    exact .inr (.inr ⟨_, sdp, hsdp, hvlan, hend⟩)

theorem StoresVlan.mem {vc : Vc} {stored : Finset StpVlan}
    (hstored : storedVlans vc.toInactive = .ok stored) {stpId : String} {vlan : Int}
    (hstp : stpId ≠ "") (h : StoresVlan vc stpId vlan) : (stpId, vlan) ∈ stored := by
  obtain ⟨source, hsource, hstored⟩ := bind_eq_ok.mp hstored
  obtain ⟨destination, hdestination, hstored⟩ := bind_eq_ok.mp hstored
  cases pure_eq_ok.mp hstored
  have hsap : ∀ {sap : Sap} {pairs}, sapStored sap.toInactive = .ok pairs → sap.stpId = stpId →
      int sap.vlan.toList = .ok vlan → (stpId, vlan) ∈ pairs := by
    rintro sap pairs hpairs rfl hvlan
    have htext : sap.vlan ≠ "" := by
      rintro htext
      rw [htext] at hvlan
      cases hvlan
    rw [sapStored_toInactive, if_pos ⟨hstp, htext⟩, hvlan] at hpairs
    cases hpairs
    exact List.mem_singleton_self _
  simp only [Finset.mem_union, List.mem_toFinset, List.mem_append]
  rcases h with ⟨sap, hin, hid, hvlan⟩ | ⟨c, hc, hvlan, hend⟩
  · rcases List.mem_pair.mp hin with rfl | rfl
    · exact .inl (.inl (hsap hsource hid hvlan))
    · exact .inl (.inr (hsap hdestination hid hvlan))
  · obtain ⟨hin, hinclude⟩ := List.mem_filter.mp hc
    exact .inr (mem_pinnedSdpVlans.mpr ⟨c, hin, of_decide_eq_true hinclude, hvlan, hend, hstp⟩)

/-! ## Circuits that are not terminated -/

/-- A circuit with a process is not terminated. -/
def Alive (m : Machine) : Prop :=
  ∀ p s, m.process = some p → m.subscription = some s → s.lifecycle ≠ .terminated

theorem Workflow.terminated_last {workflow : Workflow} {rest : List Step}
    (h : .setStatus .terminated :: rest <:+ workflow.steps) : rest = [] := by
  cases workflow <;> simp_all [steps, List.suffix_cons_iff]

theorem Alive.fires {m m' : Machine} {event : Event} {requests : List Request} (halive : Alive m)
    (hsuffix : ∀ p, m.process = some p → p.remaining <:+ p.workflow.steps)
    (h : Fires m event m' requests) : Alive m' := by
  cases h with
  | start hgate =>
      rintro _ s ⟨⟩ ⟨⟩
      obtain ⟨_, _, hnone⟩ | ⟨_, hs, _, hactive, _⟩ := Workflow.start_ok hgate
      · cases hnone
      · cases hs
        simp [hactive]
  | @done before run workflow step rest env after hrun =>
      rintro q s hq ⟨⟩
      have hbefore : ∀ s, before = some s → s.lifecycle ≠ .terminated := fun s => halive _ s rfl
      cases Step.done_of_run hrun with
      | constructed h =>
          obtain ⟨_, _, _, _, _, _, rfl⟩ := constructMdp2pModel_eq_ok.mp h
          simp
      | @statusSet lifecycle =>
          rintro rfl
          obtain rfl := Workflow.terminated_last (hsuffix _ rfl)
          cases hq
      | @updated _ s _ h =>
          obtain ⟨_, _, _, _, _, rfl⟩ := updateSubscription_eq_ok.mp h
          exact hbefore s rfl
      | @reconciled s =>
          obtain ⟨_, _, _, heq, _⟩ := reconcileConnectionState_eq env.reservation s
          rw [heq]
          exact hbefore s rfl
      | @described _ s | @redescribed s => exact hbefore s rfl
      | skipped => exact hbefore _ rfl
  | sent hrun =>
      rintro _ _ ⟨⟩ ⟨⟩
      obtain ⟨_, _, _, s, rfl, rfl, _, hperform⟩ := Step.run_awaiting hrun
      have hs := halive _ s rfl rfl
      cases Action.performed_of_perform hperform with
      | reserved => exact hs
      | _ => exact hs
  | @handled before after _ _ _ _ _ _ _ _ hprocess =>
      rintro _ _ _ ⟨⟩
      have hbefore := halive _ before rfl rfl
      obtain ⟨_, _, _, _, rfl⟩ := Handler.process_frame hprocess
      exact hbefore
  | failed | delivered | refired =>
      rintro _ s ⟨⟩ hs
      exact halive _ s rfl hs
  | aborted => exact fun _ _ h => nomatch h

theorem Alive.before {m m' : Machine} {event : Event} {requests : List Request} (halive : Alive m)
    (h : Fires m event m' requests) {s s' : Subscription} (hs : m.subscription = some s)
    (hs' : m'.subscription = some s') (hopen : s'.lifecycle ≠ .terminated) :
    s.lifecycle ≠ .terminated := by
  cases h with
  | start =>
      cases hs.symm.trans hs'
      exact hopen
  | _ => exact halive _ s rfl hs

/-! ## The world of circuits and STPs -/

structure World where
  inventory : Inventory
  /-- The circuit of each subscription id, blank before its create. -/
  circuits : String → Machine

inductive WorldEvent where
  | circuit (subscriptionId : String) (event : Event)
  /-- `reconcile_stp` of an STP, with what the DDS advertises, the order sets are iterated in and
  the ids of the non-terminated circuits as they are listed. -/
  | reconcileStp (stp : Stp) (advertised : List DdsStp) (order : SetOrder StpVlan)
      (listing : List String)

/-- A workflow that is started had its forms accepted, and a step reads the inventory. -/
def Finds (w : World) (subscriptionId : String) : Event → Prop
  | .start (.create submission) _ => ∃ orders reservations raw rawVlans,
      createInput orders w.inventory reservations raw rawVlans = .ok submission
  | .start (.retryReservation submission) _ => ∃ s orders reservations raw rawVlans,
      (w.circuits subscriptionId).subscription = some s ∧
        retryInput orders w.inventory reservations s.vc raw rawVlans = .ok submission
  | .run env => env.inventory = w.inventory
  | _ => True

def Lists (w : World) (listing : List String) : Prop :=
  ∀ subscriptionId, subscriptionId ∈ listing ↔
    ∃ s, (w.circuits subscriptionId).subscription = some s ∧ s.lifecycle ≠ .terminated

def listed (w : World) (listing : List String) : List (String × VcInactive) :=
  listing.filterMap fun subscriptionId =>
    (w.circuits subscriptionId).subscription.map fun s => (subscriptionId, s.vc.toInactive)

def World.withCircuit (w : World) (subscriptionId : String) (m : Machine) : World :=
  { w with circuits := Function.update w.circuits subscriptionId m }

/-- No stored VLAN of a circuit that is not terminated is outside the range of its STP. -/
def Unstranded (w : World) : Prop :=
  ∀ subscriptionId s, (w.circuits subscriptionId).subscription = some s →
    s.lifecycle ≠ .terminated → ∀ stpId vlan, StoresVlan s.vc stpId vlan →
      InRange w.inventory stpId vlan

/-- A run on the circuit has an accepted submission that it has not stored yet. -/
def Awaits (w : World) (subscriptionId : String) (submission : Submission) : Prop :=
  ∃ p, (w.circuits subscriptionId).process = some p ∧
    ∃ step ∈ p.remaining, step.stores = some submission

/-- The worlds runs start from: nothing is stranded, and nothing that is about to be stored. -/
structure Intact (w : World) : Prop where
  linked : Linked w.inventory
  unstranded : Unstranded w
  awaited : ∀ subscriptionId submission, Awaits w subscriptionId submission →
    ∀ stpId vlan, AsksFor w.inventory submission stpId vlan → InRange w.inventory stpId vlan
  suffix : ∀ subscriptionId p, (w.circuits subscriptionId).process = some p →
    p.remaining <:+ p.workflow.steps
  alive : ∀ subscriptionId, Alive (w.circuits subscriptionId)

def worlds : System World WorldEvent where
  init := Intact
  step w e w' :=
    match e with
    | .circuit subscriptionId event => Finds w subscriptionId event ∧
        ∃ m sent, (w.circuits subscriptionId).next event = some (.ok (m, sent)) ∧
          w' = w.withCircuit subscriptionId m
    | .reconcileStp stp advertised order listing => stp ∈ w.inventory.stps ∧ Lists w listing ∧
        ∃ stp', reconcileDdsAttributes order (listed w listing) advertised stp = .ok stp' ∧
          w' = { w with inventory := replaceStp stp' w.inventory }

/-- A reconcile of an STP with an id, to a range that covers what runs are about to store there. -/
def CoversAwaited (w : World) : WorldEvent → Prop
  | .circuit _ _ => True
  | .reconcileStp stp advertised _ _ => stp.stpId ≠ "" ∧
      ∀ ddsStp, (stpById advertised).get? stp.stpId = some ddsStp →
        ∀ subscriptionId submission vlan, Awaits w subscriptionId submission →
          AsksFor w.inventory submission stp.stpId vlan → Covers ddsStp.labelGroup vlan

theorem Intact.of_idle {w : World} (hlinked : Linked w.inventory) (hunstranded : Unstranded w)
    (hidle : ∀ subscriptionId, (w.circuits subscriptionId).process = none) : Intact w where
  linked := hlinked
  unstranded := hunstranded
  awaited := by
    rintro subscriptionId _ ⟨p, hp, _⟩
    rw [hidle] at hp
    cases hp
  suffix subscriptionId p hp := by
    rw [hidle] at hp
    cases hp
  alive subscriptionId p _ hp := by
    rw [hidle] at hp
    cases hp

/-! ## What a step of a circuit keeps -/

theorem AsksFor.inRange {orders : Orders} {inventory : Inventory}
    {reservations : List AggregatorReservation} {released : Option String}
    {values : Except PyError ConnectionFields} {defaults : SdpVlans} {raw : ConnectionFields}
    {rawVlans : SdpVlanFields} {submission : Submission} (hlinked : Linked inventory)
    (haccepted :
      connectionInput orders inventory reservations released values defaults raw rawVlans =
      .ok submission)
    {stpId : String} {vlan : Int} (h : AsksFor inventory submission stpId vlan) :
    InRange inventory stpId vlan := by
  obtain ⟨topology, inUse, _, form, _, haccept⟩ := connectionInput_eq_ok.mp haccepted
  have hpage := validate_eq_ok.mp haccept.page
  have hend : ∀ {stpId vlan}, form.VlanAccepted stpId vlan → InRange inventory stpId vlan :=
    fun h => by
      obtain ⟨stp, hin, hid, _, hbookable⟩ :=
        bookable_of_vlanAccepted haccept.fetched hlinked.distinct haccept.built h
      exact ⟨stp, hin, hid, hbookable.covered⟩
  rcases h with ⟨rfl, rfl⟩ | ⟨rfl, rfl⟩ | ⟨sdpId, sdp, hsdp, hvlan, hend⟩
  · exact hend hpage.sourceAccepted
  · exact hend hpage.destinationAccepted
  · obtain ⟨_, sdp', hsdp', ha, hz⟩ := bookable_of_sdpVlanInput haccept.fetched haccept.loaded
      hpage.includeDistinct (pathInput_eq_ok.mp haccept.path).1 hvlan
    cases hsdp.symm.trans hsdp'
    obtain ⟨hina, hinz⟩ := hlinked.ends sdpId sdp hsdp
    rcases hend with rfl | rfl
    · exact ⟨_, hina, rfl, ha.covered⟩
    · exact ⟨_, hinz, rfl, hz.covered⟩

theorem Finds.inRange {w : World} {subscriptionId : String} {workflow : Workflow} {run : ℕ}
    {submission : Submission} (hlinked : Linked w.inventory)
    (hfinds : Finds w subscriptionId (.start workflow run))
    (hsubmission : workflow.submission = some submission) {stpId : String} {vlan : Int}
    (h : AsksFor w.inventory submission stpId vlan) : InRange w.inventory stpId vlan := by
  cases workflow with
  | create =>
      cases hsubmission
      obtain ⟨_, _, _, _, haccepted⟩ := hfinds
      exact h.inRange hlinked haccepted
  | retryReservation =>
      cases hsubmission
      obtain ⟨_, _, _, _, _, _, haccepted⟩ := hfinds
      exact h.inRange hlinked (retryInput_eq_ok.mp haccepted).2
  | _ => cases hsubmission

section Circuit

variable {w : World} {subscriptionId : String} {event : Event} {m : Machine}
  {requests : List Request}

theorem withCircuit_circuits (w : World) (subscriptionId : String) (m : Machine)
    (subscriptionId' : String) :
    (w.withCircuit subscriptionId m).circuits subscriptionId' =
      if subscriptionId' = subscriptionId then m else w.circuits subscriptionId' := by
  simp [World.withCircuit, Function.update_apply]

theorem Intact.stored (hintact : Intact w) (hfinds : Finds w subscriptionId event)
    (hfires : Fires (w.circuits subscriptionId) event m requests) {s : Subscription}
    (hs : m.subscription = some s) (hopen : s.lifecycle ≠ .terminated) {stpId : String} {vlan : Int}
    (hvlan : StoresVlan s.vc stpId vlan) : InRange w.inventory stpId vlan := by
  have hkept : KeepsInput (w.circuits subscriptionId).subscription m.subscription →
      InRange w.inventory stpId vlan := by
    intro hkeeps
    cases hbefore : (w.circuits subscriptionId).subscription with
    | none =>
        rw [hbefore, hs] at hkeeps
        cases hkeeps
    | some t =>
        rw [hbefore, hs] at hkeeps
        exact hintact.unstranded subscriptionId t hbefore
          ((hintact.alive subscriptionId).before hfires hbefore hs hopen) stpId vlan
          ((StoresVlan.congr hkeeps).mp hvlan)
  cases Effect.of_fires hfires with
  | kept hkeeps => exact hkept hkeeps
  | reserved hkeeps => exact hkept hkeeps
  | stored hp hremaining hsubmission hstores =>
      cases hs
      refine hintact.awaited subscriptionId _
        ⟨_, hp, _, hremaining ▸ List.mem_cons_self, hsubmission⟩
        stpId vlan ?_
      rw [← show _ = w.inventory from hfinds]
      exact hvlan.asksFor hstores

/-- What a run is about to store after an event is in range. -/
theorem Intact.awaiting (hintact : Intact w) (hfinds : Finds w subscriptionId event)
    (hfires : Fires (w.circuits subscriptionId) event m requests) {p : Process}
    (hp : m.process = some p) {step : Step} (hin : step ∈ p.remaining) {submission : Submission}
    (hsubmission : step.stores = some submission) {stpId : String} {vlan : Int}
    (hasks : AsksFor w.inventory submission stpId vlan) : InRange w.inventory stpId vlan := by
  have hawaited : ∀ q, (w.circuits subscriptionId).process = some q → step ∈ q.remaining →
      InRange w.inventory stpId vlan := fun q hq hin =>
    hintact.awaited subscriptionId submission ⟨q, hq, step, hin, hsubmission⟩ stpId vlan hasks
  have hkept : Continues (w.circuits subscriptionId) event m → InRange w.inventory stpId vlan := by
    intro hcontinues
    obtain ⟨_, rfl, hsteps⟩ | ⟨q, hq, _, _, hsame | ⟨first, hcons, _⟩⟩ := hcontinues p hp
    · have hworkflow := Workflow.submission_of_stores (hsteps ▸ hin) hsubmission
      exact hfinds.inRange hintact.linked hworkflow hasks
    · exact hawaited q hq (hsame ▸ hin)
    · exact hawaited q hq (hcons ▸ List.mem_cons_of_mem first hin)
  cases Effect.of_fires hfires with
  | kept _ hcontinues => exact hkept hcontinues
  | reserved _ hcontinues => exact hkept hcontinues
  | @stored q _ _ _ _ _ hq =>
      rw [(Process.advance_eq_some hp).remaining] at hin
      exact hawaited q hq (List.mem_of_mem_tail hin)

theorem Intact.suffix_after (hintact : Intact w)
    (hfires : Fires (w.circuits subscriptionId) event m requests) {p : Process}
    (hp : m.process = some p) : p.remaining <:+ p.workflow.steps := by
  have hsuffix := hintact.suffix subscriptionId
  cases Effect.of_fires hfires with
  | kept _ hcontinues => exact hcontinues.suffix hsuffix hp
  | reserved _ hcontinues => exact hcontinues.suffix hsuffix hp
  | @stored q _ _ _ _ _ hq =>
      have hadvanced := Process.advance_eq_some hp
      rw [hadvanced.remaining, hadvanced.workflow]
      exact (List.tail_suffix _).trans (hsuffix q hq)

theorem Intact.circuit (hintact : Intact w) (hfinds : Finds w subscriptionId event)
    (hfires : Fires (w.circuits subscriptionId) event m requests) :
    Intact (w.withCircuit subscriptionId m) where
  linked := hintact.linked
  unstranded := by
    intro other s hs hopen stpId vlan hvlan
    rw [withCircuit_circuits] at hs
    split at hs
    · exact hintact.stored hfinds hfires hs hopen hvlan
    · exact hintact.unstranded other s hs hopen stpId vlan hvlan
  awaited := by
    rintro other submission ⟨p, hp, step, hin, hsubmission⟩ stpId vlan hasks
    rw [withCircuit_circuits] at hp
    split at hp
    · exact hintact.awaiting hfinds hfires hp hin hsubmission hasks
    · exact hintact.awaited other submission ⟨p, hp, step, hin, hsubmission⟩ stpId vlan hasks
  suffix := by
    intro other p hp
    rw [withCircuit_circuits] at hp
    split at hp
    · exact hintact.suffix_after hfires hp
    · exact hintact.suffix other p hp
  alive := by
    intro other
    rw [withCircuit_circuits]
    split
    · exact (hintact.alive subscriptionId).fires (hintact.suffix subscriptionId) hfires
    · exact hintact.alive other

end Circuit

/-! ## What a reconcile keeps -/

theorem Intact.reconcile {w : World} {stp stp' : Stp} {advertised : List DdsStp}
    {order : SetOrder StpVlan} {listing : List String} (hintact : Intact w)
    (hlists : Lists w listing)
    (hcovers : CoversAwaited w (.reconcileStp stp advertised order listing))
    (hstp : stp ∈ w.inventory.stps)
    (h : reconcileDdsAttributes order (listed w listing) advertised stp = .ok stp') :
    Intact { w with inventory := replaceStp stp' w.inventory } := by
  obtain ⟨hnonempty, hawaits⟩ := hcovers
  have hunchanged : ∀ {stpId vlan}, InRange w.inventory stpId vlan → stp' = stp →
      stpId = stp'.stpId →
      Covers stp'.labelGroup vlan := by
    rintro _ vlan ⟨other, hin, rfl, hother⟩ rfl heq
    rwa [← List.inj_on_of_nodup_map hintact.linked.distinct hin hstp heq]
  refine ⟨hintact.linked.replace stp', ?_, ?_, hintact.suffix, hintact.alive⟩
  · intro subscriptionId s hs hopen stpId vlan hvlan
    change (w.circuits subscriptionId).subscription = some s at hs
    have hrange := hintact.unstranded subscriptionId s hs hopen stpId vlan hvlan
    refine hrange.replace fun heq => ?_
    rcases reconcileDdsAttributes_eq_ok.mp h
      with ⟨_, hsame⟩ | ⟨ddsStp, stranded, _, hout, hnil, rfl⟩
    · exact hunchanged hrange hsame heq
    · have hlisted : (subscriptionId, s.vc.toInactive) ∈ listed w listing :=
        List.mem_filterMap.mpr ⟨subscriptionId, (hlists subscriptionId).mpr ⟨s, hs, hopen⟩,
          by simp [hs]⟩
      obtain ⟨stored, hstored, hwithin⟩ := vlansOutside_nil hout hnil _ hlisted
      exact hwithin vlan (heq ▸ hvlan.mem hstored (heq ▸ hnonempty))
  · intro subscriptionId submission hawaited stpId vlan hasks
    replace hasks := hasks.of_replace
    have hrange := hintact.awaited subscriptionId submission hawaited stpId vlan hasks
    refine hrange.replace fun heq => ?_
    rcases reconcileDdsAttributes_eq_ok.mp h with ⟨_, hsame⟩ | ⟨ddsStp, _, hadvertised, _, _, rfl⟩
    · exact hunchanged hrange hsame heq
    · exact hawaits ddsStp hadvertised subscriptionId submission vlan hawaited (heq ▸ hasks)

/-- In every run whose reconciles cover what is about to be stored, no stored VLAN is stranded. -/
theorem unstranded_of_reachable {w : World} (h : (worlds.restrict CoversAwaited).Reachable w) :
    Unstranded w := by
  have hintact : Intact w := by
    refine h.invariant (fun _ => id) ?_
    rintro w e w' hintact ⟨hcovers, hstep⟩
    cases e with
    | circuit subscriptionId event =>
        obtain ⟨hfinds, m, sent, hnext, rfl⟩ := hstep
        exact hintact.circuit hfinds (fires_of_next hnext)
    | reconcileStp stp advertised order listing =>
        obtain ⟨hstp, hlists, stp', hreconciled, rfl⟩ := hstep
        exact hintact.reconcile hlists hcovers hstp hreconciled
  exact hintact.unstranded

/-! ## A range that changes while a circuit of the line is made -/

def lineStart : World := ⟨lineInventory, fun _ => Machine.blank⟩

def lineStp (labelGroup : String) : Stp := ⟨"n:n:n:n:n:X:1", "x1", 100, labelGroup⟩

def lineProcess : Process :=
  ⟨0, .create lineSubmission, (Workflow.create lineSubmission).steps, .ready⟩

def lineAccepted : World := lineStart.withCircuit "a" ⟨none, some lineProcess⟩

def lineAdvertised (labelGroup : String) : DdsStp :=
  ⟨"n:n:n:n:n:X:1", "x1", 100000000, labelGroup, "n:n:n:n:n:X:ss"⟩

def lineReconcile (labelGroup : String) : WorldEvent :=
  .reconcileStp (lineStp "1-9") [lineAdvertised labelGroup] byStpAndVlan []

def lineReconciled (labelGroup : String) : World :=
  { lineAccepted with inventory := replaceStp (lineStp labelGroup) lineInventory }

def lineReconciledEnv (labelGroup : String) : StepEnv :=
  { lineEnv with inventory := (lineReconciled labelGroup).inventory }

def lineStored : Subscription where
  lifecycle := .provisioning
  productTag := "MDP2P"
  vc :=
    { circuitDescription := "circuit"
      serviceSpeed := 10
      saps := (⟨"5", "n:n:n:n:n:X:1"⟩, ⟨"6", "n:n:n:n:n:Y:1"⟩)
      sdpConstraints := [⟨.include, ⟨"s", "n:n:n:n:n:Y:2", "n:n:n:n:n:X:2"⟩, some 7⟩]
      state := ConnectionState.created
      globalReservationId := globalReservationId "1"
      connectionId := none
      lastError := none }
  description := "MDP2P circuit (CREATED)"

def lineWorld (labelGroup : String) : World :=
  (lineReconciled labelGroup).withCircuit "a" ⟨some lineStored, lineProcess.advance⟩

theorem lineStart_intact : Intact lineStart := by
  refine .of_idle ⟨by decide, ?_⟩ (fun _ _ h => nomatch h) fun _ => rfl
  intro sdpId sdp hsdp
  have hin := Dict.get?_eq_some.mp hsdp
  simp only [lineStart, lineInventory, List.mem_singleton, Prod.mk.injEq] at hin
  obtain ⟨_, rfl⟩ := hin
  decide

theorem lineReconciled_of {labelGroup : String} (hrange : (vlanSet labelGroup).isOk) :
    reconcileDdsAttributes byStpAndVlan (listed lineAccepted [])
      [lineAdvertised labelGroup] (lineStp "1-9") = .ok (lineStp labelGroup) := by
  cases hallowed : vlanSet labelGroup with
  | error e =>
      rw [hallowed] at hrange
      cases hrange
  | ok allowed =>
      refine reconcileDdsAttributes_eq_ok.mpr (.inr ⟨_, .empty,
        (Dict.get?_ofPairs (by simp)).mpr List.mem_cons_self, ?_, rfl, rfl⟩)
      exact bind_eq_ok.mpr ⟨allowed, hallowed, bind_eq_ok.mpr ⟨[], rfl, rfl⟩⟩

theorem lineWorld_reachable {condition : World → WorldEvent → Prop} {labelGroup : String}
    (hcircuit : ∀ w subscriptionId event, condition w (.circuit subscriptionId event))
    (hreconcile : condition lineAccepted (lineReconcile labelGroup))
    (hrange : (vlanSet labelGroup).isOk)
    (hstored : Machine.next ⟨none, some lineProcess⟩ (.run (lineReconciledEnv labelGroup)) =
      some (.ok (⟨some lineStored, lineProcess.advance⟩, []))) :
    (worlds.restrict condition).Reachable (lineWorld labelGroup) := by
  have haccepted : (worlds.restrict condition).Reachable lineAccepted :=
    .step (e := .circuit "a" (.start (.create lineSubmission) 0)) (.init lineStart_intact)
      ⟨hcircuit _ _ _, ⟨_, _, _, _, lineInput_accepted⟩, _, [], rfl, rfl⟩
  have hlists : Lists lineAccepted [] := by
    intro subscriptionId
    rw [lineAccepted, withCircuit_circuits]
    split <;> simp [lineStart, Machine.blank]
  have hreconciled : (worlds.restrict condition).Reachable (lineReconciled labelGroup) :=
    .step haccepted ⟨hreconcile, by decide, hlists, _, lineReconciled_of hrange, rfl⟩
  exact .step (e := .circuit "a" (.run (lineReconciledEnv labelGroup))) hreconciled
    ⟨hcircuit _ _ _, rfl, ⟨some lineStored, lineProcess.advance⟩, [], hstored, rfl⟩

theorem lineAccepted_covers {labelGroup : String} (hcovers : Covers labelGroup 5) :
    CoversAwaited lineAccepted (lineReconcile labelGroup) := by
  refine ⟨by decide, fun ddsStp hadvertised subscriptionId submission vlan hawaits hasks => ?_⟩
  have hin := (Dict.get?_ofPairs (by simp)).mp hadvertised
  simp only [List.map_cons, List.map_nil, List.mem_singleton, Prod.mk.injEq] at hin
  obtain ⟨_, rfl⟩ := hin
  obtain ⟨p, hp, step, hstep, hstores⟩ := hawaits
  rw [lineAccepted, withCircuit_circuits] at hp
  split at hp
  · cases hp
    have hsubmission : (Workflow.create lineSubmission).submission = some submission :=
      Workflow.submission_of_stores hstep hstores
    cases hsubmission
    rcases hasks with ⟨_, rfl⟩ | ⟨hid, _⟩ | ⟨sdpId, sdp, hsdp, _, hend⟩
    · exact hcovers
    · exact absurd hid (by decide)
    · have hin := Dict.get?_eq_some.mp hsdp
      simp only [lineAccepted, World.withCircuit, lineStart, lineInventory, List.mem_singleton,
        Prod.mk.injEq] at hin
      obtain ⟨_, rfl⟩ := hin
      exact absurd hend (by decide)
  · cases hp

/-- The range the line's circuit finds at last covers what it stores. -/
theorem unstranded_line : Unstranded (lineWorld "1-5") :=
  unstranded_of_reachable (lineWorld_reachable (fun _ _ _ => trivial)
    (lineAccepted_covers ⟨_, rfl, by decide⟩) (by decide) (by decide +kernel))

/-- Between the forms and the step that stores their VLANs, reconcile takes one out of range. -/
theorem narrowed_while_awaited :
    worlds.Reachable (lineWorld "1-4") ∧ ¬ Unstranded (lineWorld "1-4") := by
  have hreach : (worlds.restrict fun _ _ => True).Reachable (lineWorld "1-4") :=
    lineWorld_reachable (fun _ _ _ => trivial) trivial (by decide) (by decide +kernel)
  refine ⟨hreach.of_restrict, fun hunstranded => ?_⟩
  obtain ⟨stp, hin, hid, hcovers⟩ := hunstranded "a" lineStored (by decide +kernel) (by decide)
    "n:n:n:n:n:X:1" 5 (.inl ⟨_, List.mem_cons_self, rfl, rfl⟩)
  have hlinked := lineStart_intact.linked.replace (lineStp "1-4")
  obtain rfl : stp = lineStp "1-4" :=
    List.inj_on_of_nodup_map hlinked.distinct hin (by decide) hid
  exact absurd ((vlanSet_covers rfl 5).mpr hcovers) (by decide)

end NsiOrchestrator.Mdp2p
