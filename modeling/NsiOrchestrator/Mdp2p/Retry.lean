import NsiOrchestrator.Forms.Retry
import NsiOrchestrator.Mdp2p.Reserve

/-! # The reserve of a retry that is left as it is

A retry whose pages are left as they are prefilled sends the reserve of the circuit
again, under a new id.
-/

namespace NsiOrchestrator.Mdp2p

open Outcome Forms Vlans Transition

/-! ## What a circuit keeps until it is retried -/

def Event.StoresNothing : Event → Prop
  | .start workflow _ => workflow.submission = none
  | _ => True

def KeepStep (m m' : Machine) : Prop :=
  ∃ event sent, event.StoresNothing ∧ m.next event = some (.ok (m', sent))

/-- The circuit has the input of a given one, and no step is to store another. -/
def Kept (s : Subscription) (m : Machine) : Prop :=
  (∃ t, m.subscription = some t ∧ SameInput s t) ∧
    ∀ p, m.process = some p → ∀ step ∈ p.remaining, step.stores = none

theorem Kept.of_relabelled {s : Subscription} {m : Machine} (h : Relabelled s m) : Kept s m := by
  obtain ⟨⟨t, ht, hinput, _⟩, hremaining⟩ := h
  refine ⟨⟨t, ht, hinput⟩, fun p hp step hin => ?_⟩
  have hrelabels := hremaining p hp step hin
  cases step with
  | setStatus | updateCircuitDescription | updateSubscriptionDescription => rfl
  | _ => exact hrelabels.elim

theorem Workflow.stores_none {workflow : Workflow} (h : workflow.submission = none) :
    ∀ step ∈ workflow.steps, step.stores = none := by
  intro step hin
  cases hstores : step.stores with
  | none => rfl
  | some submission =>
      rw [Workflow.submission_of_stores hin hstores] at h
      cases h

theorem Kept.step {s : Subscription} {m m' : Machine} (h : Kept s m) (hstep : KeepStep m m') :
    Kept s m' := by
  obtain ⟨event, sent, hnothing, hnext⟩ := hstep
  obtain ⟨⟨t, ht, hinput⟩, hremaining⟩ := h
  have hkept : KeepsInput m.subscription m'.subscription → Continues m event m' → Kept s m' := by
    intro hkeeps hcontinues
    obtain ⟨u, hu, hsame⟩ := hkeeps.exists_after ht
    refine ⟨⟨u, hu, hinput.trans hsame⟩, fun p' hp' => ?_⟩
    obtain ⟨_, rfl, hsteps⟩ | ⟨p, hp, _, _, hsame | ⟨step, hcons, _⟩⟩ := hcontinues p' hp'
    · exact hsteps ▸ Workflow.stores_none hnothing
    · exact hsame ▸ hremaining p hp
    · exact fun step' hin => hremaining p hp step' (hcons ▸ List.mem_cons_of_mem step hin)
  cases Effect.of_fires (fires_of_next hnext) with
  | kept hkeeps hcontinues => exact hkept hkeeps hcontinues
  | reserved hkeeps hcontinues => exact hkept hkeeps hcontinues
  | stored hp hcons hstores =>
      rw [hremaining _ hp _ (hcons ▸ List.mem_cons_self)] at hstores
      cases hstores

theorem Kept.run {s : Subscription} {m m' : Machine} (h : Kept s m)
    (hrun : Relation.ReflTransGen KeepStep m m') : Kept s m' := by
  induction hrun with
  | refl => exact h
  | tail _ hstep ih => exact ih.step hstep

/-! ## The run of a retry -/

/-- An event of a started run. A step finds the inventory, and a global reservation id that is drawn
is not one drawn before. -/
def Event.Within (inventory : Inventory) (used : String) : Event → Prop
  | .start _ _ => False
  | .run env => env.inventory = inventory ∧ globalReservationId env.uuid ≠ used
  | _ => True

def RetryStep (inventory : Inventory) (used : String) (m m' : Machine) : Prop :=
  ∃ event sent, event.Within inventory used ∧ m.next event = some (.ok (m', sent))

def Reserves (inventory : Inventory) (used : String) (started : Machine) (body : ReserveBody) :
    Prop :=
  ∃ m m' event sent, Relation.ReflTransGen (RetryStep inventory used) started m ∧
    event.Within inventory used ∧ m.next event = some (.ok (m', sent)) ∧ .reserve body ∈ sent

/-- A run can send a reserve, and every one it sends has the criteria of another under a new id. -/
structure LeadsToReserve (inventory : Inventory) (started : Machine) (body : ReserveBody) : Prop
    where
  sends : ∃ body', Reserves inventory body.globalReservationId started body'
  same : ∀ body', Reserves inventory body.globalReservationId started body' →
    body'.p2ps = body.p2ps ∧ body'.globalReservationId ≠ body.globalReservationId

/-- A run of a retry is at a place of its workflow, and past the step that stores its input the
circuit has that input and a new id. -/
structure Retrying (inventory : Inventory) (used : String) (submission : Submission) (m : Machine) :
    Prop where
  workflow : ∀ p, m.process = some p →
    p.workflow = .retryReservation submission ∧ p.remaining <:+ p.workflow.steps
  stored : ∀ p, m.process = some p → (∀ step ∈ p.remaining, step.stores = none) →
    ∃ s, m.subscription = some s ∧ Stores inventory submission s.vc ∧
      s.vc.globalReservationId ≠ used

section Run

variable {inventory : Inventory} {used : String} {submission : Submission}

theorem Retrying.started (subscription : Option Subscription) (run : ℕ) :
    Retrying inventory used submission ⟨subscription,
      some ⟨run, .retryReservation submission, (Workflow.retryReservation submission).steps,
        .ready⟩⟩ where
  workflow := by
    rintro _ ⟨⟩
    exact ⟨rfl, List.suffix_refl _⟩
  stored := by
    rintro _ ⟨⟩ hpast
    have := hpast (.updateSubscription submission) (by simp [Workflow.steps])
    cases this

theorem Retrying.step {m m' : Machine} (h : Retrying inventory used submission m)
    (hstep : RetryStep inventory used m m') : Retrying inventory used submission m' := by
  obtain ⟨event, sent, hwithin, hnext⟩ := hstep
  have hkept : KeepsInput m.subscription m'.subscription → Continues m event m' →
      Retrying inventory used submission m' := by
    intro hkeeps hcontinues
    have hworkflow : ∀ p', m'.process = some p' →
        p'.workflow = .retryReservation submission ∧ p'.remaining <:+ p'.workflow.steps := by
      intro p' hp'
      refine ⟨?_, hcontinues.suffix (fun p hp => (h.workflow p hp).2) hp'⟩
      obtain ⟨_, rfl, _⟩ | ⟨p, hp, _, hworkflow, _⟩ := hcontinues p' hp'
      · exact hwithin.elim
      · exact hworkflow.trans (h.workflow p hp).1
    refine ⟨hworkflow, fun p' hp' hpast => ?_⟩
    have hsubmission : p'.workflow.submission = some submission := by
      rw [(hworkflow p' hp').1]
      rfl
    obtain ⟨p, hp, _, _, _, hpast⟩ := hcontinues.past hp' hsubmission hpast
    obtain ⟨s, hs, hstores, hnew⟩ := h.stored p hp hpast
    obtain ⟨t, ht, hsame⟩ := hkeeps.exists_after hs
    exact ⟨t, ht, hsame.stores hstores, hsame.id ▸ hnew⟩
  cases Effect.of_fires (fires_of_next hnext) with
  | kept hkeeps hcontinues => exact hkept hkeeps hcontinues
  | reserved hkeeps hcontinues => exact hkept hkeeps hcontinues
  | @stored p step rest submission' _ _ hp hremaining hsubmission hstores hid =>
      obtain ⟨rfl, hnew⟩ := hwithin
      obtain ⟨hworkflow, hsuffix⟩ := h.workflow p hp
      rw [hremaining] at hsuffix
      obtain rfl : submission = submission' := by
        have := Workflow.submission_of_stores (hsuffix.mem List.mem_cons_self) hsubmission
        rw [hworkflow] at this
        exact Option.some.inj this
      refine ⟨fun q hq => ?_, fun _ _ _ => ⟨_, rfl, hstores, hid ▸ hnew⟩⟩
      have hadvanced := Process.advance_eq_some hq
      rw [hadvanced.workflow, hadvanced.remaining, hremaining]
      exact ⟨hworkflow, (List.suffix_cons _ _).trans hsuffix⟩

theorem Retrying.run {m m' : Machine} (h : Retrying inventory used submission m)
    (hrun : Relation.ReflTransGen (RetryStep inventory used) m m') :
    Retrying inventory used submission m' := by
  induction hrun with
  | refl => exact h
  | tail _ hstep ih => exact ih.step hstep

theorem Retrying.reserves {started : Machine} {body : ReserveBody}
    (h : Retrying inventory used submission started)
    (hreserves : Reserves inventory used started body) :
    ∃ vc, Stores inventory submission vc ∧ body = reserveRequest submission.path.ero vc ∧
      body.globalReservationId ≠ used := by
  obtain ⟨m, m', event, sent, hrun, hwithin, hnext, hin⟩ := hreserves
  have hretrying := h.run hrun
  cases Effect.of_fires (fires_of_next hnext) with
  | kept _ _ hnone => exact absurd hin (hnone body)
  | stored => cases hin
  | @reserved _ _ p _ _ _ _ s _ _ hp hs hremaining =>
      obtain ⟨hworkflow, hsuffix⟩ := hretrying.workflow p hp
      rw [hremaining] at hsuffix
      obtain ⟨submission', hsubmission, rfl, rfl, rfl, rfl⟩ := Workflow.reserve_step hsuffix
      rw [hworkflow] at hsubmission
      cases hsubmission
      obtain ⟨t, ht, hstores, hnew⟩ := hretrying.stored p hp (by simp [hremaining, Step.stores])
      cases hs.symm.trans ht
      cases List.mem_singleton.mp hin
      exact ⟨_, hstores, rfl, hnew⟩

end Run

/-! ## A run that gets to its reserve -/

theorem sapsFor_ok {stps : List Stp} {input : ConnectionInput}
    (hsource : ∃ stp ∈ stps, stp.stpId = input.sourceStp)
    (hdestination : ∃ stp ∈ stps, stp.stpId = input.destinationStp) :
    ∃ saps, sapsFor stps input = .ok saps := by
  have hblock : ∀ {stpId}, (∃ stp ∈ stps, stp.stpId = stpId) →
      ∃ block, stpBlockFor stps stpId = .ok block := by
    rintro _ ⟨stp, hstp, rfl⟩
    unfold stpBlockFor
    split
    · exact ⟨_, rfl⟩
    · next hfind => exact absurd (List.find?_eq_none.mp hfind stp hstp) (by simp)
  obtain ⟨source, hsource⟩ := hblock hsource
  obtain ⟨destination, hdestination⟩ := hblock hdestination
  exact ⟨_, bind_eq_ok.mpr ⟨source, hsource, bind_eq_ok.mpr ⟨destination, hdestination, rfl⟩⟩⟩

section Sends

variable {inventory : Inventory} {used : String} {submission : Submission} {env : StepEnv}

theorem Reserves.run {m m' : Machine} {body : ReserveBody}
    (hrun : Relation.ReflTransGen (RetryStep inventory used) m m')
    (h : Reserves inventory used m' body) : Reserves inventory used m body := by
  obtain ⟨m₁, m₂, event, sent, hrun', h⟩ := h
  exact ⟨m₁, m₂, event, sent, hrun.trans hrun', h⟩

theorem RetryStep.done {s t : Subscription} {run : ℕ} {workflow : Workflow} {step next : Step}
    {rest : List Step} (hwithin : (Event.run env).Within inventory used)
    (h : step.run env (some s) = .ok (.done t)) :
    RetryStep inventory used ⟨some s, some ⟨run, workflow, step :: next :: rest, .ready⟩⟩
      ⟨some t, some ⟨run, workflow, next :: rest, .ready⟩⟩ :=
  ⟨_, [], hwithin, by simp only [Machine.next, h]; rfl⟩

theorem RetryStep.callback {subscription : Option Subscription} {run : ℕ} {workflow : Workflow}
    {remaining : List Step} (result : CallbackResult) :
    RetryStep inventory used ⟨subscription, some ⟨run, workflow, remaining, .awaiting⟩⟩
      ⟨subscription, some ⟨run, workflow, remaining, .received result⟩⟩ :=
  ⟨.callback result, [], trivial, rfl⟩

theorem terminate_done (s : Subscription) (run : ℕ) (workflow : Workflow) {next : Step}
    {rest : List Step} (hwithin : (Event.run env).Within inventory used) :
    ∃ t, t.vc.state = s.vc.state ∧ Relation.ReflTransGen (RetryStep inventory used)
      ⟨some s, some ⟨run, workflow,
        .callbackStep .hasConnection .terminateConnection .dropConnection :: next :: rest, .ready⟩⟩
      ⟨some t, some ⟨run, workflow, next :: rest, .ready⟩⟩ := by
  by_cases hholds : Condition.hasConnection.holds s.vc
  · have hsent : RetryStep inventory used
        ⟨some s, some ⟨run, workflow,
          .callbackStep .hasConnection .terminateConnection .dropConnection :: next :: rest,
            .ready⟩⟩
        ⟨some s, some ⟨run, workflow,
          .callbackStep .hasConnection .terminateConnection .dropConnection :: next :: rest,
          .awaiting⟩⟩ := by
      refine ⟨.run env, [.terminate s.vc.connectionId], hwithin, ?_⟩
      simp only [Machine.next, Step.run, hholds]
      rfl
    refine ⟨{ s with vc := { s.vc with connectionId := none } }, rfl, ?_⟩
    exact .head hsent (.head (.callback ⟨none, none⟩) (.single ⟨.run env, [], hwithin, rfl⟩))
  · refine ⟨s, rfl, .single (.done hwithin ?_)⟩
    simp only [Step.run, hholds]
    rfl

theorem retry_reserves {s : Subscription} (hwithin : (Event.run env).Within inventory used)
    (hstate : s.vc.state ∈ retryableStates)
    (hsaps : ∃ saps, sapsFor env.inventory.stps submission.input = .ok saps)
    (hincluded : ∃ constraints, includeConstraints env.inventory.sdps submission.input.includeSdps
      submission.path.sdpVlans = .ok constraints) (run : ℕ) :
    ∃ body, Reserves inventory used ⟨some s, some ⟨run, .retryReservation submission,
      (Workflow.retryReservation submission).steps, .ready⟩⟩ body := by
  obtain ⟨t, ht, hterminated⟩ := terminate_done { s with lifecycle := .provisioning } run
    (.retryReservation submission) hwithin
  obtain ⟨saps, hsaps⟩ := hsaps
  obtain ⟨constraints, hincluded⟩ := hincluded
  have hupdated := updateSubscription_eq_ok.mpr
    ⟨(ht ▸ hstate : t.vc.state ∈ retryableStates), saps, constraints, hsaps, hincluded, rfl⟩
  have hreserve : ∀ u : Subscription, Reserves inventory used
      ⟨some u, some ⟨run, .retryReservation submission,
        [.callbackStep .always (.reserveConnection submission.path.ero) .processReservationResult,
          .setStatus .active], .ready⟩⟩ (reserveRequest submission.path.ero u.vc) := fun u =>
    ⟨_, _, .run env, _, .refl, hwithin, rfl, List.mem_singleton_self _⟩
  exact ⟨_, .run (.single (.done hwithin rfl)) (.run hterminated
    (.run (.single (.done hwithin (bind_eq_ok.mpr ⟨_, hupdated, rfl⟩))) (hreserve _)))⟩

end Sends

/-! ## A retry that is left as it is -/

/-- A retry whose pages are submitted is accepted, and its run leads to a reserve with the criteria
of another. -/
def Retries (orders : Orders) (inventory : Inventory) (reservations : List AggregatorReservation)
    (s : Subscription) (raw : ConnectionFields) (rawVlans : SdpVlanFields)
    (body : ReserveBody) : Prop :=
  ∃ submission, retryInput orders inventory reservations s.vc raw rawVlans = .ok submission ∧
    ∀ run, ∃ started,
      Machine.next ⟨some s, none⟩ (.start (.retryReservation submission) run) =
        some (.ok (started, [])) ∧
      LeadsToReserve inventory started body

section Again

variable {orders orders' : Orders} {inventory : Inventory}
  {before after : List AggregatorReservation}
  {raw raw₀ : ConnectionFields} {rawVlans rawVlans₀ : SdpVlanFields} {submission : Submission}
  {s : Subscription}

theorem again_p2ps {inventory' : Inventory} {vc vc' : Vc} {circuitDescription : String}
    (h : Stores inventory submission vc)
    (h' : Stores inventory' (submission.again circuitDescription) vc') :
    (reserveRequest (submission.again circuitDescription).path.ero vc').p2ps =
      (reserveRequest submission.path.ero vc).p2ps := by
  simp only [reserveRequest, reserve, h.speed, h'.speed, h.source, h'.source, h.destination,
    h'.destination]
  rfl

theorem exists_within (inventory : Inventory) (used : String) :
    ∃ env, (Event.run env).Within inventory used ∧ env.inventory = inventory := by
  obtain ⟨uuid, huuid⟩ : ∃ uuid, globalReservationId uuid ≠ used := by
    by_cases h : globalReservationId "" = used
    · exact ⟨"-", fun h' => absurd (globalReservationId_injective (h'.trans h.symm)) (by decide)⟩
    · exact ⟨_, h⟩
  exact ⟨⟨inventory, "", uuid, "", ⟨"", "", none, none, none, none⟩⟩, ⟨rfl, huuid⟩, rfl⟩

/-- The run of a retry that submits the input again sends its reserve again, under a new id. -/
theorem leadsToReserve_again {body : ReserveBody}
    (hcreate : createInput orders inventory before raw₀ rawVlans₀ = .ok submission)
    (hstores : Stores inventory submission s.vc)
    (hbody : body.p2ps = (reserveRequest submission.path.ero s.vc).p2ps)
    (hstate : s.vc.state ∈ retryableStates) (circuitDescription : String) (run : ℕ) :
    LeadsToReserve inventory
      ⟨some s, some ⟨run, .retryReservation (submission.again circuitDescription),
        (Workflow.retryReservation (submission.again circuitDescription)).steps, .ready⟩⟩ body where
  sends := by
    obtain ⟨env, hwithin, rfl⟩ := exists_within inventory body.globalReservationId
    obtain ⟨_, _, _, _, _, haccept⟩ := connectionInput_eq_ok.mp hcreate
    have hpage := validate_eq_ok.mp haccept.page
    have hsaps : ∃ saps,
        sapsFor env.inventory.stps (submission.again circuitDescription).input = .ok saps :=
      sapsFor_ok ((connectionForm_offered haccept.built _).mp hpage.sourceOffered).2
        ((connectionForm_offered haccept.built _).mp hpage.destinationOffered).2
    exact retry_reserves hwithin hstate hsaps ⟨_, hstores.constraints⟩ run
  same := by
    intro body' hreserves
    obtain ⟨vc, hstores', rfl, hnew⟩ := (Retrying.started (some s) run).reserves hreserves
    exact ⟨(again_p2ps hstores hstores').trans hbody.symm, hnew⟩

/-- A retry whose pages are left as they are leads to the reserve of a failed circuit again, when
neither of its ends is part of an SDP. -/
theorem retry_again_iff {m m' : Machine} {body : ReserveBody} {result : CallbackResult}
    (hcreate : createInput orders inventory before raw₀ rawVlans₀ = .ok submission)
    (hreach : (circuit.restrict fun _ event => FindsInventory (· = inventory) event).Reachable m)
    (hround : ReserveRound m m' submission body result)
    (hlater : Relation.ReflTransGen KeepStep m' ⟨some s, none⟩)
    (hfailed : s.vc.state = ConnectionState.failed) (hactive : s.lifecycle = .active)
    (hothers : OthersUnchanged s.vc.connectionId before after)
    (hleaves : LeavesPages s.vc raw rawVlans) :
    Retries orders' inventory after s raw rawVlans body ↔
      ¬ InSdp inventory submission.input.sourceStp ∧
        ¬ InSdp inventory submission.input.destinationStp := by
  obtain ⟨t, hsettled⟩ := hround.settled (storing_of_reachable hreach)
  obtain ⟨⟨_, ⟨⟩, hinput⟩, _⟩ := (Kept.of_relabelled hsettled.relabelled).run hlater
  obtain ⟨_, rfl, hstores⟩ := hsettled.stored
  replace hstores := hinput.stores hstores
  have hstate : s.vc.state ∈ retryableStates := by simp [hfailed, retryableStates]
  have hforms : ∀ submission', retryInput orders' _ after s.vc raw rawVlans = .ok submission' ↔ _ :=
    fun submission' => retryInput_left_iff hcreate hstores hstate hothers hleaves
  constructor
  · rintro ⟨submission', hretry, _⟩
    exact ((hforms submission').mp hretry).2
  · intro hends
    refine ⟨_, (hforms _).mpr ⟨rfl, hends⟩, fun run =>
      ⟨_, ?_, leadsToReserve_again hcreate hstores ?_
      hstate s.vc.circuitDescription run⟩⟩
    · simp only [Machine.next, Workflow.start, hactive, Workflow.gate, raiseIf, hstate]
      rfl
    · rw [hsettled.body, hinput.p2ps]

end Again

/-! ## The line's circuit, after a reserve that failed -/

def failedResult : CallbackResult := ⟨some ConnectionState.failed, some "no path"⟩

def failedAt : ℕ → Machine := createAt lineEnv lineSubmission failedResult

def lineFailed : Subscription where
  lifecycle := .active
  productTag := "MDP2P"
  vc :=
    { circuitDescription := "circuit"
      serviceSpeed := 10
      saps := (⟨"5", "n:n:n:n:n:X:1"⟩, ⟨"6", "n:n:n:n:n:Y:1"⟩)
      sdpConstraints := [⟨.include, ⟨"s", "n:n:n:n:n:Y:2", "n:n:n:n:n:X:2"⟩, some 7⟩]
      state := ConnectionState.failed
      globalReservationId := globalReservationId "1"
      connectionId := some "c"
      lastError := some "no path" }
  description := "MDP2P circuit (FAILED)"

def failedReservation : AggregatorReservation :=
  ⟨"c", "FAILED", some (globalReservationId "1"), some "no path",
    some ⟨⟨10, "n:n:n:n:n:X:1?vlan=5", "n:n:n:n:n:Y:1?vlan=6"⟩⟩, none⟩

def failedBody : ReserveBody :=
  ⟨globalReservationId "1", "circuit", ⟨10, "n:n:n:n:n:X:1?vlan=5", "n:n:n:n:n:Y:1?vlan=6",
    some ["n:n:n:n:n:X:2?vlan=7"]⟩⟩

theorem retry_again_line :
    Retries ascending lineInventory (failedReservation :: lineReservations) lineFailed .untouched
      (fun _ => none) failedBody := by
  have hround : ReserveRound (failedAt 2) (failedAt 5) lineSubmission failedBody failedResult :=
    { workflow := ⟨⟨0, .create lineSubmission, (failedAt 2).process.elim [] (·.remaining), .ready⟩,
        by decide +kernel, rfl⟩
      round := ⟨lineEnv, lineEnv, failedAt 3, failedAt 4, by decide +kernel, by decide +kernel,
        by decide +kernel⟩ }
  have hlater : KeepStep (failedAt 5) ⟨some lineFailed, none⟩ :=
    ⟨.run lineEnv, [], trivial, by decide +kernel⟩
  have hothers : OthersUnchanged lineFailed.vc.connectionId lineReservations
      (failedReservation :: lineReservations) := by
    intro reservation hother
    have hne : reservation ≠ failedReservation := fun h => hother (h ▸ rfl)
    simp [hne]
  have hreach : (circuit.restrict fun _ event =>
      FindsInventory (· = lineEnv.inventory) event).Reachable
      (failedAt 2) := createAt_reachable (by decide +kernel)
  exact (retry_again_iff lineInput_accepted hreach hround (.single hlater) rfl rfl hothers
    (.untouched _)).mpr (by decide +kernel)

/-! ## A circuit that ends on an SDP -/

def tickedFields : ConnectionFields :=
  { lineFields with
    sourceStp := some "n:n:n:n:n:X:2", allowStpsInSdp := some true, includeSdps := some [] }

def tickedSubmission : Submission where
  input := ⟨"circuit", 10, "n:n:n:n:n:X:2", 5, "n:n:n:n:n:Y:1", 6, true, [], []⟩
  path := ⟨[], .empty⟩

def tickedAt : ℕ → Machine := createAt lineEnv tickedSubmission failedResult

def tickedFailed : Subscription :=
  { lineFailed with
    vc :=
      { lineFailed.vc with
        saps := (⟨"5", "n:n:n:n:n:X:2"⟩, ⟨"6", "n:n:n:n:n:Y:1"⟩), sdpConstraints := [] } }

/-- A create that ticks the use of STPs in an SDP: its retry asks for the tick again. -/
theorem ticked_retry_rejected :
    createInput ascending lineInventory [] tickedFields linePins = .ok tickedSubmission ∧
      (circuit.restrict fun _ event => FindsInventory (· = lineEnv.inventory) event).Reachable
        (tickedAt 2) ∧
      ∃ body s,
        ReserveRound (tickedAt 2) (tickedAt 5) tickedSubmission body failedResult ∧
        KeepStep (tickedAt 5) ⟨some s, none⟩ ∧
        s.vc.state = ConnectionState.failed ∧ s.lifecycle = .active ∧
        OthersUnchanged s.vc.connectionId [] [] ∧ LeavesPages s.vc .untouched (fun _ => none) ∧
        retryInput ascending lineInventory [] s.vc .untouched (fun _ => none) =
          .error (.rejected [⟨"", .valueError
            "A selected STP is part of an SDP; tick 'allow stps in sdp' to use it anyway"⟩]) ∧
        ¬ Retries ascending lineInventory [] s .untouched (fun _ => none) body := by
  have hrejected :
      retryInput ascending lineInventory [] tickedFailed.vc .untouched (fun _ => none) =
      .error (.rejected [⟨"", .valueError
        "A selected STP is part of an SDP; tick 'allow stps in sdp' to use it anyway"⟩]) := by
    decide +kernel
  refine ⟨by decide +kernel, createAt_reachable (by decide +kernel),
    ⟨globalReservationId "1", "circuit",
      ⟨10, "n:n:n:n:n:X:2?vlan=5", "n:n:n:n:n:Y:1?vlan=6", none⟩⟩,
    tickedFailed, ?_, ⟨.run lineEnv, [], trivial, by decide +kernel⟩, rfl, rfl, fun _ _ => .rfl,
    .untouched _, hrejected, fun ⟨_, haccepted, _⟩ => ?_⟩
  · exact
      { workflow := ⟨⟨0, .create tickedSubmission, (tickedAt 2).process.elim [] (·.remaining),
          .ready⟩, by decide +kernel, rfl⟩
        round := ⟨lineEnv, lineEnv, tickedAt 3, tickedAt 4, by decide +kernel, by decide +kernel,
          by decide +kernel⟩ }
  · cases hrejected.symm.trans haccepted

end NsiOrchestrator.Mdp2p
