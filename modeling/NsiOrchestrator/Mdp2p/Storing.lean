import NsiOrchestrator.Mdp2p.Workflows

/-! # The input a circuit stores

Create and retry store the input their forms accepted, and a reserve is made of what is
stored. Every other step keeps it.
-/

namespace NsiOrchestrator.Mdp2p

open Outcome Forms Vlans Transition

def Step.stores : Step → Option Submission
  | constructMdp2pModel submission | updateSubscription submission => some submission
  | _ => none

def Workflow.submission : Workflow → Option Submission
  | create submission | retryReservation submission => some submission
  | _ => none

/-- Everything a reserve is made of, and the constraints, stay the same. -/
structure SameInput (s t : Subscription) : Prop where
  id : t.vc.globalReservationId = s.vc.globalReservationId
  saps : t.vc.saps = s.vc.saps
  speed : t.vc.serviceSpeed = s.vc.serviceSpeed
  constraints : t.vc.sdpConstraints = s.vc.sdpConstraints

theorem SameInput.refl (s : Subscription) : SameInput s s := ⟨rfl, rfl, rfl, rfl⟩

theorem SameInput.trans {s t u : Subscription} (h : SameInput s t) (h' : SameInput t u) :
    SameInput s u :=
  ⟨h'.id.trans h.id, h'.saps.trans h.saps, h'.speed.trans h.speed,
    h'.constraints.trans h.constraints⟩

theorem SameInput.p2ps {s t : Subscription} (h : SameInput s t) (ero : List String) :
    (reserveRequest ero t.vc).p2ps = (reserveRequest ero s.vc).p2ps := by
  simp [reserveRequest, reserve, h.saps, h.speed]

theorem SameInput.stores {inventory : Inventory} {submission : Submission} {s t : Subscription}
    (h : SameInput s t) (hstores : Stores inventory submission s.vc) :
    Stores inventory submission t.vc where
  speed := h.speed.trans hstores.speed
  source := h.saps ▸ hstores.source
  destination := h.saps ▸ hstores.destination
  constraints := by rw [included, h.constraints]; exact hstores.constraints

theorem sapsFor_eq_ok {stps : List Stp} {input : ConnectionInput} {saps : Sap × Sap}
    (h : sapsFor stps input = .ok saps) :
    saps = (⟨toString input.sourceVlan, input.sourceStp⟩,
      ⟨toString input.destinationVlan, input.destinationStp⟩) := by
  have hblock : ∀ {stpId block}, stpBlockFor stps stpId = .ok block → block = stpId := by
    intro stpId block h
    unfold stpBlockFor at h
    split at h
    · next stp hfind =>
        cases h
        simpa using List.find?_some hfind
    · cases h
  simp only [sapsFor, bind_eq_ok, pure_eq_ok] at h
  obtain ⟨source, hsource, destination, hdestination, rfl⟩ := h
  rw [hblock hsource, hblock hdestination]

/-- The included constraints of a circuit are those made for its included SDPs. -/
theorem included_append {sdps : Dict String Sdp} {includeSdps excludeSdps : List String}
    {sdpVlans : SdpVlans} {included excluded : List SdpConstraint}
    (hincluded : includeConstraints sdps includeSdps sdpVlans = .ok included)
    (hexcluded : excludeConstraints sdps excludeSdps = .ok excluded) :
    (included ++ excluded).filter (fun c => c.constraintType = .include) = included := by
  have hinclude : ∀ c ∈ included, c.constraintType = .include := by
    intro c hc
    obtain ⟨sdpId, _, h⟩ := exists_of_mem_mapM hincluded hc
    obtain ⟨sdp, _, h⟩ := bind_eq_ok.mp h
    cases pure_eq_ok.mp h
    rfl
  have hexclude : ∀ c ∈ excluded, c.constraintType = .exclude := by
    intro c hc
    obtain ⟨sdpId, _, h⟩ := exists_of_mem_mapM hexcluded hc
    obtain ⟨sdp, _, h⟩ := bind_eq_ok.mp h
    cases pure_eq_ok.mp h
    rfl
  rw [List.filter_append, List.filter_eq_self.mpr (by simpa using hinclude),
    List.filter_eq_nil_iff.mpr (fun c hc => by simp [hexclude c hc]), List.append_nil]

theorem stores_of_constructed {env : StepEnv} {submission : Submission} {t : Subscription}
    (h : constructMdp2pModel env submission = .ok t) : Stores env.inventory submission t.vc := by
  obtain ⟨saps, inc, exc, hsaps, hinc, hexc, rfl⟩ := constructMdp2pModel_eq_ok.mp h
  obtain rfl := sapsFor_eq_ok hsaps
  refine ⟨rfl, rfl, rfl, ?_⟩
  simp only [included, Subscription.describe_vc, included_append hinc hexc]
  exact hinc

theorem stores_of_updated {env : StepEnv} {submission : Submission} {s t : Subscription}
    (h : updateSubscription env submission s = .ok t) : Stores env.inventory submission t.vc := by
  obtain ⟨_, saps, inc, hsaps, hinc, rfl⟩ := updateSubscription_eq_ok.mp h
  obtain rfl := sapsFor_eq_ok hsaps
  refine ⟨rfl, rfl, rfl, ?_⟩
  have hnone : excludeConstraints env.inventory.sdps [] = .ok [] := rfl
  have hfilter := included_append hinc hnone
  rw [List.append_nil] at hfilter
  simp only [included, Subscription.describe_vc, hfilter]
  exact hinc

/-! ## What an event does to the input -/

def KeepsInput (before after : Option Subscription) : Prop :=
  match before, after with
  | some s, some t => SameInput s t
  | none, none => True
  | _, _ => False

theorem KeepsInput.refl (before : Option Subscription) : KeepsInput before before := by
  cases before with
  | none => trivial
  | some s => exact SameInput.refl s

theorem KeepsInput.exists_after {before after : Option Subscription} {s : Subscription}
    (h : KeepsInput before after) (hbefore : before = some s) :
    ∃ t, after = some t ∧ SameInput s t := by
  subst hbefore
  cases after with
  | none => cases h
  | some t => exact ⟨t, rfl, h⟩

def Continues (m : Machine) (event : Event) (m' : Machine) : Prop :=
  ∀ p', m'.process = some p' →
    (m.process = none ∧ event = .start p'.workflow p'.run ∧ p'.remaining = p'.workflow.steps) ∨
      ∃ p, m.process = some p ∧ p'.run = p.run ∧ p'.workflow = p.workflow ∧
        (p'.remaining = p.remaining ∨
          ∃ step, p.remaining = step :: p'.remaining ∧ step.stores = none)

theorem Continues.same {subscription subscription' : Option Subscription} {run : ℕ}
    {workflow : Workflow} {remaining : List Step} {phase phase' : Phase} {event : Event} :
    Continues ⟨subscription, some ⟨run, workflow, remaining, phase⟩⟩ event
      ⟨subscription', some ⟨run, workflow, remaining, phase'⟩⟩ := by
  rintro _ ⟨⟩
  exact .inr ⟨_, rfl, rfl, rfl, .inl rfl⟩

theorem Continues.advance {subscription subscription' : Option Subscription} {p : Process}
    {step : Step} {rest : List Step} {event : Event} (hremaining : p.remaining = step :: rest)
    (hstep : step.stores = none) :
    Continues ⟨subscription, some p⟩ event ⟨subscription', p.advance⟩ := by
  intro p' hp'
  have hadvanced := p.advance_eq_some hp'
  refine .inr ⟨p, rfl, hadvanced.run, hadvanced.workflow, .inr ⟨step, ?_, hstep⟩⟩
  rw [hadvanced.remaining, hremaining, List.tail_cons]

/-- What an event does to the input, one constructor for each way. -/
inductive Effect (m : Machine) : Event → Machine → List Request → Prop where
  | kept {event : Event} {m' : Machine} {requests : List Request} :
      KeepsInput m.subscription m'.subscription → Continues m event m' →
      (∀ body, .reserve body ∉ requests) → Effect m event m' requests
  | stored {p : Process} {step : Step} {rest : List Step} {submission : Submission} {env : StepEnv}
      {s : Subscription} :
      m.process = some p → p.remaining = step :: rest → step.stores = some submission →
      Stores env.inventory submission s.vc →
      s.vc.globalReservationId = globalReservationId env.uuid →
      Effect m (.run env) ⟨some s, p.advance⟩ []
  | reserved {event : Event} {m' : Machine} {p : Process} {condition : Condition}
      {ero : List String} {handler : Handler} {rest : List Step} {s : Subscription} :
      KeepsInput m.subscription m'.subscription → Continues m event m' →
      m.process = some p → m.subscription = some s →
      p.remaining = .callbackStep condition (.reserveConnection ero) handler :: rest →
      Effect m event m' [.reserve (reserveRequest ero s.vc)]

theorem Effect.of_fires {m m' : Machine} {event : Event} {requests : List Request}
    (h : Fires m event m' requests) : Effect m event m' requests := by
  have hnone : ∀ body, .reserve body ∉ ([] : List Request) := fun _ => List.not_mem_nil
  cases h with
  | start =>
      refine .kept (.refl _) ?_ hnone
      rintro _ ⟨⟩
      exact .inl ⟨rfl, rfl, rfl⟩
  | done hrun =>
      cases Step.done_of_run hrun with
      | constructed h =>
          refine .stored rfl rfl rfl (stores_of_constructed h) ?_
          obtain ⟨_, _, _, _, _, _, rfl⟩ := constructMdp2pModel_eq_ok.mp h
          rfl
      | updated h =>
          refine .stored rfl rfl rfl (stores_of_updated h) ?_
          obtain ⟨_, _, _, _, _, rfl⟩ := updateSubscription_eq_ok.mp h
          rfl
      | @reconciled s =>
          obtain ⟨state, lastError, description, heq, _⟩ := reconcileConnectionState_eq _ s
          rw [heq]
          exact .kept ⟨rfl, rfl, rfl, rfl⟩ (.advance rfl rfl) hnone
      | _ => exact .kept ⟨rfl, rfl, rfl, rfl⟩ (.advance rfl rfl) hnone
  | sent hrun | failed hrun =>
      obtain ⟨condition, action, handler, s, rfl, rfl, _, hperform⟩ := Step.run_awaiting hrun
      cases Action.performed_of_perform hperform with
      | reserved => exact .reserved ⟨rfl, rfl, rfl, rfl⟩ .same rfl rfl rfl
      | _ => exact .kept (.refl _) .same (by simp)
  | handled hprocess =>
      obtain ⟨_, _, _, _, rfl⟩ := Handler.process_frame hprocess
      exact .kept ⟨rfl, rfl, rfl, rfl⟩ (.advance rfl rfl) hnone
  | delivered => exact .kept (.refl _) .same hnone
  | refired => exact .kept (.refl _) .same hnone
  | aborted => exact .kept (.refl _) (fun _ h => nomatch h) hnone

/-! ## Where a process is in its workflow -/

theorem Workflow.submission_of_stores {workflow : Workflow} {step : Step} {submission : Submission}
    (hin : step ∈ workflow.steps) (hstores : step.stores = some submission) :
    workflow.submission = some submission := by
  cases workflow with
  | create | retryReservation =>
      simp only [steps, List.mem_cons, List.not_mem_nil, or_false] at hin
      rcases hin with rfl | rfl | rfl | rfl | rfl <;> first | exact hstores | cases hstores
  | _ =>
      simp only [steps, List.mem_cons, List.not_mem_nil, or_false] at hin
      rcases hin with rfl | rfl | rfl | rfl <;> cases hstores

theorem Workflow.reserve_step {workflow : Workflow} {condition : Condition} {ero : List String}
    {handler : Handler} {rest : List Step}
    (h : .callbackStep condition (.reserveConnection ero) handler :: rest <:+ workflow.steps) :
    ∃ submission, workflow.submission = some submission ∧ ero = submission.path.ero ∧
      condition = .always ∧ handler = .processReservationResult ∧ rest = [.setStatus .active] := by
  cases workflow with
  | create submission | retryReservation submission =>
      simp only [steps, List.suffix_cons_iff, List.cons.injEq, reduceCtorEq,
        Step.callbackStep.injEq,
        Action.reserveConnection.injEq, false_and, and_false, false_or, or_false,
        List.suffix_nil] at h
      obtain ⟨⟨rfl, rfl, rfl⟩, rfl⟩ := h
      exact ⟨submission, rfl, rfl, rfl, rfl, rfl⟩
  | _ => simp [steps, List.suffix_cons_iff] at h

/-- The process is at a place of its workflow, and past the step that stores its input the circuit
has that input. -/
structure Storing (P : Inventory → Prop) (m : Machine) : Prop where
  suffix : ∀ p, m.process = some p → p.remaining <:+ p.workflow.steps
  stored : ∀ p submission, m.process = some p → p.workflow.submission = some submission →
    (∀ step ∈ p.remaining, step.stores = none) →
      ∃ s inventory, m.subscription = some s ∧ P inventory ∧ Stores inventory submission s.vc

theorem Workflow.exists_stores {workflow : Workflow} {submission : Submission}
    (h : workflow.submission = some submission) :
    ∃ step ∈ workflow.steps, step.stores = some submission := by
  cases workflow with
  | create | retryReservation =>
      cases h
      simp [steps, Step.stores]
  | _ => cases h

theorem Continues.suffix {m m' : Machine} {event : Event} (h : Continues m event m')
    (hsuffix : ∀ p, m.process = some p → p.remaining <:+ p.workflow.steps) {p' : Process}
    (hp' : m'.process = some p') : p'.remaining <:+ p'.workflow.steps := by
  obtain ⟨_, _, hstart⟩ | ⟨p, hp, _, hworkflow, hsame | ⟨step, hcons, _⟩⟩ := h p' hp'
  · exact hstart ▸ List.suffix_refl _
  · exact hsame ▸ hworkflow ▸ hsuffix p hp
  · rw [hworkflow]
    exact (List.suffix_cons step _).trans (hcons ▸ hsuffix p hp)

theorem Continues.past {m m' : Machine} {event : Event} (h : Continues m event m') {p' : Process}
    {submission : Submission} (hp' : m'.process = some p')
    (hsubmission : p'.workflow.submission = some submission)
    (hpast : ∀ step ∈ p'.remaining, step.stores = none) :
    ∃ p, m.process = some p ∧ p'.run = p.run ∧ p'.workflow = p.workflow ∧
      p'.remaining ⊆ p.remaining ∧ ∀ step ∈ p.remaining, step.stores = none := by
  obtain ⟨_, _, hsteps⟩ | ⟨p, hp, hrun, hworkflow, hremaining⟩ := h p' hp'
  · obtain ⟨step, hin, hstores⟩ := Workflow.exists_stores hsubmission
    rw [hpast step (hsteps ▸ hin)] at hstores
    cases hstores
  · refine ⟨p, hp, hrun, hworkflow, ?_⟩
    obtain hsame | ⟨step, hcons, hstep⟩ := hremaining
    · exact hsame ▸ ⟨List.Subset.refl _, hpast⟩
    · rw [hcons]
      exact ⟨List.subset_cons_self _ _, List.forall_mem_cons.mpr ⟨hstep, hpast⟩⟩

theorem Storing.blank (P : Inventory → Prop) : Storing P Machine.blank where
  suffix _ h := nomatch h
  stored _ _ h := nomatch h

theorem Storing.fires {P : Inventory → Prop} {m m' : Machine} {event : Event}
    {requests : List Request} (hstoring : Storing P m)
    (hinventory : ∀ env, event = .run env → P env.inventory) (hfires : Fires m event m' requests) :
    Storing P m' := by
  have hkept : KeepsInput m.subscription m'.subscription → Continues m event m' →
      Storing P m' := by
    intro hkeeps hcontinues
    refine ⟨fun p' hp' => hcontinues.suffix hstoring.suffix hp', ?_⟩
    intro p' submission hp' hsubmission hpast
    obtain ⟨p, hp, _, hworkflow, _, hpast⟩ := hcontinues.past hp' hsubmission hpast
    obtain ⟨s, inventory, hs, hP, hstores⟩ :=
      hstoring.stored p submission hp (hworkflow ▸ hsubmission) hpast
    obtain ⟨t, ht, hsame⟩ := hkeeps.exists_after hs
    exact ⟨t, inventory, ht, hP, hsame.stores hstores⟩
  cases Effect.of_fires hfires with
  | kept hkeeps hcontinues _ => exact hkept hkeeps hcontinues
  | reserved hkeeps hcontinues _ _ _ => exact hkept hkeeps hcontinues
  | stored hp hremaining hsubmission hstores _ =>
      have hsuffix := hremaining ▸ hstoring.suffix _ hp
      refine ⟨?_, ?_⟩
      · intro q hq
        have hadvanced := Process.advance_eq_some hq
        rw [hadvanced.remaining, hadvanced.workflow, hremaining]
        exact (List.suffix_cons _ _).trans hsuffix
      · intro q submission' hq hsubmission' _
        have heq := Workflow.submission_of_stores (hsuffix.mem List.mem_cons_self) hsubmission
        rw [(Process.advance_eq_some hq).workflow, heq] at hsubmission'
        cases hsubmission'
        exact ⟨_, _, rfl, hinventory _ rfl, hstores⟩

/-- The inventory a step finds. -/
def FindsInventory (P : Inventory → Prop) (event : Event) : Prop :=
  ∀ env, event = .run env → P env.inventory

theorem storing_of_reachable {P : Inventory → Prop} {m : Machine}
    (h : (circuit.restrict fun _ event => FindsInventory P event).Reachable m) : Storing P m := by
  refine h.invariant ?_ ?_
  · rintro _ rfl
    exact Storing.blank P
  · rintro _ event _ hstoring ⟨hfinds, sent, hnext⟩
    exact hstoring.fires hfinds (fires_of_next hnext)

theorem suffix_of_circuit {m : Machine} (h : circuit.Reachable m) {p : Process}
    (hp : m.process = some p) : p.remaining <:+ p.workflow.steps := by
  have hstoring : Storing (fun _ => True) m :=
    storing_of_reachable (h.restrict fun _ _ _ _ => trivial)
  exact hstoring.suffix p hp

end NsiOrchestrator.Mdp2p
