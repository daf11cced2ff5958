import NsiOrchestrator.Mdp2p.Aggregator

/-! # A circuit and its reservation

The reservation under the global reservation id a circuit stores is in one of five
places: forgotten after a retry terminated it, not heard of yet, held without work on
it, asked for something, or heard of by a result that is not handled yet.
-/

namespace NsiOrchestrator.Mdp2p

open Outcome Forms Vlans Transition

/-! ## The requests of a workflow -/

def Action.outcomes : Action → List String
  | reserveConnection _ | releaseConnection => [ConnectionState.reserved, ConnectionState.failed]
  | provisionConnection => [ConnectionState.activated, ConnectionState.failed]
  | terminateConnection => [ConnectionState.terminated]

def Action.handlers : Action → List Handler
  | reserveConnection _ => [.processReservationResult]
  | provisionConnection => [.processProvisionResult]
  | releaseConnection => [.processReleaseResult]
  | terminateConnection => terminateHandlers

theorem Action.Performed.outcomes {connectionId : String} {s t : Subscription} {action : Action}
    {request : Request} (h : action.Performed connectionId s t request) :
    request.outcomes = action.outcomes := by
  cases h <;> rfl

theorem Workflow.handler_mem {workflow : Workflow} {condition : Condition} {action : Action}
    {handler : Handler} {rest : List Step}
    (h : .callbackStep condition action handler :: rest <:+ workflow.steps) :
    handler ∈ action.handlers := by
  cases workflow <;> simp [steps, List.suffix_cons_iff] at h <;>
    grind [Action.handlers, terminateHandlers]

def AtReserve (remaining : List Step) : Prop :=
  ∃ condition ero handler rest,
    remaining = .callbackStep condition (.reserveConnection ero) handler :: rest

theorem Workflow.before_reserve {workflow : Workflow} {step : Step} {rest : List Step}
    (h : step :: rest <:+ workflow.steps) (hrest : AtReserve rest) : step.stores ≠ none := by
  obtain ⟨condition, ero, handler, rest, rfl⟩ := hrest
  cases workflow <;> simp [steps, List.suffix_cons_iff] at h <;> simp [h, Step.stores]

def Ending (process : Option Process) : Prop :=
  ∃ p, process = some p ∧ p.remaining = [.setStatus .terminated]

theorem Workflow.steps_not_reserve (workflow : Workflow) : ¬ AtReserve workflow.steps := by
  rintro ⟨condition, ero, handler, rest, h⟩
  cases workflow <;> simp [steps] at h

theorem Workflow.before_ending {workflow : Workflow} {step : Step} {rest : List Step}
    (h : step :: rest <:+ workflow.steps) :
    rest = [.setStatus .terminated] ↔ ∃ condition action,
      step = .callbackStep condition action .processTerminateResult := by
  cases workflow <;> simp [steps, List.suffix_cons_iff] at h <;> grind

theorem Workflow.skipped_ending {workflow : Workflow} {condition : Condition} {action : Action}
    {handler : Handler} {rest : List Step}
    (h : .callbackStep condition action handler :: rest <:+ workflow.steps)
    (hrest : rest = [.setStatus .terminated]) : condition = .stillAtAggregator := by
  cases workflow <;> simp [steps, List.suffix_cons_iff, hrest] at h
  exact h.1

theorem Workflow.steps_ne_ending (workflow : Workflow) :
    workflow.steps ≠ [.setStatus .terminated] := by
  cases workflow <;> simp [steps]

theorem Handler.process_status {action : Action} {handler : Handler} {result : CallbackResult}
    {status : String} {s t : Subscription} (hhandler : handler ∈ action.handlers)
    (hstatus : result.status = some status) (hin : status ∈ action.outcomes)
    (h : handler.process result s = .ok t) :
    (t.vc.connectionId = s.vc.connectionId ∧ t.vc.state = status) ∨
      (t.vc.connectionId = none ∧ status = ConnectionState.terminated) := by
  have hresult : ∀ {wanted confirmed failed},
      (∀ source target, (source, target) ∈ FsmEvent.transitions confirmed → target = wanted) →
      (∀ source target, (source, target) ∈ FsmEvent.transitions failed →
        target = ConnectionState.failed) →
      status ∈ [wanted, ConnectionState.failed] →
      processResult wanted confirmed failed result s = .ok t →
        t.vc.connectionId = s.vc.connectionId ∧ t.vc.state = status := by
    intro wanted confirmed failed hconfirmed hfailed hin h
    obtain ⟨status', state, hstatus', htransition, rfl⟩ := processResult_eq_ok.mp h
    obtain rfl : status = status' := Option.some.inj (hstatus.symm.trans hstatus')
    refine ⟨rfl, ?_⟩
    split at htransition
    · next hwanted => exact (hconfirmed _ _ htransition).trans hwanted.symm
    · next hwanted =>
        rcases List.mem_pair.mp hin with rfl | rfl
        · exact absurd rfl hwanted
        · exact hfailed _ _ htransition
  have hsingle : ∀ {event : FsmEvent} {source target : String},
      event.transitions = [(source, target)] →
        ∀ source' target', (source', target') ∈ event.transitions → target' = target := by
    intro event source target hevent source' target' hin
    rw [hevent] at hin
    exact (Prod.mk.inj (List.mem_singleton.mp hin)).2
  cases action with
  | reserveConnection | provisionConnection | releaseConnection =>
      obtain rfl := List.mem_singleton.mp hhandler
      exact .inl (hresult (hsingle rfl) (hsingle rfl) hin h)
  | terminateConnection =>
      obtain rfl := List.mem_singleton.mp hin
      rcases List.mem_pair.mp hhandler with rfl | rfl
      · obtain ⟨_, rfl⟩ := (processTerminateResult_eq_ok result).mp h
        exact .inl ⟨rfl, rfl⟩
      · cases h
        exact .inr ⟨rfl, rfl⟩

theorem Handler.Pre.notTerminated {action : Action} {handler : Handler} {s : Subscription}
    (hhandler : handler ∈ action.handlers)
    (hopen : ConnectionState.terminated ∉ action.outcomes) (h : handler.Pre s) :
    s.vc.state ≠ ConnectionState.terminated := by
  cases action with
  | reserveConnection | provisionConnection | releaseConnection =>
      obtain rfl := List.mem_singleton.mp hhandler
      have hstate : s.vc.state = _ := h
      rw [hstate]
      decide
  | terminateConnection => exact absurd (List.mem_singleton_self _) hopen

/-! ## Where the reservation is -/

/-- The place of the reservation under the id a circuit stores. -/
inductive Placed (process : Option Process) (s : Subscription) (r : AggregatorReservation)
    (operation : Option Request) : Prop where
  /-- A retry terminated it and has not stored a new id yet. -/
  | forgotten : s.vc.connectionId = none → (∀ p, process = some p → ¬ AtReserve p.remaining) →
      operation = none → r.status = ConnectionState.terminated →
      Placed process s r operation
  /-- The reserve was sent, and failed before its answer was stored. -/
  | unheard {p : Process} : s.vc.connectionId = none → process = some p →
      AtReserve p.remaining → p.phase = .ready →
      (∀ request ∈ operation, ConnectionState.terminated ∉ request.outcomes) →
      r.status ≠ ConnectionState.terminated → Placed process s r operation
  /-- No request may be on its way: the circuit has the state of the reservation. -/
  | quiet : s.vc.connectionId = some r.connectionId →
      (∀ p, process = some p → ¬ AtCallback p.remaining (some s)) →
      operation = none → r.status = s.vc.state → Placed process s r operation
  /-- A request may be on its way. -/
  | asked {p : Process} {condition : Condition} {action : Action} {handler : Handler}
      {rest : List Step} :
      s.vc.connectionId = some r.connectionId → process = some p →
      p.remaining = .callbackStep condition action handler :: rest → condition.holds s.vc →
      (∀ result, p.phase ≠ .received result) →
      (∀ request ∈ operation, request.outcomes = action.outcomes) →
      (ConnectionState.terminated ∉ action.outcomes →
        r.status ≠ ConnectionState.terminated) → Placed process s r operation
  /-- The result was posted and is not handled yet. -/
  | heard {p : Process} {condition : Condition} {action : Action} {handler : Handler}
      {rest : List Step} {result : CallbackResult} :
      s.vc.connectionId = some r.connectionId → process = some p →
      p.remaining = .callbackStep condition action handler :: rest → condition.holds s.vc →
      p.phase = .received result → operation = none → result.status = some r.status →
      r.status ∈ action.outcomes → Placed process s r operation

section Own

variable {m m' : Machine} {s s' : Subscription} {r : AggregatorReservation}

/-- A circuit that has the state of its reservation before its next step. -/
theorem Placed.settle (hm : circuit.Reachable m) (hs : m.subscription = some s)
    (hready : ∀ p, m.process = some p → p.phase = .ready)
    (hconnection : s.vc.connectionId = some r.connectionId) (hstatus : r.status = s.vc.state) :
    Placed m.process s r none := by
  by_cases hcallback : ∃ p, m.process = some p ∧ AtCallback p.remaining (some s)
  · obtain ⟨p, hp, condition, action, handler, rest, _, hremaining, ⟨⟩, hholds⟩ := hcallback
    refine .asked hconnection hp hremaining hholds ?_ (by simp) ?_
    · intro result hphase
      rw [hready p hp] at hphase
      cases hphase
    · intro hopen
      have hsuffix := hremaining ▸ suffix_of_circuit hm hp
      have hplan := (inv_of_circuit hm).plan p hp
      rw [hremaining, hs] at hplan
      rw [hstatus]
      exact (hplan.head.2 hholds).2.notTerminated (Workflow.handler_mem hsuffix) hopen
  · exact .quiet hconnection (fun p hp hat => hcallback ⟨p, hp, hat⟩) rfl hstatus

theorem Step.Done.keeps {env : StepEnv} {step : Step} (h : step.Done env (some s) s')
    (hstores : step.stores = none) :
    SameInput s s' ∧ s'.vc.connectionId = s.vc.connectionId ∧
      (s'.vc.state = s.vc.state ∨
        step = .reconcileConnectionState ∧ s'.vc.state = env.reservation.status) := by
  cases h with
  | constructed | updated => cases hstores
  | reconciled =>
      obtain ⟨state, lastError, description, heq, hstate⟩ :=
        reconcileConnectionState_eq env.reservation s
      rw [heq]
      exact ⟨⟨rfl, rfl, rfl, rfl⟩, rfl, hstate.imp_right fun h => ⟨rfl, h.1⟩⟩
  | _ => exact ⟨⟨rfl, rfl, rfl, rfl⟩, rfl, .inl rfl⟩

theorem Step.Done.skip {env : StepEnv} {condition : Condition} {action : Action}
    {handler : Handler} (h : Step.Done env (.callbackStep condition action handler) (some s) s') :
    s' = s ∧ condition.holds s.vc = false := by
  cases h with
  | skipped hholds => exact ⟨rfl, hholds⟩

theorem Placed.done {service : Service} {a : Aggregator} {p : Process} {step : Step}
    {rest : List Step} {env : StepEnv} (hservice : service.Lawful) (hm : circuit.Reachable m)
    (hp : m.process = some p) (hremaining : p.remaining = step :: rest)
    (hs : m.subscription = some s) (hdone : step.Done env (some s) s')
    (hm' : circuit.Reachable ⟨some s', p.advance⟩) (hreads : service.Reads a m env)
    (hconnections : ∀ q ∈ a.reservations, q.connectionId = r.connectionId → q = r)
    (hstores : step.stores = none) (h : Placed m.process s r (a.operations r.connectionId)) :
    Placed p.advance s' r (a.operations r.connectionId) := by
  obtain ⟨_, hconnection, hstate⟩ := hdone.keeps hstores
  have hsuffix := hremaining ▸ suffix_of_circuit hm hp
  -- A step whose request may be on its way is not skipped.
  have hskip : ∀ {condition action handler rest'},
      p.remaining = .callbackStep condition action handler :: rest' →
        ¬ condition.holds s.vc := by
    intro condition action handler rest' heq hholds
    obtain ⟨rfl, rfl⟩ := List.cons_eq_cons.mp (hremaining.symm.trans heq)
    rw [hdone.skip.2] at hholds
    cases hholds
  cases h with
  | forgotten hnone _ hop hstatus =>
      refine .forgotten (hconnection.trans hnone) (fun q hq hat => ?_) hop hstatus
      rw [(p.advance_eq_some hq).remaining, hremaining, List.tail_cons] at hat
      exact Workflow.before_reserve hsuffix hat hstores
  | unheard _ hp' hat =>
      cases hp.symm.trans hp'
      obtain ⟨condition, ero, handler, rest', heq⟩ := hat
      obtain ⟨_, _, _, rfl, _⟩ := Workflow.reserve_step (heq ▸ suffix_of_circuit hm hp)
      exact absurd rfl (hskip heq)
  | quiet hheld _ hop hstatus =>
      rw [hop]
      refine .settle hm' rfl (fun q hq => (p.advance_eq_some hq).phase)
        (hconnection.trans hheld) ?_
      obtain hsame | ⟨rfl, hanswered⟩ := hstate
      · exact hstatus.trans hsame.symm
      · obtain ⟨hin, hread⟩ := hservice.returns (hreads p rest s hp hremaining hs)
        have hr : env.reservation = r :=
          hconnections _ hin (Option.some.inj (hread.symm.trans hheld))
        rw [hanswered, hr]
  | asked _ hp' heq hholds =>
      cases hp.symm.trans hp'
      exact absurd hholds (hskip heq)
  | heard _ hp' heq hholds =>
      cases hp.symm.trans hp'
      exact absurd hholds (hskip heq)

/-- A result that is handled gives the circuit the state of its reservation, or the reservation
is forgotten. -/
theorem Placed.handled {operation : Option Request} {p : Process} {condition : Condition}
    {action : Action} {handler : Handler} {rest : List Step} {result : CallbackResult}
    (hm : circuit.Reachable m) (hp : m.process = some p)
    (hremaining : p.remaining = .callbackStep condition action handler :: rest)
    (hphase : p.phase = .received result) (hs : m.subscription = some s)
    (hprocess : handler.process result s = .ok s')
    (hm' : circuit.Reachable ⟨some s', p.advance⟩) (h : Placed m.process s r operation) :
    Placed p.advance s' r operation := by
  have hsuffix := hremaining ▸ suffix_of_circuit hm hp
  have hreserve : ∀ q, p.advance = some q → ¬ AtReserve q.remaining := by
    intro q hq hat
    rw [(p.advance_eq_some hq).remaining, hremaining, List.tail_cons] at hat
    exact Workflow.before_reserve hsuffix hat rfl
  cases h with
  | forgotten hnone _ hop hstatus =>
      refine .forgotten ?_ hreserve hop hstatus
      cases hc : s'.vc.connectionId with
      | none => rfl
      | some c => cases hnone.symm.trans (Handler.process_keeps hprocess hc)
  | unheard _ hp' _ hready =>
      cases hp.symm.trans hp'
      cases hphase.symm.trans hready
  | quiet _ hquiet =>
      have hat := (inv_of_circuit hm).sent p hp (by rw [hphase]; simp)
      exact absurd (hs ▸ hat) (hquiet p hp)
  | asked _ hp' _ _ hwaits =>
      cases hp.symm.trans hp'
      exact absurd hphase (hwaits result)
  | heard hheld hp' heq _ hposted hop hresult hin =>
      cases hp.symm.trans hp'
      cases hremaining.symm.trans heq
      cases hphase.symm.trans hposted
      subst hop
      obtain ⟨hkept, hstate⟩ | ⟨hnone, hterminated⟩ :=
        Handler.process_status (Workflow.handler_mem hsuffix) hresult hin hprocess
      · exact .settle hm' rfl (fun q hq => (p.advance_eq_some hq).phase) (hkept.trans hheld)
          hstate.symm
      · exact .forgotten hnone hreserve rfl hterminated

theorem Placed.started {operation : Option Request} {workflow : Workflow} {run : ℕ}
    (hm : circuit.Reachable ⟨some s, some ⟨run, workflow, workflow.steps, .ready⟩⟩)
    (h : Placed none s r operation) :
    Placed (some ⟨run, workflow, workflow.steps, .ready⟩) s r operation := by
  cases h with
  | forgotten hnone _ hop hstatus =>
      refine .forgotten hnone ?_ hop hstatus
      rintro _ ⟨⟩
      exact workflow.steps_not_reserve
  | quiet hheld _ hop hstatus =>
      subst hop
      refine .settle hm rfl ?_ hheld hstatus
      rintro _ ⟨⟩
      rfl
  | unheard _ hp | asked _ hp | heard _ hp => cases hp

theorem Placed.refired {operation : Option Request} {p : Process}
    (h : Placed (some p) s r operation) (hphase : p.phase ≠ .ready) :
    Placed (some { p with phase := .ready }) s r operation := by
  cases h with
  | forgotten hnone hat hop hstatus =>
      refine .forgotten hnone ?_ hop hstatus
      rintro _ ⟨⟩
      exact hat p rfl
  | unheard _ hp _ hready =>
      cases hp
      exact absurd hready hphase
  | quiet hheld hat hop hstatus =>
      refine .quiet hheld ?_ hop hstatus
      rintro _ ⟨⟩
      exact hat p rfl
  | asked hheld hp heq hholds _ hop hopen =>
      cases hp
      exact .asked hheld rfl heq hholds (by simp) hop hopen
  | heard hheld hp heq hholds _ hop _ hin =>
      cases hp
      refine .asked hheld rfl heq hholds (by simp) (by simp [hop]) fun hopen hterminated => ?_
      exact hopen (hterminated ▸ hin)

theorem Placed.aborted {operation : Option Request} {p : Process} (hm : circuit.Reachable m)
    (hp : m.process = some p) (hat : ¬ AtCallback p.remaining (some s))
    (h : Placed m.process s r operation) : Placed none s r operation := by
  have hnothing : ∀ {P : Process → Prop} q, (none : Option Process) = some q → P q := by
    intro P q hq
    cases hq
  have hnot : ∀ {condition action handler rest q}, m.process = some q →
      q.remaining = .callbackStep condition action handler :: rest → ¬ condition.holds s.vc := by
    intro condition action handler rest q hq heq hholds
    cases hp.symm.trans hq
    exact hat ⟨condition, action, handler, rest, s, heq, rfl, hholds⟩
  cases h with
  | forgotten hnone _ hop hstatus => exact .forgotten hnone hnothing hop hstatus
  | unheard _ hq hreserve =>
      obtain ⟨condition, ero, handler, rest, heq⟩ := hreserve
      obtain ⟨_, _, _, rfl, _⟩ := Workflow.reserve_step (heq ▸ suffix_of_circuit hm hq)
      exact absurd rfl (hnot hq heq)
  | quiet hheld _ hop hstatus => exact .quiet hheld hnothing hop hstatus
  | asked _ hq heq hholds => exact absurd hholds (hnot hq heq)
  | heard _ hq heq hholds => exact absurd hholds (hnot hq heq)

theorem Placed.posted {operation : Option Request} {p : Process} {request : Request}
    {result : CallbackResult} (hm : circuit.Reachable m) (hp : m.process = some p)
    (hphase : p.phase = .awaiting) (hs : m.subscription = some s)
    (hheld : s.vc.connectionId = some r.connectionId) (hop : operation = some request)
    (hin : r.status ∈ request.outcomes) (hresult : result.status = some r.status)
    (h : Placed m.process s r operation) :
    Placed (some { p with phase := .received result }) s r none := by
  cases h with
  | forgotten hnone => cases hnone.symm.trans hheld
  | unheard hnone => cases hnone.symm.trans hheld
  | quiet _ hquiet =>
      have hat := (inv_of_circuit hm).sent p hp (by rw [hphase]; simp)
      exact absurd (hs ▸ hat) (hquiet p hp)
  | asked _ hq heq hholds _ houtcomes _ =>
      cases hp.symm.trans hq
      exact .heard hheld rfl heq hholds rfl rfl hresult (houtcomes request hop ▸ hin)
  | heard _ hq _ _ hposted =>
      cases hp.symm.trans hq
      cases hphase.symm.trans hposted

theorem Placed.requested {a a' : Aggregator} {p : Process} {condition : Condition}
    {action : Action} {handler : Handler} {rest : List Step} {request : Request}
    {answer : String} {phase : Phase}
    (hremaining : p.remaining = .callbackStep condition action handler :: rest)
    (hholds : condition.holds s.vc) (hready : p.phase = .ready)
    (hphase : ∀ result, phase ≠ .received result) (haction : ∀ ero, action ≠ .reserveConnection ero)
    (hrequest : ∀ body, request ≠ .reserve body)
    (haddressee : request.addressee = s.vc.connectionId)
    (houtcomes : request.outcomes = action.outcomes) (hreceives : a.Receives request answer a')
    (h : Placed (some p) s r (a.operations r.connectionId)) :
    Placed (some { p with phase := phase }) s r (a'.operations r.connectionId) := by
  cases h with
  | forgotten hnone hat hop hstatus =>
      have hsame : a' = a := by
        cases hreceives with
        | reserved | deduplicated => exact absurd rfl (hrequest _)
        | addressed hto => cases hto.symm.trans (haddressee.trans hnone)
        | unaddressed => rfl
      refine .forgotten hnone ?_ (hsame ▸ hop) hstatus
      rintro _ ⟨⟩
      exact hat p rfl
  | unheard _ hp hat =>
      cases hp
      obtain ⟨_, ero, _, _, heq⟩ := hat
      cases hremaining.symm.trans heq
      exact absurd rfl (haction ero)
  | quiet _ hquiet =>
      exact absurd ⟨condition, action, handler, rest, s, hremaining, rfl, hholds⟩ (hquiet p rfl)
  | asked hheld hp heq _ _ _ hopen =>
      cases hp
      cases hremaining.symm.trans heq
      refine .asked hheld rfl hremaining hholds hphase ?_ hopen
      cases hreceives with
      | reserved | deduplicated => exact absurd rfl (hrequest _)
      | addressed hto =>
          obtain rfl := Option.some.inj (hto.symm.trans (haddressee.trans hheld))
          simpa using houtcomes
      | unaddressed => cases haddressee.trans hheld
  | heard _ hp _ _ hposted =>
      cases hp
      cases hready.symm.trans hposted

/-- The reservation that answers a reserve is not terminated, and no other one has its id. -/
theorem Placed.answered {a a' : Aggregator} {sent : List SentReserve} {p : Process}
    {condition : Condition} {ero : List String} {handler : Handler} {rest : List Step}
    {answer : String} {r' : AggregatorReservation} (hlisted : Listed a.reservations sent)
    (hremaining : p.remaining =
      .callbackStep condition (.reserveConnection ero) handler :: rest)
    (hholds : condition.holds s.vc) (hready : p.phase = .ready)
    (hknown : ∀ c, s.vc.connectionId = some c → ∃ q ∈ a.reservations, q.connectionId = c ∧
      q.globalReservationId = some s.vc.globalReservationId)
    (hreceives : a.Receives (.reserve (reserveRequest ero s.vc)) answer a')
    (h : ∀ q ∈ a.reservations, q.globalReservationId = some s.vc.globalReservationId →
      Placed (some p) s q (a.operations q.connectionId))
    (hr : r' ∈ a'.reservations)
    (hid : r'.globalReservationId = some s.vc.globalReservationId) :
    r'.connectionId = answer ∧ r'.status ≠ ConnectionState.terminated ∧
      a'.operations answer = some (.reserve (reserveRequest ero s.vc)) ∧
      (s.vc.connectionId = none ∨ s.vc.connectionId = some answer) := by
  cases hreceives with
  | @reserved _ r hnew _ _ _ hopen =>
      rcases List.mem_cons.mp hr with rfl | hr
      · refine ⟨rfl, hopen, by simp, .inl ?_⟩
        cases hc : s.vc.connectionId with
        | none => rfl
        | some c =>
            obtain ⟨q, hq, _, hqid⟩ := hknown c hc
            exact absurd hqid (hnew q hq).2
      · exact absurd hid (hnew r' hr).2
  | @deduplicated _ r hin hrid =>
      obtain rfl : r' = r := hlisted.ids r' hr r hin (hid.trans hrid.symm)
      have hplace := h r' hin hid
      refine ⟨rfl, ?_, by simp, ?_⟩
      · cases hplace with
        | forgotten _ hat => exact absurd ⟨_, _, _, _, hremaining⟩ (hat p rfl)
        | unheard _ _ _ _ _ hopen => exact hopen
        | quiet _ hquiet =>
            exact absurd ⟨_, _, _, _, s, hremaining, rfl, hholds⟩ (hquiet p rfl)
        | asked _ hp heq _ _ _ hopen =>
            cases hp
            cases hremaining.symm.trans heq
            exact hopen (show ConnectionState.terminated ∉
              [ConnectionState.reserved, ConnectionState.failed] by decide)
        | heard _ hp _ _ hposted =>
            cases hp
            cases hready.symm.trans hposted
      · cases hplace with
        | forgotten hnone => exact .inl hnone
        | unheard hnone => exact .inl hnone
        | quiet hheld => exact .inr hheld
        | asked hheld => exact .inr hheld
        | heard hheld => exact .inr hheld
  | addressed hto => cases hto

theorem Placed.progress {a : Aggregator} {process : Option Process} {r' : AggregatorReservation}
    (hprogress : a.Progresses r r')
    (h : Placed process s r (a.operations r.connectionId)) :
    Placed process s r' (a.operations r'.connectionId) := by
  -- Without a request that is worked on the status stays.
  have hidle : a.operations r.connectionId = none → r'.status = r.status := by
    intro hop
    obtain hsame | ⟨request, hrequest, _⟩ := hprogress.status
    · exact hsame
    · cases hop.symm.trans hrequest
  rw [hprogress.connectionId]
  cases h with
  | forgotten hnone hat hop hstatus =>
      exact .forgotten hnone hat hop ((hidle hop).trans hstatus)
  | unheard hnone hp hat hready houtcomes hopen =>
      refine .unheard hnone hp hat hready houtcomes ?_
      obtain hsame | ⟨request, hrequest, hterminated⟩ := hprogress.status
      · exact hsame ▸ hopen
      · exact fun hstatus => houtcomes request hrequest (hterminated hstatus)
  | quiet hheld hat hop hstatus =>
      exact .quiet (hprogress.connectionId ▸ hheld) hat hop ((hidle hop).trans hstatus)
  | asked hheld hp heq hholds hphase houtcomes hopen =>
      refine .asked (hprogress.connectionId ▸ hheld) hp heq hholds hphase houtcomes fun hnot => ?_
      obtain hsame | ⟨request, hrequest, hterminated⟩ := hprogress.status
      · exact hsame ▸ hopen hnot
      · exact fun hstatus => hnot (houtcomes request hrequest ▸ hterminated hstatus)
  | heard hheld hp heq hholds hphase hop hresult hin =>
      exact .heard (hprogress.connectionId ▸ hheld) hp heq hholds hphase hop
        ((hidle hop).symm ▸ hresult) ((hidle hop).symm ▸ hin)

end Own

/-! ## Terminated circuits -/

/-- A circuit that is terminated, or about to be, has the state. -/
def Closed (m : Machine) : Prop :=
  ∀ s, m.subscription = some s → s.lifecycle = .terminated ∨ Ending m.process →
    s.vc.state = ConnectionState.terminated

theorem Step.Done.terminates {env : StepEnv} {step : Step} {before : Option Subscription}
    {t : Subscription} (h : step.Done env before t)
    (halive : ∀ s, before = some s → s.lifecycle ≠ .terminated)
    (hterminated : t.lifecycle = .terminated) :
    step = .setStatus .terminated ∧ ∃ s, before = some s ∧ t.vc = s.vc := by
  cases h with
  | constructed hconstruct =>
      obtain ⟨_, _, _, _, _, _, rfl⟩ := constructMdp2pModel_eq_ok.mp hconstruct
      cases hterminated
  | statusSet =>
      obtain rfl := hterminated
      exact ⟨rfl, _, rfl, rfl⟩
  | @updated _ s _ hupdate =>
      obtain ⟨_, _, _, _, _, rfl⟩ := updateSubscription_eq_ok.mp hupdate
      exact absurd hterminated (halive s rfl)
  | @reconciled s =>
      obtain ⟨_, _, _, heq, _⟩ := reconcileConnectionState_eq env.reservation s
      rw [heq] at hterminated
      exact absurd hterminated (halive s rfl)
  | @described _ s | @redescribed s => exact absurd hterminated (halive s rfl)
  | skipped => exact absurd hterminated (halive t rfl)

theorem Ending.before {p : Process} {step : Step} {rest : List Step}
    (hsuffix : p.remaining <:+ p.workflow.steps) (hremaining : p.remaining = step :: rest)
    (h : Ending p.advance) : rest = [.setStatus .terminated] ∧ ∃ condition action,
      step = .callbackStep condition action .processTerminateResult := by
  obtain ⟨q, hq, hending⟩ := h
  rw [(p.advance_eq_some hq).remaining, hremaining, List.tail_cons] at hending
  exact ⟨hending, (Workflow.before_ending (hremaining ▸ hsuffix)).mp hending⟩

/-- The terminate gives the state, or is skipped because of it. -/
theorem Closed.fires {m m' : Machine} {event : Event} {requests : List Request} (h : Closed m)
    (hsuffix : ∀ p, m.process = some p → p.remaining <:+ p.workflow.steps) (halive : Alive m)
    (hfires : Fires m event m' requests) : Closed m' := by
  cases hfires with
  | @start subscription workflow run =>
      rintro s rfl (hlifecycle | ⟨_, ⟨⟩, hending⟩)
      · exact h s rfl (.inl hlifecycle)
      · exact absurd hending workflow.steps_ne_ending
  | @done before run workflow step rest env after hrun =>
      have hdone := Step.done_of_run hrun
      rintro _ ⟨⟩ (hlifecycle | hending)
      · obtain ⟨rfl, s, rfl, hvc⟩ := hdone.terminates (fun s => halive _ s rfl) hlifecycle
        obtain rfl := Workflow.terminated_last (hsuffix _ rfl)
        exact hvc ▸ h s rfl (.inr ⟨_, rfl, rfl⟩)
      · obtain ⟨rfl, condition, action, rfl⟩ := hending.before (hsuffix _ rfl) rfl
        obtain rfl := Workflow.skipped_ending (hsuffix _ rfl) rfl
        cases hdone with
        | skipped hholds => simpa [Condition.holds] using hholds
  | sent hrun =>
      obtain ⟨_, _, _, s, rfl, rfl, _, hperform⟩ := Step.run_awaiting hrun
      have hopen := halive _ s rfl rfl
      rintro _ ⟨⟩ (hlifecycle | ⟨_, ⟨⟩, ⟨⟩⟩)
      cases Action.performed_of_perform hperform with
      | reserved => exact absurd hlifecycle hopen
      | _ => exact absurd hlifecycle hopen
  | @handled s after run workflow condition action handler rest result env hprocess =>
      rintro _ ⟨⟩ (hlifecycle | hending)
      · obtain ⟨_, _, _, _, rfl⟩ := Handler.process_frame hprocess
        exact absurd hlifecycle (halive _ s rfl rfl)
      · obtain ⟨_, _, _, heq⟩ := hending.before (hsuffix _ rfl) rfl
        cases heq
        obtain ⟨_, rfl⟩ := (processTerminateResult_eq_ok result).mp hprocess
        rfl
  | failed | delivered | refired =>
      rintro s rfl (hlifecycle | ⟨_, ⟨⟩, hending⟩)
      · exact h s rfl (.inl hlifecycle)
      · exact h s rfl (.inr ⟨_, rfl, hending⟩)
  | aborted =>
      rintro s rfl (hlifecycle | ⟨_, ⟨⟩, _⟩)
      exact h s rfl (.inl hlifecycle)

end NsiOrchestrator.Mdp2p
