import NsiOrchestrator.Mdp2p.Placing
import NsiOrchestrator.Mdp2p.Validate

/-! # Any set of circuits and their aggregator

Circuits and the aggregator side by side, in any order of steps, requests, results and
lost answers. A circuit without an open process has the state of its reservation.
-/

namespace NsiOrchestrator.Mdp2p

open Outcome Forms Vlans Transition

/-! ## One circuit and the aggregator -/

/-- What a circuit stores agrees with the list of the aggregator. -/
structure InStep (a : Aggregator) (m : Machine) : Prop where
  known : ∀ s c, m.subscription = some s → s.vc.connectionId = some c →
    ∃ r ∈ a.reservations, r.connectionId = c ∧
      r.globalReservationId = some s.vc.globalReservationId
  placed : ∀ s, m.subscription = some s → ∀ r ∈ a.reservations,
    r.globalReservationId = some s.vc.globalReservationId →
      Placed m.process s r (a.operations r.connectionId)
  criteria : ∀ s, m.subscription = some s → ∀ r ∈ a.reservations,
    r.globalReservationId = some s.vc.globalReservationId →
      r.criteria = some (reserveRequest [] s.vc).criteria

/-- What an event of a circuit leaves alone: every reservation but the one under its id. A
reservation whose id the circuit replaces is terminated. -/
structure Aside (a a' : Aggregator) (m m' : Machine) : Prop where
  grows : a.reservations ⊆ a'.reservations
  others : ∀ r ∈ a'.reservations,
    (r ∈ a.reservations ∧ a'.operations r.connectionId = a.operations r.connectionId) ∨
      r.globalReservationId = m'.reservationId
  left : ∀ r ∈ a.reservations, r.globalReservationId = m.reservationId →
    r.globalReservationId = m'.reservationId ∨
      r.status = ConnectionState.terminated ∧ a'.operations r.connectionId = none

theorem Aside.same {a : Aggregator} {m m' : Machine} (h : m'.reservationId = m.reservationId) :
    Aside a a m m' where
  grows := List.Subset.refl _
  others _ hr := .inl ⟨hr, rfl⟩
  left _ _ hid := .inl (hid.trans h.symm)

theorem SameInput.criteria {s t : Subscription} (h : SameInput s t) :
    (reserveRequest [] t.vc).criteria = (reserveRequest [] s.vc).criteria := by
  simp [reserveRequest, reserve, ReserveBody.criteria, h.saps, h.speed]

section Step

variable {a a' : Aggregator} {m m' : Machine} {sent : List SentReserve}

theorem InStep.kept {s s' : Subscription} (h : InStep a m)
    (hlist : a'.reservations = a.reservations) (hs : m.subscription = some s)
    (hs' : m'.subscription = some s') (hinput : SameInput s s')
    (hconnection : ∀ c, s'.vc.connectionId = some c → s.vc.connectionId = some c)
    (hplaced : ∀ r ∈ a.reservations, r.globalReservationId = some s.vc.globalReservationId →
      Placed m'.process s' r (a'.operations r.connectionId)) : InStep a' m' := by
  refine ⟨?_, ?_, ?_⟩
  · intro t c ht hc
    cases hs'.symm.trans ht
    rw [hlist, hinput.id]
    exact h.known s c hs (hconnection c hc)
  · intro t ht r hr hid
    cases hs'.symm.trans ht
    exact hplaced r (hlist ▸ hr) (hinput.id ▸ hid)
  · intro t ht r hr hid
    cases hs'.symm.trans ht
    rw [hinput.criteria]
    exact h.criteria s hs r (hlist ▸ hr) (hinput.id ▸ hid)

theorem InStep.id_of_connection (h : InStep a m) (hlisted : Listed a.reservations sent)
    {s : Subscription} (hs : m.subscription = some s) {r : AggregatorReservation}
    (hr : r ∈ a.reservations) (hheld : s.vc.connectionId = some r.connectionId) :
    r.globalReservationId = some s.vc.globalReservationId := by
  obtain ⟨q, hq, hconnection, hid⟩ := h.known s _ hs hheld
  exact hlisted.connections q hq r hr hconnection ▸ hid

theorem InStep.done {service : Service} {p : Process} {step : Step} {rest : List Step}
    {env : StepEnv} {s s' : Subscription} (hservice : service.Lawful)
    (h : InStep a ⟨some s, some p⟩) (hlisted : Listed a.reservations sent)
    (hm : circuit.Reachable ⟨some s, some p⟩) (hm' : circuit.Reachable ⟨some s', p.advance⟩)
    (hremaining : p.remaining = step :: rest) (hdone : step.Done env (some s) s')
    (hstores : step.stores = none) (hreads : service.Reads a ⟨some s, some p⟩ env) :
    InStep a ⟨some s', p.advance⟩ := by
  obtain ⟨hinput, hconnection, _⟩ := hdone.keeps hstores
  refine h.kept rfl rfl rfl hinput (fun c hc => hconnection ▸ hc) fun r hr hid => ?_
  exact .done hservice hm rfl hremaining rfl hdone hm' hreads
    (fun q hq => hlisted.connections q hq r hr) hstores (h.placed s rfl r hr hid)

/-- A step that stores an input stores a new id with it, and forgets no reservation that is not
terminated. -/
theorem InStep.stored {p : Process} {step : Step} {rest : List Step} {env : StepEnv}
    {before : Option Subscription} {s' : Subscription} (h : InStep a ⟨before, some p⟩)
    (hlisted : Listed a.reservations sent) (hm : circuit.Reachable ⟨before, some p⟩)
    (hremaining : p.remaining = step :: rest) (hdone : step.Done env before s')
    (hstores : step.stores ≠ none)
    (hfresh : ∀ r ∈ a.reservations,
      r.globalReservationId ≠ some (globalReservationId env.uuid)) :
    InStep a ⟨some s', p.advance⟩ ∧ Aside a a ⟨before, some p⟩ ⟨some s', p.advance⟩ := by
  have hplan := (inv_of_circuit hm).plan p rfl
  rw [hremaining] at hplan
  have hnew : s'.vc.globalReservationId = globalReservationId env.uuid →
      s'.vc.connectionId = none → InStep a ⟨some s', p.advance⟩ := by
    intro hid hnone
    refine ⟨?_, ?_, ?_⟩
    · rintro _ c ⟨⟩ hc
      cases hnone.symm.trans hc
    · rintro _ ⟨⟩ r hr hr'
      exact absurd (hid ▸ hr') (hfresh r hr)
    · rintro _ ⟨⟩ r hr hr'
      exact absurd (hid ▸ hr') (hfresh r hr)
  have haside : (∀ r ∈ a.reservations,
      r.globalReservationId = Machine.reservationId ⟨before, some p⟩ →
        r.status = ConnectionState.terminated ∧ a.operations r.connectionId = none) →
      Aside a a ⟨before, some p⟩ ⟨some s', p.advance⟩ := by
    intro hleft
    exact ⟨List.Subset.refl _, fun r hr => .inl ⟨hr, rfl⟩,
      fun r hr hid => .inr (hleft r hr hid)⟩
  cases hdone with
  | constructed hconstruct =>
      obtain rfl : before = none := hplan.head
      obtain ⟨_, _, _, _, _, _, rfl⟩ := constructMdp2pModel_eq_ok.mp hconstruct
      refine ⟨hnew rfl rfl, haside fun r hr hid => ?_⟩
      obtain ⟨b, _, hb⟩ := hlisted.asked r hr
      cases hb.symm.trans hid
  | @updated _ s _ hupdate =>
      obtain ⟨_, _, hconnection⟩ := hplan.head
      have hnone : s.vc.connectionId = none := by
        cases hc : s.vc.connectionId with
        | none => rfl
        | some c =>
            obtain ⟨r, hr, rfl, _⟩ := h.known s c rfl hc
            rw [truthy_eq_some.mpr ⟨hc, hlisted.returned r hr⟩] at hconnection
            cases hconnection
      obtain ⟨_, _, _, _, _, rfl⟩ := updateSubscription_eq_ok.mp hupdate
      refine ⟨hnew rfl hnone, haside fun r hr hid => ?_⟩
      cases h.placed s rfl r hr hid with
      | forgotten _ _ hop hstatus => exact ⟨hstatus, hop⟩
      | unheard _ hp hat =>
          cases hp
          obtain ⟨_, _, _, _, heq⟩ := hat
          cases hremaining.symm.trans heq
      | quiet hheld | asked hheld | heard hheld => cases hnone.symm.trans hheld
  | _ => exact absurd rfl hstores

/-- A reserve is sent. The step fails then and is to be run again, or it stores the answer and
waits. -/
theorem InStep.reserved {p : Process} {ero : List String} {handler : Handler} {rest : List Step}
    {s : Subscription} {answer : String}
    (h : InStep a ⟨some s, some p⟩) (hlisted : Listed a.reservations sent)
    (hremaining : p.remaining = .callbackStep .always (.reserveConnection ero) handler :: rest)
    (hready : p.phase = .ready)
    (hreceives : a.Receives (.reserve (reserveRequest ero s.vc)) answer a') :
    InStep a' ⟨some s, some p⟩ ∧
      InStep a' ⟨some { s with vc := { s.vc with connectionId := some answer } },
        some { p with phase := .awaiting }⟩ := by
  have hanswered : ∀ r ∈ a'.reservations,
      r.globalReservationId = some s.vc.globalReservationId →
        r.connectionId = answer ∧ r.status ≠ ConnectionState.terminated ∧
          a'.operations answer = some (.reserve (reserveRequest ero s.vc)) ∧
          (s.vc.connectionId = none ∨ s.vc.connectionId = some answer) :=
    fun r => Placed.answered hlisted hremaining rfl hready (fun c => h.known s c rfl) hreceives
      (h.placed s rfl)
  have hcriteria : ∀ r ∈ a'.reservations,
      r.globalReservationId = some s.vc.globalReservationId →
        r.criteria = some (reserveRequest [] s.vc).criteria :=
    hreceives.criteria (h.criteria s rfl)
  have hgrows : a.reservations ⊆ a'.reservations := by
    cases hreceives with
    | reserved => exact List.subset_cons_self _ _
    | deduplicated => exact List.Subset.refl _
    | addressed hto => cases hto
  -- The request that is worked on is the reserve of this step.
  have hasked : ∀ {q : Process} {t : Subscription} {r : AggregatorReservation},
      q.remaining = p.remaining → (∀ result, q.phase ≠ .received result) →
      r ∈ a'.reservations → r.globalReservationId = some s.vc.globalReservationId →
      t.vc.connectionId = some answer →
        Placed (some q) t r (a'.operations r.connectionId) := by
    intro q t r hq hphase hr hid hheld
    obtain ⟨rfl, hopen, hop, _⟩ := hanswered r hr hid
    refine .asked hheld rfl (hq.trans hremaining) rfl hphase ?_ fun _ => hopen
    rw [hop]
    rintro _ ⟨⟩
    rfl
  constructor
  · refine ⟨?_, ?_, ?_⟩
    · rintro _ c ⟨⟩ hc
      obtain ⟨r, hr, hrest⟩ := h.known s c rfl hc
      exact ⟨r, hgrows hr, hrest⟩
    · rintro _ ⟨⟩ r hr hid
      obtain ⟨rfl, hopen, hop, hnone | hheld⟩ := hanswered r hr hid
      · refine .unheard hnone rfl ⟨_, _, _, _, hremaining⟩ hready ?_ hopen
        rw [hop]
        rintro _ ⟨⟩
        show ConnectionState.terminated ∉ [ConnectionState.reserved, ConnectionState.failed]
        decide
      · exact hasked rfl (by simp [hready]) hr hid hheld
    · rintro _ ⟨⟩
      exact hcriteria
  · refine ⟨?_, ?_, ?_⟩
    · rintro _ c ⟨⟩ ⟨⟩
      exact hreceives.answer
    · rintro _ ⟨⟩ r hr hid
      exact hasked rfl (by simp) hr hid rfl
    · rintro _ ⟨⟩
      exact hcriteria

theorem InStep.requested {p : Process} {condition : Condition} {action : Action}
    {handler : Handler} {rest : List Step} {s : Subscription} {request : Request}
    {answer : String} {phase : Phase} (h : InStep a ⟨some s, some p⟩)
    (hremaining : p.remaining = .callbackStep condition action handler :: rest)
    (hholds : condition.holds s.vc) (hready : p.phase = .ready)
    (hphase : ∀ result, phase ≠ .received result) (haction : ∀ ero, action ≠ .reserveConnection ero)
    (hrequest : ∀ body, request ≠ .reserve body)
    (haddressee : request.addressee = s.vc.connectionId)
    (houtcomes : request.outcomes = action.outcomes) (hreceives : a.Receives request answer a') :
    InStep a' ⟨some s, some { p with phase := phase }⟩ := by
  refine h.kept (hreceives.reservations_eq hrequest) rfl rfl (.refl s) (fun _ hc => hc) ?_
  intro r hr hid
  exact .requested hremaining hholds hready hphase haction hrequest haddressee houtcomes
    hreceives (h.placed s rfl r hr hid)

theorem InStep.sends {p : Process} {step : Step} {rest : List Step} {env : StepEnv}
    {before : Option Subscription} {t : Subscription} {request : Request} {answer : String}
    (h : InStep a ⟨before, some p⟩) (hlisted : Listed a.reservations sent)
    (hm : circuit.Reachable ⟨before, some p⟩) (hremaining : p.remaining = step :: rest)
    (hready : p.phase = .ready) (hrun : step.run env before = .ok (.awaiting t request))
    (hreceives : a.Receives request answer a') :
    (InStep a' ⟨before, some p⟩ ∧ Aside a a' ⟨before, some p⟩ ⟨before, some p⟩) ∧
      (answer = env.connectionId →
        InStep a' ⟨some t, some { p with phase := .awaiting }⟩ ∧
          Aside a a' ⟨before, some p⟩ ⟨some t, some { p with phase := .awaiting }⟩) := by
  obtain ⟨condition, action, handler, s, rfl, rfl, hholds, hperform⟩ := Step.run_awaiting hrun
  have hperformed := Action.performed_of_perform hperform
  -- Whichever request it is, it concerns the reservation under the id that is stored.
  have haside : (∀ body, request = .reserve body →
        body.globalReservationId = s.vc.globalReservationId) →
      (∀ c, request.addressee = some c → s.vc.connectionId = some c) →
      ∀ m : Machine, m.reservationId = some s.vc.globalReservationId →
        Aside a a' ⟨some s, some p⟩ m := by
    intro hreserve haddressee m hid
    obtain ⟨hgrows, hothers⟩ := hreceives.frame hlisted hreserve
      fun c hc => h.known s c rfl (haddressee c hc)
    exact ⟨hgrows, hid ▸ hothers, fun r _ hr => .inl (hr.trans hid.symm)⟩
  have hasked : (∀ ero, action ≠ .reserveConnection ero) → (∀ body, request ≠ .reserve body) →
      request.addressee = s.vc.connectionId → t = s →
      (InStep a' ⟨some s, some p⟩ ∧ Aside a a' ⟨some s, some p⟩ ⟨some s, some p⟩) ∧
        (answer = env.connectionId →
          InStep a' ⟨some t, some { p with phase := .awaiting }⟩ ∧
            Aside a a' ⟨some s, some p⟩ ⟨some t, some { p with phase := .awaiting }⟩) := by
    rintro haction hrequest haddressee rfl
    have haside := haside (fun body hbody => absurd hbody (hrequest body))
      fun c hc => haddressee.symm.trans hc
    have hplaced : ∀ {phase : Phase}, (∀ result, phase ≠ .received result) →
        InStep a' ⟨some t, some { p with phase := phase }⟩ := fun hphase =>
      h.requested hremaining hholds hready hphase haction hrequest haddressee hperformed.outcomes
        hreceives
    refine ⟨⟨?_, haside _ rfl⟩, fun _ => ⟨hplaced (by simp), haside _ rfl⟩⟩
    have hsame : { p with phase := .ready } = p := by rw [← hready]
    exact hsame ▸ hplaced (by simp)
  cases hperformed with
  | reserved =>
      obtain ⟨_, _, _, rfl, _⟩ := Workflow.reserve_step (hremaining ▸ suffix_of_circuit hm rfl)
      obtain ⟨hstays, hwaits⟩ := h.reserved hlisted hremaining hready hreceives
      have haside := haside (by rintro _ ⟨⟩; rfl) (by simp [Request.addressee])
      refine ⟨⟨hstays, haside _ rfl⟩, ?_⟩
      rintro rfl
      exact ⟨hwaits, haside _ rfl⟩
  | provisioned hheld | released hheld =>
      exact hasked (by simp) (by simp) hheld.symm rfl
  | terminated => exact hasked (by simp) (by simp) rfl rfl

theorem InStep.handled {p : Process} {condition : Condition} {action : Action} {handler : Handler}
    {rest : List Step} {result : CallbackResult} {s s' : Subscription}
    (h : InStep a ⟨some s, some p⟩) (hm : circuit.Reachable ⟨some s, some p⟩)
    (hm' : circuit.Reachable ⟨some s', p.advance⟩)
    (hremaining : p.remaining = .callbackStep condition action handler :: rest)
    (hphase : p.phase = .received result) (hprocess : handler.process result s = .ok s') :
    InStep a ⟨some s', p.advance⟩ := by
  have hinput : SameInput s s' := by
    obtain ⟨_, _, _, _, rfl⟩ := Handler.process_frame hprocess
    exact ⟨rfl, rfl, rfl, rfl⟩
  refine h.kept rfl rfl rfl hinput (fun _ => Handler.process_keeps hprocess) fun r hr hid => ?_
  exact .handled hm rfl hremaining hphase rfl hprocess hm' (h.placed s rfl r hr hid)

theorem InStep.posted {p : Process} {request : Request} {result : CallbackResult}
    {r : AggregatorReservation} {s : Subscription} (h : InStep a ⟨some s, some p⟩)
    (hlisted : Listed a.reservations sent) (hm : circuit.Reachable ⟨some s, some p⟩)
    (hphase : p.phase = .awaiting) (hposts : a.Posts s.vc.connectionId result a' r request)
    (hin : r.status ∈ request.outcomes) :
    InStep a' ⟨some s, some { p with phase := .received result }⟩ ∧
      Aside a a' ⟨some s, some p⟩ ⟨some s, some { p with phase := .received result }⟩ := by
  obtain ⟨⟨hr, hheld⟩, hop, hresult, rfl⟩ := hposts
  have hid := h.id_of_connection hlisted rfl hr hheld
  constructor
  · refine h.kept rfl rfl rfl (.refl s) (fun _ hc => hc) fun q hq hqid => ?_
    obtain rfl : q = r := hlisted.ids q hq r hr (hqid.trans hid.symm)
    rw [Aggregator.working_same]
    exact .posted hm rfl hphase rfl hheld hop hin hresult (h.placed s rfl q hq hqid)
  · refine ⟨List.Subset.refl _, ?_, fun q _ hq => .inl hq⟩
    intro q hq
    by_cases heq : q.connectionId = r.connectionId
    · exact .inr (hlisted.connections q hq r hr heq ▸ hid)
    · exact .inl ⟨hq, Aggregator.working_other heq⟩

/-- A process is aborted between its requests only: never at a step that sends one, from before
it is sent until its result is handled. -/
def AbortsBetween (m : Machine) : Event → Prop
  | .abort => ∀ p, m.process = some p → ¬ AtCallback p.remaining m.subscription
  | _ => True

/-- A circuit stays in step with the aggregator, and leaves other circuits alone. -/
theorem InStep.fires {service : Service} {event : Event} {requests : List Request}
    (hservice : service.Lawful) (h : InStep a m) (hlisted : Listed a.reservations sent)
    (hm : circuit.Reachable m) (hm' : circuit.Reachable m')
    (hfresh : ∀ env, event = .run env → ∀ r ∈ a.reservations,
      r.globalReservationId ≠ some (globalReservationId env.uuid))
    (hbetween : AbortsBetween m event) (htakes : service.Takes a m event requests a')
    (hfires : Fires m event m' requests) : InStep a' m' ∧ Aside a a' m m' := by
  cases hfires with
  | @start subscription workflow run hstart =>
      cases htakes
      refine ⟨⟨h.known, ?_, h.criteria⟩, .same rfl⟩
      rintro s rfl r hr hid
      exact .started hm' (h.placed s rfl r hr hid)
  | @done before run workflow step rest env after hrun =>
      cases htakes with
      | ran hreads =>
          have hdone := Step.done_of_run hrun
          by_cases hstores : step.stores = none
          · cases before with
            | none =>
                cases hdone with
                | constructed => cases hstores
            | some s =>
                refine ⟨h.done hservice hlisted hm hm' rfl hdone hstores hreads, .same ?_⟩
                exact congrArg some (hdone.keeps hstores).1.id
          · exact h.stored hlisted hm rfl hdone hstores (hfresh env rfl)
  | @sent before run workflow step rest env after request hrun =>
      cases htakes with
      | sent hreceives =>
          exact (h.sends hlisted hm rfl rfl hrun (hservice.receives hreceives)).2 rfl
  | @failed before run workflow step rest env after request hrun =>
      cases htakes with
      | unanswered hreceives =>
          exact (h.sends hlisted hm rfl rfl hrun (hservice.receives hreceives)).1
      | lost => exact ⟨h, .same rfl⟩
  | @handled s after run workflow condition action handler rest result env hprocess =>
      cases htakes
      refine ⟨h.handled hm hm' rfl rfl hprocess, .same ?_⟩
      obtain ⟨_, _, _, _, rfl⟩ := Handler.process_frame hprocess
      rfl
  | delivered =>
      cases htakes with
      | posted hs hposts =>
          cases hs
          obtain ⟨r, request, hposted⟩ := hservice.posts hposts
          exact h.posted hlisted hm rfl hposted (hservice.concludes hposts hposted)
  | @refired subscription run workflow remaining phase hphase =>
      cases htakes
      refine ⟨⟨h.known, ?_, h.criteria⟩, .same rfl⟩
      rintro s rfl r hr hid
      exact (h.placed s rfl r hr hid).refired hphase
  | @aborted subscription p =>
      cases htakes
      refine ⟨⟨h.known, ?_, h.criteria⟩, .same rfl⟩
      rintro s rfl r hr hid
      exact .aborted hm rfl (hbetween p rfl) (h.placed s rfl r hr hid)

theorem InStep.progress {r r' : AggregatorReservation} (h : InStep a m)
    (hprogress : a.Progresses r r') : InStep (a.progress r r') m := by
  refine ⟨?_, ?_, ?_⟩
  · intro s c hs hc
    obtain ⟨q, hq, hconnection, hid⟩ := h.known s c hs hc
    refine ⟨_, List.mem_map_of_mem hq, ?_⟩
    split
    · next heq =>
        subst heq
        exact ⟨hprogress.connectionId.trans hconnection,
          hprogress.globalReservationId.trans hid⟩
    · exact ⟨hconnection, hid⟩
  · intro s hs
    refine List.forall_mem_map.mpr fun q hq hid => ?_
    change Placed _ _ _ (a.operations _)
    split at hid
    · next heq =>
        subst heq
        rw [if_pos rfl]
        exact Placed.progress hprogress
          (h.placed s hs q hq (hprogress.globalReservationId ▸ hid))
    · next hne =>
        rw [if_neg hne]
        exact h.placed s hs q hq hid
  · intro s hs
    refine List.forall_mem_map.mpr fun q hq hid => ?_
    split at hid
    · next heq =>
        subst heq
        rw [if_pos rfl, hprogress.criteria]
        exact h.criteria s hs q hq (hprogress.globalReservationId ▸ hid)
    · next hne =>
        rw [if_neg hne]
        exact h.criteria s hs q hq hid

end Step

/-! ## The estate -/

structure Estate (ι : Type*) where
  fleet : Fleet ι
  aggregator : Aggregator

inductive EstateEvent (ι : Type*) where
  | circuit (i : ι) (event : Event)
  /-- What becomes of a reservation by itself. -/
  | progress (r r' : AggregatorReservation)

section Estate

variable {ι : Type*} [DecidableEq ι] {service : Service}

def estate (service : Service) : System (Estate ι) (EstateEvent ι) where
  init e := fleet.init e.fleet ∧ service.starts e.aggregator
  step e event e' :=
    match event with
    | .circuit i event => e.fleet.Fresh event ∧ ∃ m requests,
        (e.fleet.circuits i).next event = some (.ok (m, requests)) ∧
          e'.fleet = e.fleet.after i event m requests ∧
          service.Takes e.aggregator (e.fleet.circuits i) event requests e'.aggregator
    | .progress r r' => e'.fleet = e.fleet ∧ service.moves e.aggregator r r' e'.aggregator

def Estate.AbortsBetween (e : Estate ι) (event : EstateEvent ι) : Prop :=
  ∀ i circuitEvent, event = .circuit i circuitEvent →
    Mdp2p.AbortsBetween (e.fleet.circuits i) circuitEvent

theorem fleet_of_estate {e : Estate ι} (h : (estate service).Reachable e) :
    fleet.Reachable e.fleet := by
  refine h.project (fun _ hinit => ?_) ?_
  · exact hinit.1
  rintro e (⟨i, event⟩ | ⟨r, r'⟩) e' hstep
  · obtain ⟨hfresh, m, requests, hnext, hafter, _⟩ := hstep
    exact .inr ⟨(i, event), hfresh, m, requests, hnext, hafter⟩
  · exact .inl hstep.1

theorem circuit_of_fleet {f : Fleet ι} (h : fleet.Reachable f) (i : ι) :
    circuit.Reachable (f.circuits i) := by
  refine System.Reachable.project (T := circuit) (v := fun f => f.circuits i) ?_ ?_ h
  · rintro _ rfl
    rfl
  · rintro f ⟨j, event⟩ _ ⟨_, m, requests, hnext, rfl⟩
    rw [Fleet.after_circuits]
    split
    · next heq =>
        subst heq
        exact .inr ⟨event, requests, hnext⟩
    · exact .inl rfl

theorem sound_of_fleet {f : Fleet ι} (h : fleet.Reachable f) : Sound f := by
  refine h.invariant (P := Sound) ?_ fun _ _ _ => Sound.step
  rintro _ rfl
  constructor <;> simp [Machine.blank, Machine.reservationId]

/-- Every circuit is in step with the aggregator, and a reservation that no circuit has the id of
is terminated. -/
structure Coherent (e : Estate ι) : Prop where
  listed : Listed e.aggregator.reservations e.fleet.sent
  inStep : ∀ i, InStep e.aggregator (e.fleet.circuits i)
  owned : ∀ r ∈ e.aggregator.reservations,
    (r.status = ConnectionState.terminated ∧
        e.aggregator.operations r.connectionId = none) ∨
      ∃ i, r.globalReservationId = (e.fleet.circuits i).reservationId

theorem InStep.beside {a a' : Aggregator} {m m₀ m₁ : Machine} (h : InStep a m)
    (haside : Aside a a' m₀ m₁)
    (hapart : ∀ id, m.reservationId = some id → m₁.reservationId ≠ some id) : InStep a' m := by
  have hsame : ∀ s, m.subscription = some s → ∀ r ∈ a'.reservations,
      r.globalReservationId = some s.vc.globalReservationId →
        r ∈ a.reservations ∧
          a'.operations r.connectionId = a.operations r.connectionId := by
    intro s hs r hr hid
    obtain hsame | hother := haside.others r hr
    · exact hsame
    · refine absurd (hother.symm.trans hid) (hapart _ ?_)
      rw [Machine.reservationId, hs]
      rfl
  refine ⟨?_, ?_, ?_⟩
  · intro s c hs hc
    obtain ⟨r, hr, hrest⟩ := h.known s c hs hc
    exact ⟨r, haside.grows hr, hrest⟩
  · intro s hs r hr hid
    obtain ⟨hbefore, hop⟩ := hsame s hs r hr hid
    exact hop ▸ h.placed s hs r hbefore hid
  · intro s hs r hr hid
    exact h.criteria s hs r (hsame s hs r hr hid).1 hid

theorem Fleet.sent_subset (f : Fleet ι) (i : ι) (event : Event) (m : Machine)
    (requests : List Request) : f.sent ⊆ (f.after i event m requests).sent := by
  unfold Fleet.after
  dsimp only
  split
  · exact List.subset_append_right _ _
  · exact List.Subset.refl _

theorem Fleet.reserve_sent {f : Fleet ι} {i : ι} {event : Event} {m : Machine}
    {requests : List Request} (hfires : Fires (f.circuits i) event m requests) {body : ReserveBody}
    (hin : .reserve body ∈ requests) :
    ∃ b ∈ (f.after i event m requests).sent, b.body = body := by
  obtain ⟨p, hp⟩ : ∃ p, (f.circuits i).process = some p := by
    generalize f.circuits i = m₀ at hfires
    cases hfires with
    | sent => exact ⟨_, rfl⟩
    | failed => exact ⟨_, rfl⟩
    | _ => cases hin
  refine ⟨⟨p.run, body⟩, ?_, rfl⟩
  simp only [Fleet.after, hp, List.mem_append, List.mem_map, List.mem_filterMap]
  exact .inl ⟨body, ⟨_, hin, rfl⟩, rfl⟩

theorem Service.Takes.listed {a a' : Aggregator} {m : Machine} {event : Event}
    {requests : List Request} {sent sent' : List SentReserve} (hservice : service.Lawful)
    (h : service.Takes a m event requests a') (hlisted : Listed a.reservations sent)
    (hsubset : sent ⊆ sent') (hsent : ∀ body, .reserve body ∈ requests → ∃ b ∈ sent', b.body = body) :
    Listed a'.reservations sent' := by
  have hsame : Listed a.reservations sent' :=
    ⟨hlisted.connections, hlisted.ids, hlisted.returned, fun r hr => by
      obtain ⟨b, hb, hid⟩ := hlisted.asked r hr
      exact ⟨b, hsubset hb, hid⟩⟩
  cases h with
  | sent hreceives | unanswered hreceives =>
      exact (hservice.receives hreceives).listed hlisted hsubset
        fun body hbody => hsent body (by simp [hbody])
  | posted _ hposts =>
      obtain ⟨_, _, hposted⟩ := hservice.posts hposts
      exact hposted.rested ▸ hsame
  | _ => exact hsame

theorem Coherent.moves {e : Estate ι} {a' : Aggregator} {i : ι} {event : Event} {m : Machine}
    {requests : List Request} (hservice : service.Lawful) (hcoherent : Coherent e)
    (h : (estate service).Reachable e) (hbetween : e.AbortsBetween (.circuit i event))
    (hfresh : e.fleet.Fresh event)
    (hnext : (e.fleet.circuits i).next event = some (.ok (m, requests)))
    (htakes : service.Takes e.aggregator (e.fleet.circuits i) event requests a') :
    InStep a' m ∧ Aside e.aggregator a' (e.fleet.circuits i) m := by
  have hsound := sound_of_fleet (fleet_of_estate h)
  have hm := circuit_of_fleet (fleet_of_estate h) i
  refine (hcoherent.inStep i).fires hservice hcoherent.listed hm (.step hm ⟨requests, hnext⟩) ?_
    (hbetween i event rfl) htakes (fires_of_next hnext)
  rintro env rfl r hr hid
  obtain ⟨b, hb, hasked⟩ := hcoherent.listed.asked r hr
  exact hsound.unsent hfresh b hb (Option.some.inj (hasked.symm.trans hid))

theorem Coherent.circuit {e e' : Estate ι} {i : ι} {event : Event} (hservice : service.Lawful)
    (hcoherent : Coherent e) (h : (estate service).Reachable e)
    (hbetween : e.AbortsBetween (.circuit i event))
    (hstep : (estate service).step e (.circuit i event) e') : Coherent e' := by
  have h' : (estate service).Reachable e' := .step h hstep
  obtain ⟨f, a⟩ := e
  obtain ⟨f', a'⟩ := e'
  obtain ⟨hfresh, m, requests, hnext, hafter, htakes⟩ := hstep
  dsimp only at hfresh hnext hafter htakes
  have hapart := (sound_of_fleet (fleet_of_estate h')).apart
  have hcircuits : ∀ j, f'.circuits j = if j = i then m else f.circuits j :=
    hafter ▸ f.after_circuits i event m requests
  have hown : f'.circuits i = m := by rw [hcircuits, if_pos rfl]
  obtain ⟨hinStep, haside⟩ := hcoherent.moves hservice h hbetween hfresh hnext htakes
  refine ⟨?_, fun j => ?_, fun r hr => ?_⟩
  · exact htakes.listed hservice hcoherent.listed (hafter ▸ f.sent_subset i event m requests)
      fun body hbody => hafter ▸ Fleet.reserve_sent (fires_of_next hnext) hbody
  · by_cases hj : j = i
    · rw [hj]
      exact hown.symm ▸ hinStep
    · have hother : f'.circuits j = f.circuits j := by rw [hcircuits, if_neg hj]
      rw [hother]
      refine (hcoherent.inStep j).beside haside fun id hid hid' => hj ?_
      exact hapart j i id (hother.symm ▸ hid) (hown.symm ▸ hid')
  · obtain ⟨hbefore, hop⟩ | hid := haside.others r hr
    · obtain ⟨hstatus, hidle⟩ | ⟨j, hj⟩ := hcoherent.owned r hbefore
      · exact .inl ⟨hstatus, hop.trans hidle⟩
      · by_cases heq : j = i
        · subst heq
          obtain hid | hleft := haside.left r hbefore hj
          · exact .inr ⟨j, hid.trans (congrArg _ hown.symm)⟩
          · exact .inl hleft
        · exact .inr ⟨j, hj.trans (by rw [hcircuits, if_neg heq])⟩
    · exact .inr ⟨i, hid.trans (congrArg _ hown.symm)⟩

omit [DecidableEq ι] in
theorem Coherent.progress {e : Estate ι} {r r' : AggregatorReservation} (h : Coherent e)
    (hprogress : e.aggregator.Progresses r r') :
    Coherent ⟨e.fleet, e.aggregator.progress r r'⟩ := by
  refine ⟨hprogress.listed h.listed, fun i => (h.inStep i).progress hprogress, ?_⟩
  refine List.forall_mem_map.mpr fun q hq => ?_
  change _ ∧ e.aggregator.operations _ = none ∨ _
  split
  · next heq =>
      subst heq
      rw [hprogress.connectionId, hprogress.globalReservationId]
      refine (h.owned q hq).imp_left fun ⟨hstatus, hop⟩ => ⟨?_, hop⟩
      obtain hsame | ⟨request, hrequest, _⟩ := hprogress.status
      · exact hsame.trans hstatus
      · cases hop.symm.trans hrequest
  · exact h.owned q hq

omit [DecidableEq ι] in
theorem Coherent.idle {e : Estate ι} (h : Coherent e) {i : ι} {s : Subscription}
    (hs : (e.fleet.circuits i).subscription = some s)
    (hidle : (e.fleet.circuits i).process = none) {r : AggregatorReservation}
    (hr : r ∈ e.aggregator.reservations) (hheld : s.vc.connectionId = some r.connectionId) :
    Agrees s.vc r := by
  have hid := (h.inStep i).id_of_connection h.listed hs hr hheld
  have hplace := (h.inStep i).placed s hs r hr hid
  rw [hidle] at hplace
  cases hplace with
  | forgotten hnone => cases hnone.symm.trans hheld
  | quiet _ _ _ hstatus => exact ⟨hstatus, hid, (h.inStep i).criteria s hs r hr hid⟩
  | unheard _ hp | asked _ hp | heard _ hp => cases hp

end Estate

/-! ## The line's circuit and its aggregator -/

/-- A service that does whatever is relied on, and nothing else. -/
def Service.dutiful : Service where
  starts a := a.reservations = []
  receives := Aggregator.Receives
  returns := Aggregator.Returns
  posts a connectionId result a' :=
    ∃ r request, a.Posts connectionId result a' r request ∧ r.status ∈ request.outcomes
  moves a r r' a' := r ∈ a.reservations ∧ a.Progresses r r' ∧ a' = a.progress r r' ∧
    (r.status = ConnectionState.terminated → r'.status = ConnectionState.terminated)

def Aggregator.receive (a : Aggregator) (made : AggregatorReservation) :
    Request → Option (String × Aggregator)
  | .reserve body =>
      match a.reservations.find? fun r =>
          r.globalReservationId = some body.globalReservationId with
      | some r => some (r.connectionId, a.working r.connectionId (some (.reserve body)))
      | none =>
          if (∀ r ∈ a.reservations, r.connectionId ≠ made.connectionId) ∧
              made.connectionId ≠ "" ∧
              made.globalReservationId = some body.globalReservationId ∧
              made.criteria = some body.criteria ∧
              made.status ≠ ConnectionState.terminated then
            some (made.connectionId, Aggregator.working ⟨made :: a.reservations, a.operations⟩
              made.connectionId (some (.reserve body)))
          else none
  | _ => none

theorem receives_of_receive {a a' : Aggregator} {made : AggregatorReservation} {request : Request}
    {answer : String} (h : a.receive made request = some (answer, a')) :
    a.Receives request answer a' := by
  cases request with
  | reserve body =>
      simp only [Aggregator.receive] at h
      split at h
      · next r hfind =>
          cases h
          exact .deduplicated (List.mem_of_find?_eq_some hfind)
            (by simpa using List.find?_some hfind)
      · next hfind =>
          simp only [Option.ite_none_right_eq_some] at h
          obtain ⟨⟨hnew, hreturned, hid, hcriteria, hopen⟩, h⟩ := h
          cases h
          refine .reserved (fun r hr => ⟨hnew r hr, ?_⟩) hreturned hid hcriteria hopen
          simpa using List.find?_eq_none.mp hfind r hr
  | _ => cases h

def Aggregator.take (a : Aggregator) (m : Machine) : Event → List Request → Option Aggregator
  | .start _ _, [] => some a
  | .run _, [] =>
      match m.process with
      | some ⟨_, _, .reconcileConnectionState :: _, _⟩ => none
      | _ => some a
  | .run env, [request] => do
      let (answer, a') ← a.receive env.reservation request
      if answer = env.connectionId then some a' else none
  | .failAfterSending env, [request] => (a.receive env.reservation request).map Prod.snd
  | .callback result, [] => do
      let connectionId ← m.subscription.bind (·.vc.connectionId)
      let r ← a.reservations.find? fun r => r.connectionId = connectionId
      let request ← a.operations connectionId
      if r.status ∈ request.outcomes ∧ result.status = some r.status then
        some (a.working connectionId none)
      else none
  | .refire, [] | .abort, [] => some a
  | _, _ => none

theorem takes_of_take {a a' : Aggregator} {m : Machine} {event : Event} {requests : List Request}
    (h : a.take m event requests = some a') : Service.dutiful.Takes a m event requests a' := by
  unfold Aggregator.take at h
  split at h
  · cases h
    exact .started
  · next env =>
      split at h
      · cases h
      · next hnot =>
          cases h
          refine .ran fun p rest s hp hremaining _ => ?_
          obtain ⟨run, workflow, remaining, phase⟩ := p
          obtain rfl : remaining = _ := hremaining
          exact absurd hp (hnot _ _ _ _)
  · obtain ⟨⟨answer, a₁⟩, hreceive, h⟩ := Option.bind_eq_some_iff.mp h
    simp only [Option.ite_none_right_eq_some] at h
    obtain ⟨hanswer, h⟩ := h
    cases h
    exact .sent (hanswer ▸ receives_of_receive hreceive)
  · obtain ⟨⟨answer, _⟩, hreceive, rfl⟩ := Option.map_eq_some_iff.mp h
    exact .unanswered (receives_of_receive hreceive)
  · obtain ⟨connectionId, hheld, h⟩ := Option.bind_eq_some_iff.mp h
    obtain ⟨s, hs, hheld⟩ := Option.bind_eq_some_iff.mp hheld
    obtain ⟨r, hfind, h⟩ := Option.bind_eq_some_iff.mp h
    obtain ⟨request, hop, h⟩ := Option.bind_eq_some_iff.mp h
    simp only [Option.ite_none_right_eq_some] at h
    obtain ⟨⟨hin, hresult⟩, h⟩ := h
    cases h
    obtain rfl : r.connectionId = connectionId := by simpa using List.find?_some hfind
    have hr := List.mem_of_find?_eq_some hfind
    exact .posted hs ⟨r, request, ⟨⟨hr, hheld⟩, hop, hresult, rfl⟩, hin⟩
  · cases h
    exact .refired
  · cases h
    exact .aborted
  · cases h

instance {ι : Type*} (f : Fleet ι) : ∀ event : Event, Decidable (f.Fresh event)
  | .start _ run => inferInstanceAs (Decidable (run ∉ f.started))
  | .run env => inferInstanceAs (Decidable (env.uuid ∉ f.drawn))
  | .failAfterSending _ | .callback _ | .refire | .abort => .isTrue trivial

def Estate.fire {ι : Type*} [DecidableEq ι] (e : Estate ι) : EstateEvent ι → Option (Estate ι)
  | .circuit i event =>
      match (e.fleet.circuits i).next event with
      | some (.ok (m, requests)) =>
          if e.fleet.Fresh event then
            (e.aggregator.take (e.fleet.circuits i) event requests).map
              fun a => ⟨e.fleet.after i event m requests, a⟩
          else none
      | _ => none
  | .progress r r' =>
      if r ∈ e.aggregator.reservations ∧ r'.connectionId = r.connectionId ∧
          r'.globalReservationId = r.globalReservationId ∧ r'.criteria = r.criteria ∧
          (e.aggregator.operations r.connectionId).isSome ∧
          r.status ≠ ConnectionState.terminated ∧ r'.status ≠ ConnectionState.terminated then
        some ⟨e.fleet, e.aggregator.progress r r'⟩
      else none

theorem estate_of_fire {ι : Type*} [DecidableEq ι] {e e' : Estate ι} {event : EstateEvent ι}
    (h : e.fire event = some e') : (estate .dutiful).step e event e' := by
  cases event with
  | circuit i event =>
      simp only [Estate.fire] at h
      split at h
      · next m requests hnext =>
          simp only [Option.ite_none_right_eq_some, Option.map_eq_some_iff] at h
          obtain ⟨hfresh, a, htake, rfl⟩ := h
          exact ⟨hfresh, m, requests, hnext, rfl, takes_of_take htake⟩
      · cases h
  | progress r r' =>
      simp only [Estate.fire, Option.ite_none_right_eq_some, Option.some.injEq] at h
      obtain ⟨⟨hr, hconnection, hid, hcriteria, hop, hlive, hopen⟩, rfl⟩ := h
      obtain ⟨request, hrequest⟩ := Option.isSome_iff_exists.mp hop
      have hprogress : e.aggregator.Progresses r r' :=
        ⟨hconnection, hid, hcriteria, .inr ⟨request, hrequest, fun h => absurd h hopen⟩⟩
      exact ⟨rfl, hr, hprogress, rfl, fun h => absurd h hlive⟩

def Estate.blank {ι : Type*} : Estate ι :=
  ⟨⟨fun _ => Machine.blank, [], [], [], []⟩, Aggregator.empty⟩

def lineMade : AggregatorReservation :=
  { lineEcho with status := "RESERVING", segments := none }

def lineRun (uuid : String) : Event := .run { lineEnv with uuid := uuid, reservation := lineMade }

/-- A create whose first answer is lost. -/
def lineEstate : List (EstateEvent Unit) :=
  [.circuit () (.start (.create lineSubmission) 0), .circuit () (lineRun "1"),
    .circuit () (.failAfterSending { lineEnv with reservation := lineMade }),
    .circuit () (lineRun "2"), .progress lineMade lineEcho,
    .circuit () (.callback ⟨some ConnectionState.reserved, none⟩), .circuit () (lineRun "3"),
    .circuit () (lineRun "4")]

end NsiOrchestrator.Mdp2p
