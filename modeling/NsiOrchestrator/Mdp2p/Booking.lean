import NsiOrchestrator.Mdp2p.Estate
import NsiOrchestrator.Vlans.Label

/-! # Ends that circuits reserve at one aggregator

The forms refuse a VLAN that a reservation holds, and the reserve is sent some steps later. Two
live reservations have an end in common only when the runs that made them were on their way to
their reserves at the same time.
-/

namespace NsiOrchestrator.Mdp2p

open Outcome Forms Vlans Transition Fields

/-! ## Ends -/

def bookedEnds (r : AggregatorReservation) : List String :=
  r.criteria.elim [] fun criteria => [criteria.p2ps.sourceStp, criteria.p2ps.destStp]

def storedEnds (vc : Vc) : List String := [sapEndpoint vc.saps.1, sapEndpoint vc.saps.2]

def submittedEnds (submission : Submission) : List String :=
  [sapEndpoint ⟨toString submission.input.sourceVlan, submission.input.sourceStp⟩,
    sapEndpoint ⟨toString submission.input.destinationVlan, submission.input.destinationStp⟩]

theorem storedEnds_of_stores {inventory : Inventory} {submission : Submission} {vc : Vc}
    (h : Stores inventory submission vc) : storedEnds vc = submittedEnds submission := by
  rw [storedEnds, h.source, h.destination, submittedEnds]

theorem SameInput.storedEnds {s t : Subscription} (h : SameInput s t) :
    Mdp2p.storedEnds t.vc = Mdp2p.storedEnds s.vc := by
  rw [Mdp2p.storedEnds, h.saps, Mdp2p.storedEnds]

theorem bookedEnds_of_criteria {r : AggregatorReservation} {ero : List String} {vc : Vc}
    (h : r.criteria = some (reserveRequest ero vc).criteria) : bookedEnds r = storedEnds vc := by
  rw [bookedEnds, h]
  rfl

theorem mem_ends_of_booked {r : AggregatorReservation} {endpoint : String}
    (h : endpoint ∈ bookedEnds r) : some endpoint ∈ r.ends := by
  unfold bookedEnds at h
  cases hcriteria : r.criteria with
  | none =>
      rw [hcriteria] at h
      cases h
  | some criteria =>
      rw [hcriteria] at h
      rw [AggregatorReservation.ends, hcriteria]
      refine List.mem_append_right _ ?_
      simpa using h

/-! ## Runs on their way to a reserve -/

inductive Wants (m : Machine) (endpoint : String) : Prop where
  | submitted {p : Process} {step : Step} {submission : Submission} : m.process = some p →
      step ∈ p.remaining → step.stores = some submission → endpoint ∈ submittedEnds submission →
      Wants m endpoint
  | stored {p : Process} {s : Subscription} : m.process = some p → ReservePending p.remaining →
      m.subscription = some s → endpoint ∈ storedEnds s.vc → Wants m endpoint

section Circuit

variable {m m' : Machine} {event : Event} {requests : List Request}
  (hsuffix : ∀ p, m.process = some p → p.remaining <:+ p.workflow.steps)

include hsuffix

/-- What a run wants it has wanted since it was started with it. -/
theorem Wants.before (hfires : Fires m event m' requests) {endpoint : String}
    (h : Wants m' endpoint) : Wants m endpoint ∨ ∃ workflow run submission,
      event = .start workflow run ∧ workflow.submission = some submission ∧
        endpoint ∈ submittedEnds submission := by
  have hkept : KeepsInput m.subscription m'.subscription → Continues m event m' →
      Wants m endpoint ∨ ∃ workflow run submission, event = .start workflow run ∧
        workflow.submission = some submission ∧ endpoint ∈ submittedEnds submission := by
    intro hkeeps hcontinues
    cases h with
    | @submitted p' step submission hp' hin hstores hend =>
        obtain ⟨_, rfl, hsteps⟩ | ⟨p, hp, _, _, hsame | ⟨first, hcons, _⟩⟩ := hcontinues p' hp'
        · exact .inr ⟨_, _, submission, rfl,
            Workflow.submission_of_stores (hsteps ▸ hin) hstores, hend⟩
        · exact .inl (.submitted hp (hsame ▸ hin) hstores hend)
        · exact .inl (.submitted hp (hcons ▸ List.mem_cons_of_mem first hin) hstores hend)
    | @stored p' s' hp' hpending hs' hend =>
        obtain ⟨p, hp, _, _, hbefore⟩ :=
          hcontinues.pending hp' (hcontinues.suffix hsuffix hp') hpending
        cases hs : m.subscription with
        | none =>
            rw [hs, hs'] at hkeeps
            cases hkeeps
        | some s =>
            rw [hs, hs'] at hkeeps
            exact .inl (.stored hp hbefore hs (SameInput.storedEnds hkeeps ▸ hend))
  cases Effect.of_fires hfires with
  | kept hkeeps hcontinues => exact hkept hkeeps hcontinues
  | reserved hkeeps hcontinues => exact hkept hkeeps hcontinues
  | @stored p step rest submission env s hp hremaining hsubmission hstores =>
      have hhead : step ∈ p.remaining := hremaining ▸ List.mem_cons_self
      cases h with
      | @submitted p' step' submission' hp' hin hstores' hend =>
          rw [(Process.advance_eq_some hp').remaining] at hin
          exact .inl (.submitted hp (List.mem_of_mem_tail hin) hstores' hend)
      | stored _ _ hs hend =>
          cases hs
          exact .inl (.submitted hp hhead hsubmission (storedEnds_of_stores hstores ▸ hend))

theorem Wants.of_reserve (hfires : Fires m event m' requests) {body : ReserveBody}
    (hbody : .reserve body ∈ requests) :
    m.reservationId = some body.globalReservationId ∧
      ∀ r : AggregatorReservation, r.criteria = some body.criteria →
        ∀ endpoint ∈ bookedEnds r, Wants m endpoint := by
  cases Effect.of_fires hfires with
  | kept _ _ hnone => exact absurd hbody (hnone body)
  | stored => cases hbody
  | @reserved event m' p condition ero handler rest s _ _ hp hs hremaining =>
      cases List.mem_singleton.mp hbody
      refine ⟨by rw [Machine.reservationId, hs]; rfl, fun r hr endpoint hend => ?_⟩
      rw [bookedEnds_of_criteria hr] at hend
      have hpending := (reservePending_cons (hremaining ▸ hsuffix p hp)).2
      exact .stored hp (hremaining ▸ hpending) hs hend

end Circuit

/-! ## What a reserve adds to the list -/

theorem Aggregator.Receives.grows {a a' : Aggregator} {request : Request} {answer : String}
    (h : a.Receives request answer a') : a'.reservations = a.reservations ∨
      ∃ body r, request = .reserve body ∧ a'.reservations = r :: a.reservations ∧
        r.criteria = some body.criteria ∧
        ∀ r' ∈ a.reservations, r'.globalReservationId ≠ some body.globalReservationId := by
  cases h with
  | @reserved body r hnew _ _ hcriteria =>
      exact .inr ⟨body, r, rfl, rfl, hcriteria, fun r' hr' => (hnew r' hr').2⟩
  | _ => exact .inl rfl

theorem Service.Takes.grows {service : Service} {a a' : Aggregator} {m : Machine} {event : Event}
    {requests : List Request} (hservice : service.Lawful)
    (h : service.Takes a m event requests a') :
    a'.reservations = a.reservations ∨
      ∃ body r, .reserve body ∈ requests ∧ a'.reservations = r :: a.reservations ∧
        r.criteria = some body.criteria ∧
        ∀ r' ∈ a.reservations, r'.globalReservationId ≠ some body.globalReservationId := by
  cases h with
  | sent hreceives | unanswered hreceives =>
      refine (hservice.receives hreceives).grows.imp_right ?_
      rintro ⟨body, r, rfl, hlist, hcriteria, hnew⟩
      exact ⟨body, r, List.mem_singleton_self _, hlist, hcriteria, hnew⟩
  | posted _ hposts =>
      obtain ⟨_, _, hposted⟩ := hservice.posts hposts
      exact .inl (hposted.rested ▸ rfl)
  | _ => exact .inl rfl

/-! ## Accepted forms -/

theorem free_of_connectionInput {orders : Orders} {inventory : Inventory}
    {reservations : List AggregatorReservation} {released : Option String}
    {values : Except PyError ConnectionFields} {defaults : SdpVlans} {raw : ConnectionFields}
    {rawVlans : SdpVlanFields} {submission : Submission}
    (h : connectionInput orders inventory reservations released values defaults raw rawVlans =
      .ok submission)
    {r : AggregatorReservation} (hr : r ∈ reservations) (hblocks : Blocks released r)
    {endpoint : String} (hend : endpoint ∈ submittedEnds submission) : endpoint ∉ bookedEnds r := by
  obtain ⟨topology, inUse, values', form, _, haccept⟩ := connectionInput_eq_ok.mp h
  have hpage := validate_eq_ok.mp haccept.page
  have hfree : ∀ {stpId : String} {vlan : Int}, form.VlanAccepted stpId vlan →
      sapEndpoint ⟨toString vlan, stpId⟩ ∉ bookedEnds r := by
    rintro stpId vlan ⟨hlower, _, _, hnotin⟩ hbooked
    rw [(connectionForm_fields haccept.built).2.2.1] at hnotin
    obtain ⟨n, rfl⟩ := Int.eq_ofNat_of_zero_le (le_trans (by decide) hlower)
    exact free_of_notMem haccept.fetched hnotin r hr hblocks
      ⟨_, mem_ends_of_booked hbooked, _, rfl, covers_single n⟩
  rcases List.mem_pair.mp hend with rfl | rfl
  · exact hfree hpage.sourceAccepted
  · exact hfree hpage.destinationAccepted

/-- The forms a workflow is started with were accepted on the list of reservations. -/
inductive Informed (reservations : List AggregatorReservation) (m : Machine) : Workflow → Prop where
  | create {orders : Orders} {inventory : Inventory} {raw : ConnectionFields}
      {rawVlans : SdpVlanFields} {submission : Submission} :
      createInput orders inventory reservations raw rawVlans = .ok submission →
      Informed reservations m (.create submission)
  | retry {s : Subscription} {orders : Orders} {inventory : Inventory} {raw : ConnectionFields}
      {rawVlans : SdpVlanFields} {submission : Submission} : m.subscription = some s →
      retryInput orders inventory reservations s.vc raw rawVlans = .ok submission →
      Informed reservations m (.retryReservation submission)
  | other {workflow : Workflow} : workflow.submission = none → Informed reservations m workflow

theorem Informed.free {a : Aggregator} {m : Machine} {sent : List SentReserve}
    {workflow : Workflow} {submission : Submission} (h : Informed a.reservations m workflow)
    (hsubmission : workflow.submission = some submission) (hstep : InStep a m)
    (hlisted : Listed a.reservations sent) {r : AggregatorReservation} (hr : r ∈ a.reservations)
    (hlive : r.status ≠ ConnectionState.terminated)
    (hother : r.globalReservationId ≠ m.reservationId) {endpoint : String}
    (hend : endpoint ∈ submittedEnds submission) : endpoint ∉ bookedEnds r := by
  cases h with
  | create hinput =>
      cases hsubmission
      exact free_of_connectionInput hinput hr ⟨hlive, by simp⟩ hend
  | @retry s _ _ _ _ _ hs hinput =>
      cases hsubmission
      refine free_of_connectionInput (retryInput_eq_ok.mp hinput).2 hr ⟨hlive, fun heq => ?_⟩ hend
      rw [Machine.reservationId, hs] at hother
      exact hother (hstep.id_of_connection hlisted hs hr heq.symm)
  | other hnone => cases hnone.symm.trans hsubmission

/-! ## Ends are booked once -/

section Estate

variable {ι : Type*} [DecidableEq ι] {service : Service}

/-- Create and retry are started on the list of the aggregator. -/
def Estate.Informed (e : Estate ι) (event : EstateEvent ι) : Prop :=
  ∀ i workflow run, event = .circuit i (.start workflow run) →
    Mdp2p.Informed e.aggregator.reservations (e.fleet.circuits i) workflow

/-- No run is started with an end that a run of another circuit is about to reserve. -/
def Estate.Unrivalled (e : Estate ι) (event : EstateEvent ι) : Prop :=
  ∀ i workflow run submission, event = .circuit i (.start workflow run) →
    workflow.submission = some submission → ∀ endpoint ∈ submittedEnds submission,
      ∀ j, j ≠ i → ¬ Wants (e.fleet.circuits j) endpoint

/-- The steps of an estate whose forms are up to date. -/
structure Estate.Orderly (e : Estate ι) (event : EstateEvent ι) : Prop where
  between : e.AbortsBetween event
  informed : e.Informed event

/-- No end is booked twice, or is booked and wanted by another circuit, or wanted by two. -/
structure Apart (e : Estate ι) : Prop where
  booked : ∀ r ∈ e.aggregator.reservations, ∀ r' ∈ e.aggregator.reservations,
    r.status ≠ ConnectionState.terminated → r'.status ≠ ConnectionState.terminated →
      r ≠ r' → ∀ endpoint ∈ bookedEnds r, endpoint ∉ bookedEnds r'
  wanted : ∀ i endpoint, Wants (e.fleet.circuits i) endpoint → ∀ r ∈ e.aggregator.reservations,
    r.status ≠ ConnectionState.terminated →
      r.globalReservationId ≠ (e.fleet.circuits i).reservationId → endpoint ∉ bookedEnds r
  unrivalled : ∀ i j endpoint, i ≠ j → Wants (e.fleet.circuits i) endpoint →
    ¬ Wants (e.fleet.circuits j) endpoint

theorem Apart.circuit {e e' : Estate ι} {i : ι} {event : Event} (hservice : service.Lawful)
    (hapart : Apart e) (hcoherent : Coherent e) (h : (estate service).Reachable e)
    (horderly : e.Orderly (.circuit i event)) (hunrivalled : e.Unrivalled (.circuit i event))
    (hstep : (estate service).step e (.circuit i event) e') : Apart e' := by
  obtain ⟨f, a⟩ := e
  obtain ⟨f', a'⟩ := e'
  obtain ⟨hfresh, m, requests, hnext, hafter, htakes⟩ := hstep
  dsimp only at hfresh hnext hafter htakes
  have hsuffix := (sound_of_fleet (fleet_of_estate h)).suffix i
  have hfires := fires_of_next hnext
  obtain ⟨_, haside⟩ := hcoherent.moves hservice h horderly.between hfresh hnext htakes
  have hcircuits : ∀ j, f'.circuits j = if j = i then m else f.circuits j :=
    hafter ▸ f.after_circuits i event m requests
  -- a new reservation has the ends its circuit wants, under an id that no other one has
  have hgrows : ∀ q ∈ a'.reservations, q ∈ a.reservations ∨
      (∀ endpoint ∈ bookedEnds q, Wants (f.circuits i) endpoint) ∧
        ∀ r ∈ a'.reservations, r.status ≠ ConnectionState.terminated → r ≠ q →
          ∀ endpoint ∈ bookedEnds q, endpoint ∉ bookedEnds r := by
    intro q hq
    obtain hsame | ⟨body, r, hbody, hlist, hcriteria, hnew⟩ := htakes.grows hservice
    · exact .inl (hsame ▸ hq)
    rw [hlist] at hq
    obtain rfl | hq := List.mem_cons.mp hq
    · obtain ⟨hid, hwants⟩ := Wants.of_reserve hsuffix hfires hbody
      refine .inr ⟨hwants q hcriteria, fun r hr hlive hne endpoint hend => ?_⟩
      have hbefore : r ∈ a.reservations := (List.mem_cons.mp (hlist ▸ hr)).resolve_left hne
      exact hapart.wanted i endpoint (hwants q hcriteria endpoint hend) r hbefore hlive
        (hid ▸ hnew r hbefore)
    · exact .inl hq
  have hwanted : ∀ endpoint, Wants m endpoint → ∀ r ∈ a.reservations,
      r.status ≠ ConnectionState.terminated → r.globalReservationId ≠ m.reservationId →
        endpoint ∉ bookedEnds r := by
    intro endpoint hwants r hr hlive hid
    obtain hwants | ⟨workflow, run, submission, rfl, hsubmission, hend⟩ :=
      hwants.before hsuffix hfires
    · refine hapart.wanted i endpoint hwants r hr hlive fun hown => ?_
      exact (haside.left r hr hown).elim hid fun hleft => hlive hleft.1
    · have hkept : m.reservationId = (f.circuits i).reservationId := by
        cases Effect.of_fires hfires with
        | kept hkeeps => exact hkeeps.reservationId
        | reserved hkeeps => exact hkeeps.reservationId
      exact (horderly.informed i workflow run rfl).free hsubmission (hcoherent.inStep i)
        hcoherent.listed hr hlive (hkept ▸ hid) hend
  have hrivals : ∀ endpoint, Wants m endpoint → ∀ j, j ≠ i → ¬ Wants (f.circuits j) endpoint := by
    intro endpoint hwants j hj
    obtain hwants | ⟨workflow, run, submission, rfl, hsubmission, hend⟩ :=
      hwants.before hsuffix hfires
    · exact hapart.unrivalled i j endpoint (Ne.symm hj) hwants
    · exact hunrivalled i workflow run submission rfl hsubmission endpoint hend j hj
  refine ⟨?_, ?_, ?_⟩
  · intro r hr r' hr' hlive hlive' hne endpoint hend hend'
    obtain hbefore | ⟨_, hapart'⟩ := hgrows r hr
    · obtain hbefore' | ⟨_, hapart'⟩ := hgrows r' hr'
      · exact hapart.booked r hbefore r' hbefore' hlive hlive' hne endpoint hend hend'
      · exact hapart' r hr hlive hne endpoint hend' hend
    · exact hapart' r' hr' hlive' (Ne.symm hne) endpoint hend hend'
  · intro j endpoint hwants r hr hlive hid hend
    simp only [hcircuits] at hwants hid
    split at hwants
    · next hj =>
        rw [if_pos hj] at hid
        obtain ⟨hbefore, _⟩ := (haside.others r hr).resolve_right hid
        exact hwanted endpoint hwants r hbefore hlive hid hend
    · next hj =>
        rw [if_neg hj] at hid
        obtain hbefore | ⟨hwants', _⟩ := hgrows r hr
        · exact hapart.wanted j endpoint hwants r hbefore hlive hid hend
        · exact hapart.unrivalled j i endpoint hj hwants (hwants' endpoint hend)
  · intro j k endpoint hjk hj hk
    simp only [hcircuits] at hj hk
    split at hj <;> split at hk
    · next hji hki => exact hjk (hji.trans hki.symm)
    · next hki => exact hrivals endpoint hj k hki hk
    · next hji _ => exact hrivals endpoint hk j hji hj
    · exact hapart.unrivalled j k endpoint hjk hj hk

omit [DecidableEq ι] in
theorem Apart.progress {e : Estate ι} {r r' : AggregatorReservation} (h : Apart e)
    (hprogress : e.aggregator.Progresses r r')
    (hfinal : r.status = ConnectionState.terminated → r'.status = ConnectionState.terminated) :
    Apart ⟨e.fleet, e.aggregator.progress r r'⟩ := by
  have hends : ∀ q, bookedEnds (if q = r then r' else q) = bookedEnds q := by
    intro q
    split
    · next hq => rw [bookedEnds, hprogress.criteria, hq, bookedEnds]
    · rfl
  have hid : ∀ q, (if q = r then r' else q).globalReservationId = q.globalReservationId := by
    intro q
    split
    · next hq => rw [hprogress.globalReservationId, hq]
    · rfl
  have hlive : ∀ q, (if q = r then r' else q).status ≠ ConnectionState.terminated →
      q.status ≠ ConnectionState.terminated := by
    intro q hq
    split at hq
    · next heq => exact fun hterminated => hq (hfinal (heq ▸ hterminated))
    · exact hq
  refine ⟨?_, ?_, h.unrivalled⟩
  · simp only [Aggregator.progress, List.forall_mem_map, hends]
    intro q hq q' hq' hqlive hqlive' hne
    exact h.booked q hq q' hq' (hlive q hqlive) (hlive q' hqlive') fun heq => hne (by rw [heq])
  · simp only [Aggregator.progress, List.forall_mem_map, hends, hid]
    intro i endpoint hwants q hq hqlive
    exact h.wanted i endpoint hwants q hq (hlive q hqlive)

end Estate

/-! ## Two circuits over the line -/

def EstateEvent.Quiet {ι : Type*} : EstateEvent ι → Prop
  | .circuit _ (.run _) | .circuit _ (.callback _) | .progress _ _ => True
  | _ => False

section Runs

variable {ι : Type*} [DecidableEq ι] {condition : Estate ι → EstateEvent ι → Prop} {e e' : Estate ι}
  (he : ((estate .dutiful).restrict condition).Reachable e)

include he

theorem quiet_reachable {events : List (EstateEvent ι)}
    (hcondition : ∀ e event, e.Orderly event ∧ e.Unrivalled event → condition e event)
    (hquiet : ∀ event ∈ events, event.Quiet) (h : events.foldlM Estate.fire e = some e') :
    ((estate .dutiful).restrict condition).Reachable e' := by
  refine System.Reachable.foldlM ?_ he h
  intro event hevent t t' hfire
  have hevent := hquiet event hevent
  refine ⟨hcondition t event ?_, estate_of_fire hfire⟩
  have hstart : ∀ i workflow run, event ≠ .circuit i (.start workflow run) := by
    rintro i workflow run rfl
    exact hevent
  refine ⟨⟨?_, fun i workflow run heq => absurd heq (hstart i workflow run)⟩,
    fun i workflow run _ heq => absurd heq (hstart i workflow run)⟩
  rintro i circuitEvent rfl
  cases circuitEvent with
  | abort => exact hevent.elim
  | _ => trivial

theorem create_reachable {i : ι} {run : ℕ} {raw : ConnectionFields} {submission : Submission}
    (hcondition : e.Orderly (.circuit i (.start (.create submission) run)) →
      condition e (.circuit i (.start (.create submission) run)))
    (haccepted : createInput ascending lineInventory e.aggregator.reservations raw linePins =
      .ok submission)
    (h : e.fire (.circuit i (.start (.create submission) run)) = some e') :
    ((estate .dutiful).restrict condition).Reachable e' := by
  refine .step he ⟨hcondition ⟨?_, ?_⟩, estate_of_fire h⟩
  · rintro _ _ ⟨⟩
    trivial
  · rintro _ _ _ ⟨⟩
    exact .create haccepted

end Runs

def lineSecond (source destination : String) : AggregatorReservation :=
  ⟨"d", "RESERVING", some (globalReservationId "5"), none,
    some ⟨⟨10, source, destination⟩⟩, none⟩

def lineSecondRun (uuid source destination : String) : Event :=
  .run { lineEnv with
    uuid := uuid, connectionId := "d", reservation := lineSecond source destination }

def lineStarted : Option (Estate Bool) :=
  Estate.blank.fire (.circuit false (.start (.create lineSubmission) 0))

def lineReserved (source destination : String) : List (EstateEvent Bool) :=
  [.circuit true (lineSecondRun "5" source destination),
    .circuit true (lineSecondRun "6" source destination)]

/-- The second create starts on the same VLANs, before the first one reserves them. -/
def lineAtOnce : Option (Estate Bool) :=
  (lineStarted.bind fun e => e.fire (.circuit true (.start (.create lineSubmission) 1))).bind
    ((.circuit false (lineRun "1") :: .circuit false (lineRun "2") ::
      lineReserved "n:n:n:n:n:X:1?vlan=5" "n:n:n:n:n:Y:1?vlan=6").foldlM Estate.fire)

theorem lineFields_accepted :
    createInput ascending lineInventory [] lineFields linePins = .ok lineSubmission := by
  decide +kernel

theorem lineStarted_reachable {condition : Estate Bool → EstateEvent Bool → Prop} {e : Estate Bool}
    (hcondition : ∀ e event, e.Orderly event ∧ e.Unrivalled event → condition e event)
    (h : lineStarted = some e) : ((estate .dutiful).restrict condition).Reachable e := by
  have hinit : ((estate .dutiful).restrict condition).Reachable (Estate.blank : Estate Bool) :=
    .init ⟨rfl, rfl⟩
  refine create_reachable hinit (fun horderly => ?_) lineFields_accepted h
  refine hcondition _ _ ⟨horderly, ?_⟩
  rintro _ _ _ _ ⟨⟩ _ endpoint _ j _ hwants
  rcases hwants with h | h <;> cases h

/-- Two creates whose forms are accepted before either of them reserves book the same ends. -/
theorem booked_at_once : ∃ e : Estate Bool,
    ((estate .dutiful).restrict Estate.Orderly).Reachable e ∧
    ∃ r ∈ e.aggregator.reservations, ∃ r' ∈ e.aggregator.reservations, r ≠ r' ∧
      r.status ≠ ConnectionState.terminated ∧ r'.status ≠ ConnectionState.terminated ∧
      bookedEnds r = bookedEnds r' := by
  have hstarted : ∀ e ∈ lineStarted, e.aggregator.reservations = [] := by decide +kernel
  have hlast : lineAtOnce.map (·.aggregator.reservations) =
      some [lineSecond "n:n:n:n:n:X:1?vlan=5" "n:n:n:n:n:Y:1?vlan=6", lineMade] := by
    decide +kernel
  obtain ⟨e, he, hreservations⟩ := Option.map_eq_some_iff.mp hlast
  obtain ⟨e₁, he₁, hreserved⟩ := Option.bind_eq_some_iff.mp he
  obtain ⟨e₀, he₀, hsecond⟩ := Option.bind_eq_some_iff.mp he₁
  have hreach₁ := create_reachable (lineStarted_reachable (fun _ _ => And.left) he₀) id
    (hstarted e₀ he₀ ▸ lineFields_accepted) hsecond
  have hreach := quiet_reachable hreach₁ (fun _ _ => And.left)
    (by simp [lineReserved, EstateEvent.Quiet, lineSecondRun, lineRun]) hreserved
  refine ⟨e, hreach, lineMade, by simp [hreservations], _,
    hreservations ▸ List.mem_cons_self, ?_⟩
  decide

end NsiOrchestrator.Mdp2p
