import NsiOrchestrator.Ero.RouteLength
import NsiOrchestrator.Lib.Outcome
import NsiOrchestrator.Lib.Text
import Mathlib.Data.List.Lex
import Mathlib.Data.List.MinMax
import Mathlib.Data.Prod.Lex
import Mathlib.Data.String.Basic

/-! # The source-facing STP of every included SDP

`ero_stps` tries both ends of every included SDP and keeps the orientation whose
whole route is shortest. The routes it speaks about are given in the words of the
network graph: hops along an SDP and crossings of the included SDPs, in order.
-/

namespace NsiOrchestrator.Ero

open Search Outcome

/-- Colon-separated components of a network id. -/
def networkComponents : ℕ := 6

def maxIncludedSdps : ℕ := 4

def networkOf (stpId : String) : String :=
  let plain := (stpId.toList.splitOn '?').headD []
  String.ofList ([':'].intercalate ((plain.splitOn ':').take networkComponents))

/-- `_adjacency`: an SDP is an edge between the networks of its two STPs. A pair
that does not unpack into two STPs is an error. -/
def adjacency (sdpPairs : Finset (Finset String)) : Except PyError (Graph String) :=
  if ∀ pair ∈ sdpPairs, pair.card = 2 then
    .ok
      { networks := sdpPairs.biUnion fun pair => pair.image networkOf
        hops := fun network => sdpPairs.biUnion fun pair =>
          (pair.filter fun left => networkOf left = network).biUnion fun left =>
            (pair.erase left).image networkOf
        hops_subset := fun network right h => by
          simp only [Finset.mem_biUnion, Finset.mem_image, Finset.mem_erase] at h ⊢
          obtain ⟨pair, hpair, left, _, stp, ⟨_, hstp⟩, rfl⟩ := h
          exact ⟨pair, hpair, stp, hstp, rfl⟩ }
  else .error (.valueError "not two values to unpack")

def legs (sourceNetwork destNetwork : String) (oriented : List (String × String)) :
    List (String × String) :=
  let entries := sourceNetwork :: oriented.map fun sdp => networkOf sdp.2
  let exits := (oriented.map fun sdp => networkOf sdp.1) ++ [destNetwork]
  entries.zip exits

/-- `product((False, True), repeat=n)`. -/
def flips : ℕ → List (List Bool)
  | 0 => [[]]
  | n + 1 => [false, true].flatMap fun flipped => (flips n).map (flipped :: ·)

def orient (sdp : String × String) (flipped : Bool) : String × String :=
  if flipped then (sdp.2, sdp.1) else sdp

/-- Every `(near, far)` reading of the included SDPs, unflipped first. -/
def orientations (includedSdps : List (String × String)) : List (List (String × String)) :=
  (flips includedSdps.length).map fun fs => List.zipWith orient includedSdps fs

def unroutable : String :=
  "The selected SDPs cannot be traversed in this order between the chosen endpoints; " ++
    "reorder them to follow the path from source to destination"

/-- An iteration order of sets for the search of every orientation. -/
abbrev EroOrder := List (String × String) → SetOrder (RouteState String)

/-- `ero_stps`. Each orientation's search iterates its sets in an order of its own. -/
def eroStps (order : EroOrder)
    (sourceStpId destStpId : String) (includedSdps : List (String × String))
    (sdpPairs : Finset (Finset String)) : Except PyError (List String) :=
  if includedSdps = [] then .ok []
  else if includedSdps.length > maxIncludedSdps then
    .error (.valueError s!"At most {maxIncludedSdps} SDPs can be included in the path")
  else do
    let graph ← adjacency sdpPairs
    let scored ← (orientations includedSdps).mapM fun oriented => do
      let length ← routeLength (order oriented) graph
        (legs (networkOf sourceStpId) (networkOf destStpId) oriented)
      pure (length, oriented)
    let routable := scored.filterMap fun candidate => candidate.1.map (·, candidate.2)
    match routable.argmin Prod.fst with
    | none => .error (.valueError unroutable)
    | some best => .ok (best.2.map Prod.fst)

@[simp] theorem eroStps_nil (order : EroOrder)
    (sourceStpId destStpId : String) (sdpPairs : Finset (Finset String)) :
    eroStps order sourceStpId destStpId [] sdpPairs = .ok [] := rfl

/-! ## Routes through the included SDPs -/

/-- Networks crossed from a network to the destination: hops between networks and
the crossings still to do, each made from its near network to its far one. -/
inductive Crossing {N : Type*} (hop : N → N → Prop) (dest : N) : List (N × N) → N → List N → Prop
    where
  | arrive : Crossing hop dest [] dest [dest]
  | hop {todo : List (N × N)} {x y : N} {r : List N} :
      hop x y → Crossing hop dest todo y r → Crossing hop dest todo x (x :: r)
  | cross {todo : List (N × N)} {near far : N} {r : List N} :
      Crossing hop dest todo far r → Crossing hop dest ((near, far) :: todo) near (near :: r)

def SdpHop (sdpPairs : Finset (Finset String)) (x y : String) : Prop :=
  ∃ left right, left ≠ right ∧ {left, right} ∈ sdpPairs ∧ networkOf left = x ∧ networkOf right = y

/-- A route for an orientation: it never re-enters a network, and crosses the
oriented SDPs exactly once each in their order. -/
def IsRoute (sdpPairs : Finset (Finset String)) (sourceStpId destStpId : String)
    (oriented : List (String × String)) (r : List String) : Prop :=
  Crossing (SdpHop sdpPairs) (networkOf destStpId)
    (oriented.map (Prod.map networkOf networkOf)) (networkOf sourceStpId) r ∧ r.Nodup

/-- `_legs` by recursion on the crossings. -/
def crossingLegs {N : Type*} (dest : N) : N → List (N × N) → List (N × N)
  | x, [] => [(x, dest)]
  | x, (near, far) :: todo => (x, near) :: crossingLegs dest far todo

theorem legs_eq_crossingLegs (sourceNetwork destNetwork : String)
    (oriented : List (String × String)) :
    legs sourceNetwork destNetwork oriented =
      crossingLegs destNetwork sourceNetwork (oriented.map (Prod.map networkOf networkOf)) := by
  induction oriented generalizing sourceNetwork with
  | nil => rfl
  | cons sdp oriented ih =>
      have := ih (networkOf sdp.2)
      simp only [legs, List.map_cons, List.cons_append, List.zip_cons_cons, crossingLegs,
        Prod.map] at this ⊢
      rw [← this]

theorem legs_ne_nil (sourceNetwork destNetwork : String) (oriented : List (String × String)) :
    legs sourceNetwork destNetwork oriented ≠ [] := by
  cases oriented <;> simp [legs]

section Crossing

variable {N : Type*} {graph : Graph N} {hop : N → N → Prop}
  (hgraph : ∀ x y, y ∈ graph.hops x ↔ hop x y)

include hgraph

theorem crossing_of_rest {x exit dest : N} {later : List (N × N)} {r : List N}
    (h : Rest graph x exit later r) :
    ∀ todo, crossingLegs dest x todo = (x, exit) :: later → Crossing hop dest todo x r := by
  induction h with
  | arrive x =>
      intro todo heq
      cases todo with
      | nil =>
          simp only [crossingLegs, List.cons.injEq, Prod.mk.injEq, and_true, true_and] at heq
          exact heq ▸ .arrive
      | cons leg todo => cases leg; cases todo <;> simp [crossingLegs] at heq
  | @hop x y exit later r hxy _ ih =>
      intro todo heq
      refine .hop ((hgraph x y).mp hxy) (ih todo ?_)
      cases todo with
      | nil => simpa [crossingLegs] using heq
      | cons leg todo => simpa [crossingLegs] using heq
  | @cross x entry exit later r _ ih =>
      intro todo heq
      cases todo with
      | nil => simp [crossingLegs] at heq
      | cons leg todo =>
          obtain ⟨near, far⟩ := leg
          simp only [crossingLegs, List.cons.injEq, Prod.mk.injEq, true_and] at heq
          obtain ⟨rfl, hlater⟩ := heq
          have hfar : far = entry := by
            cases todo <;> simp [crossingLegs] at hlater <;> tauto
          subst hfar
          exact .cross (ih todo hlater)

theorem legRoute_of_crossing {x dest : N} {todo : List (N × N)} {r : List N}
    (h : Crossing hop dest todo x r) : LegRoute graph (crossingLegs dest x todo) r := by
  induction h with
  | arrive => exact .arrive dest
  | @hop todo x y r hxy _ ih =>
      cases todo with
      | nil => exact .hop ((hgraph x y).mpr hxy) ih
      | cons leg todo => exact .hop ((hgraph x y).mpr hxy) ih
  | @cross todo near far r _ ih =>
      cases todo with
      | nil => exact .cross ih
      | cons leg todo => exact .cross ih

theorem legRoute_iff_crossing {x dest : N} {todo : List (N × N)} {r : List N} :
    LegRoute graph (crossingLegs dest x todo) r ↔ Crossing hop dest todo x r := by
  refine ⟨fun h => ?_, legRoute_of_crossing hgraph⟩
  cases todo with
  | nil => exact crossing_of_rest hgraph h [] rfl
  | cons leg todo => exact crossing_of_rest hgraph h (leg :: todo) rfl

end Crossing

section Nodup

variable {N : Type*} {hop : N → N → Prop} {dest x : N} {todo : List (N × N)} {r : List N}

theorem Crossing.start_mem (h : Crossing hop dest todo x r) : x ∈ r := by
  cases h <;> simp

theorem Crossing.dest_mem (h : Crossing hop dest todo x r) : dest ∈ r := by
  induction h with
  | arrive => simp
  | hop _ _ ih => simp [ih]
  | cross _ ih => simp [ih]

theorem Crossing.todo_mem (h : Crossing hop dest todo x r) : ∀ c ∈ todo, c.1 ∈ r ∧ c.2 ∈ r := by
  induction h with
  | arrive => simp
  | hop _ _ ih =>
      intro c hc
      have := ih c hc
      simp [this.1, this.2]
  | @cross todo near far r hrest ih =>
      intro c hc
      rcases List.mem_cons.mp hc with rfl | hc
      · simp [hrest.start_mem]
      · have := ih c hc
        simp [this.1, this.2]

theorem Crossing.near_ne_far (h : Crossing hop dest todo x r) (hnodup : r.Nodup) :
    ∀ c ∈ todo, c.1 ≠ c.2 := by
  induction h with
  | arrive => simp
  | hop _ _ ih => exact ih (List.nodup_cons.mp hnodup).2
  | @cross todo near far r hrest ih =>
      obtain ⟨hnear, hr⟩ := List.nodup_cons.mp hnodup
      have hfirst : near ≠ far := fun heq => hnear (heq ▸ hrest.start_mem)
      simpa [hfirst] using ih hr

theorem Crossing.far_ne_start (h : Crossing hop dest todo x r) (hnodup : r.Nodup) :
    ∀ c ∈ todo, c.2 ≠ x := by
  intro c hc heq
  cases h with
  | arrive => simp at hc
  | hop _ hrest => exact (List.nodup_cons.mp hnodup).1 (heq ▸ (hrest.todo_mem c hc).2)
  | @cross todo near far r hrest =>
      have hnear : x ∉ r := (List.nodup_cons.mp hnodup).1
      rcases List.mem_cons.mp hc with rfl | hc
      · exact hnear (heq ▸ hrest.start_mem)
      · exact hnear (heq ▸ (hrest.todo_mem c hc).2)

end Nodup

theorem adjacency_hops {sdpPairs : Finset (Finset String)} {graph : Graph String}
    (h : adjacency sdpPairs = .ok graph) (x y : String) :
    y ∈ graph.hops x ↔ SdpHop sdpPairs x y := by
  unfold adjacency at h
  split at h
  · next hpairs =>
      cases h
      simp only [Finset.mem_biUnion, Finset.mem_filter, Finset.mem_image, Finset.mem_erase, SdpHop]
      constructor
      · rintro ⟨pair, hpair, left, ⟨hleft, rfl⟩, right, ⟨hne, hright⟩, rfl⟩
        have hcard : ({left, right} : Finset String).card = 2 := Finset.card_pair hne.symm
        have heq : {left, right} = pair := by
          apply Finset.eq_of_subset_of_card_le
          · intro stp hstp
            rcases Finset.mem_insert.mp hstp with rfl | hstp
            · exact hleft
            · rwa [Finset.mem_singleton.mp hstp]
          · rw [hcard, hpairs pair hpair]
        exact ⟨left, right, hne.symm, heq ▸ hpair, rfl, rfl⟩
      · rintro ⟨left, right, hne, hpair, rfl, rfl⟩
        exact ⟨{left, right}, hpair, left, ⟨by simp, rfl⟩, right, ⟨hne.symm, by simp⟩, rfl⟩
  · cases h

theorem simpleRoute_iff_isRoute {sdpPairs : Finset (Finset String)} {graph : Graph String}
    (h : adjacency sdpPairs = .ok graph) (sourceStpId destStpId : String)
    (oriented : List (String × String)) (r : List String) :
    SimpleRoute graph (legs (networkOf sourceStpId) (networkOf destStpId) oriented) r ↔
      IsRoute sdpPairs sourceStpId destStpId oriented r := by
  rw [SimpleRoute, IsRoute, legs_eq_crossingLegs, legRoute_iff_crossing (adjacency_hops h)]

/-! ## The first shortest orientation -/

theorem argmin_split {α β : Type*} [LinearOrder β] [DecidableEq α] {f : α → β} {l : List α} {m : α}
    (h : l.argmin f = some m) :
    ∃ before after, l = before ++ m :: after ∧ (∀ a ∈ l, f m ≤ f a) ∧ ∀ a ∈ before, f m < f a := by
  obtain ⟨hmem, hleast, hfirst⟩ := List.mem_argmin_iff.mp h
  obtain ⟨before, after, rfl, hnew⟩ := List.eq_append_cons_of_mem hmem
  refine ⟨before, after, rfl, hleast, fun a ha => ?_⟩
  by_contra hle
  have hidx := hfirst a (by simp [ha]) (not_lt.mp hle)
  rw [List.idxOf_append_of_notMem hnew, List.idxOf_append_of_mem ha, List.idxOf_cons_self] at hidx
  have := List.idxOf_lt_length_of_mem ha
  omega

theorem argmin_scored {α : Type*} [DecidableEq α] {score : α → Option ℕ} {l : List α} {best : ℕ × α}
    (h : (l.filterMap fun o => (score o).map (·, o)).argmin Prod.fst = some best) :
    ∃ before after, l = before ++ best.2 :: after ∧ score best.2 = some best.1 ∧
      (∀ o ∈ l, ∀ n, score o = some n → best.1 ≤ n) ∧
      ∀ o ∈ before, ∀ n, score o = some n → best.1 < n := by
  have hscored : ∀ {o : α} {l' : List α} {n : ℕ}, o ∈ l' → score o = some n →
      (n, o) ∈ l'.filterMap fun o => (score o).map (·, o) := fun ho hn =>
    List.mem_filterMap.mpr ⟨_, ho, by simp [hn]⟩
  obtain ⟨pre, post, hsplit, hleast, hfirst⟩ := argmin_split h
  obtain ⟨l₁, l₂, rfl, rfl, hl₂⟩ := List.filterMap_eq_append_iff.mp hsplit
  obtain ⟨m₁, o, m₂, rfl, hm₁, ho, _⟩ := List.filterMap_eq_cons_iff.mp hl₂
  obtain ⟨n, hn, rfl⟩ := Option.map_eq_some_iff.mp ho
  refine ⟨l₁ ++ m₁, m₂, by simp, hn, fun o' ho' n' hn' => ?_, fun o' ho' n' hn' => ?_⟩
  · exact hleast (n', o') (hscored ho' hn')
  · rcases List.mem_append.mp ho' with hin | hin
    · exact hfirst (n', o') (hscored hin hn')
    · have := hm₁ o' hin
      simp [hn'] at this

def score (order : EroOrder) (graph : Graph String)
    (sourceStpId destStpId : String) (oriented : List (String × String)) : Option ℕ :=
  (routeLength (order oriented) graph
    (legs (networkOf sourceStpId) (networkOf destStpId) oriented)).toOption.join

section Score

variable (order : EroOrder)
  {sdpPairs : Finset (Finset String)} {graph : Graph String} (sourceStpId destStpId : String)

theorem routeLength_eq_score (graph : Graph String) (oriented : List (String × String)) :
    routeLength (order oriented) graph
      (legs (networkOf sourceStpId) (networkOf destStpId) oriented) =
        .ok (score order graph sourceStpId destStpId oriented) := by
  rcases routeLength_spec (order oriented) graph (legs_ne_nil (networkOf sourceStpId)
    (networkOf destStpId) oriented) with ⟨length, h, _⟩ | ⟨h, _⟩ <;>
  simp [score, h, Except.toOption]

theorem score_spec (h : adjacency sdpPairs = .ok graph) (oriented : List (String × String)) :
    (∃ n, score order graph sourceStpId destStpId oriented = some n ∧
      IsLeast {n | ∃ r, IsRoute sdpPairs sourceStpId destStpId oriented r ∧ r.length = n} n) ∨
    (score order graph sourceStpId destStpId oriented = none ∧
      ∀ r, ¬ IsRoute sdpPairs sourceStpId destStpId oriented r) := by
  have hspec := routeLength_spec (order oriented) graph (legs_ne_nil (networkOf sourceStpId)
    (networkOf destStpId) oriented)
  rw [routeLength_eq_score] at hspec
  simpa only [Except.ok.injEq, simpleRoute_iff_isRoute h] using hspec

/-- `ero_stps` past its guards, as a minimum over the scored orientations. -/
theorem eroStps_eq_argmin {includedSdps : List (String × String)} (hne : includedSdps ≠ [])
    (hmax : includedSdps.length ≤ maxIncludedSdps) (h : adjacency sdpPairs = .ok graph) :
    eroStps order sourceStpId destStpId includedSdps sdpPairs =
      match ((orientations includedSdps).filterMap fun oriented =>
          (score order graph sourceStpId destStpId oriented).map (·, oriented)).argmin Prod.fst with
      | none => .error (.valueError unroutable)
      | some best => .ok (best.2.map Prod.fst) := by
  rw [eroStps, if_neg hne, if_neg (by omega), h]
  have hscored : (orientations includedSdps).mapM (fun oriented => do
      let length ← routeLength (order oriented) graph
        (legs (networkOf sourceStpId) (networkOf destStpId) oriented)
      pure (length, oriented)) = .ok ((orientations includedSdps).map fun oriented =>
        (score order graph sourceStpId destStpId oriented, oriented)) :=
    mapM_eq_map fun oriented _ => by rw [routeLength_eq_score]; rfl
  simp only [bind, Except.bind] at hscored ⊢
  rw [hscored]
  simp only [List.filterMap_map, Function.comp_def]

end Score

theorem mem_orientations {includedSdps oriented : List (String × String)} :
    oriented ∈ orientations includedSdps ↔
      List.Forall₂ (fun o sdp => o = sdp ∨ o = sdp.swap) oriented includedSdps := by
  unfold orientations
  induction includedSdps generalizing oriented with
  | nil => simp [flips]
  | cons sdp includedSdps ih =>
      simp only [List.length_cons, flips, List.flatMap_cons, List.flatMap_nil, List.append_nil,
        List.map_append, List.map_map, List.mem_append, List.forall₂_cons_right_iff, ← ih,
        List.mem_map, Function.comp_apply, List.zipWith_cons_cons, orient]
      constructor
      · rintro (⟨fs, hfs, rfl⟩ | ⟨fs, hfs, rfl⟩)
        · exact ⟨sdp, _, .inl rfl, ⟨fs, hfs, rfl⟩, rfl⟩
        · exact ⟨sdp.swap, _, .inr rfl, ⟨fs, hfs, rfl⟩, rfl⟩
      · rintro ⟨o, _, rfl | rfl, ⟨fs, hfs, rfl⟩, rfl⟩
        · exact .inl ⟨fs, hfs, rfl⟩
        · exact .inr ⟨fs, hfs, rfl⟩

theorem adjacency_ok {sdpPairs : Finset (Finset String)} (h : ∀ pair ∈ sdpPairs, pair.card = 2) :
    ∃ graph, adjacency sdpPairs = .ok graph := by
  unfold adjacency
  rw [if_pos h]
  exact ⟨_, rfl⟩

/-- The first orientation, in product order, that has a route no longer than any
route of any orientation. -/
def FirstShortest (sdpPairs : Finset (Finset String)) (sourceStpId destStpId : String)
    (includedSdps oriented : List (String × String)) : Prop :=
  ∃ before after r, orientations includedSdps = before ++ oriented :: after ∧
    IsRoute sdpPairs sourceStpId destStpId oriented r ∧
    (∀ o ∈ orientations includedSdps, ∀ r', IsRoute sdpPairs sourceStpId destStpId o r' →
      r.length ≤ r'.length) ∧
    ∀ o ∈ before, ∀ r', IsRoute sdpPairs sourceStpId destStpId o r' → r.length < r'.length

theorem near_mem_of_orientation {includedSdps oriented : List (String × String)}
    (h : oriented ∈ orientations includedSdps) :
    List.Forall₂ (fun stp sdp => stp = sdp.1 ∨ stp = sdp.2) (oriented.map Prod.fst)
      includedSdps := by
  rw [mem_orientations] at h
  rw [List.forall₂_map_left_iff]
  refine h.imp fun o sdp => ?_
  rintro (rfl | rfl)
  · exact .inl rfl
  · exact .inr rfl

section Result

variable (order : EroOrder)
  (sourceStpId destStpId : String) {includedSdps : List (String × String)}
  {sdpPairs : Finset (Finset String)}

theorem firstShortest_of_eroStps {graph : Graph String} {ero : List String}
    (hne : includedSdps ≠ []) (hmax : includedSdps.length ≤ maxIncludedSdps)
    (hgraph : adjacency sdpPairs = .ok graph)
    (h : eroStps order sourceStpId destStpId includedSdps sdpPairs = .ok ero) :
    ∃ oriented, FirstShortest sdpPairs sourceStpId destStpId includedSdps oriented ∧
      ero = oriented.map Prod.fst := by
  rw [eroStps_eq_argmin order sourceStpId destStpId hne hmax hgraph] at h
  split at h
  · cases h
  next best hbest =>
    cases h
    obtain ⟨before, after, hsplit, hscore, hleast, hfirst⟩ := argmin_scored hbest
    have hspec := score_spec order sourceStpId destStpId hgraph
    have hroute : ∀ o r, IsRoute sdpPairs sourceStpId destStpId o r →
        ∃ n, score order graph sourceStpId destStpId o = some n ∧ n ≤ r.length := fun o r hr => by
      rcases hspec o with ⟨n, hn, hmin⟩ | ⟨_, hnone⟩
      · exact ⟨n, hn, hmin.2 ⟨r, hr, rfl⟩⟩
      · exact absurd hr (hnone r)
    rcases hspec best.2 with ⟨n, hn, ⟨r, hr, rfl⟩, _⟩ | ⟨hnone, _⟩
    · rw [hscore, Option.some.injEq] at hn
      refine ⟨best.2, ⟨before, after, r, hsplit, hr, fun o ho r' hr' => ?_, fun o ho r' hr' => ?_⟩,
        rfl⟩
      · obtain ⟨n, hn', hle⟩ := hroute o r' hr'
        exact hn ▸ (hleast o ho n hn').trans hle
      · obtain ⟨n, hn', hle⟩ := hroute o r' hr'
        exact hn ▸ (hfirst o ho n hn').trans_le hle
    · simp [hscore] at hnone

theorem eroStps_ends {ero : List String}
    (h : eroStps order sourceStpId destStpId includedSdps sdpPairs = .ok ero) :
    List.Forall₂ (fun stp sdp => stp = sdp.1 ∨ stp = sdp.2) ero includedSdps := by
  by_cases hne : includedSdps = []
  · subst hne
    cases h
    exact .nil
  by_cases hmax : includedSdps.length ≤ maxIncludedSdps
  · cases hgraph : adjacency sdpPairs with
    | error e =>
        simp only [eroStps, if_neg hne, if_neg (not_lt.mpr hmax), hgraph] at h
        cases h
    | ok graph =>
        obtain ⟨oriented, ⟨_, _, _, hsplit, _⟩, rfl⟩ :=
          firstShortest_of_eroStps order sourceStpId destStpId hne hmax hgraph h
        exact near_mem_of_orientation (by simp [hsplit])
  · simp only [eroStps, if_neg hne, if_pos (not_le.mp hmax)] at h
    cases h

theorem eroStps_unroutable {graph : Graph String} (hne : includedSdps ≠ [])
    (hmax : includedSdps.length ≤ maxIncludedSdps) (hgraph : adjacency sdpPairs = .ok graph)
    (h : ∀ oriented ∈ orientations includedSdps, ∀ r,
      ¬ IsRoute sdpPairs sourceStpId destStpId oriented r) :
    eroStps order sourceStpId destStpId includedSdps sdpPairs =
      .error (.valueError unroutable) := by
  rw [eroStps_eq_argmin order sourceStpId destStpId hne hmax hgraph]
  have hnone : (orientations includedSdps).filterMap (fun oriented =>
      (score order graph sourceStpId destStpId oriented).map (·, oriented)) = [] := by
    rw [List.filterMap_eq_nil_iff]
    intro oriented ho
    rcases score_spec order sourceStpId destStpId hgraph oriented
      with ⟨_, _, ⟨r, hr, _⟩, _⟩ | ⟨hs, _⟩
    · exact absurd hr (h oriented ho r)
    · rw [hs, Option.map_none]
  rw [hnone, List.argmin_nil]

theorem eroStps_routable {graph : Graph String} (hne : includedSdps ≠ [])
    (hmax : includedSdps.length ≤ maxIncludedSdps) (hgraph : adjacency sdpPairs = .ok graph)
    {oriented : List (String × String)} {r : List String}
    (ho : oriented ∈ orientations includedSdps)
    (hr : IsRoute sdpPairs sourceStpId destStpId oriented r) :
    ∃ ero, eroStps order sourceStpId destStpId includedSdps sdpPairs = .ok ero := by
  rw [eroStps_eq_argmin order sourceStpId destStpId hne hmax hgraph]
  split
  · next hnone =>
      rw [List.argmin_eq_none, List.filterMap_eq_nil_iff] at hnone
      rcases score_spec order sourceStpId destStpId hgraph oriented with ⟨n, hn, _⟩ | ⟨_, hno⟩
      · simpa [hn] using hnone oriented ho
      · exact absurd hr (hno r)
  · next best _ => exact ⟨_, rfl⟩

/-- For a non-empty list of at most `MAX_INCLUDED_SDPS` SDPs and a topology of pairs
of distinct STPs, `ero_stps` returns exactly when an orientation has a route. It
then names an end of every SDP, in order, by the first shortest orientation. -/
theorem eroStps_spec (hne : includedSdps ≠ []) (hmax : includedSdps.length ≤ maxIncludedSdps)
    (hpairs : ∀ pair ∈ sdpPairs, pair.card = 2) :
    ((∃ ero, eroStps order sourceStpId destStpId includedSdps sdpPairs = .ok ero) ↔
      ∃ oriented ∈ orientations includedSdps, ∃ r,
        IsRoute sdpPairs sourceStpId destStpId oriented r) ∧
    ((¬ ∃ oriented ∈ orientations includedSdps, ∃ r,
        IsRoute sdpPairs sourceStpId destStpId oriented r) →
      ∃ message, eroStps order sourceStpId destStpId includedSdps sdpPairs =
        .error (.valueError message)) ∧
    ∀ ero, eroStps order sourceStpId destStpId includedSdps sdpPairs = .ok ero →
      List.Forall₂ (fun stp sdp => stp = sdp.1 ∨ stp = sdp.2) ero includedSdps ∧
      ∃ oriented, FirstShortest sdpPairs sourceStpId destStpId includedSdps oriented ∧
        ero = oriented.map Prod.fst := by
  obtain ⟨graph, hgraph⟩ := adjacency_ok hpairs
  have hreturned : ∀ ero, eroStps order sourceStpId destStpId includedSdps sdpPairs = .ok ero →
      ∃ oriented ∈ orientations includedSdps, ero = oriented.map Prod.fst ∧
        FirstShortest sdpPairs sourceStpId destStpId includedSdps oriented := fun ero h => by
    obtain ⟨oriented, hfirst, hero⟩ :=
      firstShortest_of_eroStps order sourceStpId destStpId hne hmax hgraph h
    obtain ⟨before, after, _, hsplit, _⟩ := id hfirst
    exact ⟨oriented, by simp [hsplit], hero, hfirst⟩
  refine ⟨⟨?_, ?_⟩, fun hno => ?_, fun ero h => ?_⟩
  · rintro ⟨ero, h⟩
    obtain ⟨oriented, ho, _, _, _, r, _, hr, _⟩ := hreturned ero h
    exact ⟨oriented, ho, r, hr⟩
  · rintro ⟨oriented, ho, r, hr⟩
    exact eroStps_routable order sourceStpId destStpId hne hmax hgraph ho hr
  · exact ⟨unroutable, eroStps_unroutable order sourceStpId destStpId hne hmax hgraph
      fun oriented ho r hr => hno ⟨oriented, ho, r, hr⟩⟩
  · obtain ⟨oriented, ho, rfl, hfirst⟩ := hreturned ero h
    exact ⟨near_mem_of_orientation ho, oriented, hfirst, rfl⟩

end Result

theorem eroStps_order (order order' : EroOrder) (sourceStpId destStpId : String)
    (includedSdps : List (String × String)) (sdpPairs : Finset (Finset String)) :
    eroStps order sourceStpId destStpId includedSdps sdpPairs =
      eroStps order' sourceStpId destStpId includedSdps sdpPairs := by
  by_cases hne : includedSdps = []
  · simp [hne]
  by_cases hmax : includedSdps.length ≤ maxIncludedSdps
  · cases hgraph : adjacency sdpPairs with
    | error e =>
        simp only [eroStps, if_neg hne, if_neg (not_lt.mpr hmax), hgraph]
        rfl
    | ok graph =>
        have hscore : score order graph sourceStpId destStpId =
            score order' graph sourceStpId destStpId := by
          funext oriented
          rcases score_spec order sourceStpId destStpId hgraph oriented
            with ⟨n, hn, hleast⟩ | ⟨hn, hno⟩
          · rcases score_spec order' sourceStpId destStpId hgraph oriented with
              ⟨n', hn', hleast'⟩ | ⟨_, hno'⟩
            · rw [hn, hn', hleast.unique hleast']
            · obtain ⟨r, hr, _⟩ := hleast.1
              exact absurd hr (hno' r)
          · rcases score_spec order' sourceStpId destStpId hgraph oriented with
              ⟨_, _, ⟨r, hr, _⟩, _⟩ | ⟨hn', _⟩
            · exact absurd hr (hno r)
            · rw [hn, hn']
        rw [eroStps_eq_argmin order sourceStpId destStpId hne hmax hgraph,
          eroStps_eq_argmin order' sourceStpId destStpId hne hmax hgraph, hscore]
  · simp only [eroStps, if_neg hne, if_pos (not_le.mp hmax)]

/-! ## An order to run the search in -/

def routeKey (s : RouteState String) : ℕ ×ₗ String ×ₗ List String :=
  toLex (s.1, toLex (s.2.1, sorted s.2.2))

theorem routeKey_injective : Function.Injective routeKey := by
  rintro ⟨leg, network, visited⟩ ⟨leg', network', visited'⟩ h
  simp only [routeKey, EmbeddingLike.apply_eq_iff_eq, Prod.mk.injEq] at h
  obtain ⟨rfl, rfl, h⟩ := h
  rw [SetOrder.list_injective _ 0 h]

def byLegAndNetwork : SetOrder (RouteState String) := SetOrder.ofKey routeKey routeKey_injective

/-- A line of three networks, whose first SDP is stored with its far end first. -/
theorem eroStps_spec_line :
    let pairs : Finset (Finset String) := {{"a:b:c:d:e:Y:1", "a:b:c:d:e:X:1"},
      {"a:b:c:d:e:Y:2", "a:b:c:d:e:Z:1"}}
    let sdps := [("a:b:c:d:e:Y:1", "a:b:c:d:e:X:1")]
    eroStps (fun _ => byLegAndNetwork) "a:b:c:d:e:X:9" "a:b:c:d:e:Z:9" sdps pairs =
      .ok ["a:b:c:d:e:X:1"] ∧
    ∃ oriented, FirstShortest pairs "a:b:c:d:e:X:9" "a:b:c:d:e:Z:9" sdps oriented ∧
      ["a:b:c:d:e:X:1"] = oriented.map Prod.fst := by
  intro pairs sdps
  have hok : eroStps (fun _ => byLegAndNetwork) "a:b:c:d:e:X:9" "a:b:c:d:e:Z:9" sdps pairs =
      .ok ["a:b:c:d:e:X:1"] := by decide +kernel
  exact ⟨hok, ((eroStps_spec (fun _ => byLegAndNetwork) "a:b:c:d:e:X:9" "a:b:c:d:e:Z:9"
    (by decide) (by decide) (by decide +kernel)).2.2 _ hok).2⟩

end NsiOrchestrator.Ero
