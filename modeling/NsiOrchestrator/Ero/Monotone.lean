import NsiOrchestrator.Ero.Symmetry
import Mathlib.Order.Lattice.Nat

/-! # The ERO while the SDPs change

SDPs are subscribed and terminated, and a list of included SDPs is shortened on a
retry. Neither more SDPs in the topology nor fewer in the list turn an accepted path
down or make it longer. The other way round, an ERO rests on the SDPs along one route:
terminating any other leaves it as it was.
-/

namespace NsiOrchestrator.Ero

/-! ## Paths over other hops -/

section Crossing

variable {N : Type*} {hop hop' : N → N → Prop} {dest x : N} {todo todo' : List (N × N)} {r : List N}

theorem Crossing.relax (h : Crossing hop dest todo x r) (hmono : ∀ x y, hop x y → hop' x y)
    (hjoined : ∀ c ∈ todo, hop' c.1 c.2) (hfewer : todo'.Sublist todo) :
    Crossing hop' dest todo' x r := by
  induction h generalizing todo' with
  | arrive =>
      rw [List.sublist_nil.mp hfewer]
      exact .arrive
  | hop hxy _ ih => exact .hop (hmono _ _ hxy) (ih hjoined hfewer)
  | @cross todo near far r _ ih =>
      obtain ⟨hfirst, hlater⟩ := List.forall_mem_cons.mp hjoined
      cases hfewer with
      | cons _ hfewer => exact .hop hfirst (ih hlater hfewer)
      | cons_cons _ hfewer => exact .cross (ih hlater hfewer)

theorem Crossing.mono (h : Crossing hop dest todo x r) (hmono : ∀ x y, hop x y → hop' x y) :
    Crossing hop' dest todo x r := by
  induction h with
  | arrive => exact .arrive
  | hop hxy _ ih => exact .hop (hmono _ _ hxy) ih
  | cross _ ih => exact .cross ih

end Crossing

theorem SdpHop.mono {sdpPairs sdpPairs' : Finset (Finset String)} (hsub : sdpPairs ⊆ sdpPairs')
    {x y : String} (h : SdpHop sdpPairs x y) : SdpHop sdpPairs' x y := by
  obtain ⟨left, right, hne, hmem, hx, hy⟩ := h
  exact ⟨left, right, hne, hsub hmem, hx, hy⟩

theorem SdpHop.of_mem {sdpPairs : Finset (Finset String)} {sdp : String × String}
    (hpairs : ∀ pair ∈ sdpPairs, pair.card = 2) (h : {sdp.1, sdp.2} ∈ sdpPairs) :
    SdpHop sdpPairs (networkOf sdp.1) (networkOf sdp.2) := by
  have hne : sdp.1 ≠ sdp.2 := fun heq => by simpa [heq] using hpairs _ h
  exact ⟨sdp.1, sdp.2, hne, h, rfl, rfl⟩

theorem Crossing.kept {sdpPairs : Finset (Finset String)} {dest x : String}
    {todo : List (String × String)} {r : List String}
    (h : Crossing (SdpHop sdpPairs) dest todo x r) :
    ∃ kept ⊆ sdpPairs, kept.card + todo.length < r.length ∧
      Crossing (SdpHop kept) dest todo x r := by
  induction h with
  | arrive => exact ⟨∅, Finset.empty_subset _, by simp, .arrive⟩
  | hop hxy _ ih =>
      obtain ⟨kept, hsub, hcount, hkept⟩ := ih
      obtain ⟨left, right, hne, hmem, rfl, rfl⟩ := hxy
      refine ⟨insert {left, right} kept, Finset.insert_subset hmem hsub, ?_, ?_⟩
      · have := Finset.card_insert_le {left, right} kept
        simp only [List.length_cons]
        omega
      · refine .hop ⟨left, right, hne, Finset.mem_insert_self _ _, rfl, rfl⟩ ?_
        exact hkept.mono fun _ _ => SdpHop.mono (Finset.subset_insert _ _)
  | cross _ ih =>
      obtain ⟨kept, hsub, hcount, hkept⟩ := ih
      exact ⟨kept, hsub, by simp only [List.length_cons]; omega, .cross hkept⟩

section Route

variable {sdpPairs sdpPairs' : Finset (Finset String)} {sourceStpId destStpId : String}
  {oriented oriented' : List (String × String)} {r : List String}

theorem IsRoute.mono (hsub : sdpPairs ⊆ sdpPairs')
    (h : IsRoute sdpPairs sourceStpId destStpId oriented r) :
    IsRoute sdpPairs' sourceStpId destStpId oriented r :=
  ⟨h.1.mono fun _ _ => SdpHop.mono hsub, h.2⟩

theorem IsRoute.relax (hsub : sdpPairs ⊆ sdpPairs')
    (hjoined : ∀ sdp ∈ oriented, SdpHop sdpPairs' (networkOf sdp.1) (networkOf sdp.2))
    (hfewer : oriented'.Sublist oriented)
    (h : IsRoute sdpPairs sourceStpId destStpId oriented r) :
    IsRoute sdpPairs' sourceStpId destStpId oriented' r := by
  refine ⟨h.1.relax (fun _ _ => SdpHop.mono hsub) ?_ (hfewer.map _), h.2⟩
  exact List.forall_mem_map.mpr hjoined

end Route

/-! ## More SDPs, fewer of them included -/

theorem orientation_sublist {includedSdps includedSdps' oriented : List (String × String)}
    (hfewer : includedSdps'.Sublist includedSdps) (h : oriented ∈ orientations includedSdps) :
    ∃ oriented' ∈ orientations includedSdps', oriented'.Sublist oriented := by
  obtain ⟨oriented', hread, hsub⟩ :=
    Outcome.exists_sublist_of_forall₂ (mem_orientations.mp h).flip hfewer
  exact ⟨oriented', mem_orientations.mpr hread.flip, hsub⟩

theorem shortestLength_eq_some_iff (order : EroOrder) (sourceStpId destStpId : String)
    {includedSdps : List (String × String)} {sdpPairs : Finset (Finset String)} {n : ℕ} :
    shortestLength order sourceStpId destStpId includedSdps sdpPairs = .ok (some n) ↔
      (∀ pair ∈ sdpPairs, pair.card = 2) ∧ IsLeast {n | ∃ o ∈ orientations includedSdps, ∃ r,
        IsRoute sdpPairs sourceStpId destStpId o r ∧ r.length = n} n := by
  by_cases hpairs : ∀ pair ∈ sdpPairs, pair.card = 2
  · obtain ⟨graph, hgraph⟩ := adjacency_ok hpairs
    have hspec := score_spec order sourceStpId destStpId hgraph
    have hroute : ∀ o m, score order graph sourceStpId destStpId o = some m →
        ∃ r, IsRoute sdpPairs sourceStpId destStpId o r ∧ r.length = m := fun o m hm =>
      ((score_eq_some_iff order sourceStpId destStpId hgraph).mp hm).1
    have hscore : ∀ o r, IsRoute sdpPairs sourceStpId destStpId o r →
        ∃ m ≤ r.length, score order graph sourceStpId destStpId o = some m := fun o r hr => by
      rcases hspec o with ⟨m, hm, hleast⟩ | ⟨_, hnone⟩
      · exact ⟨m, hleast.2 ⟨r, hr, rfl⟩, hm⟩
      · exact absurd hr (hnone r)
    simp only [shortestLength, hgraph, bind, Except.bind, Except.ok.injEq, List.min?_eq_some_iff,
      List.mem_filterMap]
    constructor
    · rintro ⟨⟨o, ho, hn⟩, hleast⟩
      refine ⟨hpairs, ⟨o, ho, hroute o n hn⟩, ?_⟩
      rintro m ⟨o', ho', r', hr', rfl⟩
      obtain ⟨m, hle, hm⟩ := hscore o' r' hr'
      exact (hleast m ⟨o', ho', hm⟩).trans hle
    · rintro ⟨_, ⟨o, ho, r, hr, rfl⟩, hleast⟩
      obtain ⟨m, hle, hm⟩ := hscore o r hr
      have heq : m = r.length := hle.antisymm (hleast ⟨o, ho, hroute o m hm⟩)
      refine ⟨⟨o, ho, heq ▸ hm⟩, ?_⟩
      rintro m' ⟨o', ho', hm'⟩
      exact hleast ⟨o', ho', hroute o' m' hm'⟩
  · have herror : adjacency sdpPairs = .error (.valueError "not two values to unpack") :=
      if_neg hpairs
    simp [shortestLength, herror, hpairs, bind, Except.bind]

section Relaxed

variable (order order' : EroOrder) (sourceStpId destStpId : String)
  (includedSdps : List (String × String)) {includedSdps' : List (String × String)}
  {sdpPairs sdpPairs' : Finset (Finset String)}

theorem route_relaxed {includedSdps : List (String × String)} {sourceStpId destStpId : String}
    (hgrown : sdpPairs ⊆ sdpPairs') (hpairs : ∀ pair ∈ sdpPairs', pair.card = 2)
    (hknown : ∀ sdp ∈ includedSdps, {sdp.1, sdp.2} ∈ sdpPairs')
    (hfewer : includedSdps'.Sublist includedSdps) {oriented : List (String × String)}
    (ho : oriented ∈ orientations includedSdps) {r : List String}
    (hr : IsRoute sdpPairs sourceStpId destStpId oriented r) :
    ∃ oriented' ∈ orientations includedSdps',
      IsRoute sdpPairs' sourceStpId destStpId oriented' r := by
  obtain ⟨oriented', ho', hsub⟩ := orientation_sublist hfewer ho
  refine ⟨oriented', ho', hr.relax hgrown (fun o hmem => ?_) hsub⟩
  obtain ⟨sdp, hsdp, hread⟩ := Outcome.exists_of_forall₂ (mem_orientations.mp ho).flip hmem
  rcases hread with rfl | rfl
  · exact .of_mem hpairs (hknown _ hsdp)
  · exact (SdpHop.of_mem hpairs (hknown _ hsdp)).symm

theorem accepts_relaxed (hgrown : sdpPairs ⊆ sdpPairs')
    (hpairs : ∀ pair ∈ sdpPairs', pair.card = 2)
    (hknown : ∀ sdp ∈ includedSdps, {sdp.1, sdp.2} ∈ sdpPairs')
    (hfewer : includedSdps'.Sublist includedSdps) {ero : List String}
    (hero : eroStps order sourceStpId destStpId includedSdps sdpPairs = .ok ero) :
    ∃ ero', eroStps order' sourceStpId destStpId includedSdps' sdpPairs' = .ok ero' := by
  rw [eroStps_accepts_iff]
  rcases (eroStps_accepts_iff order sourceStpId destStpId).mp ⟨ero, hero⟩ with
    rfl | ⟨hmax, _, o, ho, r, hr⟩
  · exact .inl (List.sublist_nil.mp hfewer)
  · obtain ⟨o', ho', hr'⟩ := route_relaxed hgrown hpairs hknown hfewer ho hr
    exact .inr ⟨hfewer.length_le.trans hmax, hpairs, o', ho', r, hr'⟩

/-- More SDPs in the topology and fewer in the list never turn an accepted list down,
and the shortest length does not grow. -/
theorem eroStps_relaxed (hgrown : sdpPairs ⊆ sdpPairs')
    (hpairs : ∀ pair ∈ sdpPairs', pair.card = 2)
    (hknown : ∀ sdp ∈ includedSdps, {sdp.1, sdp.2} ∈ sdpPairs')
    (hfewer : includedSdps'.Sublist includedSdps) :
    (∀ ero, eroStps order sourceStpId destStpId includedSdps sdpPairs = .ok ero →
      ∃ ero', eroStps order' sourceStpId destStpId includedSdps' sdpPairs' = .ok ero') ∧
    ∀ n, shortestLength order sourceStpId destStpId includedSdps sdpPairs = .ok (some n) →
      ∃ n' ≤ n,
        shortestLength order' sourceStpId destStpId includedSdps' sdpPairs' = .ok (some n') := by
  refine ⟨fun ero hero => accepts_relaxed order order' sourceStpId destStpId includedSdps hgrown
    hpairs hknown hfewer hero, fun n hn => ?_⟩
  obtain ⟨_, ⟨o, ho, r, hr, rfl⟩, _⟩ := (shortestLength_eq_some_iff _ _ _).mp hn
  obtain ⟨o', ho', hr'⟩ := route_relaxed hgrown hpairs hknown hfewer ho hr
  have hlength : r.length ∈ {n | ∃ o ∈ orientations includedSdps', ∃ r,
      IsRoute sdpPairs' sourceStpId destStpId o r ∧ r.length = n} := ⟨o', ho', r, hr', rfl⟩
  have hleast := isLeast_csInf ⟨_, hlength⟩
  exact ⟨_, hleast.2 hlength, (shortestLength_eq_some_iff _ _ _).mpr ⟨hpairs, hleast⟩⟩

end Relaxed

/-- With an SDP from the source's network straight to the destination's subscribed, the
first SDP of the list is left out. -/
theorem eroStps_relaxed_line :
    ∃ ero, eroStps (fun _ => byLegAndNetwork) "a:b:c:d:e:X:9" "a:b:c:d:e:Z:9"
      [("a:b:c:d:e:Y:2", "a:b:c:d:e:Z:1")]
      (insert {"a:b:c:d:e:X:2", "a:b:c:d:e:Z:2"} linePairs) = .ok ero :=
  (eroStps_relaxed (fun _ => byLegAndNetwork) (fun _ => byLegAndNetwork) "a:b:c:d:e:X:9"
    "a:b:c:d:e:Z:9" [("a:b:c:d:e:Y:1", "a:b:c:d:e:X:1"), ("a:b:c:d:e:Y:2", "a:b:c:d:e:Z:1")]
    (Finset.subset_insert _ linePairs) (by decide) (by decide) (by decide)).1
    ["a:b:c:d:e:X:1", "a:b:c:d:e:Y:2"] (by decide +kernel)

/-! ## The SDPs an ERO rests on -/

theorem FirstShortest.unique {sdpPairs : Finset (Finset String)} {sourceStpId destStpId : String}
    {includedSdps oriented oriented' : List (String × String)}
    (h : FirstShortest sdpPairs sourceStpId destStpId includedSdps oriented)
    (h' : FirstShortest sdpPairs sourceStpId destStpId includedSdps oriented') :
    oriented = oriented' := by
  obtain ⟨before, after, r, hsplit, hr, hleast, hfirst⟩ := h
  obtain ⟨before', after', r', hsplit', hr', hleast', hfirst'⟩ := h'
  have hmem : oriented ∈ orientations includedSdps := by simp [hsplit]
  have hmem' : oriented' ∈ orientations includedSdps := by simp [hsplit']
  rcases List.append_eq_append_iff.mp (hsplit.symm.trans hsplit') with
    ⟨between, rfl, heq⟩ | ⟨between, rfl, heq⟩
  · cases between with
    | nil => exact (List.cons.inj heq).1
    | cons o between =>
        obtain ⟨rfl, _⟩ := List.cons.inj heq
        have := hfirst' oriented (by simp) r hr
        have := hleast oriented' hmem' r' hr'
        omega
  · cases between with
    | nil => exact (List.cons.inj heq).1.symm
    | cons o between =>
        obtain ⟨rfl, _⟩ := List.cons.inj heq
        have := hfirst oriented' (by simp) r' hr'
        have := hleast' oriented hmem r hr
        omega

/-- An ERO rests on a few SDPs of the topology: with those of one shortest route kept,
any others can be terminated. They are fewer than the networks of that route, less one
for every included SDP, which need not be among them. -/
theorem eroStps_rests (order : EroOrder) (sourceStpId destStpId : String)
    {includedSdps : List (String × String)} {sdpPairs : Finset (Finset String)} {ero : List String}
    (hne : includedSdps ≠ [])
    (h : eroStps order sourceStpId destStpId includedSdps sdpPairs = .ok ero) :
    ∃ kept ⊆ sdpPairs, ∃ n,
      shortestLength order sourceStpId destStpId includedSdps sdpPairs = .ok (some n) ∧
      kept.card + includedSdps.length < n ∧
      ∀ order' sdpPairs', kept ⊆ sdpPairs' → sdpPairs' ⊆ sdpPairs →
        eroStps order' sourceStpId destStpId includedSdps sdpPairs' = .ok ero := by
  obtain ⟨hmax, hpairs, _⟩ :=
    ((eroStps_accepts_iff order sourceStpId destStpId).mp ⟨ero, h⟩).resolve_left hne
  obtain ⟨graph, hgraph⟩ := adjacency_ok hpairs
  obtain ⟨oriented, ⟨before, after, r, hsplit, hr, hleast, hfirst⟩, rfl⟩ :=
    firstShortest_of_eroStps order sourceStpId destStpId hne hmax hgraph h
  have ho : oriented ∈ orientations includedSdps := by simp [hsplit]
  obtain ⟨kept, hkept, hcount, hroute⟩ := hr.1.kept
  have hlength : oriented.length = includedSdps.length := (mem_orientations.mp ho).length_eq
  refine ⟨kept, hkept, r.length, ?_, by simpa [hlength] using hcount, ?_⟩
  · refine (shortestLength_eq_some_iff _ _ _).mpr ⟨hpairs, ⟨oriented, ho, r, hr, rfl⟩, ?_⟩
    rintro n ⟨o, ho', r', hr', rfl⟩
    exact hleast o ho' r' hr'
  · intro order' sdpPairs' hin hout
    have hr' : IsRoute sdpPairs' sourceStpId destStpId oriented r :=
      IsRoute.mono hin ⟨hroute, hr.2⟩
    -- every route over the SDPs that are left was one before
    have hfirst' : FirstShortest sdpPairs' sourceStpId destStpId includedSdps oriented :=
      ⟨before, after, r, hsplit, hr', fun o ho' r' hr' => hleast o ho' r' (hr'.mono hout),
        fun o ho' r' hr' => hfirst o ho' r' (hr'.mono hout)⟩
    have hpairs' : ∀ pair ∈ sdpPairs', pair.card = 2 := fun pair hpair => hpairs pair (hout hpair)
    obtain ⟨ero', hero'⟩ := (eroStps_accepts_iff order' sourceStpId destStpId).mpr
      (.inr ⟨hmax, hpairs', oriented, ho, r, hr'⟩)
    obtain ⟨graph', hgraph'⟩ := adjacency_ok hpairs'
    obtain ⟨oriented', hagain, rfl⟩ :=
      firstShortest_of_eroStps order' sourceStpId destStpId hne hmax hgraph' hero'
    rw [hero', hagain.unique hfirst']

theorem eroStps_rests_line :
    ∃ kept ⊆ linePairs, ∃ n, shortestLength (fun _ => byLegAndNetwork) "a:b:c:d:e:X:9"
        "a:b:c:d:e:Z:9" [("a:b:c:d:e:Y:1", "a:b:c:d:e:X:1")] linePairs = .ok (some n) ∧
      kept.card + 1 < n ∧ ∀ order' sdpPairs', kept ⊆ sdpPairs' → sdpPairs' ⊆ linePairs →
        eroStps order' "a:b:c:d:e:X:9" "a:b:c:d:e:Z:9" [("a:b:c:d:e:Y:1", "a:b:c:d:e:X:1")]
          sdpPairs' = .ok ["a:b:c:d:e:X:1"] :=
  eroStps_rests (fun _ => byLegAndNetwork) "a:b:c:d:e:X:9" "a:b:c:d:e:Z:9" (by decide)
    (by decide +kernel)

end NsiOrchestrator.Ero
