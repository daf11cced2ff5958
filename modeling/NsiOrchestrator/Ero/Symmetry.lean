import NsiOrchestrator.Ero.Stps
import Mathlib.Data.List.Forall2

/-! # What the ERO does not depend on

Which end of an SDP is stored first is an accident of the listing, and a path may be
asked for from either endpoint. Neither changes whether `ero_stps` accepts a list of
SDPs or how long its shortest route is. The orientations of the two lists correspond,
and a route of one is a route, or a route read backwards, of the other.
-/

namespace NsiOrchestrator.Ero

/-! ## The shortest orientations -/

def shortestLength (order : EroOrder) (sourceStpId destStpId : String)
    (includedSdps : List (String × String)) (sdpPairs : Finset (Finset String)) :
    Except PyError (Option ℕ) := do
  let graph ← adjacency sdpPairs
  .ok ((orientations includedSdps).filterMap (score order graph sourceStpId destStpId)).min?

/-- An orientation with a route no longer than any route of any orientation. -/
def Shortest (sdpPairs : Finset (Finset String)) (sourceStpId destStpId : String)
    (includedSdps oriented : List (String × String)) : Prop :=
  oriented ∈ orientations includedSdps ∧
    ∃ r, IsRoute sdpPairs sourceStpId destStpId oriented r ∧
      ∀ o ∈ orientations includedSdps, ∀ r', IsRoute sdpPairs sourceStpId destStpId o r' →
        r.length ≤ r'.length

theorem FirstShortest.shortest {sdpPairs : Finset (Finset String)}
    {sourceStpId destStpId : String} {includedSdps oriented : List (String × String)}
    (h : FirstShortest sdpPairs sourceStpId destStpId includedSdps oriented) :
    Shortest sdpPairs sourceStpId destStpId includedSdps oriented := by
  obtain ⟨before, after, r, hsplit, hr, hleast, _⟩ := h
  exact ⟨by simp [hsplit], r, hr, hleast⟩

theorem min?_congr {l l' : List ℕ} (h : ∀ n, n ∈ l ↔ n ∈ l') : l.min? = l'.min? := by
  cases hl : l.min? with
  | none =>
      rw [List.min?_eq_none_iff] at hl
      have hl' : l' = [] := List.eq_nil_iff_forall_not_mem.mpr fun n hn => by
        simpa [hl] using (h n).mpr hn
      simp [hl']
  | some n =>
      rw [List.min?_eq_some_iff] at hl
      symm
      rw [List.min?_eq_some_iff]
      exact ⟨(h n).mp hl.1, fun m hm => hl.2 m ((h m).mpr hm)⟩

section Shortest

variable (order : EroOrder) (sourceStpId destStpId : String)
  {includedSdps : List (String × String)} {sdpPairs : Finset (Finset String)}
  {graph : Graph String}

theorem score_eq_some_iff (h : adjacency sdpPairs = .ok graph) {oriented : List (String × String)}
    {n : ℕ} :
    score order graph sourceStpId destStpId oriented = some n ↔
      IsLeast {n | ∃ r, IsRoute sdpPairs sourceStpId destStpId oriented r ∧ r.length = n} n := by
  rcases score_spec order sourceStpId destStpId h oriented with ⟨m, hm, hleast⟩ | ⟨hnone, hno⟩
  · rw [hm, Option.some.injEq]
    exact ⟨fun heq => heq ▸ hleast, fun hleast' => hleast.unique hleast'⟩
  · rw [hnone]
    constructor
    · intro heq
      cases heq
    · intro hleast
      obtain ⟨r, hr, _⟩ := hleast.1
      exact absurd hr (hno r)

theorem shortestLength_congr (order' : EroOrder) {sourceStpId' destStpId' : String}
    {includedSdps' : List (String × String)}
    (h : ∀ graph, adjacency sdpPairs = .ok graph → ∀ n,
      (∃ o ∈ orientations includedSdps',
        score order' graph sourceStpId' destStpId' o = some n) ↔
      ∃ o ∈ orientations includedSdps, score order graph sourceStpId destStpId o = some n) :
    shortestLength order' sourceStpId' destStpId' includedSdps' sdpPairs =
      shortestLength order sourceStpId destStpId includedSdps sdpPairs := by
  cases hgraph : adjacency sdpPairs with
  | error e => simp [shortestLength, hgraph, bind, Except.bind]
  | ok graph =>
      simp only [shortestLength, hgraph, bind, Except.bind, Except.ok.injEq]
      refine min?_congr fun n => ?_
      simpa only [List.mem_filterMap] using h graph hgraph n

theorem eroStps_accepts_iff :
    (∃ ero, eroStps order sourceStpId destStpId includedSdps sdpPairs = .ok ero) ↔
      includedSdps = [] ∨ includedSdps.length ≤ maxIncludedSdps ∧
        (∀ pair ∈ sdpPairs, pair.card = 2) ∧ ∃ oriented ∈ orientations includedSdps, ∃ r,
          IsRoute sdpPairs sourceStpId destStpId oriented r := by
  by_cases hne : includedSdps = []
  · simp [hne]
  by_cases hmax : includedSdps.length ≤ maxIncludedSdps
  · by_cases hpairs : ∀ pair ∈ sdpPairs, pair.card = 2
    · have hspec := (eroStps_spec order sourceStpId destStpId hne hmax hpairs).1
      exact hspec.trans ⟨fun hr => .inr ⟨hmax, hpairs, hr⟩, fun hr => (hr.resolve_left hne).2.2⟩
    · have herror : adjacency sdpPairs = .error (.valueError "not two values to unpack") :=
        if_neg hpairs
      simp [eroStps, hne, not_lt.mpr hmax, herror, hpairs, bind, Except.bind]
  · simp [eroStps, hne, not_le.mp hmax, hmax]

theorem shortest_of_eroStps {ero : List String} (hne : includedSdps ≠ [])
    (h : eroStps order sourceStpId destStpId includedSdps sdpPairs = .ok ero) :
    ∃ oriented, Shortest sdpPairs sourceStpId destStpId includedSdps oriented ∧
      ero = oriented.map Prod.fst := by
  obtain ⟨hmax, hpairs, _⟩ :=
    ((eroStps_accepts_iff order sourceStpId destStpId).mp ⟨ero, h⟩).resolve_left hne
  obtain ⟨graph, hgraph⟩ := adjacency_ok hpairs
  obtain ⟨oriented, hfirst, hero⟩ :=
    firstShortest_of_eroStps order sourceStpId destStpId hne hmax hgraph h
  exact ⟨oriented, hfirst.shortest, hero⟩

end Shortest

/-! ## A line of three networks -/

def linePairs : Finset (Finset String) :=
  {{"a:b:c:d:e:Y:1", "a:b:c:d:e:X:1"}, {"a:b:c:d:e:Y:2", "a:b:c:d:e:Z:1"}}

theorem line_shortest :
    ∃! oriented, Shortest linePairs "a:b:c:d:e:X:9" "a:b:c:d:e:Z:9"
      [("a:b:c:d:e:Y:1", "a:b:c:d:e:X:1")] oriented := by
  have hok : eroStps (fun _ => byLegAndNetwork) "a:b:c:d:e:X:9" "a:b:c:d:e:Z:9"
      [("a:b:c:d:e:Y:1", "a:b:c:d:e:X:1")] linePairs = .ok ["a:b:c:d:e:X:1"] := by decide +kernel
  obtain ⟨oriented, hshort, _⟩ := shortest_of_eroStps (fun _ => byLegAndNetwork)
    "a:b:c:d:e:X:9" "a:b:c:d:e:Z:9" (by decide) hok
  have hforward : ∀ o, Shortest linePairs "a:b:c:d:e:X:9" "a:b:c:d:e:Z:9"
      [("a:b:c:d:e:Y:1", "a:b:c:d:e:X:1")] o → o = [("a:b:c:d:e:X:1", "a:b:c:d:e:Y:1")] := by
    rintro o ⟨ho, r, ⟨hcrossing, hnodup⟩, _⟩
    have hends : o = [("a:b:c:d:e:Y:1", "a:b:c:d:e:X:1")] ∨
        o = [("a:b:c:d:e:X:1", "a:b:c:d:e:Y:1")] := by
      simpa [orientations, flips, orient] using ho
    rcases hends with rfl | rfl
    · have hsource : networkOf "a:b:c:d:e:X:1" = networkOf "a:b:c:d:e:X:9" := by decide +kernel
      exact absurd hsource (hcrossing.far_ne_start hnodup _ (List.mem_singleton_self _))
    · rfl
  exact ⟨oriented, hshort, fun o ho => (hforward o ho).trans (hforward oriented hshort).symm⟩

/-! ## Swapping the ends of SDPs -/

/-- The same SDPs in the same order, some with their two ends swapped. -/
def Swapped (swapped includedSdps : List (String × String)) : Prop :=
  List.Forall₂ (fun sdp' sdp => sdp' = sdp ∨ sdp' = sdp.swap) swapped includedSdps

theorem Swapped.symm {swapped includedSdps : List (String × String)}
    (h : Swapped swapped includedSdps) : Swapped includedSdps swapped := by
  refine h.flip.imp fun sdp' sdp hsdp => ?_
  rcases hsdp with rfl | rfl
  · exact .inl rfl
  · exact .inr (Prod.swap_swap _).symm

theorem Swapped.trans {l₁ l₂ l₃ : List (String × String)} (h₁ : Swapped l₁ l₂)
    (h₂ : Swapped l₂ l₃) : Swapped l₁ l₃ := by
  unfold Swapped at h₁ h₂ ⊢
  induction h₁ generalizing l₃ with
  | nil => exact h₂
  | @cons a b _ _ hab _ ih =>
      obtain ⟨c, l₃, hbc, hrest, rfl⟩ := List.forall₂_cons_left_iff.mp h₂
      refine .cons ?_ (ih hrest)
      rcases hab with rfl | rfl <;> rcases hbc with rfl | rfl <;> simp

theorem Swapped.mem_orientations {swapped includedSdps : List (String × String)}
    (h : Swapped swapped includedSdps) (oriented : List (String × String)) :
    oriented ∈ orientations swapped ↔ oriented ∈ orientations includedSdps := by
  rw [Ero.mem_orientations, Ero.mem_orientations]
  exact ⟨fun ho => Swapped.trans ho h, fun ho => Swapped.trans ho h.symm⟩

theorem Swapped.shortest {swapped includedSdps : List (String × String)}
    (h : Swapped swapped includedSdps) (sdpPairs : Finset (Finset String))
    (sourceStpId destStpId : String) (oriented : List (String × String)) :
    Shortest sdpPairs sourceStpId destStpId swapped oriented ↔
      Shortest sdpPairs sourceStpId destStpId includedSdps oriented := by
  simp only [Shortest, h.mem_orientations]

theorem Swapped.accepts_iff (order order' : EroOrder) (sourceStpId destStpId : String)
    (sdpPairs : Finset (Finset String)) {swapped includedSdps : List (String × String)}
    (h : Swapped swapped includedSdps) :
    (∃ ero, eroStps order' sourceStpId destStpId swapped sdpPairs = .ok ero) ↔
      ∃ ero, eroStps order sourceStpId destStpId includedSdps sdpPairs = .ok ero := by
  have hnil : swapped = [] ↔ includedSdps = [] := by
    rw [← List.length_eq_zero_iff, h.length_eq, List.length_eq_zero_iff]
  rw [eroStps_accepts_iff, eroStps_accepts_iff, hnil, h.length_eq]
  simp only [h.mem_orientations]

/-- Two EROs that differ come from two orientations of the same, shortest, length. -/
theorem Swapped.ties (order order' : EroOrder) (sourceStpId destStpId : String)
    (sdpPairs : Finset (Finset String)) {swapped includedSdps : List (String × String)}
    (h : Swapped swapped includedSdps) {ero ero' : List String}
    (hero : eroStps order sourceStpId destStpId includedSdps sdpPairs = .ok ero)
    (hero' : eroStps order' sourceStpId destStpId swapped sdpPairs = .ok ero')
    (hdiffer : ero ≠ ero') :
    ∃ oriented oriented', oriented ≠ oriented' ∧
      Shortest sdpPairs sourceStpId destStpId includedSdps oriented ∧
      Shortest sdpPairs sourceStpId destStpId includedSdps oriented' ∧
      ero = oriented.map Prod.fst ∧ ero' = oriented'.map Prod.fst := by
  by_cases hne : includedSdps = []
  · subst hne
    cases List.forall₂_nil_right_iff.mp h
    cases hero
    cases hero'
    exact absurd rfl hdiffer
  · have hne' : swapped ≠ [] := fun hnil => by
      subst hnil
      exact hne (List.forall₂_nil_left_iff.mp h)
    obtain ⟨oriented, hshort, rfl⟩ := shortest_of_eroStps order sourceStpId destStpId hne hero
    obtain ⟨oriented', hshort', rfl⟩ :=
      shortest_of_eroStps order' sourceStpId destStpId hne' hero'
    rw [h.shortest] at hshort'
    exact ⟨oriented, oriented', fun heq => hdiffer (by rw [heq]), hshort, hshort', rfl, rfl⟩

/-- Swapping ends of included SDPs keeps acceptance and the shortest length. Another
ERO comes from another orientation of the same, shortest, length. -/
theorem eroStps_swapped (order order' : EroOrder) (sourceStpId destStpId : String)
    (sdpPairs : Finset (Finset String)) {swapped includedSdps : List (String × String)}
    (h : Swapped swapped includedSdps) :
    ((∃ ero, eroStps order' sourceStpId destStpId swapped sdpPairs = .ok ero) ↔
      ∃ ero, eroStps order sourceStpId destStpId includedSdps sdpPairs = .ok ero) ∧
    shortestLength order' sourceStpId destStpId swapped sdpPairs =
      shortestLength order sourceStpId destStpId includedSdps sdpPairs ∧
    ((∃! oriented, Shortest sdpPairs sourceStpId destStpId includedSdps oriented) →
      ∀ ero, eroStps order sourceStpId destStpId includedSdps sdpPairs = .ok ero →
        eroStps order' sourceStpId destStpId swapped sdpPairs = .ok ero) ∧
    ∀ ero ero', eroStps order sourceStpId destStpId includedSdps sdpPairs = .ok ero →
      eroStps order' sourceStpId destStpId swapped sdpPairs = .ok ero' → ero ≠ ero' →
      ∃ oriented oriented', oriented ≠ oriented' ∧
        Shortest sdpPairs sourceStpId destStpId includedSdps oriented ∧
        Shortest sdpPairs sourceStpId destStpId includedSdps oriented' ∧
        ero = oriented.map Prod.fst ∧ ero' = oriented'.map Prod.fst := by
  have haccepts := h.accepts_iff order order' sourceStpId destStpId sdpPairs
  refine ⟨haccepts, shortestLength_congr _ _ _ _ fun graph hgraph n => ?_,
    fun hunique ero hero => ?_,
    fun ero ero' hero hero' => h.ties order order' sourceStpId destStpId sdpPairs hero hero'⟩
  · simp only [h.mem_orientations, score_eq_some_iff _ _ _ hgraph]
  · obtain ⟨ero', hero'⟩ := haccepts.mpr ⟨ero, hero⟩
    by_cases heq : ero = ero'
    · rw [hero', heq]
    · obtain ⟨oriented, oriented', hdiffer, hshort, hshort', _⟩ :=
        h.ties order order' sourceStpId destStpId sdpPairs hero hero' heq
      exact absurd (hunique.unique hshort hshort') hdiffer

theorem eroStps_swapped_line :
    eroStps (fun _ => byLegAndNetwork) "a:b:c:d:e:X:9" "a:b:c:d:e:Z:9"
      [("a:b:c:d:e:X:1", "a:b:c:d:e:Y:1")] linePairs = .ok ["a:b:c:d:e:X:1"] :=
  (eroStps_swapped (fun _ => byLegAndNetwork) (fun _ => byLegAndNetwork) "a:b:c:d:e:X:9"
    "a:b:c:d:e:Z:9" linePairs (.cons (.inr rfl) .nil)).2.2.1 line_shortest ["a:b:c:d:e:X:1"]
    (by decide +kernel)

/-! ## Reading a path from its destination -/

/-- The same crossings made in the other direction. -/
def turned {α : Type*} (crossings : List (α × α)) : List (α × α) :=
  (crossings.map Prod.swap).reverse

@[simp] theorem turned_turned {α : Type*} (crossings : List (α × α)) :
    turned (turned crossings) = crossings := by
  simp [turned, List.map_reverse, Function.comp_def]

theorem turned_cons {α : Type*} (near far : α) (crossings : List (α × α)) :
    turned ((near, far) :: crossings) = turned crossings ++ [(far, near)] := by
  simp [turned]

theorem map_turned {α β : Type*} (f : α → β) (crossings : List (α × α)) :
    (turned crossings).map (Prod.map f f) = turned (crossings.map (Prod.map f f)) := by
  simp [turned, List.map_reverse, Function.comp_def]

theorem mem_orientations_reverse {includedSdps oriented : List (String × String)} :
    turned oriented ∈ orientations includedSdps.reverse ↔
      oriented ∈ orientations includedSdps := by
  rw [mem_orientations, mem_orientations, turned, List.forall₂_reverse_iff,
    List.forall₂_map_left_iff]
  constructor <;>
    exact fun h => h.imp fun o sdp => by
      rw [Prod.swap_eq_iff_eq_swap, Prod.swap_inj]
      exact Or.symm

section Crossing

variable {N : Type*} {hop : N → N → Prop}

theorem Crossing.snoc_hop {dest dest' x : N} {todo : List (N × N)} {r : List N}
    (h : Crossing hop dest todo x r) (hlast : hop dest dest') :
    Crossing hop dest' todo x (r ++ [dest']) := by
  induction h with
  | arrive => exact .hop hlast .arrive
  | hop hxy _ ih => exact .hop hxy ih
  | cross _ ih => exact .cross ih

theorem Crossing.snoc_cross {dest x : N} {todo : List (N × N)} {r : List N}
    (h : Crossing hop dest todo x r) (dest' : N) :
    Crossing hop dest' (todo ++ [(dest, dest')]) x (r ++ [dest']) := by
  induction h with
  | arrive => exact .cross .arrive
  | hop hxy _ ih => exact .hop hxy ih
  | cross _ ih => exact .cross ih

/-- Over hops that work both ways a path read backwards is a path. -/
theorem Crossing.reverse (hsymm : ∀ x y, hop x y → hop y x) {dest x : N} {todo : List (N × N)}
    {r : List N} (h : Crossing hop dest todo x r) :
    Crossing hop x (turned todo) dest r.reverse := by
  induction h with
  | arrive => exact .arrive
  | @hop todo x y r hxy _ ih =>
      rw [List.reverse_cons]
      exact ih.snoc_hop (hsymm x y hxy)
  | @cross todo near far r _ ih =>
      rw [List.reverse_cons, turned_cons]
      exact ih.snoc_cross near

end Crossing

theorem SdpHop.symm {sdpPairs : Finset (Finset String)} {x y : String}
    (h : SdpHop sdpPairs x y) : SdpHop sdpPairs y x := by
  obtain ⟨left, right, hne, hmem, hx, hy⟩ := h
  exact ⟨right, left, hne.symm, Finset.pair_comm left right ▸ hmem, hy, hx⟩

theorem IsRoute.reverse {sdpPairs : Finset (Finset String)} {sourceStpId destStpId : String}
    {oriented : List (String × String)} {r : List String}
    (h : IsRoute sdpPairs sourceStpId destStpId oriented r) :
    IsRoute sdpPairs destStpId sourceStpId (turned oriented) r.reverse := by
  refine ⟨?_, List.nodup_reverse.mpr h.2⟩
  rw [map_turned]
  exact h.1.reverse fun _ _ => SdpHop.symm

theorem isRoute_turned_iff {sdpPairs : Finset (Finset String)} {sourceStpId destStpId : String}
    {oriented : List (String × String)} {r : List String} :
    IsRoute sdpPairs destStpId sourceStpId (turned oriented) r ↔
      IsRoute sdpPairs sourceStpId destStpId oriented r.reverse := by
  refine ⟨fun h => ?_, fun h => ?_⟩
  · simpa using h.reverse
  · simpa using h.reverse

theorem shortest_turned_iff {sdpPairs : Finset (Finset String)} {sourceStpId destStpId : String}
    {includedSdps oriented : List (String × String)} :
    Shortest sdpPairs destStpId sourceStpId includedSdps.reverse (turned oriented) ↔
      Shortest sdpPairs sourceStpId destStpId includedSdps oriented := by
  unfold Shortest
  rw [mem_orientations_reverse]
  refine and_congr_right fun _ => ⟨?_, ?_⟩
  · rintro ⟨r, hr, hleast⟩
    refine ⟨r.reverse, isRoute_turned_iff.mp hr, fun o ho r' hr' => ?_⟩
    simpa using hleast (turned o) (mem_orientations_reverse.mpr ho) r'.reverse hr'.reverse
  · rintro ⟨r, hr, hleast⟩
    refine ⟨r.reverse, hr.reverse, fun o ho r' hr' => ?_⟩
    rw [← turned_turned o] at ho hr'
    simpa using hleast (turned o) (mem_orientations_reverse.mp ho) r'.reverse
      (isRoute_turned_iff.mp hr')

def farEnd (sdp : String × String) (near : String) : String :=
  if near = sdp.1 then sdp.2 else sdp.1

theorem farEnds_of_orientation {includedSdps oriented : List (String × String)}
    (h : oriented ∈ orientations includedSdps) :
    List.zipWith farEnd includedSdps (oriented.map Prod.fst) = oriented.map Prod.snd := by
  rw [mem_orientations] at h
  induction h with
  | nil => rfl
  | @cons o sdp _ _ ho _ ih =>
      have hfar : farEnd sdp o.1 = o.2 := by
        rcases ho with rfl | rfl
        · simp [farEnd]
        · by_cases heq : sdp.2 = sdp.1 <;> simp [farEnd, heq]
      rw [List.map_cons, List.zipWith_cons_cons, ih, hfar, List.map_cons]

theorem score_turned (order order' : EroOrder) (sourceStpId destStpId : String)
    {sdpPairs : Finset (Finset String)} {graph : Graph String}
    (hgraph : adjacency sdpPairs = .ok graph) (oriented : List (String × String)) :
    score order' graph destStpId sourceStpId (turned oriented) =
      score order graph sourceStpId destStpId oriented := by
  refine Option.ext fun n => ?_
  rw [score_eq_some_iff _ _ _ hgraph, score_eq_some_iff _ _ _ hgraph]
  have hlengths : {n | ∃ r, IsRoute sdpPairs destStpId sourceStpId (turned oriented) r ∧
      r.length = n} = {n | ∃ r, IsRoute sdpPairs sourceStpId destStpId oriented r ∧
        r.length = n} := by
    ext m
    constructor
    · rintro ⟨r, hr, hlen⟩
      exact ⟨r.reverse, isRoute_turned_iff.mp hr, by simpa using hlen⟩
    · rintro ⟨r, hr, hlen⟩
      exact ⟨r.reverse, hr.reverse, by simpa using hlen⟩
  rw [hlengths]

theorem accepts_reverse_iff (order order' : EroOrder) (sourceStpId destStpId : String)
    (sdpPairs : Finset (Finset String)) (includedSdps : List (String × String)) :
    (∃ ero, eroStps order' destStpId sourceStpId includedSdps.reverse sdpPairs = .ok ero) ↔
      ∃ ero, eroStps order sourceStpId destStpId includedSdps sdpPairs = .ok ero := by
  rw [eroStps_accepts_iff, eroStps_accepts_iff, List.reverse_eq_nil_iff, List.length_reverse]
  refine or_congr_right (and_congr_right fun _ => and_congr_right fun _ => ⟨?_, ?_⟩)
  · rintro ⟨o, ho, r, hr⟩
    rw [← turned_turned o] at ho hr
    exact ⟨turned o, mem_orientations_reverse.mp ho, r.reverse, isRoute_turned_iff.mp hr⟩
  · rintro ⟨o, ho, r, hr⟩
    exact ⟨turned o, mem_orientations_reverse.mpr ho, r.reverse, hr.reverse⟩

/-- Asking for a path from the other endpoint, with the SDPs in reverse order, keeps
acceptance and the shortest length. With a single shortest orientation it names the
far ends of the SDPs instead, in reverse order. -/
theorem eroStps_reversed (order order' : EroOrder) (sourceStpId destStpId : String)
    (sdpPairs : Finset (Finset String)) (includedSdps : List (String × String)) :
    ((∃ ero, eroStps order' destStpId sourceStpId includedSdps.reverse sdpPairs = .ok ero) ↔
      ∃ ero, eroStps order sourceStpId destStpId includedSdps sdpPairs = .ok ero) ∧
    shortestLength order' destStpId sourceStpId includedSdps.reverse sdpPairs =
      shortestLength order sourceStpId destStpId includedSdps sdpPairs ∧
    ((∃! oriented, Shortest sdpPairs sourceStpId destStpId includedSdps oriented) →
      ∀ ero, eroStps order sourceStpId destStpId includedSdps sdpPairs = .ok ero →
        eroStps order' destStpId sourceStpId includedSdps.reverse sdpPairs =
          .ok (List.zipWith farEnd includedSdps ero).reverse) := by
  have haccepts := accepts_reverse_iff order order' sourceStpId destStpId sdpPairs includedSdps
  refine ⟨haccepts, shortestLength_congr _ _ _ _ fun graph hgraph n => ⟨?_, ?_⟩,
    fun hunique ero hero => ?_⟩
  · rintro ⟨o, ho, hn⟩
    rw [← turned_turned o] at ho hn
    rw [score_turned order order' sourceStpId destStpId hgraph] at hn
    exact ⟨turned o, mem_orientations_reverse.mp ho, hn⟩
  · rintro ⟨o, ho, hn⟩
    rw [← score_turned order order' sourceStpId destStpId hgraph] at hn
    exact ⟨turned o, mem_orientations_reverse.mpr ho, hn⟩
  · by_cases hne : includedSdps = []
    · subst hne
      cases hero
      rfl
    · obtain ⟨oriented, hshort, rfl⟩ := shortest_of_eroStps order sourceStpId destStpId hne hero
      obtain ⟨ero', hero'⟩ := haccepts.mpr ⟨_, hero⟩
      obtain ⟨oriented', hshort', rfl⟩ := shortest_of_eroStps order' destStpId sourceStpId
        (List.reverse_eq_nil_iff.not.mpr hne) hero'
      rw [← turned_turned oriented', shortest_turned_iff] at hshort'
      have hturned : oriented' = turned oriented := by
        rw [hunique.unique hshort hshort', turned_turned]
      rw [hero', hturned, farEnds_of_orientation hshort.1]
      simp [turned, List.map_reverse, Function.comp_def]

theorem eroStps_reversed_line :
    eroStps (fun _ => byLegAndNetwork) "a:b:c:d:e:Z:9" "a:b:c:d:e:X:9"
      [("a:b:c:d:e:Y:1", "a:b:c:d:e:X:1")] linePairs = .ok ["a:b:c:d:e:Y:1"] :=
  (eroStps_reversed (fun _ => byLegAndNetwork) (fun _ => byLegAndNetwork) "a:b:c:d:e:X:9"
    "a:b:c:d:e:Z:9" linePairs [("a:b:c:d:e:Y:1", "a:b:c:d:e:X:1")]).2.2 line_shortest
    ["a:b:c:d:e:X:1"] (by decide +kernel)

end NsiOrchestrator.Ero
