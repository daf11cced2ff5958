import NsiOrchestrator.Lib.Repr
import NsiOrchestrator.Vlans.Stored

/-! # Grouping pairs by key

A sort key that tells the keys apart makes equal keys adjacent, so that the map has
every key once, in ascending order, with all of its values.
-/

namespace NsiOrchestrator.Vlans

open Text

section Group

variable {κ β ι : Type*} [DecidableEq κ] [DecidableEq β] [LinearOrder ι]
  {sortKey : κ → ι} {pairs pairs' : List (κ × β)}

theorem groupPairs_congr
    (hinj : ∀ a ∈ pairs, ∀ b ∈ pairs, sortKey a.1 = sortKey b.1 → a.1 = b.1)
    (h : ∀ e, e ∈ pairs' ↔ e ∈ pairs) : groupPairs sortKey pairs' = groupPairs sortKey pairs := by
  have hinj' : ∀ a ∈ pairs', ∀ b ∈ pairs', sortKey a.1 = sortKey b.1 → a.1 = b.1 := by
    intro a ha b hb
    exact hinj a ((h a).mp ha) b ((h b).mp hb)
  apply Dict.ext_of_ascending (groupPairs_ascending hinj') (groupPairs_ascending hinj)
  intro e
  obtain ⟨k, values⟩ := e
  rw [mem_groupPairs hinj', mem_groupPairs hinj]
  simp only [List.mem_map, h]

/-- For every sequence of pairs and every sort key that tells its keys apart, `group_pairs` has
exactly the keys of the sequence, in strictly ascending order, each with exactly the values it is
paired with; neither the order of the sequence nor its repetitions matter. `repr` is such a key
on pairs. -/
theorem groupPairs_exact
    (hinj : ∀ a ∈ pairs, ∀ b ∈ pairs, sortKey a.1 = sortKey b.1 → a.1 = b.1) :
    (∀ k, k ∈ (groupPairs sortKey pairs).keys ↔ ∃ v, (k, v) ∈ pairs) ∧
    ((groupPairs sortKey pairs).keys.Pairwise fun k k' => sortKey k < sortKey k') ∧
    (∀ k values, (groupPairs sortKey pairs).get? k = some values →
      ∀ v, v ∈ values ↔ (k, v) ∈ pairs) ∧
    (∀ pairs', (∀ e, e ∈ pairs' ↔ e ∈ pairs) →
      groupPairs sortKey pairs' = groupPairs sortKey pairs) ∧
    ∀ printable, Function.Injective (reprPair printable) := by
  refine ⟨?_, groupPairs_ascending hinj, ?_, fun _ h => groupPairs_congr hinj h,
    reprPair_injective⟩
  · intro k
    rw [mem_keys_groupPairs]
    simp
  · intro k values h
    exact ((mem_groupPairs hinj).mp (Dict.get?_eq_some.mp h)).2

end Group

def heldTwice : List (StpVlan × String) :=
  [(("X:2", 7), "c1"), (("X:10", 5), "c2"), (("X:2", 7), "c3"), (("X:10", 5), "c2")]

theorem groupPairs_exact_repr :
    (∀ k, k ∈ (groupPairs (reprPair fun _ => false) heldTwice).keys ↔
      ∃ v, (k, v) ∈ heldTwice) ∧
    groupPairs (reprPair fun _ => false) heldTwice.reverse =
      groupPairs (reprPair fun _ => false) heldTwice := by
  have hinj : ∀ a ∈ heldTwice, ∀ b ∈ heldTwice,
      reprPair (fun _ => false) a.1 = reprPair (fun _ => false) b.1 → a.1 = b.1 :=
    fun _ _ _ _ heq => reprPair_injective _ heq
  have h := groupPairs_exact hinj
  exact ⟨h.1, h.2.2.2.1 _ fun _ => List.mem_reverse⟩

/-! ## The maps that rest on it -/

theorem groupByStp_order (order order' : SetOrder StpVlan) (pairs : Finset StpVlan) :
    groupByStp order pairs = groupByStp order' pairs := by
  apply groupPairs_congr fun _ _ _ _ h => h
  intro e
  rw [SetOrder.mem_list, SetOrder.mem_list]

theorem vlansOutside_order {order order' : SetOrder StpVlan}
    {circuits : List (String × VcInactive)} {stpId labelGroup : String}
    {stranded stranded' : Dict Int (List String)}
    (h : vlansOutside order circuits stpId labelGroup = .ok stranded)
    (h' : vlansOutside order' circuits stpId labelGroup = .ok stranded') :
    stranded = stranded' := by
  have hasc : stranded.keys.Pairwise fun v v' => id v < id v' := vlansOutside_ascending h
  have hasc' : stranded'.keys.Pairwise fun v v' => id v < id v' := vlansOutside_ascending h'
  apply Dict.ext_of_ascending hasc hasc'
  intro e
  obtain ⟨vlan, ids⟩ := e
  rw [mem_vlansOutside h, mem_vlansOutside h']

end NsiOrchestrator.Vlans
