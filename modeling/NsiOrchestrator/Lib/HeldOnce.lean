import Mathlib.Data.List.Nodup

/-! # Keys held at most once

A row of a table may hold a key, and which one may depend on the rest of the table. A
table in which no key is held twice stays so when a row with a new key is added, and
when rows keep their keys or give them up.
-/

namespace NsiOrchestrator

variable {ρ κ : Type*} {held held' : ρ → Option κ} {rows : List ρ}

/-- No two rows hold the same key. -/
def HeldOnce (held : ρ → Option κ) (rows : List ρ) : Prop := (rows.filterMap held).Nodup

theorem heldOnce_iff_pairwise :
    HeldOnce held rows ↔ rows.Pairwise fun r r' => ∀ k, held r = some k → held r' ≠ some k := by
  unfold HeldOnce List.Nodup
  rw [List.pairwise_filterMap]
  refine List.Pairwise.iff fun r r' => ⟨fun h k hr hr' => h k hr k hr' rfl, ?_⟩
  intro h k hr k' hr' heq
  exact h k hr (heq ▸ hr')

theorem HeldOnce.snoc {r : ρ} (h : HeldOnce held rows)
    (hold : ∀ r' ∈ rows, held' r' = held r')
    (hnew : ∀ k, held' r = some k → k ∉ rows.filterMap held) :
    HeldOnce held' (rows ++ [r]) := by
  have hkeys : rows.filterMap held' = rows.filterMap held := List.filterMap_congr hold
  unfold HeldOnce at h ⊢
  rw [List.filterMap_append, hkeys]
  cases hk : held' r with
  | none => simpa [hk] using h
  | some k =>
      rw [List.filterMap_cons_some hk, List.filterMap_nil, ← List.concat_eq_append]
      exact h.concat (hnew k hk)

theorem HeldOnce.map (f : ρ → ρ) (h : HeldOnce held rows)
    (hkept : ∀ r ∈ rows, held' (f r) = held r ∨ held' (f r) = none) :
    HeldOnce held' (rows.map f) := by
  rw [heldOnce_iff_pairwise] at h ⊢
  rw [List.pairwise_map]
  refine h.imp_of_mem fun {r r'} hr hr' hapart k hk hk' => ?_
  have hkept_r : held r = some k := by
    rcases hkept r hr with heq | hnone
    · exact heq ▸ hk
    · simp [hnone] at hk
  have hkept_r' : held r' = some k := by
    rcases hkept r' hr' with heq | hnone
    · exact heq ▸ hk'
    · simp [hnone] at hk'
  exact hapart k hkept_r hkept_r'

theorem HeldOnce.filter_eq [DecidableEq κ] {r : ρ} {k : κ} (h : HeldOnce held rows)
    (hr : r ∈ rows) (hk : held r = some k) : rows.filter (fun r' => held r' = some k) = [r] := by
  rw [heldOnce_iff_pairwise] at h
  obtain ⟨before, after, rfl⟩ := List.append_of_mem hr
  rw [List.pairwise_append, List.pairwise_cons] at h
  obtain ⟨_, ⟨hafter, _⟩, hbefore⟩ := h
  have hfirst : before.filter (fun r' => held r' = some k) = [] := by
    rw [List.filter_eq_nil_iff]
    intro r' hr' heq
    exact hbefore r' hr' r List.mem_cons_self k (by simpa using heq) hk
  have hlast : after.filter (fun r' => held r' = some k) = [] := by
    rw [List.filter_eq_nil_iff]
    intro r' hr' heq
    exact hafter r' hr' k hk (by simpa using heq)
  simp [hfirst, hlast, hk]

end NsiOrchestrator
