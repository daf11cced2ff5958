import Mathlib.Data.Finset.Card
import Mathlib.Data.List.Sort

/-! # Iteration orders of finite sets

A set is iterated in an order the program does not control. A function that
iterates one takes the order as an argument, and its results hold for every order.
-/

namespace NsiOrchestrator

/-- An iteration order for finite sets. It may differ from one use to the next. -/
structure SetOrder (σ : Type*) where
  list : ℕ → Finset σ → List σ
  nodup : ∀ n s, (list n s).Nodup
  mem_list : ∀ n s x, x ∈ list n s ↔ x ∈ s

attribute [simp] SetOrder.mem_list

theorem SetOrder.length_list {σ : Type*} [DecidableEq σ] (order : SetOrder σ) (n : ℕ)
    (s : Finset σ) : (order.list n s).length = s.card := by
  rw [← List.toFinset_card_of_nodup (order.nodup n s)]
  congr 1
  ext x
  simp

/-- Ascending order of an injective key, the same at every use. -/
def SetOrder.ofKey {σ κ : Type*} [LinearOrder κ] (key : σ → κ) (inj : Function.Injective key) :
    SetOrder σ :=
  let r : σ → σ → Prop := fun a b => key a ≤ key b
  have : IsTrans σ r := ⟨fun _ _ _ h h' => le_trans h h'⟩
  have : Std.Total r := ⟨fun a b => le_total (key a) (key b)⟩
  have : Std.Antisymm r := ⟨fun _ _ h h' => inj (le_antisymm h h')⟩
  { list := fun _ s => Quot.liftOn s.val (List.insertionSort r) fun _ _ h =>
      (((List.perm_insertionSort r _).trans h).trans
        (List.perm_insertionSort r _).symm).eq_of_pairwise'
        (List.pairwise_insertionSort r _) (List.pairwise_insertionSort r _)
    nodup := by
      rintro _ ⟨⟨l⟩, hl⟩
      exact (List.perm_insertionSort r l).nodup_iff.mpr hl
    mem_list := by
      rintro _ ⟨⟨l⟩, hl⟩ x
      exact List.mem_insertionSort r }

/-- `sorted` of a set. -/
def sorted {α : Type*} [LinearOrder α] (s : Finset α) : List α :=
  (SetOrder.ofKey id Function.injective_id).list 0 s

@[simp] theorem mem_sorted {α : Type*} [LinearOrder α] {s : Finset α} {x : α} :
    x ∈ sorted s ↔ x ∈ s :=
  SetOrder.mem_list _ 0 s x

theorem sorted_ascending {α : Type*} [LinearOrder α] (s : Finset α) :
    (sorted s).Pairwise (· < ·) := by
  have hle : (sorted s).Pairwise (· ≤ ·) := by
    rcases s with ⟨⟨l⟩, hl⟩
    have : IsTrans α fun a b => id a ≤ id b := ⟨fun _ _ _ h h' => le_trans h h'⟩
    have : Std.Total fun a b : α => id a ≤ id b := ⟨fun a b => le_total a b⟩
    exact List.pairwise_insertionSort (fun a b : α => id a ≤ id b) l
  have hnodup : (sorted s).Nodup := SetOrder.nodup _ 0 s
  exact (hle.and hnodup).imp fun h => lt_of_le_of_ne h.1 h.2

theorem sorted_toFinset {α : Type*} [LinearOrder α] {l : List α} (h : l.Pairwise (· < ·)) :
    sorted l.toFinset = l := by
  have hnodup : (sorted l.toFinset).Nodup := (sorted_ascending _).imp ne_of_lt
  have hperm : (sorted l.toFinset).Perm l := by
    rw [List.perm_ext_iff_of_nodup hnodup (h.imp ne_of_lt)]
    simp
  exact hperm.eq_of_pairwise (fun _ _ _ _ hab hba => absurd hab hba.asymm) (sorted_ascending _) h

noncomputable def SetOrder.arbitrary {σ : Type*} : SetOrder σ where
  list _ s := s.toList
  nodup _ s := s.nodup_toList
  mem_list _ _ _ := Finset.mem_toList

/-- The order that visits the elements of `front` first. -/
def SetOrder.starting {σ : Type*} [DecidableEq σ] (order : SetOrder σ) (front : List σ)
    (hfront : front.Nodup) : SetOrder σ where
  list n s := front.filter (· ∈ s) ++ (order.list n s).filter (· ∉ front)
  nodup n s := by
    rw [List.nodup_append]
    refine ⟨hfront.filter _, (order.nodup n s).filter _, ?_⟩
    rintro x hx y hy rfl
    exact absurd (List.mem_of_mem_filter hx) (by simpa using List.of_mem_filter hy)
  mem_list n s x := by
    by_cases hx : x ∈ front
    · simp [hx]
    · simp [hx]

theorem SetOrder.starting_list {σ : Type*} [DecidableEq σ] (order : SetOrder σ) {front : List σ}
    (hfront : front.Nodup) {n : ℕ} {s : Finset σ} (h : ∀ x ∈ front, x ∈ s) :
    front.Sublist ((order.starting front hfront).list n s) := by
  have hall : front.filter (· ∈ s) = front := List.filter_eq_self.mpr (by simpa using h)
  change front.Sublist (front.filter (· ∈ s) ++ _)
  rw [hall]
  exact List.sublist_append_left _ _

theorem SetOrder.list_injective {σ : Type*} (order : SetOrder σ) (n : ℕ) :
    Function.Injective (order.list n) := by
  intro s t h
  ext x
  rw [← order.mem_list n, h, order.mem_list]

end NsiOrchestrator
