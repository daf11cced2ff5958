import Mathlib.Data.List.Forall2

/-! # Computations that may raise

How a computation in `Except` that returned was put together, and when a loop of
such computations returns.
-/

namespace NsiOrchestrator.Outcome

universe u

variable {ε : Type*} {α β : Type u}

theorem bind_eq_ok {x : Except ε α} {f : α → Except ε β} {b : β} :
    (x >>= f) = .ok b ↔ ∃ a, x = .ok a ∧ f a = .ok b := by
  cases x with
  | error e => simp [bind, Except.bind]
  | ok a => simp [bind, Except.bind]

theorem map_eq_ok {x : Except ε α} {f : α → β} {b : β} :
    (f <$> x) = .ok b ↔ ∃ a, x = .ok a ∧ f a = b := by
  cases x with
  | error e => simp [Functor.map, Except.map]
  | ok a => simp [Functor.map, Except.map]

theorem pure_eq_ok {a b : α} : (pure a : Except ε α) = .ok b ↔ a = b := by
  simp [pure, Except.pure]

theorem bind_eq_error {x : Except ε α} {f : α → Except ε β} {e : ε} :
    (x >>= f) = .error e ↔ x = .error e ∨ ∃ a, x = .ok a ∧ f a = .error e := by
  cases x with
  | error e => simp [bind, Except.bind]
  | ok a => simp [bind, Except.bind]

theorem pure_ne_error {a : α} {e : ε} : (pure a : Except ε α) ≠ .error e := by
  simp [pure, Except.pure]

theorem toOption_eq_some {α : Type*} {x : Except ε α} {a : α} :
    x.toOption = some a ↔ x = .ok a := by
  cases x with
  | error e => simp [Except.toOption]
  | ok a => simp [Except.toOption]

theorem mapM_eq_ok {f : α → Except ε β} {l : List α} {ys : List β} :
    l.mapM f = .ok ys ↔ List.Forall₂ (fun x y => f x = .ok y) l ys := by
  induction l generalizing ys with
  | nil =>
      simp only [List.mapM_nil, pure_eq_ok, List.forall₂_nil_left_iff]
      exact eq_comm
  | cons x l ih =>
      simp only [List.mapM_cons, bind_eq_ok, pure_eq_ok, List.forall₂_cons_left_iff, ih]
      constructor
      · rintro ⟨y, hy, ys', hys, rfl⟩
        exact ⟨y, ys', hy, hys, rfl⟩
      · rintro ⟨y, ys', hy, hys, rfl⟩
        exact ⟨y, hy, ys', hys, rfl⟩

/-- Of two lists related element by element, the second has nothing of its own. -/
theorem exists_of_forall₂ {α : Type*} {β : Type*} {R : α → β → Prop} {l : List α} {ys : List β}
    (h : List.Forall₂ R l ys) {y : β} (hy : y ∈ ys) : ∃ x ∈ l, R x y := by
  obtain ⟨i, hi, rfl⟩ := List.getElem_of_mem hy
  have hi' : i < l.length := h.length_eq ▸ hi
  exact ⟨l[i], List.getElem_mem hi', h.get hi' hi⟩

theorem exists_sublist_of_forall₂ {α : Type*} {β : Type*} {R : α → β → Prop} {l l' : List α}
    {ys : List β} (h : List.Forall₂ R l ys) (hsub : l'.Sublist l) :
    ∃ ys', List.Forall₂ R l' ys' ∧ ys'.Sublist ys := by
  induction hsub generalizing ys with
  | slnil => exact ⟨[], .nil, List.nil_sublist _⟩
  | cons x _ ih =>
      obtain ⟨y, ys, _, hrest, rfl⟩ := List.forall₂_cons_left_iff.mp h
      obtain ⟨ys', hys', hsub⟩ := ih hrest
      exact ⟨ys', hys', hsub.cons y⟩
  | cons_cons x _ ih =>
      obtain ⟨y, ys, hy, hrest, rfl⟩ := List.forall₂_cons_left_iff.mp h
      obtain ⟨ys', hys', hsub⟩ := ih hrest
      exact ⟨y :: ys', .cons hy hys', hsub.cons_cons y⟩

theorem exists_of_mapM {f : α → Except ε β} {l : List α} {ys : List β} (h : l.mapM f = .ok ys)
    {x : α} (hx : x ∈ l) : ∃ y ∈ ys, f x = .ok y :=
  exists_of_forall₂ (R := fun y x => f x = .ok y) (mapM_eq_ok.mp h).flip hx

theorem exists_of_mem_mapM {f : α → Except ε β} {l : List α} {ys : List β} (h : l.mapM f = .ok ys)
    {y : β} (hy : y ∈ ys) : ∃ x ∈ l, f x = .ok y :=
  exists_of_forall₂ (mapM_eq_ok.mp h) hy

theorem map_of_mapM {γ : Type*} {f : α → Except ε β} {g : α → γ} {g' : β → γ} {l : List α}
    {ys : List β} (h : l.mapM f = .ok ys) (hkeeps : ∀ x y, f x = .ok y → g' y = g x) :
    ys.map g' = l.map g := by
  rw [mapM_eq_ok] at h
  induction h with
  | nil => rfl
  | cons hx _ ih => rw [List.map_cons, List.map_cons, hkeeps _ _ hx, ih]

theorem exists_of_mapM_error {f : α → Except ε β} {l : List α} {e : ε} (h : l.mapM f = .error e) :
    ∃ x ∈ l, f x = .error e := by
  induction l with
  | nil => exact absurd h pure_ne_error
  | cons x l ih =>
      simp only [List.mapM_cons, bind_eq_error, pure_ne_error, and_false, exists_const,
        or_false] at h
      rcases h with h | ⟨_, _, h⟩
      · exact ⟨x, List.mem_cons_self, h⟩
      · obtain ⟨y, hy, h⟩ := ih h
        exact ⟨y, List.mem_cons_of_mem _ hy, h⟩

theorem exists_mapM {f : α → Except ε β} {l : List α} (h : ∀ x ∈ l, ∃ y, f x = .ok y) :
    ∃ ys, l.mapM f = .ok ys := by
  simp only [mapM_eq_ok]
  induction l with
  | nil => exact ⟨[], .nil⟩
  | cons x l ih =>
      obtain ⟨y, hy⟩ := h x (by simp)
      obtain ⟨ys, hys⟩ := ih fun x hx => h x (by simp [hx])
      exact ⟨y :: ys, .cons hy hys⟩

theorem mapM_eq_map {f : α → Except ε β} {g : α → β} {l : List α}
    (h : ∀ x ∈ l, f x = .ok (g x)) : l.mapM f = .ok (l.map g) := by
  rw [mapM_eq_ok, List.forall₂_map_right_iff, List.forall₂_same]
  exact h

/-! ## What a computation can raise -/

/-- Every error of the computation is of the kind. -/
def OnlyRaises (kind : ε → Prop) (x : Except ε α) : Prop := ∀ e, x = .error e → kind e

theorem OnlyRaises.pure {kind : ε → Prop} (a : α) : OnlyRaises kind (pure a : Except ε α) :=
  fun _ h => absurd h pure_ne_error

theorem OnlyRaises.bind {kind : ε → Prop} {x : Except ε α} {f : α → Except ε β}
    (hx : OnlyRaises kind x) (hf : ∀ a, OnlyRaises kind (f a)) : OnlyRaises kind (x >>= f) := by
  intro e h
  rcases bind_eq_error.mp h with h | ⟨a, _, h⟩
  · exact hx e h
  · exact hf a e h

theorem OnlyRaises.mapM {kind : ε → Prop} {f : α → Except ε β} (hf : ∀ a, OnlyRaises kind (f a))
    (l : List α) : OnlyRaises kind (l.mapM f) := by
  intro e h
  obtain ⟨x, _, h⟩ := exists_of_mapM_error h
  exact hf x e h

end NsiOrchestrator.Outcome
