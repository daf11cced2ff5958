import Mathlib.Computability.Language
import Mathlib.Data.List.Infix

/-! # Searching a text for a pattern

A pattern is a fixed text, a run of characters of a class, or one pattern after
another. Its language says which texts it stands for. `search` looks for one of them
anywhere in a text: the matcher keeps every remainder a match can leave.
-/

namespace NsiOrchestrator

inductive Pattern (α : Type*)
  | literal (s : List α)
  | oneOrMore (ok : α → Bool)
  | andThen (p q : Pattern α)

namespace Pattern

variable {α : Type*}

/-- The texts a pattern stands for. -/
def language : Pattern α → Language α
  | literal s => {s}
  | oneOrMore ok => {m | m ≠ [] ∧ ∀ c ∈ m, ok c}
  | andThen p q => p.language * q.language

theorem mem_literal {s m : List α} : m ∈ (literal s).language ↔ m = s := Iff.rfl

theorem mem_oneOrMore {ok : α → Bool} {m : List α} :
    m ∈ (oneOrMore ok).language ↔ m ≠ [] ∧ ∀ c ∈ m, ok c := Iff.rfl

theorem mem_andThen {p q : Pattern α} {m : List α} :
    m ∈ (andThen p q).language ↔ ∃ a ∈ p.language, ∃ b ∈ q.language, a ++ b = m :=
  Language.mem_mul

/-- What runs of the class at the front of a text leave of it. -/
def runEnds (ok : α → Bool) : List α → List (List α)
  | [] => []
  | c :: s => if ok c then s :: runEnds ok s else []

variable [DecidableEq α]

/-- What matches at the front of a text leave of it. -/
def ends : Pattern α → List α → List (List α)
  | literal t, s => if t.isPrefixOf s then [s.drop t.length] else []
  | oneOrMore ok, s => runEnds ok s
  | andThen p q, s => (p.ends s).flatMap q.ends

/-- `re.search`: the pattern matches somewhere in the text. -/
def search (p : Pattern α) (s : List α) : Bool := s.tails.any fun t => !(p.ends t).isEmpty

omit [DecidableEq α] in
theorem mem_runEnds {ok : α → Bool} {s rest : List α} :
    rest ∈ runEnds ok s ↔ ∃ m, m ≠ [] ∧ (∀ c ∈ m, ok c) ∧ s = m ++ rest := by
  induction s with
  | nil =>
      simp only [runEnds, List.not_mem_nil, false_iff]
      rintro ⟨m, hne, _, heq⟩
      exact hne (List.append_eq_nil_iff.mp heq.symm).1
  | cons c s ih =>
      unfold runEnds
      constructor
      · intro h
        split at h
        · next hc =>
            rcases List.mem_cons.mp h with rfl | h
            · exact ⟨[c], by simp, by simpa using hc, rfl⟩
            · obtain ⟨m, _, hok, rfl⟩ := ih.mp h
              refine ⟨c :: m, by simp, ?_, rfl⟩
              intro c' hc'
              rcases List.mem_cons.mp hc' with rfl | hc'
              · exact hc
              · exact hok c' hc'
        · cases h
      · rintro ⟨m, hne, hok, heq⟩
        cases m with
        | nil => exact absurd rfl hne
        | cons c' m =>
            obtain ⟨rfl, rfl⟩ := List.cons.inj heq
            rw [if_pos (hok c List.mem_cons_self)]
            by_cases hm : m = []
            · subst hm
              exact List.mem_cons_self
            · refine List.mem_cons_of_mem _ (ih.mpr ⟨m, hm, ?_, rfl⟩)
              intro c' hc'
              exact hok c' (List.mem_cons_of_mem _ hc')

theorem mem_ends {p : Pattern α} {s rest : List α} :
    rest ∈ p.ends s ↔ ∃ m ∈ p.language, s = m ++ rest := by
  induction p generalizing s rest with
  | literal t =>
      unfold ends
      constructor
      · intro h
        split at h
        · next hprefix =>
            obtain ⟨after, rfl⟩ := List.isPrefixOf_iff_prefix.mp hprefix
            rw [List.drop_left, List.mem_singleton] at h
            exact ⟨t, mem_literal.mpr rfl, by rw [h]⟩
        · cases h
      · rintro ⟨m, hm, rfl⟩
        obtain rfl := mem_literal.mp hm
        rw [if_pos (List.isPrefixOf_iff_prefix.mpr (List.prefix_append m rest)), List.drop_left]
        exact List.mem_singleton_self rest
  | oneOrMore ok =>
      simp only [ends, mem_runEnds, mem_oneOrMore, and_assoc]
  | andThen p q ihp ihq =>
      rw [ends, List.mem_flatMap]
      constructor
      · rintro ⟨middle, hp, hq⟩
        obtain ⟨a, ha, rfl⟩ := ihp.mp hp
        obtain ⟨b, hb, rfl⟩ := ihq.mp hq
        exact ⟨a ++ b, mem_andThen.mpr ⟨a, ha, b, hb, rfl⟩, (List.append_assoc a b rest).symm⟩
      · rintro ⟨m, hm, rfl⟩
        obtain ⟨a, ha, b, hb, rfl⟩ := mem_andThen.mp hm
        exact ⟨b ++ rest, ihp.mpr ⟨a, ha, List.append_assoc a b rest⟩, ihq.mpr ⟨b, hb, rfl⟩⟩

/-- The search is not anchored: anything may stand before and after the match. -/
theorem search_iff {p : Pattern α} {s : List α} :
    p.search s = true ↔ ∃ before m after, m ∈ p.language ∧ s = before ++ m ++ after := by
  simp only [search, List.any_eq_true, List.mem_tails, Bool.not_eq_true', List.isEmpty_eq_false_iff]
  constructor
  · rintro ⟨t, ⟨before, rfl⟩, hne⟩
    obtain ⟨after, hafter⟩ := List.exists_mem_of_ne_nil _ hne
    obtain ⟨m, hm, rfl⟩ := mem_ends.mp hafter
    exact ⟨before, m, after, hm, (List.append_assoc before m after).symm⟩
  · rintro ⟨before, m, after, hm, rfl⟩
    refine ⟨m ++ after, ⟨before, (List.append_assoc before m after).symm⟩, ?_⟩
    exact List.ne_nil_of_mem (mem_ends.mpr ⟨m, hm, rfl⟩)

end Pattern

end NsiOrchestrator
