import NsiOrchestrator.Lib.Dict
import NsiOrchestrator.Lib.Outcome
import NsiOrchestrator.Lib.Text
import NsiOrchestrator.Py

/-! # Dropdowns

A `Choice` is an enumeration with its keys for names. `Enum` keeps the names between
underscores to itself, and makes no member of a name that is special or private to the
class. The few names between underscores that `Enum` has a use for, such as `_order_`,
are taken to be refused like the others.
-/

namespace NsiOrchestrator.Forms

open Outcome Text

/-! ## Names -/

/-- The text has more in it than the marks it starts and ends with, which are not longer. -/
def between (marks : Chars) (s : Chars) : Bool :=
  2 * marks.length < s.length ∧ marks <+: s ∧ marks <:+ s ∧
    ¬ '_' :: marks <+: s ∧ ¬ '_' :: marks <:+ s

def isSunder (name : String) : Bool := between ['_'] name.toList

def isDunder (name : String) : Bool := between ['_', '_'] name.toList

def isPrivate (clsName name : String) : Bool :=
  let pattern := '_' :: clsName.toList ++ ['_', '_']
  pattern.length < name.length ∧ pattern <+: name.toList ∧ ¬ ['_', '_'] <:+ name.toList

/-- The names an enumeration cannot have. -/
def invalidNames : List String := ["", "mro"]

/-- The enumeration raises over the name. -/
def Refused (clsName name : String) : Prop :=
  ¬ isPrivate clsName name ∧ isSunder name ∨ name ∈ invalidNames

instance (clsName name : String) : Decidable (Refused clsName name) :=
  inferInstanceAs (Decidable (_ ∨ _))

/-- The enumeration has a member of the name. -/
def isMember (clsName name : String) : Bool :=
  ¬ Refused clsName name ∧ ¬ isPrivate clsName name ∧ ¬ isDunder name

/-! ## The enumeration -/

/-- `Choice(clsName, options)`: the members with their labels. -/
def choices (clsName : String) (options : Dict String String) :
    Except PyError (Dict String String) :=
  match options.keys.find? fun name => !isPrivate clsName name && isSunder name with
  | some name => .error (.valueError (.sunderName name))
  | none =>
      let invalid := options.keys.filter (· ∈ invalidNames)
      if invalid = [] then .ok (options.restrict (isMember clsName))
      else .error (.valueError (.invalidNames invalid))

theorem choices_eq_ok {clsName : String} {options members : Dict String String} :
    choices clsName options = .ok members ↔
      (∀ name ∈ options.keys, ¬ Refused clsName name) ∧
        options.restrict (isMember clsName) = members := by
  have hrefused : (∀ name ∈ options.keys, ¬ Refused clsName name) ↔
      (options.keys.find? fun name => !isPrivate clsName name && isSunder name) = none ∧
        options.keys.filter (· ∈ invalidNames) = [] := by
    simp only [List.find?_eq_none, List.filter_eq_nil_iff, Refused, not_or, decide_eq_true_eq,
      Bool.and_eq_true, Bool.not_eq_true', Bool.not_eq_true, forall_and]
  rw [hrefused]
  simp only [choices]
  split
  · next hname => simp [hname]
  · next hname =>
      split
      · next hinvalid => simp [hname, hinvalid]
      · next hinvalid => simp [hinvalid]

theorem get?_choices {clsName : String} {options members : Dict String String}
    (h : choices clsName options = .ok members) (name : String) :
    members.get? name = if isMember clsName name then options.get? name else none := by
  obtain ⟨_, rfl⟩ := choices_eq_ok.mp h
  exact Dict.get?_restrict

theorem isMember_of_choices {clsName : String} {options members : Dict String String}
    (h : choices clsName options = .ok members) {name : String}
    (hoffered : (members.get? name).isSome) : isMember clsName name := by
  rw [get?_choices h] at hoffered
  split at hoffered
  · next hmember => exact hmember
  · cases hoffered

theorem ne_empty_of_isMember {clsName name : String} (h : isMember clsName name) : name ≠ "" := by
  rintro rfl
  simp [isMember, Refused, invalidNames] at h

end NsiOrchestrator.Forms
