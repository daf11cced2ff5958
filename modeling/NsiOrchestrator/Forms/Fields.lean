import NsiOrchestrator.Lib.Outcome
import NsiOrchestrator.Py

/-! # Validated form fields

The fields of a form are all validated, and the errors of all of them are reported.
A `ValueError` or a failed assertion of a validator is an error of its field; any
other exception escapes from the form.
-/

namespace NsiOrchestrator.Fields

open Outcome

inductive FieldIssue where
  | missing
  | notOffered
  | repeatedItems
  | greaterThanEqual (bound : Int)
  | lessThanEqual (bound : Int)
  | valueError (message : Message)
  | assertionError
  deriving DecidableEq, Repr

structure FieldError where
  loc : String
  issue : FieldIssue
  deriving DecidableEq, Repr

inductive FormError where
  | rejected (errors : List FieldError)
  | raised (error : PyError)
  deriving DecidableEq, Repr

universe u

variable {α β : Type u}

def reject (loc : String) (issue : FieldIssue) : Except FormError α :=
  .error (.rejected [⟨loc, issue⟩])

/-- The outcome of a validator, at its field. -/
def validator (loc : String) : Except PyError α → Except FormError α
  | .ok a => .ok a
  | .error (.valueError message) => reject loc (.valueError message)
  | .error .assertionError => reject loc .assertionError
  | .error e => .error (.raised e)

/-- An exception outside the validators. -/
def raising : Except PyError α → Except FormError α
  | .ok a => .ok a
  | .error e => .error (.raised e)

def both (x : Except FormError α) (y : Except FormError β) : Except FormError (α × β) :=
  match x, y with
  | .ok a, .ok b => .ok (a, b)
  | .ok _, .error e => .error e
  | .error (.raised e), _ => .error (.raised e)
  | .error (.rejected errors), .ok _ => .error (.rejected errors)
  | .error (.rejected errors), .error (.rejected errors') => .error (.rejected (errors ++ errors'))
  | .error (.rejected _), .error (.raised e) => .error (.raised e)

def required (loc : String) (submitted default : Option α) : Except FormError α :=
  match submitted <|> default with
  | some a => .ok a
  | none => reject loc .missing

def all : List (Except FormError α) → Except FormError (List α)
  | [] => .ok []
  | x :: xs => do
      let (a, as) ← both x (all xs)
      pure (a :: as)

@[simp] theorem reject_ne_ok {loc : String} {issue : FieldIssue} {a : α} :
    (reject loc issue : Except FormError α) ≠ .ok a := nofun

@[simp] theorem validator_eq_ok {loc : String} {x : Except PyError α} {a : α} :
    validator loc x = .ok a ↔ x = .ok a := by
  cases x with
  | ok b => simp [validator]
  | error e => cases e <;> simp [validator]

@[simp] theorem raising_eq_ok {x : Except PyError α} {a : α} : raising x = .ok a ↔ x = .ok a := by
  cases x <;> simp [raising]

@[simp] theorem both_eq_ok {x : Except FormError α} {y : Except FormError β} {p : α × β} :
    both x y = .ok p ↔ x = .ok p.1 ∧ y = .ok p.2 := by
  obtain ⟨a, b⟩ := p
  rcases x with (_ | _) | _ <;> rcases y with (_ | _) | _ <;> simp [both]

@[simp] theorem required_eq_ok {loc : String} {submitted default : Option α} {a : α} :
    required loc submitted default = .ok a ↔ (submitted <|> default) = some a := by
  cases submitted <;> cases default <;> simp [required]

theorem all_eq_ok {xs : List (Except FormError α)} {as : List α} :
    all xs = .ok as ↔ List.Forall₂ (fun x a => x = .ok a) xs as := by
  induction xs generalizing as with
  | nil => simp [all, eq_comm]
  | cons x xs ih =>
      simp only [all, bind_eq_ok, both_eq_ok, pure_eq_ok, Prod.exists, List.forall₂_cons_left_iff,
        ih]
      constructor
      · rintro ⟨a, as, ⟨hx, hxs⟩, rfl⟩
        exact ⟨a, as, hx, hxs, rfl⟩
      · rintro ⟨a, as, hx, hxs, rfl⟩
        exact ⟨a, as, ⟨hx, hxs⟩, rfl⟩

end NsiOrchestrator.Fields
