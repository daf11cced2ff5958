/-! # Exceptions

The exceptions the modelled functions raise, with the data their callers see.
-/

namespace NsiOrchestrator

/-- What a `ValueError` says. A text that shows values by `repr` is kept as these values. -/
inductive Message where
  | text (text : String)
  /-- `int` of a text that is no integer. -/
  | invalidLiteral (text : String)
  /-- `Enum` with a name between underscores. -/
  | sunderName (name : String)
  /-- `Enum` with names that no member may have. -/
  | invalidNames (names : List String)
  deriving DecidableEq, Repr

instance : Coe String Message := ⟨.text⟩

inductive PyError where
  | valueError (message : Message)
  | keyError (key : String)
  | indexError
  | assertionError
  | inconsistentData (message : String)
  | formValidation (message : String)
  | transitionNotAllowed (event state : String)
  | invalidStateValue (state : String)
  /-- Not an exception: the fuel of a loop ran out. -/
  | diverged
  deriving DecidableEq, Repr

def PyError.IsValueError (e : PyError) : Prop := ∃ message, e = .valueError message

/-- What a step raises: an `InconsistentDataError` with details, or any other exception. -/
inductive StepError (δ : Type) where
  | inconsistentData (message : String) (details : δ)
  | raised (error : PyError)
  deriving DecidableEq, Repr

def stepping {δ α : Type} : Except PyError α → Except (StepError δ) α
  | .ok a => .ok a
  | .error e => .error (.raised e)

@[simp] theorem stepping_eq_ok {δ α : Type} {x : Except PyError α} {a : α} :
    stepping (δ := δ) x = .ok a ↔ x = .ok a := by
  cases x <;> simp [stepping]

/-- `if c: raise e`. -/
def raiseIf (c : Prop) [Decidable c] (e : PyError) : Except PyError Unit :=
  if c then .error e else .ok ()

@[simp] theorem raiseIf_eq_ok {c : Prop} [Decidable c] {e : PyError} {u : Unit} :
    raiseIf c e = .ok u ↔ ¬ c := by
  unfold raiseIf
  split <;> simp_all

theorem raiseIf_eq_error {c : Prop} [Decidable c] {e e' : PyError} :
    raiseIf c e = .error e' ↔ c ∧ e = e' := by
  unfold raiseIf
  split <;> simp_all

end NsiOrchestrator
