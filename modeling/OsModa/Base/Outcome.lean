/-!
What a Rust function does: return `Ok`, return `Err` with a message, or panic.

A panic is kept apart from an error because the two leave different things
behind: an error is handed to the caller, a panic unwinds and poisons every
mutex whose guard is held.
-/

namespace OsModa

inductive Outcome (α : Type) where
  | ok (value : α)
  | err (message : String)
  | panic
  deriving DecidableEq, Repr

namespace Outcome

variable {α β : Type}

/-- The function returned `Ok`. -/
def IsOk : Outcome α → Prop
  | .ok _ => True
  | _ => False

instance (o : Outcome α) : Decidable o.IsOk := by
  cases o <;> unfold IsOk <;> infer_instance

@[simp] theorem isOk_ok (a : α) : (Outcome.ok a).IsOk := trivial
@[simp] theorem not_isOk_err (m : String) : ¬ (Outcome.err m : Outcome α).IsOk := id
@[simp] theorem not_isOk_panic : ¬ (Outcome.panic : Outcome α).IsOk := id

theorem isOk_iff {o : Outcome α} : o.IsOk ↔ ∃ a, o = .ok a := by
  cases o <;> simp

end Outcome

/-! ### Fallible steps in sequence -/

section Except

variable {ε α β : Type}

theorem isOk_iff_exists {x : Except ε α} : x.isOk = true ↔ ∃ a, x = .ok a := by
  cases x <;> simp [Except.isOk, Except.toBool]

theorem bind_eq_ok {x : Except ε α} {f : α → Except ε β} {b : β} :
    x.bind f = .ok b ↔ ∃ a, x = .ok a ∧ f a = .ok b := by
  cases x <;> simp [Except.bind]

theorem mapError_eq_ok {ε' : Type} {x : Except ε α} {f : ε → ε'} {a : α} :
    x.mapError f = .ok a ↔ x = .ok a := by
  cases x with
  | error e => exact ⟨nofun, nofun⟩
  | ok b =>
    constructor
    · rintro ⟨⟩
      rfl
    · rintro ⟨⟩
      rfl

theorem map_eq_ok {x : Except ε α} {f : α → β} {b : β} :
    x.map f = .ok b ↔ ∃ a, x = .ok a ∧ f a = b := by
  cases x <;> simp [Except.map]

theorem toOption_eq_some {x : Except ε α} {a : α} : x.toOption = some a ↔ x = .ok a := by
  cases x <;> simp [Except.toOption]

/-- `Option::context`: the value, or an error with the message. -/
def orError (o : Option α) (e : ε) : Except ε α :=
  match o with
  | some a => .ok a
  | none => .error e

@[simp] theorem orError_eq_ok {o : Option α} {e : ε} {a : α} :
    orError o e = .ok a ↔ o = some a := by
  cases o <;> simp [orError]

end Except

end OsModa
