import Mathlib

/-!
# Fallible computations

Checks that stop a computation in `Except`, and the laws that take a successful computation
apart into its successful parts.
-/

namespace Except

variable {ε ε' α β : Type}

/-- Stops with `e` when `c` holds. -/
def refuseIf (c : Prop) [Decidable c] (e : ε) : Except ε Unit :=
  if c then .error e else .ok ()

/-- Stops with an error about the value found, if there is one. -/
def refuseSome (a : Option α) (e : α → ε) : Except ε Unit :=
  match a with
  | some a => .error (e a)
  | none => .ok ()

/-- A sequence succeeds when both parts do. -/
lemma bind_eq_ok {x : Except ε α} {f : α → Except ε β} {b : β} :
    (x >>= f) = .ok b ↔ ∃ a, x = .ok a ∧ f a = .ok b := by
  cases x <;> simp [bind, Except.bind]

/-- A sequence fails where its first part does, or where its second does after it. -/
lemma bind_eq_error {x : Except ε α} {f : α → Except ε β} {e : ε} :
    (x >>= f) = .error e ↔ x = .error e ∨ ∃ a, x = .ok a ∧ f a = .error e := by
  cases x <;> simp [bind, Except.bind]

@[simp] lemma pure_eq_ok {a b : α} : (pure a : Except ε α) = .ok b ↔ a = b := by
  simp [pure, Except.pure]

@[simp] lemma throw_ne_ok {e : ε} {b : α} : (throw e : Except ε α) = .ok b ↔ False := by
  simp [throw, throwThe, MonadExceptOf.throw]

@[simp] lemma refuseIf_eq_ok {c : Prop} [Decidable c] {e : ε} {u : Unit} :
    refuseIf c e = .ok u ↔ ¬ c := by
  unfold refuseIf
  split <;> simp [*]

@[simp] lemma refuseIf_eq_error {c : Prop} [Decidable c] {e e' : ε} :
    refuseIf c e = .error e' ↔ c ∧ e = e' := by
  unfold refuseIf
  split <;> simp [*]

@[simp] lemma refuseSome_eq_ok {a : Option α} {e : α → ε} {u : Unit} :
    refuseSome a e = .ok u ↔ a = none := by
  unfold refuseSome
  split <;> simp

@[simp] lemma mapError_eq_ok {f : ε → ε'} {x : Except ε α} {a : α} :
    x.mapError f = .ok a ↔ x = .ok a := by
  cases x <;> simp [Except.mapError]

@[simp] lemma mapError_eq_error {f : ε → ε'} {x : Except ε α} {e : ε'} :
    x.mapError f = .error e ↔ ∃ e', x = .error e' ∧ f e' = e := by
  cases x <;> simp [Except.mapError]

@[simp] lemma map_eq_ok {f : α → β} {x : Except ε α} {b : β} :
    x.map f = .ok b ↔ ∃ a, x = .ok a ∧ f a = b := by
  cases x <;> simp [Except.map]

@[simp] lemma map_eq_error {f : α → β} {x : Except ε α} {e : ε} :
    x.map f = .error e ↔ x = .error e := by
  cases x <;> simp [Except.map]

@[simp] lemma toOption_eq_some {x : Except ε α} {a : α} : x.toOption = some a ↔ x = .ok a := by
  cases x <;> simp [Except.toOption]

end Except
