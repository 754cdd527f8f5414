/-!
# Outcomes

Steps that end well together have each ended well; if they end with an error, it is that of the
first step that does not.
-/
namespace LintRun

variable {ε α β δ : Type}

theorem bind_eq_ok {e : Except ε α} {f : α → Except ε β} {b : β} :
    (e >>= f) = .ok b ↔ ∃ a, e = .ok a ∧ f a = .ok b := by
  cases e with
  | error _ => exact ⟨nofun, nofun⟩
  | ok a => simp [bind, Except.bind]

theorem bind_eq_error {e : Except ε α} {f : α → Except ε β} {x : ε} :
    (e >>= f) = .error x ↔ e = .error x ∨ ∃ a, e = .ok a ∧ f a = .error x := by
  cases e <;> simp [bind, Except.bind]

theorem map_eq_ok {e : Except ε α} {f : α → β} {b : β} :
    e.map f = .ok b ↔ ∃ a, e = .ok a ∧ f a = b := by
  cases e <;> simp [Except.map]

/-- An error does not depend on what is made of a result. -/
theorem map_eq_error {e : Except ε α} {f : α → β} {x : ε} :
    e.map f = .error x ↔ e = .error x := by
  cases e <;> simp [Except.map]

theorem mapError_ok (f : ε → δ) (a : α) : (Except.ok a).mapError f = .ok a := rfl

theorem mapError_error (f : ε → δ) (x : ε) :
    (Except.error x : Except ε α).mapError f = .error (f x) := rfl

theorem mapError_eq_ok {e : Except ε α} {f : ε → δ} {a : α} :
    e.mapError f = .ok a ↔ e = .ok a := by
  cases e <;> simp [mapError_ok, mapError_error]

theorem mapError_eq_error {e : Except ε α} {f : ε → δ} {y : δ} :
    e.mapError f = .error y ↔ ∃ x, e = .error x ∧ f x = y := by
  cases e <;> simp [mapError_ok, mapError_error]

end LintRun
