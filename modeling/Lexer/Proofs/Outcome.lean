/-! # Outcomes

A computation that may fail succeeds exactly if all of its parts do.  These are the laws by which a proof
takes a successful outcome apart. -/

namespace Except

variable {ε ε₁ α β : Type}

/-- A mapped outcome succeeds if the outcome does. -/
theorem map_eq_ok_iff {outcome : Except ε α} {f : α → β} {result : β} :
    outcome.map f = .ok result ↔ ∃ value, outcome = .ok value ∧ f value = result := by
  cases outcome with
  | error fault => simp [Except.map]
  | ok value => simp [Except.map]

/-- A mapped outcome fails as the outcome does. -/
theorem map_eq_error_iff {outcome : Except ε α} {f : α → β} {fault : ε} :
    outcome.map f = .error fault ↔ outcome = .error fault := by
  cases outcome with
  | error fault => simp [Except.map]
  | ok value => simp [Except.map]

/-- Two steps succeed if the first one does, and then the second one. -/
theorem bind_eq_ok_iff {outcome : Except ε α} {next : α → Except ε β} {result : β} :
    outcome >>= next = .ok result ↔ ∃ value, outcome = .ok value ∧ next value = .ok result := by
  cases outcome with
  | error fault => simp [bind, Except.bind]
  | ok value => simp [bind, Except.bind]

/-- An outcome with other faults succeeds if the outcome does. -/
theorem mapError_eq_ok_iff {outcome : Except ε α} {f : ε → ε₁} {result : α} :
    outcome.mapError f = .ok result ↔ outcome = .ok result := by
  cases outcome with
  | error fault => exact ⟨nofun, nofun⟩
  | ok value =>
      constructor
      · intro same
        exact congrArg Except.ok (Except.ok.inj same)
      · intro same
        exact congrArg Except.ok (Except.ok.inj same)

/-- An outcome with other faults fails if the outcome does. -/
theorem mapError_eq_error_iff {outcome : Except ε α} {f : ε → ε₁} {fault : ε₁} :
    outcome.mapError f = .error fault ↔ ∃ cause, outcome = .error cause ∧ f cause = fault := by
  cases outcome with
  | error cause =>
      constructor
      · intro same
        exact ⟨cause, rfl, Except.error.inj same⟩
      · rintro ⟨its, same, rfl⟩
        obtain rfl := Except.error.inj same
        rfl
  | ok value =>
      constructor
      · intro same
        cases same
      · rintro ⟨its, same, -⟩
        cases same

end Except
