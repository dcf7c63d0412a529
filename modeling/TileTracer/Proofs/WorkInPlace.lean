namespace TileTracer.WorkInPlace

variable {ε σ β γ : Type} {work : ExceptT ε (StateM σ) β} {start after : σ}

/-- A failure ends the work and leaves the state as it is then. -/
theorem run_bind (work : ExceptT ε (StateM σ) β) (next : β → ExceptT ε (StateM σ) γ) (start : σ) :
    (work >>= next).run.run start = match work.run.run start with
      | (.ok b, after) => (next b).run.run after
      | (.error e, after) => (.error e, after) := by
  simp only [ExceptT.run_bind, StateT.run_bind]
  rcases work.run.run start with ⟨_ | _, _⟩ <;> rfl

theorem run_bind_of_ok {b : β} (h : work.run.run start = (.ok b, after))
    (next : β → ExceptT ε (StateM σ) γ) :
    (work >>= next).run.run start = (next b).run.run after := by
  rw [run_bind, h]

theorem run_bind_of_error {e : ε} (h : work.run.run start = (.error e, after))
    (next : β → ExceptT ε (StateM σ) γ) :
    (work >>= next).run.run start = (.error e, after) := by
  rw [run_bind, h]

end TileTracer.WorkInPlace
