/-!
Operations that change a state and may fail, run one after the other. What one of them changed
before a failure stays, and none of those after it is run.
-/
namespace LuaTidy

variable {ε σ α β : Type}

theorem bind_apply (x : ExceptT ε (StateM σ) α) (f : α → ExceptT ε (StateM σ) β) (s : σ) :
    (x >>= f) s = ExceptT.bindCont f (x s).1 (x s).2 := rfl

theorem bind_of_ok {x : ExceptT ε (StateM σ) α} {s s' : σ} {a : α} (h : x s = (.ok a, s'))
    (f : α → ExceptT ε (StateM σ) β) : (x >>= f) s = f a s' := by
  rw [bind_apply, h]
  rfl

theorem bind_of_error {x : ExceptT ε (StateM σ) α} {s s' : σ} {e : ε} (h : x s = (.error e, s'))
    (f : α → ExceptT ε (StateM σ) β) : (x >>= f) s = (.error e, s') := by
  rw [bind_apply, h]
  rfl

/-- Operations in a row succeed only if the first one does, and then the others. -/
theorem bind_eq_ok_iff (x : ExceptT ε (StateM σ) α) (f : α → ExceptT ε (StateM σ) β) (s t : σ)
    (b : β) : (x >>= f) s = (.ok b, t) ↔ ∃ a s', x s = (.ok a, s') ∧ f a s' = (.ok b, t) := by
  constructor
  · intro h
    rcases hx : x s with ⟨r, s'⟩
    cases r with
    | ok a => exact ⟨a, s', rfl, (bind_of_ok hx f).symm.trans h⟩
    | error e =>
      rw [bind_of_error hx f] at h
      cases h
  · rintro ⟨a, s', hx, hf⟩
    rw [bind_of_ok hx, hf]

/-- A transitive relation between the states before and after each of two operations holds between
the states before and after both of them. -/
theorem bind_state {R : σ → σ → Prop} (htrans : ∀ {s t u}, R s t → R t u → R s u)
    {x : ExceptT ε (StateM σ) α} {f : α → ExceptT ε (StateM σ) β} (hx : ∀ s, R s (x s).2)
    (hf : ∀ a s, R s (f a s).2) (s : σ) : R s ((x >>= f) s).2 := by
  have hfirst := hx s
  rcases h : x s with ⟨r, s'⟩
  rw [h] at hfirst
  cases r with
  | ok a =>
    rw [bind_of_ok h]
    exact htrans hfirst (hf a s')
  | error e =>
    rw [bind_of_error h]
    exact hfirst

end LuaTidy
