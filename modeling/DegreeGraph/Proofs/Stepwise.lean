import Mathlib
import DegreeGraph.Fault

/-!
# Steps one after the other

A store, a tree of files and a session are worked on by steps of one kind. A step runs from a state,
answers or fails, and leaves a state behind. A failure is passed on, and what stands behind the step
does not run.
-/

namespace DegreeGraph.Stepwise

variable {σ α β : Type}

theorem run_bind (x : ExceptT Fault (StateM σ) α) (f : α → ExceptT Fault (StateM σ) β) (s : σ) :
    (x >>= f).run s = match x.run s with
      | (.ok a, t) => (f a).run t
      | (.error fault, t) => (.error fault, t) := by
  rw [ExceptT.run_bind]
  rcases hx : x.run s with ⟨_ | a, t⟩
  · simp only [bind, StateT.bind, hx]
    rfl
  · simp only [bind, StateT.bind, hx]

/-- What answers at the end has answered in between, and has left a state there. -/
theorem exists_run_of_bind {x : ExceptT Fault (StateM σ) α} {f : α → ExceptT Fault (StateM σ) β}
    {s u : σ} {b : β} (h : (x >>= f).run s = (.ok b, u)) :
    ∃ a t, x.run s = (.ok a, t) ∧ (f a).run t = (.ok b, u) := by
  rw [run_bind] at h
  rcases hx : x.run s with ⟨_ | a, t⟩
  · rw [hx] at h
    cases h
  · rw [hx] at h
    exact ⟨a, t, rfl, h⟩

/-- What has answered at the end has answered in between. -/
theorem exists_of_bind_eq_ok {ε : Type} {x : Except ε α} {f : α → Except ε β} {b : β}
    (h : x >>= f = .ok b) : ∃ a, x = .ok a ∧ f a = .ok b := by
  cases x with
  | error fault => cases h
  | ok a => exact ⟨a, rfl, h⟩

/-- What fails at the end has failed in between or behind an answer. -/
theorem cases_of_bind_eq_error {ε : Type} {x : Except ε α} {f : α → Except ε β} {e : ε}
    (h : x >>= f = .error e) : x = .error e ∨ ∃ a, x = .ok a ∧ f a = .error e := by
  cases x with
  | error e' =>
    cases h
    exact .inl rfl
  | ok a => exact .inr ⟨a, rfl, h⟩

/-- What fails at the end has failed in between, or behind an answer from the state left there. -/
theorem cases_of_run_bind_eq_error {x : ExceptT Fault (StateM σ) α}
    {f : α → ExceptT Fault (StateM σ) β} {s u : σ} {fault : Fault}
    (h : (x >>= f).run s = (.error fault, u)) : x.run s = (.error fault, u)
      ∨ ∃ a t, x.run s = (.ok a, t) ∧ (f a).run t = (.error fault, u) := by
  rw [run_bind] at h
  rcases hx : x.run s with ⟨_ | a, t⟩
  · rw [hx] at h
    cases h
    exact .inl rfl
  · rw [hx] at h
    exact .inr ⟨a, t, rfl, h⟩

theorem run_pure (a : α) (s : σ) : (pure a : ExceptT Fault (StateM σ) α).run s = (.ok a, s) := rfl

theorem run_get (s : σ) : (get : ExceptT Fault (StateM σ) σ).run s = (.ok s, s) := rfl

theorem run_modify (f : σ → σ) (s : σ) :
    (modify f : ExceptT Fault (StateM σ) PUnit).run s = (.ok ⟨⟩, f s) := rfl

end DegreeGraph.Stepwise
