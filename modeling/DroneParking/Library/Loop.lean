import Mathlib.Tactic.TypeStar
import Mathlib.Data.Nat.Notation

/-!
# While loops

A loop is run on fuel, and only exhausted fuel gives no result. What a loop
leaves behind does not depend on the fuel, a variant shows that some fuel is
enough, and an invariant that includes the condition that none is.
-/
namespace Library

variable {σ : Type*}

/-- `while (cond) body` -/
def loop (cond : σ → Bool) (body : σ → σ) : ℕ → σ → Option σ
  | 0, _ => none
  | fuel + 1, s => if cond s then loop cond body fuel (body s) else some s

variable {cond : σ → Bool} {body : σ → σ} {s s' : σ}

theorem loop_next (h : cond s = true) (fuel : ℕ) :
    loop cond body (fuel + 1) s = loop cond body fuel (body s) := if_pos h

theorem loop_stop (h : cond s = false) (fuel : ℕ) : loop cond body (fuel + 1) s = some s := by
  rw [loop, h, if_neg Bool.false_ne_true]

/-- More fuel changes no result. -/
theorem loop_more {fuel : ℕ} (h : loop cond body fuel s = some s') (more : ℕ) :
    loop cond body (fuel + more) s = some s' := by
  induction fuel generalizing s with
  | zero => cases h
  | succ fuel ih =>
      rw [Nat.add_right_comm]
      cases hc : cond s with
      | true =>
          rw [loop_next hc] at h ⊢
          exact ih h
      | false =>
          rw [loop_stop hc] at h ⊢
          exact h

/-- What the body keeps under the condition holds at the end, where the condition fails. -/
theorem loop_keeps {I : σ → Prop} (keep : ∀ s, I s → cond s = true → I (body s)) {fuel : ℕ}
    (init : I s) (h : loop cond body fuel s = some s') : I s' ∧ cond s' = false := by
  induction fuel generalizing s with
  | zero => cases h
  | succ fuel ih =>
      cases hc : cond s with
      | true =>
          rw [loop_next hc] at h
          exact ih (keep s init hc) h
      | false =>
          rw [loop_stop hc] at h
          cases h
          exact ⟨init, hc⟩

/-- A measure that the body decreases is fuel enough. -/
theorem loop_ends {I : σ → Prop} (variant : σ → ℕ) (keep : ∀ s, I s → cond s = true → I (body s))
    (less : ∀ s, I s → cond s = true → variant (body s) < variant s) (init : I s) :
    ∃ s', loop cond body (variant s + 1) s = some s' := by
  induction hn : variant s using Nat.strongRecOn generalizing s with
  | ind n ih =>
      cases hc : cond s with
      | false => exact ⟨s, loop_stop hc n⟩
      | true =>
          have drop := less s init hc
          rw [hn] at drop
          obtain ⟨s', done⟩ := ih _ drop (keep s init hc) rfl
          obtain ⟨more, enough⟩ := Nat.exists_eq_add_of_le (Nat.succ_le_of_lt drop)
          refine ⟨s', ?_⟩
          rw [loop_next hc, enough]
          exact loop_more done more

/-- A loop whose invariant includes its condition runs out of any fuel. -/
theorem loop_never_ends {I : σ → Prop} (again : ∀ s, I s → cond s = true ∧ I (body s)) (init : I s)
    (fuel : ℕ) : loop cond body fuel s = none := by
  induction fuel generalizing s with
  | zero => rfl
  | succ fuel ih =>
      obtain ⟨hc, next⟩ := again s init
      rw [loop_next hc]
      exact ih next

end Library
