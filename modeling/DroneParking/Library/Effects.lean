import Mathlib.Tactic.TypeStar

/-!
# Computations that may throw and keep the state they reached

Every such computation is unfolded once, with these rules; afterwards its closed
form is used.
-/
namespace Library

variable {ε σ α β : Type}

theorem bind_apply (x : EStateM ε σ α) (f : α → EStateM ε σ β) (s : σ) :
    (x >>= f) s = match x s with
      | .ok a s' => f a s'
      | .error e s' => .error e s' := by
  change EStateM.bind x f s = _
  unfold EStateM.bind
  cases x s <;> rfl

@[simp] theorem pure_apply (a : α) (s : σ) : (pure a : EStateM ε σ α) s = .ok a s := rfl

@[simp] theorem get_apply (s : σ) : (get : EStateM ε σ σ) s = .ok s s := rfl

@[simp] theorem throw_apply (e : ε) (s : σ) : (throw e : EStateM ε σ α) s = .error e s := rfl

@[simp] theorem modify_apply (f : σ → σ) (s : σ) :
    (modify f : EStateM ε σ Unit) s = .ok () (f s) := rfl

@[simp] theorem if_apply (p : Prop) [Decidable p] (x y : EStateM ε σ α) (s : σ) :
    (if p then x else y) s = if p then x s else y s := by
  split <;> rfl

/-- The state a computation leaves behind, however it ends. -/
def endState : EStateM.Result ε σ α → σ
  | .ok _ s => s
  | .error _ s => s

def succeeds : EStateM.Result ε σ α → Bool
  | .ok _ _ => true
  | .error _ _ => false

/-- `x'` does to the part `f` of the state what `x` does to the whole. -/
def Projects {τ : Type} (f : σ → τ) (x : EStateM ε σ α) (x' : EStateM ε τ α) : Prop :=
  ∀ s, x' (f s) = match x s with
    | .ok a t => .ok a (f t)
    | .error e t => .error e (f t)

theorem Projects.bind {τ : Type} {f : σ → τ} {x : EStateM ε σ α} {x' : EStateM ε τ α}
    {k : α → EStateM ε σ β} {k' : α → EStateM ε τ β} (hx : Projects f x x')
    (hk : ∀ a, Projects f (k a) (k' a)) : Projects f (x >>= k) (x' >>= k') := by
  intro s
  rw [bind_apply, bind_apply, hx s]
  cases x s with
  | ok a t => exact hk a t
  | error e t => rfl

theorem eq_ok {r : EStateM.Result ε σ Unit} (h : succeeds r = true) : r = .ok () (endState r) := by
  cases r with
  | ok u s => rfl
  | error e s => cases h

end Library
