import DroneParking.Library.Effects

/-!
# Objects that answer calls

An object keeps a state from one call to the next, and a call may throw. It
implements a specification when a relation between the two states survives every
call and the replies agree.
-/
namespace Library

variable {ε σ τ ι ω : Type}

/-- The replies to a list of calls, made one after another. -/
def replies (perform : ι → EStateM ε σ ω) : List ι → EStateM ε σ (List ω)
  | [] => pure []
  | call :: calls => do
      let reply ← perform call
      let later ← replies perform calls
      return reply :: later

/-- The same for a specification, which never throws. -/
def specified (spec : ι → τ → ω × τ) : List ι → τ → List ω
  | [], _ => []
  | call :: calls, t => (spec call t).1 :: specified spec calls (spec call t).2

variable {perform : ι → EStateM ε σ ω} {spec : ι → τ → ω × τ} {R : σ → τ → Prop}

theorem replies_cons {call : ι} {reply : ω} {s s' : σ} (h : perform call s = .ok reply s')
    (calls : List ι) : replies perform (call :: calls) s = match replies perform calls s' with
      | .ok later s'' => .ok (reply :: later) s''
      | .error e s'' => .error e s'' := by
  rw [replies, bind_apply, h]
  change (replies perform calls >>= fun later => pure (reply :: later)) s' = _
  rw [bind_apply]
  cases replies perform calls s' <;> rfl

/-- An object that simulates its specification call by call throws nothing and gives the
specified replies, whatever the calls. -/
theorem replies_refine
    (simulates : ∀ call s t, R s t → ∃ s', perform call s = .ok (spec call t).1 s' ∧
      R s' (spec call t).2)
    (calls : List ι) {s : σ} {t : τ} (related : R s t) :
    ∃ s', replies perform calls s = .ok (specified spec calls t) s' := by
  induction calls generalizing s t with
  | nil => exact ⟨s, rfl⟩
  | cons call calls ih =>
      obtain ⟨m, answered, next⟩ := simulates call s t related
      obtain ⟨s', done⟩ := ih next
      refine ⟨s', ?_⟩
      rw [replies_cons answered, done]
      rfl

end Library
