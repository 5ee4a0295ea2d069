import Mathlib.Data.List.Induction
import Mathlib.Tactic.Tauto

/-!
# Runs of a step relation and what their histories say

A history keeps, beside every event, the state that the event met. The latch
rules turn a one-step description of a state bit into a statement about the
last event that set it.
-/
namespace Library

variable {σ ε α : Type*}

/-- Some entry satisfies `p`, and no later one satisfies `q`. -/
def Since (p q : α → Prop) (h : List α) : Prop :=
  ∃ h₁ a h₂, h = h₁ ++ a :: h₂ ∧ p a ∧ ∀ b ∈ h₂, ¬ q b

@[simp] theorem since_nil (p q : α → Prop) : ¬ Since p q [] := by
  rintro ⟨h₁, a, h₂, same, _⟩
  simp at same

/-- The entries of a list with one more at the end, each with what is before and behind it. -/
theorem exists_split_snoc {P : List α → α → List α → Prop} {h : List α} {a : α} :
    (∃ h₁ b h₂, h ++ [a] = h₁ ++ b :: h₂ ∧ P h₁ b h₂) ↔
      P h a [] ∨ ∃ h₁ b h₂, h = h₁ ++ b :: h₂ ∧ P h₁ b (h₂ ++ [a]) := by
  constructor
  · rintro ⟨h₁, b, h₂, same, holds⟩
    rcases List.eq_nil_or_concat h₂ with rfl | ⟨h₃, c, rfl⟩
    · have front : h = h₁ := List.append_inj_left' same rfl
      have last : a = b := List.singleton_inj.mp (List.append_inj_right' same rfl)
      rw [front, last]
      exact .inl holds
    · have split : h ++ [a] = (h₁ ++ b :: h₃) ++ [c] := by simpa using same
      have front : h = h₁ ++ b :: h₃ := List.append_inj_left' split rfl
      have last : a = c := List.singleton_inj.mp (List.append_inj_right' split rfl)
      rw [last]
      exact .inr ⟨h₁, b, h₃, front, by simpa using holds⟩
  · rintro (here | ⟨h₁, b, h₂, rfl, holds⟩)
    · exact ⟨h, a, [], rfl, here⟩
    · exact ⟨h₁, b, h₂ ++ [a], by simp, holds⟩

theorem since_snoc {p q : α → Prop} {h : List α} {a : α} :
    Since p q (h ++ [a]) ↔ p a ∨ (Since p q h ∧ ¬ q a) := by
  unfold Since
  rw [exists_split_snoc]
  constructor
  · rintro (⟨ha, _⟩ | ⟨h₁, b, h₂, split, hb, hq⟩)
    · exact .inl ha
    · refine .inr ⟨⟨h₁, b, h₂, split, hb, fun x hx => hq x (by simp [hx])⟩, hq a (by simp)⟩
  · rintro (ha | ⟨⟨h₁, b, h₂, split, hb, hq⟩, ha⟩)
    · exact .inl ⟨ha, by simp⟩
    · refine .inr ⟨h₁, b, h₂, split, hb, ?_⟩
      intro x hx
      rcases List.mem_append.mp hx with old | new
      · exact hq x old
      · rw [List.mem_singleton.mp new]
        exact ha

theorem since_append {p q : α → Prop} {h k : List α} :
    Since p q (h ++ k) ↔ Since p q k ∨ (Since p q h ∧ ∀ a ∈ k, ¬ q a) := by
  induction k using List.reverseRecOn with
  | nil => simp
  | append_singleton k a ih =>
      rw [← List.append_assoc, since_snoc, since_snoc, ih]
      simp only [List.mem_append, List.mem_singleton, or_imp, forall_and, forall_eq]
      tauto

theorem Since.occurs {p q : α → Prop} {h : List α} (hs : Since p q h) : ∃ a ∈ h, p a := by
  obtain ⟨h₁, a, h₂, rfl, ha, _⟩ := hs
  exact ⟨a, by simp, ha⟩

theorem since_toList {p q : α → Prop} {o : Option α} : Since p q o.toList ↔ ∃ a ∈ o, p a := by
  cases o with
  | none => simp
  | some a =>
      have single := since_snoc (p := p) (q := q) (h := []) (a := a)
      simpa using single

/-- Histories whose entries each contribute a few items: the items can be grouped back. -/
theorem since_flatMap {β : Type*} {p q : β → Prop} {p' q' : α → Prop} {f : α → List β}
    {h : List α} (hp : ∀ a ∈ h, Since p q (f a) ↔ p' a) (hq : ∀ a ∈ h, (∃ b ∈ f a, q b) ↔ q' a) :
    Since p q (h.flatMap f) ↔ Since p' q' h := by
  induction h using List.reverseRecOn with
  | nil => simp
  | append_singleton h a ih =>
      have prior := ih (fun b hb => hp b (by simp [hb])) fun b hb => hq b (by simp [hb])
      have clear : (∀ b ∈ f a, ¬ q b) ↔ ¬ q' a := by
        rw [← hq a (by simp)]
        simp
      rw [List.flatMap_append, List.flatMap_singleton, since_append, since_snoc, prior,
        hp a (by simp), clear]

/-- Without a clearing condition, the setting entry only has to occur. -/
theorem since_never {p : α → Prop} {h : List α} :
    Since p (fun _ => False) h ↔ ∃ a ∈ h, p a := by
  constructor
  · rintro ⟨h₁, a, h₂, rfl, ha, _⟩
    exact ⟨a, by simp, ha⟩
  · rintro ⟨a, member, ha⟩
    obtain ⟨h₁, h₂, rfl⟩ := List.append_of_mem member
    exact ⟨h₁, a, h₂, rfl, ha, by simp⟩

/-- `Run step s₀ h s`: the events of `h` lead from `s₀` to `s`, and each entry of
`h` is the state its event met, with the event. -/
inductive Run (step : σ → ε → σ → Prop) (s₀ : σ) : List (σ × ε) → σ → Prop
  | nil : Run step s₀ [] s₀
  | snoc {h s e s'} : Run step s₀ h s → step s e s' → Run step s₀ (h ++ [(s, e)]) s'

namespace Run

variable {step : σ → ε → σ → Prop} {s₀ s : σ} {h : List (σ × ε)}

theorem preserves {I : σ → Prop} (run : Run step s₀ h s) (init : I s₀)
    (keep : ∀ s e s', I s → step s e s' → I s') : I s := by
  induction run with
  | nil => exact init
  | snoc _ hs ih => exact keep _ _ _ ih hs

theorem last {q : σ × ε} (run : Run step s₀ (h ++ [q]) s) : Run step s₀ h q.1 ∧ step q.1 q.2 s := by
  generalize whole : h ++ [q] = l at run
  cases run with
  | nil => simp at whole
  | snoc prior hs =>
      obtain rfl := List.append_inj_left' whole rfl
      obtain rfl := List.singleton_inj.mp (List.append_inj_right' whole rfl)
      exact ⟨prior, hs⟩

/-- A run can be cut anywhere. -/
theorem split {k : List (σ × ε)} (run : Run step s₀ (h ++ k) s) :
    ∃ m, Run step s₀ h m ∧ Run step m k s := by
  induction k using List.reverseRecOn generalizing s with
  | nil => exact ⟨s, by rwa [List.append_nil] at run, .nil⟩
  | append_singleton k q ih =>
      rw [← List.append_assoc] at run
      obtain ⟨prior, hs⟩ := run.last
      obtain ⟨m, before, after⟩ := ih prior
      exact ⟨m, before, after.snoc hs⟩

theorem single {e : ε} {s' : σ} (hs : step s₀ e s') : Run step s₀ [(s₀, e)] s' :=
  .snoc .nil hs

/-- Every prefix of a run's history is the history of a run to the state met next. -/
theorem before {h₁ h₂ : List (σ × ε)} {m : σ} {e : ε} (run : Run step s₀ h s)
    (split : h = h₁ ++ (m, e) :: h₂) : Run step s₀ h₁ m := by
  induction run generalizing h₂ with
  | nil => simp at split
  | @snoc h t e' t' prior hs ih =>
      rcases List.eq_nil_or_concat h₂ with rfl | ⟨h₃, c, rfl⟩
      · have last := List.singleton_inj.mp (List.append_inj_right' split rfl)
        have front : h = h₁ := List.append_inj_left' split rfl
        cases last
        exact front ▸ prior
      · have whole : h ++ [(t, e')] = (h₁ ++ (m, e) :: h₃) ++ [c] := by simpa using split
        exact ih (List.append_inj_left' whole rfl)

/-- Every prefix of a run's history that ends with an entry is the history of a run. -/
theorem upto {h₁ h₂ : List (σ × ε)} {m : σ} {e : ε} (run : Run step s₀ h s)
    (split : h = h₁ ++ (m, e) :: h₂) : ∃ m', Run step s₀ (h₁ ++ [(m, e)]) m' := by
  cases h₂ with
  | nil => exact ⟨s, split ▸ run⟩
  | cons q h₂ =>
      have onward : h = (h₁ ++ [(m, e)]) ++ (q.1, q.2) :: h₂ := by simp [split]
      exact ⟨q.1, run.before onward⟩

/-- Every entry of a run's history is a step from a state that was reached. -/
theorem entry {m : σ} {e : ε} (run : Run step s₀ h s) (member : (m, e) ∈ h) :
    ∃ h₁ m', Run step s₀ h₁ m ∧ step m e m' := by
  induction run with
  | nil => cases member
  | @snoc h t e' t' prior hs ih =>
      rcases List.mem_append.mp member with old | new
      · exact ih old
      · cases List.mem_singleton.mp new
        exact ⟨h, t', prior, hs⟩

/-- Events that a function can take, from every reached state, make up a run. -/
theorem replay {f : σ → ε → σ} {es : List ε} (run : Run step s₀ h s)
    (takes : ∀ e ∈ es, ∀ h s, Run step s₀ h s → step s e (f s e)) :
    ∃ h', Run step s₀ (h ++ h') (es.foldl f s) ∧ h'.map Prod.snd = es := by
  induction es generalizing h s with
  | nil => exact ⟨[], by rwa [List.append_nil], rfl⟩
  | cons e es ih =>
      have next := run.snoc (takes e (by simp) h s run)
      obtain ⟨h', later, same⟩ := ih next fun e' he' => takes e' (by simp [he'])
      refine ⟨(s, e) :: h', ?_, by rw [List.map_cons, same]⟩
      rw [List.append_assoc] at later
      exact later

/-- A bit that an entry sets when `p` holds of it, clears when `q` does, and
otherwise keeps, says at every moment whether `p` occurred since the last `q`. -/
theorem latch {f : σ → Prop} {p q : σ × ε → Prop} (run : Run step s₀ h s) (init : ¬ f s₀)
    (hstep : ∀ h s e s', Run step s₀ h s → step s e s' →
      (f s' ↔ p (s, e) ∨ (f s ∧ ¬ q (s, e)))) : f s ↔ Since p q h := by
  induction run with
  | nil => exact ⟨fun hf => absurd hf init, fun hs => absurd hs (since_nil p q)⟩
  | snoc prior hs ih => rw [hstep _ _ _ _ prior hs, since_snoc, ih]

end Run
end Library
