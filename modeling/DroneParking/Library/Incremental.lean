import Mathlib.Tactic.TypeStar
import Mathlib.Data.Nat.Notation
import Mathlib.Data.List.Basic

/-!
# Parsers that are fed piece by piece

Such a parser keeps what it cannot use yet and goes on when more arrives. If it
leaves its loop only to wait, and more input never changes a turn already taken,
then the output does not depend on how the input was cut into pieces.
-/
namespace Library

/-- How a turn of the parser's loop ends: it waits for input, goes round again, or leaves
the loop with input unread. -/
inductive Turn (β : Type*) where
  | wait
  | go (out : List β)
  | stop (out : List β)

/-- What a loop leaves behind: the state and the output. -/
structure Outcome (σ β : Type*) where
  state : σ
  out : List β

/-- What was put out before comes first. -/
def Outcome.after {σ β : Type*} (later : Outcome σ β) (out : List β) : Outcome σ β :=
  ⟨later.state, out ++ later.out⟩

@[simp] theorem Outcome.after_nil {σ β : Type*} (later : Outcome σ β) : later.after [] = later := rfl

theorem Outcome.after_after {σ β : Type*} (later : Outcome σ β) (a b : List β) :
    (later.after b).after a = later.after (a ++ b) := by
  simp only [after, List.append_assoc]

section Loop
variable {σ τ β : Type*} {turn : σ → σ × Turn β} {s s' : σ} {out : List β} {fuel : ℕ}

/-- The loop on fuel. -/
def turns (turn : σ → σ × Turn β) : ℕ → σ → Outcome σ β
  | 0, s => ⟨s, []⟩
  | fuel + 1, s =>
      match turn s with
      | (s', .wait) => ⟨s', []⟩
      | (s', .stop out) => ⟨s', out⟩
      | (s', .go out) => (turns turn fuel s').after out

theorem turns_wait (h : turn s = (s', .wait)) : turns turn (fuel + 1) s = ⟨s', []⟩ := by
  rw [turns, h]

theorem turns_stop (h : turn s = (s', .stop out)) : turns turn (fuel + 1) s = ⟨s', out⟩ := by
  rw [turns, h]

theorem turns_go (h : turn s = (s', .go out)) :
    turns turn (fuel + 1) s = (turns turn fuel s').after out := by
  rw [turns, h]

end Loop

/-- A parser as one turn of its loop, with what more input does to its state. -/
structure Incremental (σ α β : Type*) where
  append : σ → List α → σ
  turn : σ → σ × Turn β
  variant : σ → ℕ
  append_append : ∀ s x y, append (append s x) y = append s (x ++ y)
  not_stop : ∀ {s s' out}, turn s ≠ (s', .stop out)
  go_append : ∀ {s s' out}, turn s = (s', .go out) → ∀ y, turn (append s y) = (append s' y, .go out)
  /-- What a waiting parser changes in its state is of no importance once input arrives. -/
  wait_append : ∀ {s s'}, turn s = (s', .wait) → ∀ y, turn (append s' y) = turn (append s y)
  variant_lt : ∀ {s s' out}, turn s = (s', .go out) → variant s' < variant s

namespace Incremental

variable {σ α β : Type*} (m : Incremental σ α β)

/-- The variant is fuel enough. -/
def run (s : σ) : Outcome σ β := turns m.turn (m.variant s + 1) s

def feed (s : σ) (x : List α) : Outcome σ β := m.run (m.append s x)

def feeds (s : σ) : List (List α) → Outcome σ β
  | [] => ⟨s, []⟩
  | x :: xs => (feeds (m.feed s x).state xs).after (m.feed s x).out

variable {m} {s s' : σ} {out : List β}

/-- Any two amounts of fuel above the variant do the same. -/
theorem turns_agree {f g : ℕ} (hf : m.variant s < f) (hg : m.variant s < g) :
    turns m.turn f s = turns m.turn g s := by
  induction f generalizing s g with
  | zero => exact absurd hf (Nat.not_lt_zero _)
  | succ f ih =>
      obtain ⟨g, rfl⟩ := Nat.exists_eq_succ_of_ne_zero (Nat.ne_zero_of_lt hg)
      cases turned : m.turn s with
      | mk s' t =>
          cases t with
          | wait => rw [turns_wait turned, turns_wait turned]
          | stop out => exact absurd turned m.not_stop
          | go out =>
              have less := m.variant_lt turned
              rw [turns_go turned, turns_go turned, ih (by omega) (by omega : m.variant s' < g)]

theorem run_wait (h : m.turn s = (s', .wait)) : m.run s = ⟨s', []⟩ := turns_wait h

theorem run_go (h : m.turn s = (s', .go out)) : m.run s = (m.run s').after out := by
  have same : turns m.turn (m.variant s) s' = m.run s' :=
    turns_agree (m.variant_lt h) (Nat.lt_succ_self _)
  rw [run, turns_go h, same]

theorem run_congr {t : σ} (h : m.turn s = m.turn t) : m.run s = m.run t := by
  cases turned : m.turn t with
  | mk s' turn =>
      rw [turned] at h
      cases turn with
      | wait => rw [run_wait h, run_wait turned]
      | stop out => exact absurd turned m.not_stop
      | go out => rw [run_go h, run_go turned]

/-- More input continues a run where it waited. -/
theorem run_append (s : σ) (y : List α) :
    m.run (m.append s y) = (m.feed (m.run s).state y).after (m.run s).out := by
  induction measure : m.variant s using Nat.strongRecOn generalizing s with
  | ind n ih =>
      cases turned : m.turn s with
      | mk s' t =>
          cases t with
          | wait =>
              have later : m.feed s' y = m.run (m.append s y) := run_congr (m.wait_append turned y)
              rw [run_wait turned, later]
              rfl
          | stop out => exact absurd turned m.not_stop
          | go out =>
              rw [run_go (m.go_append turned y), run_go turned,
                ih (m.variant s') (measure ▸ m.variant_lt turned) s' rfl, Outcome.after_after]
              rfl

/-- However a stream is cut into pieces, it is parsed as a whole. -/
theorem feeds_eq (s : σ) (x : List α) (xs : List (List α)) :
    m.feeds s (x :: xs) = m.feed s (x :: xs).flatten := by
  induction xs generalizing s x with
  | nil =>
      rw [List.flatten_cons, List.flatten_nil, List.append_nil, feeds, feeds, Outcome.after, List.append_nil]
  | cons y ys ih =>
      have whole : m.feed s (x :: y :: ys).flatten = m.run (m.append (m.append s x) (y :: ys).flatten) := by
        rw [m.append_append]
        rfl
      rw [whole, feeds, run_append, ih]
      rfl

end Incremental
end Library
