import Mathlib.Data.List.Perm.Subperm
import DroneParking.Library.Framing

/-!
# What arrives of a stream of terminated words

A sender writes code words, each with a terminator of separators behind it. What
the receiver hears is a sublist of what was written, with the offsets at which it
was written, and a written word is heard exactly if it lies alone in a fragment.
-/
namespace Library

variable {α : Type*} {sep : α → Bool} {V : List (List α)}

def stream (l : List (List α × List α)) : List α := l.flatMap fun p => p.1 ++ p.2

/-- The written words with the offsets of their first letters. -/
def marks : ℕ → List (List α × List α) → List (ℕ × List α)
  | _, [] => []
  | n, p :: l => (n, p.1) :: marks (n + p.1.length + p.2.length) l

/-- Every word belongs to the code and is terminated by separators. -/
def Written (sep : α → Bool) (V : List (List α)) (l : List (List α × List α)) : Prop :=
  ∀ p ∈ l, p.1 ∈ V ∧ p.2 ≠ [] ∧ ∀ a ∈ p.2, sep a = true

theorem marks_words (n : ℕ) (l : List (List α × List α)) :
    (marks n l).map Prod.snd = l.map Prod.fst := by
  induction l generalizing n with
  | nil => rfl
  | cons p l ih => rw [marks, List.map_cons, List.map_cons, ih]

theorem mem_marks {n : ℕ} {l : List (List α × List α)} {q : ℕ × List α} :
    q ∈ marks n l ↔ ∃ pre t post, l = pre ++ (q.2, t) :: post ∧ q.1 = n + (stream pre).length := by
  induction l generalizing n with
  | nil => simp [marks]
  | cons p l ih =>
      rw [marks, List.mem_cons, ih]
      constructor
      · rintro (rfl | ⟨pre, t, post, rfl, offset⟩)
        · exact ⟨[], p.2, l, rfl, rfl⟩
        · refine ⟨p :: pre, t, post, rfl, ?_⟩
          rw [offset, stream, stream, List.flatMap_cons, List.length_append, List.length_append]
          omega
      · rintro ⟨pre, t, post, split, offset⟩
        cases pre with
        | nil =>
            cases split
            exact .inl (Prod.ext offset rfl)
        | cons p' pre =>
            cases split
            refine .inr ⟨pre, t, post, rfl, ?_⟩
            rw [offset, stream, stream, List.flatMap_cons, List.length_append, List.length_append]
            omega

theorem le_of_mem_marks {n : ℕ} {l : List (List α × List α)} {q : ℕ × List α}
    (h : q ∈ marks n l) : n ≤ q.1 := by
  obtain ⟨_, _, _, _, offset⟩ := mem_marks.mp h
  omega

theorem marks_nodup {l : List (List α × List α)} (hl : ∀ p ∈ l, p.2 ≠ []) (n : ℕ) :
    (marks n l).Nodup := by
  induction l generalizing n with
  | nil => exact List.nodup_nil
  | cons p l ih =>
      rw [marks, List.nodup_cons]
      refine ⟨?_, ih (fun q hq => hl q (by simp [hq])) _⟩
      intro again
      have later := le_of_mem_marks again
      have terminated := List.length_pos_of_ne_nil (hl p (by simp))
      simp only at later
      omega

/-- Apart from empty pieces, a written stream consists of its words. -/
theorem spots_stream (code : Code sep V) {l : List (List α × List α)} (hl : Written sep V l)
    (n : ℕ) : (∀ q ∈ spots sep n (stream l), q.2 = [] ∨ q.2 ∈ V) ∧
      ∀ [DecidableEq α], (spots sep n (stream l)).filter (fun q => decide (q.2 ∈ V)) = marks n l := by
  induction l generalizing n with
  | nil =>
      refine ⟨by simp [stream], ?_⟩
      intro _
      simp [stream, marks, code.empty_not_mem]
  | cons p l ih =>
      obtain ⟨known, terminated, blank⟩ := hl p (by simp)
      obtain ⟨w, t⟩ := p
      obtain ⟨a, t, rfl⟩ := List.exists_cons_of_ne_nil terminated
      obtain ⟨front, rest, empty⟩ := spots_skip (n + w.length + 1) (stream l)
        (u := t) fun b hb => blank b (by simp [hb])
      have offset : n + w.length + 1 + t.length = n + w.length + (a :: t).length := by
        simp only [List.length_cons]; omega
      -- the first separator ends the word, the others are pieces of their own
      have pieces : spots sep n (stream ((w, a :: t) :: l)) =
          (n, w) :: (front ++ spots sep (n + w.length + (a :: t).length) (stream l)) := by
        have shape : stream ((w, a :: t) :: l) = w ++ a :: (t ++ stream l) := by simp [stream]
        rw [shape, spots_word n (code.letters w known) (blank a (by simp)), rest, offset]
      obtain ⟨shapes, words⟩ := ih (fun q hq => hl q (by simp [hq]))
        (n + w.length + (a :: t).length)
      rw [pieces]
      constructor
      · intro q hq
        rcases List.mem_cons.mp hq with rfl | hq
        · exact .inr known
        · rcases List.mem_append.mp hq with skipped | later
          · exact .inl (empty q skipped)
          · exact shapes q later
      · intro _
        have none : front.filter (fun q => decide (q.2 ∈ V)) = [] := by
          rw [List.filter_eq_nil_iff]
          intro q hq
          rw [empty q hq]
          simpa using code.empty_not_mem
        rw [List.filter_cons_of_pos (by simpa using known), List.filter_append, none, words,
          List.nil_append, marks]

variable [DecidableEq α]

/-- Nothing is heard that was not written, nothing twice, and nothing out of order. -/
theorem heard_written (code : Code sep V) (hV : V ≠ []) {l : List (List α × List α)}
    (hl : Written sep V l) {chunks : List (List α)} (n : ℕ) (same : chunks.flatten = stream l) :
    (heard sep V n chunks).Sublist (marks n l) := by
  obtain ⟨shapes, words⟩ := spots_stream code hl n
  rw [← words, ← same]
  apply heard_sublist code
  intro q hq
  rw [same] at hq
  rcases shapes q hq with empty | known
  · obtain ⟨v, rest, rfl⟩ := List.exists_cons_of_ne_nil hV
    refine ⟨v, by simp, ?_⟩
    rw [empty]
    exact List.nil_infix
  · exact ⟨q.2, known, List.infix_rfl⟩

/-- The word written at offset `i` lies in a fragment of its own, separators apart. -/
def Alone (sep : α → Bool) (chunks : List (List α)) (i : ℕ) (w : List α) : Prop :=
  ∃ before u v after, chunks = before ++ (u ++ (w ++ v)) :: after ∧ (∀ a ∈ u, sep a = true) ∧
    (∀ a ∈ v, sep a = true) ∧ before.flatten.length + u.length = i

theorem mem_heard_iff (code : Code sep V) {chunks : List (List α)} {i : ℕ} {w : List α}
    (known : w ∈ V) : (i, w) ∈ heard sep V 0 chunks ↔ Alone sep chunks i w := by
  constructor
  · intro h
    obtain ⟨before, c, after, u, v, split, shape, hu, hv, offset, _⟩ := heard_mem h
    refine ⟨before, u, v, after, ?_, hu, hv, ?_⟩
    · rw [split, shape]
    · simp only [Nat.zero_add] at offset
      exact offset.symm
  · rintro ⟨before, u, v, after, rfl, hu, hv, rfl⟩
    have there : (0 + before.flatten.length + u.length, w) ∈
        heard sep V 0 (before ++ (u ++ (w ++ v)) :: after) := mem_heard code known 0 hu hv
    rwa [Nat.zero_add] at there

/-- A sublist of a list without repetitions is the whole list once it has every member. -/
theorem sublist_eq_iff {β : Type*} {l k : List β} (h : l.Sublist k) (nodup : k.Nodup) :
    l.length = k.length ↔ ∀ b ∈ k, b ∈ l := by
  constructor
  · intro size b hb
    rwa [h.eq_of_length size]
  · intro all
    exact Nat.le_antisymm h.length_le (nodup.subperm all).length_le

end Library
