import Mathlib.Data.List.Rotate
import Mathlib.Data.List.DropRight
import Mathlib.Data.List.Perm.Basic

/-!
# A wrapping buffer as a sliding window over a history

Read from the write position on, the buffer lists the most recent entries of the
history, oldest first, with the initial blanks in front while the history is short.
-/
namespace Library

variable {α : Type*}

theorem rotate_set_succ {ring : List α} {i : ℕ} (b : α) (hi : i < ring.length) :
    (ring.set i b).rotate (i + 1) = (ring.rotate i).tail ++ [b] := by
  rw [List.rotate_eq_drop_append_take (by simpa using Nat.succ_le_of_lt hi), List.rotate_eq_drop_append_take hi.le,
    List.drop_set_of_lt (Nat.lt_succ_self i), List.take_add_one, List.take_set_of_le le_rfl,
    List.tail_append_of_ne_nil (by simpa using hi), List.tail_drop]
  simp [hi]

theorem rtake_snoc {l : List α} {n : ℕ} (b : α) (hn : 0 < n) (hl : n ≤ l.length) :
    (l ++ [b]).rtake n = (l.rtake n).tail ++ [b] := by
  obtain ⟨m, rfl⟩ := Nat.exists_eq_succ_of_ne_zero hn.ne'
  rw [List.rtake_concat_succ, List.rtake, List.rtake, List.tail_drop]
  congr 2
  omega

/-- `ring`, written next at `pos`, holds the last `ring.length` entries of `h`. -/
structure Holds (blank : α) (ring : List α) (pos : ℕ) (h : List α) : Prop where
  inside : pos < ring.length
  window : ring.rotate pos = (List.replicate ring.length blank ++ h).rtake ring.length

theorem Holds.initial (blank : α) {n : ℕ} (hn : 0 < n) :
    Holds blank (List.replicate n blank) 0 [] := by
  refine ⟨by simpa using hn, ?_⟩
  rw [List.rotate_zero, List.append_nil, List.length_replicate, List.rtake]
  simp

/-- One write moves the window by one entry, also across the wrap. -/
theorem Holds.push {blank : α} {ring h : List α} {pos : ℕ} (hr : Holds blank ring pos h) (b : α) :
    Holds blank (ring.set pos b) (if ring.length ≤ pos + 1 then 0 else pos + 1) (h ++ [b]) := by
  have hi := hr.inside
  have hn : 0 < ring.length := by omega
  have moved : (ring.set pos b).rotate (pos + 1) =
      (List.replicate ring.length blank ++ (h ++ [b])).rtake ring.length := by
    rw [rotate_set_succ b hi, hr.window, ← List.append_assoc, rtake_snoc b hn (by simp)]
  constructor
  · split <;> simp only [List.length_set] <;> omega
  · rw [List.length_set]
    split
    · next wrap =>
        have last : pos + 1 = (ring.set pos b).length := by rw [List.length_set]; omega
        rw [List.rotate_zero, ← moved, last, List.rotate_length]
    · exact moved

variable [DecidableEq α]

/-- Counting over the whole buffer counts over the window, the position notwithstanding. -/
theorem Holds.count {blank a : α} {ring h : List α} {pos : ℕ} (hr : Holds blank ring pos h)
    (ha : a ≠ blank) : ring.count a = (h.rtake ring.length).count a := by
  rw [← (List.rotate_perm ring pos).count_eq a, hr.window, List.rtake, List.rtake,
    List.drop_append, List.count_append, List.length_append, List.length_replicate,
    List.drop_replicate, List.count_replicate]
  simp [Ne.symm ha]

/-- When `a` occurs `k` times among the last `n` entries, its latest occurrence is recent. -/
theorem latest_recent {a : α} {h : List α} {k n : ℕ} (hk : 0 < k)
    (hc : k ≤ (h.rtake n).count a) :
    ∃ older newer, h = older ++ a :: newer ∧ a ∉ newer ∧ newer.length + k ≤ n := by
  have occurs : a ∈ h.reverse := by
    have : a ∈ h.rtake n := List.count_pos_iff.mp (by omega)
    exact List.mem_reverse.mpr (List.mem_of_mem_drop this)
  obtain ⟨newer, older, split, fresh⟩ := List.eq_append_cons_of_mem occurs
  have same : h = older.reverse ++ a :: newer.reverse := by
    rw [← List.reverse_reverse h, split]; simp
  refine ⟨older.reverse, newer.reverse, same, by simpa using fresh, ?_⟩
  rw [same, List.rtake, List.drop_append, List.count_append] at hc
  simp only [List.length_append, List.length_cons, List.length_reverse] at hc ⊢
  have left := List.count_le_length (a := a)
    (l := older.reverse.drop (older.length + (newer.length + 1) - n))
  simp only [List.length_drop, List.length_reverse] at left
  by_cases old : n ≤ newer.length
  · -- the window starts after the latest occurrence, so it counts nothing
    have none : (List.drop (older.length + (newer.length + 1) - n - older.length)
        (a :: newer.reverse)).count a = 0 := by
      obtain ⟨m, hm⟩ : ∃ m, older.length + (newer.length + 1) - n - older.length = m + 1 :=
        ⟨newer.length - n, by omega⟩
      rw [hm, List.drop_succ_cons, List.count_eq_zero]
      exact fun member => fresh (List.mem_reverse.mp (List.mem_of_mem_drop member))
    omega
  · have one : (List.drop (older.length + (newer.length + 1) - n - older.length)
        (a :: newer.reverse)).count a ≤ 1 := by
      refine (List.Sublist.count_le a (List.drop_sublist _ _)).trans ?_
      rw [List.count_cons_self, List.count_eq_zero.mpr (by simpa using fresh)]
    omega

end Library
