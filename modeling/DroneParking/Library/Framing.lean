import Mathlib.Data.List.DropRight
import Mathlib.Data.List.Infix
import Mathlib.Tactic.Tauto

/-!
# Words on a stream that is delivered in arbitrary fragments

The sender writes words with separators between them; the receiver trims every
fragment it is handed and compares the whole of it with the words it knows.
Offsets are kept beside the words, so that a fragment that is heard can be
matched with the one place of the stream it came from.
-/
namespace Library

variable {α : Type*} (sep : α → Bool)

/-- The letters left after separators are dropped from both ends. -/
def trim (l : List α) : List α := (l.dropWhile sep).rdropWhile sep

/-- The separator-free piece a stream starts with, and the pieces after it with the
offsets of their first letters; `n` is the offset of the stream itself. -/
def cut : ℕ → List α → List α × List (ℕ × List α)
  | _, [] => ([], [])
  | n, a :: l =>
      if sep a then ([], (n + 1, (cut (n + 1) l).1) :: (cut (n + 1) l).2)
      else (a :: (cut (n + 1) l).1, (cut (n + 1) l).2)

/-- All separator-free pieces of a stream, empty ones included, with their offsets. -/
def spots (n : ℕ) (l : List α) : List (ℕ × List α) := (n, (cut sep n l).1) :: (cut sep n l).2

/-- The words a receiver recognises, fragment by fragment, with their offsets. -/
def heard [DecidableEq α] (V : List (List α)) : ℕ → List (List α) → List (ℕ × List α)
  | _, [] => []
  | n, c :: cs =>
      if trim sep c ∈ V then
        (n + (c.takeWhile sep).length, trim sep c) :: heard V (n + c.length) cs
      else heard V (n + c.length) cs

/-- Words that cannot be confused: nonempty, free of separators, none inside another. -/
structure Code (V : List (List α)) : Prop where
  nonempty : ∀ w ∈ V, w ≠ []
  letters : ∀ w ∈ V, ∀ a ∈ w, sep a = false
  infixFree : ∀ v ∈ V, ∀ w ∈ V, v <:+: w → v = w

section Trim
variable {sep}

/-- Trimming removes a separator prefix and a separator suffix and nothing else. -/
theorem trim_split (sep : α → Bool) (l : List α) : ∃ v, (∀ a ∈ v, sep a = true) ∧
    l = l.takeWhile sep ++ (trim sep l ++ v) := by
  refine ⟨(l.dropWhile sep).rtakeWhile sep, fun a ha => List.mem_rtakeWhile_imp ha, ?_⟩
  rw [trim, List.rdropWhile_append_rtakeWhile, List.takeWhile_append_dropWhile]

theorem dropWhile_separators {u l : List α} (hu : ∀ a ∈ u, sep a = true) :
    (u ++ l).dropWhile sep = l.dropWhile sep := by
  induction u with
  | nil => rfl
  | cons a u ih =>
      simp only [List.cons_append, List.dropWhile_cons, hu a (by simp), if_true]
      exact ih fun b hb => hu b (by simp [hb])

theorem dropWhile_letters {w l : List α} (hne : w ≠ []) (hw : ∀ a ∈ w, sep a = false) :
    (w ++ l).dropWhile sep = w ++ l := by
  obtain ⟨a, w, rfl⟩ := List.exists_cons_of_ne_nil hne
  simp [hw a (by simp)]

theorem rdropWhile_letters {w v : List α} (hne : w ≠ []) (hw : ∀ a ∈ w, sep a = false)
    (hv : ∀ a ∈ v, sep a = true) : (w ++ v).rdropWhile sep = w := by
  have hr : w.reverse ≠ [] := by simpa using hne
  rw [List.rdropWhile, List.reverse_append, dropWhile_separators (by simpa using hv),
    ← List.append_nil w.reverse, dropWhile_letters hr (by simpa using hw),
    List.append_nil, List.reverse_reverse]

theorem trim_padded {u w v : List α} (hne : w ≠ []) (hw : ∀ a ∈ w, sep a = false)
    (hu : ∀ a ∈ u, sep a = true) (hv : ∀ a ∈ v, sep a = true) :
    trim sep (u ++ (w ++ v)) = w := by
  rw [trim, dropWhile_separators hu, dropWhile_letters hne hw, rdropWhile_letters hne hw hv]

theorem takeWhile_padded {u w v : List α} (hne : w ≠ []) (hw : ∀ a ∈ w, sep a = false)
    (hu : ∀ a ∈ u, sep a = true) : (u ++ (w ++ v)).takeWhile sep = u := by
  have whole := List.takeWhile_append_dropWhile (p := sep) (l := u ++ (w ++ v))
  rw [dropWhile_separators hu, dropWhile_letters hne hw] at whole
  exact List.append_cancel_right whole

end Trim

section Spots
variable {sep}

@[simp] theorem spots_nil (n : ℕ) : spots sep n [] = [(n, [])] := rfl

theorem spots_separator {a : α} (n : ℕ) (l : List α) (ha : sep a = true) :
    spots sep n (a :: l) = (n, []) :: spots sep (n + 1) l := by
  simp only [spots, cut, ha, if_true]

theorem spots_letter {a : α} (n : ℕ) (l : List α) (ha : sep a = false) :
    spots sep n (a :: l) = (n, a :: (cut sep (n + 1) l).1) :: (cut sep (n + 1) l).2 := by
  simp only [spots, cut, ha, Bool.false_eq_true, if_false]

/-- Pieces of a concatenation: only the two pieces that meet at the cut are joined. -/
theorem spots_append (sep : α → Bool) (n : ℕ) (a b : List α) : ∃ front p x y rest,
    spots sep n a = front ++ [(p, x)] ∧ p + x.length = n + a.length ∧
    spots sep (n + a.length) b = (n + a.length, y) :: rest ∧
    spots sep n (a ++ b) = front ++ (p, x ++ y) :: rest := by
  induction a generalizing n with
  | nil => exact ⟨[], n, [], (cut sep n b).1, (cut sep n b).2, rfl, rfl, rfl, rfl⟩
  | cons c a ih =>
      obtain ⟨front, p, x, y, rest, hfront, hp, hb, hall⟩ := ih (n + 1)
      have offset : n + (c :: a).length = n + 1 + a.length := by
        simp only [List.length_cons]; omega
      rw [offset]
      cases hc : sep c with
      | true =>
          refine ⟨(n, []) :: front, p, x, y, rest, ?_, hp, hb, ?_⟩
          · rw [spots_separator n a hc, hfront, List.cons_append]
          · rw [List.cons_append, spots_separator n (a ++ b) hc, hall, List.cons_append]
      | false =>
          rw [List.cons_append, spots_letter n a hc, spots_letter n (a ++ b) hc]
          cases front with
          | nil =>
              simp only [spots, List.nil_append, List.cons.injEq, Prod.mk.injEq] at hfront hall
              refine ⟨[], n, c :: x, y, rest, ?_, ?_, hb, ?_⟩
              · rw [hfront.1.2, hfront.2, List.nil_append]
              · simp only [List.length_cons]; omega
              · rw [hall.1.2, hall.2, List.nil_append, List.cons_append]
          | cons f front =>
              simp only [spots, List.cons_append, List.cons.injEq] at hfront hall
              refine ⟨(n, c :: f.2) :: front, p, x, y, rest, ?_, hp, hb, ?_⟩
              · rw [← hfront.1, hfront.2, List.cons_append]
              · rw [← hall.1, hall.2, List.cons_append]

theorem spots_letters {w : List α} (n : ℕ) (hw : ∀ a ∈ w, sep a = false) :
    spots sep n w = [(n, w)] := by
  induction w generalizing n with
  | nil => rfl
  | cons a w ih =>
      have tail := ih (n + 1) fun b hb => hw b (by simp [hb])
      simp only [spots, List.cons.injEq, Prod.mk.injEq, true_and] at tail
      rw [spots_letter n w (hw a (by simp)), tail.1, tail.2]

theorem spots_word {w l : List α} {a : α} (n : ℕ) (hw : ∀ b ∈ w, sep b = false)
    (ha : sep a = true) :
    spots sep n (w ++ a :: l) = (n, w) :: spots sep (n + w.length + 1) l := by
  obtain ⟨front, p, x, y, rest, hfront, _, hb, hall⟩ := spots_append sep n w (a :: l)
  rw [spots_letters n hw] at hfront
  rw [spots_separator (n + w.length) l ha, List.cons.injEq, Prod.mk.injEq] at hb
  have single := List.append_eq_singleton_iff.mp hfront.symm
  rcases single with ⟨rfl, last⟩ | ⟨_, last⟩
  · simp only [List.cons.injEq, Prod.mk.injEq, and_true] at last
    rw [hall, ← hb.1.2, hb.2, last.1, last.2, List.append_nil, List.nil_append]
  · simp at last

theorem spots_separators {v : List α} (n : ℕ) (hv : ∀ a ∈ v, sep a = true) :
    ∀ q ∈ spots sep n v, q.2 = [] := by
  induction v generalizing n with
  | nil => simp
  | cons a v ih =>
      rw [spots_separator n v (hv a (by simp))]
      intro q hq
      rcases List.mem_cons.mp hq with rfl | hq
      · rfl
      · exact ih (n + 1) (fun b hb => hv b (by simp [hb])) q hq

/-- Leading separators only shift the pieces of what follows them. -/
theorem spots_skip {u : List α} (n : ℕ) (l : List α) (hu : ∀ a ∈ u, sep a = true) :
    ∃ front, spots sep n (u ++ l) = front ++ spots sep (n + u.length) l ∧
      ∀ q ∈ front, q.2 = [] := by
  induction u generalizing n with
  | nil => exact ⟨[], rfl, by simp⟩
  | cons a u ih =>
      obtain ⟨front, tail, blank⟩ := ih (n + 1) fun b hb => hu b (by simp [hb])
      refine ⟨(n, []) :: front, ?_, ?_⟩
      · rw [List.cons_append, spots_separator n _ (hu a (by simp)), tail, List.length_cons,
          Nat.add_right_comm, Nat.add_assoc n u.length 1, List.cons_append]
      · intro q hq
        rcases List.mem_cons.mp hq with rfl | hq
        · rfl
        · exact blank q hq

/-- A word with separators around it is the only nonempty piece of its fragment. -/
theorem spots_padded {u w v : List α} (n : ℕ) (hw : ∀ a ∈ w, sep a = false)
    (hu : ∀ a ∈ u, sep a = true) (hv : ∀ a ∈ v, sep a = true) : ∃ front more,
    spots sep n (u ++ (w ++ v)) = front ++ (n + u.length, w) :: more ∧ ∀ q ∈ more, q.2 = [] := by
  obtain ⟨front, whole, _⟩ := spots_skip n (w ++ v) hu
  cases v with
  | nil =>
      rw [List.append_nil, spots_letters _ hw] at whole
      exact ⟨front, [], by rw [List.append_nil, whole], by simp⟩
  | cons a v =>
      rw [spots_word _ hw (hv a (by simp))] at whole
      exact ⟨front, _, whole, spots_separators _ fun b hb => hv b (by simp [hb])⟩

end Spots

section Code
variable {sep} {V : List (List α)}

theorem Code.empty_not_mem (code : Code sep V) : [] ∉ V := fun h => code.nonempty [] h rfl

/-- Inside a word of the code there is room for another word only if it is the whole of it. -/
theorem Code.alone (code : Code sep V) {x w y v : List α} (hv : v ∈ V) (hw : w ∈ V)
    (inside : x ++ w ++ y <:+: v) : x = [] ∧ y = [] := by
  have within : w <:+: v := (List.infix_append x w y).trans inside
  have same := code.infixFree w hw v hv within
  have size := inside.length_le
  rw [same, List.length_append, List.length_append] at size
  exact ⟨List.eq_nil_of_length_eq_zero (by omega), List.eq_nil_of_length_eq_zero (by omega)⟩

/-- The piece at which a fragment is heard: its last one, or an earlier one with nothing
but separators behind it. -/
theorem heard_spot (code : Code sep V) (n : ℕ) {c x : List α} {front : List (ℕ × List α)}
    {p : ℕ} (known : trim sep c ∈ V) (hc : spots sep n c = front ++ [(p, x)]) :
    (p, x) = (n + (c.takeWhile sep).length, trim sep c) ∨
      ((n + (c.takeWhile sep).length, trim sep c) ∈ front ∧ x = []) := by
  obtain ⟨v, hv, split⟩ := trim_split sep c
  obtain ⟨f, more, pieces, blank⟩ := spots_padded n (code.letters _ known)
    (fun a ha => List.mem_takeWhile_imp ha) hv
  rw [← split, hc] at pieces
  rcases List.eq_nil_or_concat more with rfl | ⟨more, q, rfl⟩
  · exact .inl (List.singleton_inj.mp (List.append_inj_right' pieces rfl))
  · have regroup : front ++ [(p, x)] =
        (f ++ (n + (c.takeWhile sep).length, trim sep c) :: more) ++ [q] := by
      simpa using pieces
    have last : (p, x) = q := List.singleton_inj.mp (List.append_inj_right' regroup rfl)
    have init := List.append_inj_left' regroup rfl
    refine .inr ⟨by simp [init], ?_⟩
    simpa [← last] using blank q (by simp)

end Code

section Heard
variable {sep} [DecidableEq α] {V : List (List α)}

/-- However a stream of code words is cut, what is heard is heard at the offset at which
it was written, in order and without repetition. -/
theorem heard_sublist (code : Code sep V) (chunks : List (List α)) (n : ℕ)
    (inside : ∀ q ∈ spots sep n chunks.flatten, ∃ v ∈ V, q.2 <:+: v) :
    (heard sep V n chunks).Sublist
      ((spots sep n chunks.flatten).filter fun q => decide (q.2 ∈ V)) := by
  induction chunks generalizing n with
  | nil => exact List.nil_sublist _
  | cons c cs ih =>
      obtain ⟨front, p, x, y, rest, hc, hp, hcs, hall⟩ := spots_append sep n c cs.flatten
      rw [List.flatten_cons, hall] at inside ⊢
      obtain ⟨v, hv, joined⟩ := inside (p, x ++ y) (by simp)
      have later := ih (n + c.length) (by
        intro q hq
        rw [hcs] at hq
        rcases List.mem_cons.mp hq with rfl | hq
        · exact ⟨v, hv, (List.suffix_append x y).isInfix.trans joined⟩
        · exact inside q (by simp [hq]))
      rw [hcs] at later
      by_cases known : trim sep c ∈ V
      · rw [heard, if_pos known, List.filter_append]
        rcases heard_spot code n known hc with here | ⟨earlier, rfl⟩
        · -- the fragment ends with the word, so nothing of the next one can belong to it
          rw [Prod.mk.injEq] at here
          have empty : y = [] := (code.alone (x := []) hv known (by simpa [here.2] using joined)).2
          subst empty
          rw [List.filter_cons_of_neg (by simpa using code.empty_not_mem)] at later
          rw [List.append_nil, here.1, here.2,
            List.filter_cons_of_pos (by simpa using known)]
          exact (later.cons_cons _).trans (List.sublist_append_right _ _)
        · have offset : p = n + c.length := by simpa using hp
          rw [List.nil_append, offset]
          have word : ([(n + (c.takeWhile sep).length, trim sep c)]).Sublist
              (front.filter fun q => decide (q.2 ∈ V)) :=
            List.singleton_sublist.mpr (List.mem_filter.mpr ⟨earlier, by simpa using known⟩)
          exact word.append later
      · rw [heard, if_neg known, List.filter_append]
        -- the fragment is not heard, but the next one may begin with a whole word
        by_cases hy : y ∈ V
        · have empty : x = [] := (code.alone (y := []) hv hy (by simpa using joined)).1
          subst empty
          have offset : p = n + c.length := by simpa using hp
          rw [List.nil_append, offset]
          exact later.trans (List.sublist_append_right _ _)
        · rw [List.filter_cons_of_neg (by simpa using hy)] at later
          exact (later.trans (List.Sublist.filter _ (List.sublist_cons_self _ _))).trans
            (List.sublist_append_right _ _)

theorem heard_mem {q : ℕ × List α} {chunks : List (List α)} {n : ℕ}
    (hq : q ∈ heard sep V n chunks) : ∃ before c after u v, chunks = before ++ c :: after ∧
      c = u ++ (q.2 ++ v) ∧ (∀ a ∈ u, sep a = true) ∧ (∀ a ∈ v, sep a = true) ∧
      q.1 = n + before.flatten.length + u.length ∧ q.2 ∈ V := by
  induction chunks generalizing n with
  | nil => simp [heard] at hq
  | cons c cs ih =>
      have elsewhere : q ∈ heard sep V (n + c.length) cs → ∃ before d after u v,
          c :: cs = before ++ d :: after ∧ d = u ++ (q.2 ++ v) ∧ (∀ a ∈ u, sep a = true) ∧
          (∀ a ∈ v, sep a = true) ∧ q.1 = n + before.flatten.length + u.length ∧ q.2 ∈ V := by
        intro hq
        obtain ⟨before, d, after, u, v, rfl, hd, hu, hv, offset, known⟩ := ih hq
        refine ⟨c :: before, d, after, u, v, rfl, hd, hu, hv, ?_, known⟩
        rw [offset, List.flatten_cons, List.length_append]
        omega
      by_cases known : trim sep c ∈ V
      · rw [heard, if_pos known] at hq
        rcases List.mem_cons.mp hq with rfl | hq
        · obtain ⟨v, hv, split⟩ := trim_split sep c
          exact ⟨[], c, cs, c.takeWhile sep, v, rfl, split,
            fun a ha => List.mem_takeWhile_imp ha, hv, by simp, known⟩
        · exact elsewhere hq
      · rw [heard, if_neg known] at hq
        exact elsewhere hq

theorem mem_heard (code : Code sep V) {w : List α} (known : w ∈ V)
    {before after : List (List α)} {u v : List α} (n : ℕ)
    (hu : ∀ a ∈ u, sep a = true) (hv : ∀ a ∈ v, sep a = true) :
    (n + before.flatten.length + u.length, w) ∈
      heard sep V n (before ++ (u ++ (w ++ v)) :: after) := by
  induction before generalizing n with
  | nil =>
      have trimmed := trim_padded (code.nonempty w known) (code.letters w known) hu hv
      have skipped := takeWhile_padded (v := v) (code.nonempty w known) (code.letters w known) hu
      rw [List.nil_append, heard, trimmed, skipped, if_pos known]
      simp
  | cons c before ih =>
      have tail := ih (n + c.length)
      have offset : n + (c :: before).flatten.length + u.length =
          n + c.length + before.flatten.length + u.length := by
        rw [List.flatten_cons, List.length_append]; omega
      rw [List.cons_append, heard, offset]
      split
      · exact List.mem_cons_of_mem _ tail
      · exact tail

end Heard
end Library
