import Mathlib.Data.List.Basic

/-!
# Lines of separated fields

Lines that end in a mark, and fields between separators that do not count inside
quotes. What was joined is cut apart again if no field has a separator outside
its quotes.
-/
namespace Library

section Lines
variable {α : Type*} [DecidableEq α] {mark : α}

/-- The lines of a text whose last line is ended too. -/
def lines? (mark : α) (text : List α) : Option (List (List α)) :=
  if (text.splitOn mark).getLast? = some [] then some (text.splitOn mark).dropLast else none

omit [DecidableEq α] in
theorem lines_joined (ls : List (List α)) :
    ls.flatMap (· ++ [mark]) = [mark].intercalate (ls ++ [[]]) := by
  induction ls with
  | nil => rfl
  | cons l ls ih =>
      rw [List.flatMap_cons, ih, List.cons_append,
        List.intercalate_cons_of_ne_nil (List.concat_ne_nil _ _)]

theorem splitOn_lines {ls : List (List α)} (h : ∀ l ∈ ls, mark ∉ l) :
    (ls.flatMap (· ++ [mark])).splitOn mark = ls ++ [[]] := by
  rw [lines_joined, List.splitOn_intercalate]
  · intro l hl
    rcases List.mem_append.mp hl with old | last
    · exact h l old
    · rw [List.mem_singleton.mp last]
      exact List.not_mem_nil
  · exact List.concat_ne_nil _ _

theorem lines?_flatMap {ls : List (List α)} (h : ∀ l ∈ ls, mark ∉ l) :
    lines? mark (ls.flatMap (· ++ [mark])) = some ls := by
  rw [lines?, splitOn_lines h, List.getLast?_concat, if_pos rfl, List.dropLast_concat]

end Lines

section Fields
variable {α : Type*} [DecidableEq α] {sep quote : α}

/-- Cut at the separators that are not between quotes. -/
def fields (sep quote : α) : Bool → List α → List (List α)
  | _, [] => [[]]
  | quoted, c :: l =>
      if c = sep ∧ quoted = false then [] :: fields sep quote false l
      else (fields sep quote (quoted != decide (c = quote)) l).modifyHead (c :: ·)

/-- No separator outside quotes, and the last quote closed. -/
def Intact (sep quote : α) : Bool → List α → Prop
  | quoted, [] => quoted = false
  | quoted, c :: l => (c = sep → quoted = true) ∧ Intact sep quote (quoted != decide (c = quote)) l

theorem fields_append {quoted : Bool} {w l : List α} (h : Intact sep quote quoted w) :
    fields sep quote quoted (w ++ sep :: l) = w :: fields sep quote false l := by
  induction w generalizing quoted with
  | nil =>
      cases (h : quoted = false)
      rw [List.nil_append, fields, if_pos ⟨rfl, rfl⟩]
  | cons c w ih =>
      have inside : ¬ (c = sep ∧ quoted = false) := by
        rintro ⟨same, outside⟩
        rw [h.1 same] at outside
        cases outside
      rw [List.cons_append, fields, if_neg inside, ih h.2, List.modifyHead_cons]

theorem fields_last {quoted : Bool} {w : List α} (h : Intact sep quote quoted w) :
    fields sep quote quoted w = [w] := by
  induction w generalizing quoted with
  | nil => rfl
  | cons c w ih =>
      have inside : ¬ (c = sep ∧ quoted = false) := by
        rintro ⟨same, outside⟩
        rw [h.1 same] at outside
        cases outside
      rw [fields, if_neg inside, ih h.2, List.modifyHead_cons]

/-- Fields that are joined are cut apart again. -/
theorem fields_intercalate {ws : List (List α)} (nonempty : ws ≠ [])
    (h : ∀ w ∈ ws, Intact sep quote false w) :
    fields sep quote false ([sep].intercalate ws) = ws := by
  induction ws with
  | nil => exact absurd rfl nonempty
  | cons w ws ih =>
      have first := h w List.mem_cons_self
      cases ws with
      | nil =>
          rw [List.intercalate_singleton]
          exact fields_last first
      | cons v ws =>
          have rest := ih (List.cons_ne_nil _ _) fun u hu => h u (List.mem_cons_of_mem _ hu)
          rw [List.intercalate_cons_cons, List.append_assoc, List.singleton_append,
            fields_append first, rest]

omit [DecidableEq α] in
theorem not_mem_intercalate {c : α} {ws : List (List α)} (distinct : c ≠ sep) (h : ∀ w ∈ ws, c ∉ w) :
    c ∉ [sep].intercalate ws := by
  induction ws with
  | nil => exact List.not_mem_nil
  | cons w ws ih =>
      have first := h w List.mem_cons_self
      have rest := ih fun v hv => h v (List.mem_cons_of_mem _ hv)
      cases ws with
      | nil =>
          rw [List.intercalate_singleton]
          exact first
      | cons v ws =>
          rw [List.intercalate_cons_cons, List.mem_append, List.mem_append, List.mem_singleton]
          rintro ((member | same) | member)
          · exact first member
          · exact distinct same
          · exact rest member

theorem intact_of_not_mem {w : List α} (h : sep ∉ w) (hq : quote ∉ w) : Intact sep quote false w := by
  induction w with
  | nil => rfl
  | cons c w ih =>
      rw [List.mem_cons, not_or] at h hq
      refine ⟨fun same => absurd same.symm h.1, ?_⟩
      rw [decide_eq_false (Ne.symm hq.1)]
      exact ih h.2 hq.2

/-- Between quotes anything but a quote may stand. -/
theorem intact_quoted {w : List α} (distinct : sep ≠ quote) (h : quote ∉ w) :
    Intact sep quote false (quote :: (w ++ [quote])) := by
  have inside (w : List α) (h : quote ∉ w) : Intact sep quote true (w ++ [quote]) := by
    induction w with
    | nil => exact ⟨fun _ => rfl, by rw [decide_eq_true rfl]; rfl⟩
    | cons c w ih =>
        rw [List.mem_cons, not_or] at h
        refine ⟨fun _ => rfl, ?_⟩
        rw [decide_eq_false (Ne.symm h.1)]
        exact ih h.2
  refine ⟨fun same => absurd same.symm distinct, ?_⟩
  rw [decide_eq_true rfl]
  exact inside w h

end Fields
end Library
