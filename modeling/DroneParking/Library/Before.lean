import Mathlib.Data.List.Perm.Basic

/-!
# One key before another

Whether a list has an entry `x` in front of an entry `y` is the one thing a scan with
a flag can see. A permutation can decide it either way as soon as both occur.
-/
namespace Library

variable {α β : Type*} {x y : β}

def Before (x y : β) (l : List β) : Prop := [x, y].Sublist l

instance [DecidableEq β] (x y : β) (l : List β) : Decidable (Before x y l) :=
  inferInstanceAs (Decidable ([x, y].Sublist l))

theorem Before.both {l : List β} (h : Before x y l) : x ∈ l ∧ y ∈ l :=
  ⟨h.subset (by simp), h.subset (by simp)⟩

theorem before_append {l k : List β} :
    Before x y (l ++ k) ↔ Before x y l ∨ Before x y k ∨ (x ∈ l ∧ y ∈ k) := by
  constructor
  · intro h
    obtain ⟨a, b, split, front, back⟩ := List.sublist_append_iff.mp h
    -- the pair is cut before, between or behind its two entries
    match a, b, split with
    | [], _, rfl => exact .inr (.inl back)
    | [_], [_], rfl =>
        exact .inr (.inr ⟨List.singleton_sublist.mp front, List.singleton_sublist.mp back⟩)
    | [_, _], [], rfl => exact .inl front
  · rintro (front | back | ⟨hx, hy⟩)
    · exact front.trans (List.sublist_append_left l k)
    · exact back.trans (List.sublist_append_right l k)
    · exact (List.singleton_sublist.mpr hx).append (List.singleton_sublist.mpr hy)

theorem before_snoc {l : List β} {a : β} :
    Before x y (l ++ [a]) ↔ Before x y l ∨ (x ∈ l ∧ a = y) := by
  rw [before_append, List.mem_singleton]
  constructor
  · rintro (front | single | ⟨hx, rfl⟩)
    · exact .inl front
    · have short : 2 ≤ 1 := single.length_le
      omega
    · exact .inr ⟨hx, rfl⟩
  · rintro (front | ⟨hx, rfl⟩)
    · exact .inl front
    · exact .inr (.inr ⟨hx, rfl⟩)

section Perm
variable [DecidableEq β] (f : α → β) (l : List α)

theorem mem_keyed {z : β} : z ∈ (l.filter fun a => decide (f a = y)).map f ↔ z = y ∧ y ∈ l.map f := by
  simp only [List.mem_map, List.mem_filter, decide_eq_true_iff]
  constructor
  · rintro ⟨a, ⟨ha, key⟩, rfl⟩
    exact ⟨key, a, ha, key⟩
  · rintro ⟨rfl, a, ha, key⟩
    exact ⟨a, ⟨ha, key⟩, key⟩

theorem mem_unkeyed {z : β} : z ∈ (l.filter fun a => !decide (f a = y)).map f ↔ z ≠ y ∧ z ∈ l.map f := by
  simp only [List.mem_map, List.mem_filter, Bool.not_eq_true', decide_eq_false_iff_not]
  constructor
  · rintro ⟨a, ⟨ha, key⟩, rfl⟩
    exact ⟨key, a, ha, rfl⟩
  · rintro ⟨other, a, ha, rfl⟩
    exact ⟨a, ⟨ha, other⟩, rfl⟩

theorem exists_perm_before (different : x ≠ y) (hx : x ∈ l.map f) (hy : y ∈ l.map f) :
    ∃ l' : List α, l'.Perm l ∧ Before x y (l'.map f) := by
  refine ⟨(l.filter fun a => !decide (f a = y)) ++ l.filter fun a => decide (f a = y),
    List.perm_append_comm.trans (List.filter_append_perm _ l), ?_⟩
  rw [List.map_append, before_append]
  exact .inr (.inr ⟨(mem_unkeyed f l).mpr ⟨different, hx⟩, (mem_keyed f l).mpr ⟨rfl, hy⟩⟩)

theorem exists_perm_not_before (different : x ≠ y) :
    ∃ l' : List α, l'.Perm l ∧ ¬ Before x y (l'.map f) := by
  refine ⟨_, List.filter_append_perm (fun a => decide (f a = y)) l, ?_⟩
  rw [List.map_append, before_append]
  rintro (front | back | ⟨_, hy⟩)
  · exact different ((mem_keyed f l).mp front.both.1).1
  · exact ((mem_unkeyed f l).mp back.both.2).1 rfl
  · exact ((mem_unkeyed f l).mp hy).1 rfl

end Perm
end Library
