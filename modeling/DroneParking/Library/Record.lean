import Mathlib.Data.List.Perm.Basic
import Mathlib.Data.List.Nodup

/-!
# Records with insertion-ordered properties

Writing an existing property keeps its place, writing a new one appends it, and
deleting removes it. No property occurs twice, so a record is determined up to
order by what it answers to lookups.
-/
namespace Library

structure Record (κ ν : Type*) where
  entries : List (κ × ν)
  nodup : (entries.map Prod.fst).Nodup
  deriving DecidableEq, Repr

namespace Record

variable {κ ν : Type*}

def empty : Record κ ν := ⟨[], by simp⟩

@[simp] theorem entries_empty : (empty : Record κ ν).entries = [] := rfl

variable [DecidableEq κ]

/-- `r[k]`, with `none` for an absent property. -/
def get (r : Record κ ν) (k : κ) : Option ν := (r.entries.find? (fun e => e.1 = k)).map Prod.snd

def write (k : κ) (v : ν) : List (κ × ν) → List (κ × ν)
  | [] => [(k, v)]
  | e :: l => if e.1 = k then (k, v) :: l else e :: write k v l

theorem mem_keys_write {k j : κ} {v : ν} {l : List (κ × ν)} :
    j ∈ (write k v l).map Prod.fst ↔ j = k ∨ j ∈ l.map Prod.fst := by
  induction l with
  | nil => simp [write]
  | cons e l ih =>
      rw [write]
      split
      · next same => simp [same]
      · rw [List.map_cons, List.mem_cons, ih, List.map_cons, List.mem_cons]; tauto

theorem nodup_write {k : κ} {v : ν} {l : List (κ × ν)} (h : (l.map Prod.fst).Nodup) :
    ((write k v l).map Prod.fst).Nodup := by
  induction l with
  | nil => simp [write]
  | cons e l ih =>
      rw [List.map_cons, List.nodup_cons] at h
      rw [write]
      split
      · next same => simpa [← same] using h
      · next other =>
          rw [List.map_cons, List.nodup_cons, mem_keys_write]
          exact ⟨fun absurd => absurd.elim other h.1, ih h.2⟩

/-- `r[k] = v` -/
def set (r : Record κ ν) (k : κ) (v : ν) : Record κ ν := ⟨write k v r.entries, nodup_write r.nodup⟩

/-- `delete r[k]` -/
def delete (r : Record κ ν) (k : κ) : Record κ ν :=
  ⟨r.entries.filter fun e => !decide (e.1 = k), r.nodup.sublist (List.filter_sublist.map _)⟩

@[simp] theorem get_empty (k : κ) : (empty : Record κ ν).get k = none := rfl

@[simp] theorem get_set (r : Record κ ν) (k j : κ) (v : ν) :
    (r.set k v).get j = if j = k then some v else r.get j := by
  simp only [get, set]
  induction r.entries with
  | nil => by_cases h : k = j <;> simp [write, h, eq_comm]
  | cons e l ih =>
      rw [write]
      by_cases he : e.1 = k
      · by_cases hj : j = k
        · simp [he, hj]
        · simp [he, hj, Ne.symm hj]
      · by_cases hej : e.1 = j
        · have hj : j ≠ k := fun same => he (hej.trans same)
          simp [hej, hj]
        · simpa [he, hej] using ih

@[simp] theorem get_delete (r : Record κ ν) (k j : κ) :
    (r.delete k).get j = if j = k then none else r.get j := by
  simp only [get, delete]
  induction r.entries with
  | nil => simp
  | cons e l ih =>
      by_cases he : e.1 = k
      · by_cases hj : j = k
        · simp [hj]
        · have hej : ¬ k = j := fun same => hj same.symm
          simpa [he, hj, hej] using ih
      · by_cases hej : e.1 = j
        · have hj : j ≠ k := fun same => he (hej.trans same)
          simp [hej, hj]
        · simpa [he, hej] using ih

theorem mem_entries {r : Record κ ν} {k : κ} {v : ν} : (k, v) ∈ r.entries ↔ r.get k = some v := by
  obtain ⟨l, nodup⟩ := r
  simp only [get]
  induction l with
  | nil => simp
  | cons e l ih =>
      rw [List.map_cons, List.nodup_cons] at nodup
      rw [List.mem_cons, ih nodup.2]
      by_cases he : e.1 = k
      · have absent : l.find? (fun e => decide (e.1 = k)) = none := by
          rw [List.find?_eq_none]
          intro d hd same
          exact nodup.1 (List.mem_map.mpr ⟨d, hd, (of_decide_eq_true same).trans he.symm⟩)
        simp only [absent, Option.map_none, reduceCtorEq, or_false, he, decide_true,
          List.find?_cons_of_pos, Option.map_some, Option.some.injEq]
        constructor
        · intro same; rw [← same]
        · intro same; rw [← same, ← he]
      · have other : (k, v) ≠ e := fun same => he (by rw [← same])
        simp [he, other]

theorem entries_perm {r s : Record κ ν} (h : ∀ k, r.get k = s.get k) :
    r.entries.Perm s.entries := by
  refine (List.perm_ext_iff_of_nodup r.nodup.of_map s.nodup.of_map).mpr ?_
  rintro ⟨k, v⟩
  rw [mem_entries, mem_entries, h]

theorem entries_eq_nil {r : Record κ ν} (h : ∀ k, r.get k = none) : r.entries = [] := by
  refine List.eq_nil_iff_forall_not_mem.mpr ?_
  rintro ⟨k, v⟩ member
  rw [mem_entries, h] at member
  cases member

end Record
end Library
