import Mathlib.Data.Nat.Digits.Lemmas
import Mathlib.Tactic.Ring

/-!
# Numbers spelled in bytes

Fixed-width unsigned numbers in both byte orders, and two's complement on top of
them. Reading is total; writing keeps as many low bytes as the width has room for.
-/
namespace Library

abbrev Bytes := List UInt8

/-- The number that bytes spell, the least significant byte first. -/
def little : Bytes → ℕ
  | [] => 0
  | b :: l => b.toNat + 256 * little l

/-- The number that bytes spell, the most significant byte first. -/
def big (l : Bytes) : ℕ := little l.reverse

def toLittle : ℕ → ℕ → Bytes
  | 0, _ => []
  | width + 1, n => UInt8.ofNat n :: toLittle width (n / 256)

def toBig (width n : ℕ) : Bytes := (toLittle width n).reverse

/-- Two's complement on as many bits as `base` has room for. -/
def signed (base n : ℕ) : ℤ := if n < base / 2 then n else n - base

def unsigned (base : ℕ) (z : ℤ) : ℕ := (z % base).toNat

theorem little_eq_ofDigits (l : Bytes) : little l = Nat.ofDigits 256 (l.map UInt8.toNat) := by
  induction l with
  | nil => rfl
  | cons b l ih => rw [little, List.map_cons, Nat.ofDigits_cons, ih]

theorem digit_lt {l : Bytes} : ∀ d ∈ l.map UInt8.toNat, d < 256 := by
  intro d hd
  obtain ⟨b, _, rfl⟩ := List.mem_map.mp hd
  exact b.toNat_lt

theorem little_lt (l : Bytes) : little l < 256 ^ l.length := by
  have bound := Nat.ofDigits_lt_base_pow_length (by decide) (digit_lt (l := l))
  rwa [← little_eq_ofDigits, List.length_map] at bound

theorem little_append (a b : Bytes) : little (a ++ b) = little a + 256 ^ a.length * little b := by
  simp only [little_eq_ofDigits, List.map_append, Nat.ofDigits_append, List.length_map]

theorem little_zeros (n : ℕ) : little (List.replicate n 0) = 0 := by
  induction n with
  | zero => rfl
  | succ n ih =>
      rw [List.replicate_succ, little, ih]
      rfl

/-- Missing bytes may be taken for zeros. -/
theorem little_padded (l : Bytes) {n m : ℕ} (h : n ≤ m) :
    little ((l ++ List.replicate m 0).take n) = little (l.take n) := by
  rw [List.take_append, List.take_replicate, Nat.min_eq_left (by omega), little_append, little_zeros,
    Nat.mul_zero, Nat.add_zero]

/-- Bytes of one length are told apart by the number they spell. -/
theorem little_injective {a b : Bytes} (len : a.length = b.length) (h : little a = little b) :
    a = b := by
  rw [little_eq_ofDigits, little_eq_ofDigits] at h
  have digits := Nat.ofDigits_inj_of_len_eq (by decide) (by simpa using len)
    (digit_lt (l := a)) (digit_lt (l := b)) h
  exact List.map_injective_iff.mpr (fun _ _ => UInt8.toNat_inj.mp) digits

theorem little_changed {x y : UInt8} (a c : Bytes) (h : little (a ++ x :: c) = little (a ++ y :: c)) :
    x = y := by
  have same := little_injective (by simp) h
  exact List.head_eq_of_cons_eq (List.append_cancel_left same)

/-- One entry changed in a list of two parts is changed in one of them. -/
theorem append_changed {α : Type*} {s s' t t' a c : List α} {x y : α}
    (length : s'.length = s.length) (h : s ++ t = a ++ x :: c) (h' : s' ++ t' = a ++ y :: c) :
    (∃ c', s = a ++ x :: c' ∧ s' = a ++ y :: c' ∧ t' = t) ∨
      ∃ a', a = s ++ a' ∧ s' = s ∧ t = a' ++ x :: c ∧ t' = a' ++ y :: c := by
  rcases List.append_eq_append_iff.mp h with ⟨a', rfl, rfl⟩ | ⟨c', rfl, back⟩
  · rw [List.append_assoc] at h'
    obtain ⟨rfl, rfl⟩ := List.append_inj h' length
    exact .inr ⟨a', rfl, rfl, rfl, rfl⟩
  · cases c' with
    | nil =>
        rw [List.append_nil] at length
        obtain ⟨rfl, rfl⟩ := List.append_inj h' length
        exact .inr ⟨[], by simp, by simp, back.symm, rfl⟩
    | cons z c' =>
        rw [List.cons_append, List.cons.injEq] at back
        obtain ⟨rfl, rfl⟩ := back
        rw [← List.cons_append, ← List.append_assoc] at h'
        obtain ⟨rfl, rfl⟩ := List.append_inj h' (by simpa using length)
        exact .inl ⟨c', rfl, rfl, rfl⟩

@[simp] theorem length_toLittle (width n : ℕ) : (toLittle width n).length = width := by
  induction width generalizing n with
  | zero => rfl
  | succ width ih => rw [toLittle, List.length_cons, ih]

@[simp] theorem length_toBig (width n : ℕ) : (toBig width n).length = width := by
  rw [toBig, List.length_reverse, length_toLittle]

theorem little_toLittle {width n : ℕ} (h : n < 256 ^ width) : little (toLittle width n) = n := by
  induction width generalizing n with
  | zero => exact (Nat.lt_one_iff.mp h).symm
  | succ width ih =>
      have rest : n / 256 < 256 ^ width := by
        rw [Nat.div_lt_iff_lt_mul (by decide), ← pow_succ]
        exact h
      rw [toLittle, little, ih rest, UInt8.toNat_ofNat']
      omega

theorem toLittle_little (l : Bytes) : toLittle l.length (little l) = l :=
  little_injective (length_toLittle _ _) (little_toLittle (little_lt l))

theorem big_lt (l : Bytes) : big l < 256 ^ l.length := by
  have bound := little_lt l.reverse
  rwa [List.length_reverse] at bound

theorem big_cons (b : UInt8) (l : Bytes) : big (b :: l) = b.toNat * 256 ^ l.length + big l := by
  rw [big, List.reverse_cons, little_append, List.length_reverse, big]
  simp only [little]
  ring

theorem big_toBig {width n : ℕ} (h : n < 256 ^ width) : big (toBig width n) = n := by
  rw [big, toBig, List.reverse_reverse, little_toLittle h]

theorem toBig_big (l : Bytes) : toBig l.length (big l) = l := by
  have same := toLittle_little l.reverse
  rw [List.length_reverse] at same
  rw [toBig, big, same, List.reverse_reverse]

theorem unsigned_signed {base n : ℕ} (h : n < base) : unsigned base (signed base n) = n := by
  unfold unsigned signed
  split
  · rw [Int.emod_eq_of_lt (by omega) (by omega), Int.toNat_natCast]
  · rw [← Int.add_emod_right, sub_add_cancel, Int.emod_eq_of_lt (by omega) (by omega),
      Int.toNat_natCast]

section Windows
variable {l y : Bytes} {i n : ℕ}

/-- Bytes that are already there are not changed by bytes behind them. -/
theorem window_append (h : i + n ≤ l.length) : ((l ++ y).drop i).take n = (l.drop i).take n := by
  rw [List.drop_append_of_le_length (by omega),
    List.take_append_of_le_length (by rw [List.length_drop]; omega)]

theorem drop_window (l : Bytes) (i n : ℕ) : l.drop i = (l.drop i).take n ++ l.drop (i + n) := by
  rw [← List.drop_drop, List.take_append_drop]

theorem length_window (h : i + n ≤ l.length) : ((l.drop i).take n).length = n := by
  rw [List.length_take, List.length_drop]
  omega

theorem little_window_lt (h : i + n ≤ l.length) : little ((l.drop i).take n) < 256 ^ n := by
  have bound := little_lt ((l.drop i).take n)
  rwa [length_window h] at bound

/-- A window spelled out again, with what follows it. -/
theorem toLittle_window (h : i + n ≤ l.length) :
    toLittle n (little ((l.drop i).take n)) ++ l.drop (i + n) = l.drop i := by
  have same := toLittle_little ((l.drop i).take n)
  rw [length_window h] at same
  rw [same, ← drop_window]

end Windows
end Library
