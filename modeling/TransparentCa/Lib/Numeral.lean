import Mathlib

/- Decimal numerals. A text is cut where a property of its letters stops; the digits that
   were cut off are read from the first to the last, and a number is written with the digits
   of `Nat.digits`, the highest first. -/
namespace Numeral

section Cut
variable {α : Type} {p : α → Bool} {a rest : List α}

theorem dropWhile_append_stop (ha : ∀ c ∈ a, p c = true) (hrest : ∀ c ∈ rest.head?, p c = false) :
    (a ++ rest).dropWhile p = rest := by
  rw [List.dropWhile_append_of_pos ha]
  cases rest with
  | nil => rfl
  | cons c rest => exact List.dropWhile_cons_of_neg (by rw [hrest c rfl]; exact Bool.false_ne_true)

theorem takeWhile_append_stop (ha : ∀ c ∈ a, p c = true) (hrest : ∀ c ∈ rest.head?, p c = false) :
    (a ++ rest).takeWhile p = a := by
  rw [List.takeWhile_append_of_pos ha]
  cases rest with
  | nil => rw [List.takeWhile_nil, List.append_nil]
  | cons c rest =>
    rw [List.takeWhile_cons_of_neg (by rw [hrest c rfl]; exact Bool.false_ne_true),
      List.append_nil]

theorem head?_dropWhile_stop (p : α → Bool) (s : List α) :
    ∀ c ∈ (s.dropWhile p).head?, p c = false := by
  intro c hc
  have hstop := List.head?_dropWhile_not p s
  rw [hc] at hstop
  exact hstop

end Cut

/-- The number that digits write, the highest first. -/
def value (digits : List Nat) : Nat := digits.foldl (fun n d => 10 * n + d) 0

/-- The digits of a number, the highest first. -/
def numeral (n : Nat) : List Nat := if n = 0 then [0] else (Nat.digits 10 n).reverse

theorem value_append_singleton (digits : List Nat) (d : Nat) :
    value (digits ++ [d]) = 10 * value digits + d := by
  rw [value, List.foldl_append]
  rfl

theorem value_reverse (digits : List Nat) : value digits.reverse = Nat.ofDigits 10 digits := by
  induction digits with
  | nil => rfl
  | cons d digits ih =>
    rw [List.reverse_cons, value_append_singleton, ih, Nat.ofDigits_cons, Nat.add_comm]

theorem value_numeral (n : Nat) : value (numeral n) = n := by
  unfold numeral
  split_ifs with h
  · exact h.symm
  · rw [value_reverse, Nat.ofDigits_digits]

theorem numeral_ne_nil (n : Nat) : numeral n ≠ [] := by
  unfold numeral
  split_ifs with h
  · exact List.cons_ne_nil 0 []
  · exact fun hnil => h (Nat.digits_eq_nil_iff_eq_zero.mp (List.reverse_eq_nil_iff.mp hnil))

/-- A number has at most `k` digits when it is below `10 ^ k`. -/
theorem length_numeral_le_iff {k : Nat} (hk : 0 < k) (n : Nat) :
    (numeral n).length ≤ k ↔ n < 10 ^ k := by
  unfold numeral
  split_ifs with h
  · have hpos : 0 < 10 ^ k := Nat.pow_pos (by decide)
    exact iff_of_true hk (h ▸ hpos)
  · rw [List.length_reverse, Nat.digits_length_le_iff (by decide)]

theorem lt_of_mem_numeral {n d : Nat} (h : d ∈ numeral n) : d < 10 := by
  unfold numeral at h
  split_ifs at h with hn
  · rw [List.mem_singleton.mp h]
    omega
  · exact Nat.digits_lt_base (by omega) (List.mem_reverse.mp h)

end Numeral
