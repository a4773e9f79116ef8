import Mathlib

/- Java text and byte arrays. A string is a list of UTF-16 units, so that lone
   surrogates are strings too, and a byte array carries the bound on its length that
   Java's `int` indices give it. `Integer.toString` and `Integer.parseInt` are here with
   the digits `Character.digit` knows (every decimal digit of the basic plane, not only
   the ASCII ones), and `split` is `String.split(sep, -1)` for a one-character
   separator. -/
namespace Java

abbrev JString := List UInt16

instance : LawfulBEq JString := inferInstance

/-- The unit of a character of the basic plane. -/
def ch (c : Char) : UInt16 := c.toNat.toUInt16

/-- A literal of the basic plane. -/
def u (s : String) : JString := s.toList.map ch

/-- `byte[]`. -/
abbrev Bytes := { l : List UInt8 // l.length < 2^31 }

def Bytes.empty : Bytes := ⟨[], by decide⟩

def Bytes.one (b : UInt8) : Bytes := ⟨[b], by simp⟩

/-! ## Splitting -/

/-- `s.split(sep, -1)`. -/
def split (sep : UInt16) (s : JString) : List JString := s.splitOn sep

theorem split_eq_three {sep : UInt16} {s a b c : JString} (h : split sep s = [a, b, c]) :
    s = a ++ sep :: (b ++ sep :: c) := by
  have hjoin : List.intercalate [sep] (s.splitOn sep) = s := List.intercalate_splitOn sep
  rw [show s.splitOn sep = [a, b, c] from h] at hjoin
  simpa [List.intercalate, List.intersperse] using hjoin.symm

theorem split_eq_two {sep : UInt16} {s a b : JString} (h : split sep s = [a, b]) :
    s = a ++ sep :: b := by
  have hjoin : List.intercalate [sep] (s.splitOn sep) = s := List.intercalate_splitOn sep
  rw [show s.splitOn sep = [a, b] from h] at hjoin
  simpa [List.intercalate, List.intersperse] using hjoin.symm

theorem split_self {sep : UInt16} {s : JString} (h : sep ∉ s) : split sep s = [s] :=
  List.splitOn_eq_singleton h

theorem split_append_cons {sep : UInt16} {a s : JString} (ha : sep ∉ a) :
    split sep (a ++ sep :: s) = a :: split sep s :=
  List.splitOn_append_cons_self_of_not_mem ha s

theorem split_three {sep : UInt16} {a b c : JString} (ha : sep ∉ a) (hb : sep ∉ b)
    (hc : sep ∉ c) : split sep (a ++ sep :: (b ++ sep :: c)) = [a, b, c] := by
  rw [split_append_cons ha, split_append_cons hb, split_self hc]

/-! ## Decimal numbers -/

/-- The zeros of the decimal digit ranges of the basic plane. -/
def digitZeros : List UInt16 :=
  [0x0030, 0x0660, 0x06F0, 0x07C0, 0x0966, 0x09E6, 0x0A66, 0x0AE6, 0x0B66, 0x0BE6, 0x0C66,
   0x0CE6, 0x0D66, 0x0DE6, 0x0E50, 0x0ED0, 0x0F20, 0x1040, 0x1090, 0x17E0, 0x1810, 0x1946,
   0x19D0, 0x1A80, 0x1A90, 0x1B50, 0x1BB0, 0x1C40, 0x1C50, 0xA620, 0xA8D0, 0xA900, 0xA9D0,
   0xA9F0, 0xAA50, 0xABF0, 0xFF10]

/-- `Character.digit(c, 10)`, `none` for -1. -/
def digit (c : UInt16) : Option Nat :=
  digitZeros.findSome? (fun z => if z ≤ c ∧ c < z + 10 then some (c - z).toNat else none)

def parseDigits : Nat → JString → Option Nat
  | acc, [] => some acc
  | acc, c :: s => (digit c).bind (fun d => parseDigits (acc * 10 + d) s)

/-- The value of a non-empty digit string, or `none`. -/
def parseNat (s : JString) : Option Nat := if s.isEmpty then none else parseDigits 0 s

/-- `Integer.parseInt(s)`, `none` for `NumberFormatException`. -/
def parseInt (s : JString) : Option Int32 :=
  let value : Option Int := match s with
    | [] => none
    | c :: rest =>
      if c = ch '-' then (parseNat rest).map (fun n : Nat => -(n : Int))
      else if c = ch '+' then (parseNat rest).map (fun n : Nat => (n : Int))
      else (parseNat (c :: rest)).map (fun n : Nat => (n : Int))
  value.bind (fun i => if -2^31 ≤ i ∧ i < 2^31 then some (Int32.ofInt i) else none)

/-- The ASCII digit of `d < 10`. -/
def digitChar (d : Nat) : UInt16 := ch '0' + d.toUInt16

def natToString (n : Nat) : JString :=
  if n = 0 then [digitChar 0] else (Nat.digits 10 n).reverse.map digitChar

/-- `Integer.toString(i)`. -/
def intToString (i : Int32) : JString :=
  if i.toInt < 0 then ch '-' :: natToString i.toInt.natAbs else natToString i.toInt.natAbs

/-- `Long.toString(i)`. -/
def longToString (i : Int64) : JString :=
  if i.toInt < 0 then ch '-' :: natToString i.toInt.natAbs else natToString i.toInt.natAbs

theorem digit_digitChar {d : Nat} (h : d < 10) : digit (digitChar d) = some d := by
  interval_cases d <;> decide

theorem parseDigits_append (s t : JString) (acc : Nat) :
    parseDigits acc (s ++ t) = (parseDigits acc s).bind (fun n => parseDigits n t) := by
  induction s generalizing acc with
  | nil => rfl
  | cons c s ih =>
    simp only [List.cons_append, parseDigits]
    cases digit c with
    | none => rfl
    | some d => exact ih (acc * 10 + d)

/-- Reading most-significant-first digits back gives the number they spell. -/
theorem parseDigits_reverse (ds : List Nat) (h : ∀ d ∈ ds, d < 10) :
    parseDigits 0 (ds.reverse.map digitChar) = some (Nat.ofDigits 10 ds) := by
  induction ds with
  | nil => rfl
  | cons d ds ih =>
    have hd : d < 10 := h d List.mem_cons_self
    rw [List.reverse_cons, List.map_append, parseDigits_append,
      ih (fun x hx => h x (List.mem_cons_of_mem d hx))]
    simp only [List.map_cons, List.map_nil, Option.bind_some, parseDigits, digit_digitChar hd,
      Nat.ofDigits_cons]
    congr 1
    omega

theorem natToString_ne_nil (n : Nat) : natToString n ≠ [] := by
  unfold natToString
  split
  · simp
  · next h => simp [Nat.digits_ne_nil_iff_ne_zero, h]

theorem parseNat_natToString (n : Nat) : parseNat (natToString n) = some n := by
  have hne := natToString_ne_nil n
  rw [parseNat, if_neg (by simpa [List.isEmpty_iff] using hne)]
  unfold natToString
  split
  · next h => subst h; decide
  · rw [parseDigits_reverse _ (fun d hd => Nat.digits_lt_base (by decide) hd), Nat.ofDigits_digits]

/-- A decimal numeral holds only ASCII digits. -/
theorem natToString_digits {n : Nat} {c : UInt16} (h : c ∈ natToString n) :
    ∃ d < 10, c = digitChar d := by
  unfold natToString at h
  split at h
  · exact ⟨0, by decide, by simpa using h⟩
  · obtain ⟨d, hd, rfl⟩ := List.mem_map.mp h
    exact ⟨d, Nat.digits_lt_base (by decide) (List.mem_reverse.mp hd), rfl⟩

theorem not_mem_natToString {n : Nat} {c : UInt16} (h : ∀ d < 10, c ≠ digitChar d) :
    c ∉ natToString n := by
  intro hc
  obtain ⟨d, hd, rfl⟩ := natToString_digits hc
  exact h d hd rfl

/-- A separator that is neither a digit nor the minus sign does not occur in a numeral. -/
theorem not_mem_intToString {i : Int32} {c : UInt16} (h : ∀ d < 10, c ≠ digitChar d)
    (hc : c ≠ ch '-') : c ∉ intToString i := by
  unfold intToString
  split
  · simp only [List.mem_cons, not_or]
    exact ⟨hc, not_mem_natToString h⟩
  · exact not_mem_natToString h

theorem parseInt_intToString (i : Int32) : parseInt (intToString i) = some i := by
  have hlo : -2^31 ≤ i.toInt := i.minValue_le_toInt
  have hhi : i.toInt < 2^31 := Int.lt_of_le_of_lt i.toInt_le (by decide)
  have hi : Int32.ofInt i.toInt = i := by simp
  unfold intToString
  split
  · next hneg =>
    have habs : -(i.toInt.natAbs : Int) = i.toInt := by omega
    simp only [parseInt, if_true, parseNat_natToString, Option.map_some, Option.bind_some, habs]
    rw [if_pos ⟨hlo, hhi⟩, hi]
  · next hneg =>
    have habs : (i.toInt.natAbs : Int) = i.toInt := by omega
    have hp := parseNat_natToString i.toInt.natAbs
    cases hs : natToString i.toInt.natAbs with
    | nil => exact absurd hs (natToString_ne_nil _)
    | cons c rest =>
      have hc : c ∈ natToString i.toInt.natAbs := by rw [hs]; simp
      obtain ⟨d, hd, rfl⟩ := natToString_digits hc
      have hm : digitChar d ≠ ch '-' ∧ digitChar d ≠ ch '+' := by interval_cases d <;> decide
      rw [hs] at hp
      simp only [parseInt, hm.1, hm.2, if_false, hp, Option.map_some, Option.bind_some, habs]
      rw [if_pos ⟨hlo, hhi⟩, hi]

theorem intToString_injective : Function.Injective intToString := by
  intro i j h
  have := congrArg parseInt h
  simpa only [parseInt_intToString, Option.some.injEq] using this

example : parseInt (u "-2147483648") = some (-2147483648) ∧ parseInt (u "2147483648") = none ∧
    parseInt (u "+7") = some 7 ∧ intToString (-40) = u "-40" := by decide

end Java
