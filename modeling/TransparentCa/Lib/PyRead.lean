import TransparentCa.Lib.Numeral
import TransparentCa.Lib.PyText

/- Reading text in Python: `replace` with nothing in place of a literal, `int` and `str` for
   decimal numbers, and the lines of a file that was opened as text. -/
namespace Python
open Numeral

/-! ## replace -/

/-- What is left behind `skip` letters. -/
def removeFrom (old : Str) (skip : Nat) : Str → Str
  | [] => []
  | c :: s =>
    if 0 < skip then removeFrom old (skip - 1) s
    else if old.isPrefixOf (c :: s) then removeFrom old (old.length - 1) s
    else c :: removeFrom old 0 s

/-- `s.replace(old, "")` for an `old` that is not empty. -/
def remove (old s : Str) : Str := removeFrom old 0 s

theorem removeFrom_skip (old a s : Str) : removeFrom old a.length (a ++ s) = remove old s := by
  induction a with
  | nil => rfl
  | cons c a ih =>
    rw [List.cons_append, removeFrom, if_pos (by simp), List.length_cons, Nat.add_sub_cancel]
    exact ih

theorem remove_append {old : Str} (h : old ≠ []) (s : Str) : remove old (old ++ s) = remove old s := by
  obtain ⟨c, a, rfl⟩ := List.exists_cons_of_ne_nil h
  have hprefix : (c :: a).isPrefixOf (c :: (a ++ s)) = true :=
    List.isPrefixOf_iff_prefix.mpr (List.prefix_append (c :: a) s)
  rw [remove, List.cons_append, removeFrom, if_neg (by simp), if_pos hprefix, List.length_cons,
    Nat.add_sub_cancel, removeFrom_skip]

theorem remove_eq_self {old s : Str} {c : CodePoint} (hold : c ∈ old.head?) (hs : c ∉ s) :
    remove old s = s := by
  induction s with
  | nil => rfl
  | cons d s ih =>
    have hno : old.isPrefixOf (d :: s) = false := by
      cases old with
      | nil => cases hold
      | cons c' old =>
        obtain rfl : c' = c := Option.some.inj hold
        have hne : c' ≠ d := fun heq => hs (by rw [heq]; exact List.mem_cons_self)
        rw [List.isPrefixOf_cons_cons, beq_false_of_ne hne, Bool.false_and]
    rw [remove, removeFrom, if_neg (by simp), if_neg (by simp [hno])]
    exact congrArg (d :: ·) (ih (fun hmem => hs (List.mem_cons_of_mem d hmem)))

/-! ## join -/

/-- Parts put together with a separator that they do not hold the beginning of. -/
theorem join_inj {sep : CodePoint} {m : Str} {l l' : List Str} (hl : ∀ a ∈ l, sep ∉ a)
    (hl' : ∀ a ∈ l', sep ∉ a) (hne : l ≠ []) (hne' : l' ≠ [])
    (h : join (sep :: m) l = join (sep :: m) l') : l = l' := by
  have hcons : ∀ (a b : Str) (t : List Str), join (sep :: m) (a :: b :: t) =
      a ++ sep :: (m ++ join (sep :: m) (b :: t)) := by
    intro a b t
    simp [join, List.intercalate, List.intersperse]
  have hone : ∀ a : Str, join (sep :: m) [a] = a := fun a => by
    simp [join, List.intercalate, List.intersperse]
  induction l generalizing l' with
  | nil => exact absurd rfl hne
  | cons a l ih =>
    obtain ⟨b, t, rfl⟩ := List.exists_cons_of_ne_nil hne'
    have ha := hl a List.mem_cons_self
    have hb := hl' b List.mem_cons_self
    cases l with
    | nil =>
      cases t with
      | nil =>
        rw [hone, hone] at h
        rw [h]
      | cons b' t =>
        rw [hone, hcons] at h
        exact absurd (h ▸ List.mem_append_right b List.mem_cons_self) ha
    | cons a' l =>
      cases t with
      | nil =>
        rw [hone, hcons] at h
        exact absurd (h ▸ List.mem_append_right a List.mem_cons_self) hb
      | cons b' t =>
        rw [hcons, hcons] at h
        obtain ⟨rfl, hrest⟩ := PrefixCode.sep_inj_left ha hb h
        rw [ih (fun x hx => hl x (List.mem_cons_of_mem a hx))
          (fun x hx => hl' x (List.mem_cons_of_mem a hx)) (List.cons_ne_nil a' l)
          (List.cons_ne_nil b' t) (List.append_cancel_left hrest)]

/-! ## strip -/

/-- `s.rstrip()`. -/
def rstrip (s : Str) : Str := s.rdropWhile isSpace

theorem rstrip_append {a : Str} (hne : a ≠ []) (hlast : ∀ c ∈ a.getLast?, isSpace c = false)
    (b : Str) : rstrip (a ++ b) = a ++ rstrip b := by
  have hright : a.reverse.dropWhile isSpace = a.reverse := by
    obtain ⟨a, c, rfl⟩ := List.eq_nil_or_concat a |>.resolve_left hne
    rw [List.concat_eq_append, List.reverse_append, List.reverse_singleton]
    exact List.dropWhile_cons_of_neg (by simp [hlast c (by simp)])
  rw [rstrip, List.rdropWhile, List.reverse_append, List.dropWhile_append, hright]
  split_ifs with hall
  · rw [List.reverse_reverse, rstrip, List.rdropWhile, List.isEmpty_iff.mp hall, List.reverse_nil,
      List.append_nil]
  · rw [List.reverse_append, List.reverse_reverse]
    rfl

theorem strip_append {a : Str} (hne : a ≠ []) (hfirst : ∀ c ∈ a.head?, isSpace c = false)
    (hlast : ∀ c ∈ a.getLast?, isSpace c = false) (b : Str) : strip (a ++ b) = a ++ rstrip b := by
  have hleft : (a ++ b).dropWhile isSpace = a ++ b := by
    obtain ⟨c, a, rfl⟩ := List.exists_cons_of_ne_nil hne
    exact List.dropWhile_cons_of_neg (by simp [hfirst c rfl])
  rw [strip, hleft]
  exact rstrip_append hne hlast b

/-! ## Decimal numbers -/

/-- The zeros of the decimal digit ranges. -/
def digitZeros : List Nat :=
  [0x0030, 0x0660, 0x06F0, 0x07C0, 0x0966, 0x09E6, 0x0A66, 0x0AE6, 0x0B66, 0x0BE6, 0x0C66,
   0x0CE6, 0x0D66, 0x0DE6, 0x0E50, 0x0ED0, 0x0F20, 0x1040, 0x1090, 0x17E0, 0x1810, 0x1946,
   0x19D0, 0x1A80, 0x1A90, 0x1B50, 0x1BB0, 0x1C40, 0x1C50, 0xA620, 0xA8D0, 0xA900, 0xA9D0,
   0xA9F0, 0xAA50, 0xABF0, 0xFF10, 0x104A0, 0x10D30, 0x11066, 0x110F0, 0x11136, 0x111D0,
   0x112F0, 0x11450, 0x114D0, 0x11650, 0x116C0, 0x11730, 0x118E0, 0x11950, 0x11C50, 0x11D50,
   0x11DA0, 0x11F50, 0x16A60, 0x16AC0, 0x16B50, 0x1D7CE, 0x1D7D8, 0x1D7E2, 0x1D7EC, 0x1D7F6,
   0x1E140, 0x1E2F0, 0x1E4F0, 0x1E950, 0x1FBF0]

/-- `unicodedata.decimal(c)`, `none` where there is no value. -/
def decimal (c : CodePoint) : Option Nat :=
  digitZeros.findSome? (fun z => if z ≤ c.val ∧ c.val < z + 10 then some (c.val - z) else none)

/-- The digits of a numeral, in which single underscores may stand between digits. -/
def digits : Str → Option (List Nat)
  | [] => none
  | [c] => (decimal c).map (fun d => [d])
  | c :: c' :: s =>
    (decimal c).bind (fun d =>
      (if c' = ch '_' then digits s else digits (c' :: s)).map (fun ds => d :: ds))

/-- What `int` raises a `ValueError` about. -/
inductive IntError where
  | invalidLiteral
  | exceedsLimit (digits : Nat)
  deriving DecidableEq

/-- `sys.get_int_max_str_digits()`. -/
def maxStrDigits : Nat := 4300

/-- A number without a sign. That its digits are too many is noticed before what stands
behind them. -/
def number (s : Str) : Except IntError Nat :=
  let run := s.takeWhile (fun c => (decimal c).isSome || c == ch '_')
  match digits run with
  | none => .error .invalidLiteral
  | some ds =>
    if maxStrDigits < ds.length then .error (.exceedsLimit ds.length)
    else if run = s then .ok (value ds)
    else .error .invalidLiteral

/-- `int(s)`. -/
def int (s : Str) : Except IntError Int :=
  match strip s with
  | [] => .error .invalidLiteral
  | c :: t =>
    if c = ch '-' then (number t).map (fun n => -(n : Int))
    else if c = ch '+' then (number t).map (fun n => (n : Int))
    else (number (c :: t)).map (fun n => (n : Int))

def digitChar (d : Nat) : CodePoint := ch (Char.ofNat (0x30 + d))

/-- `str(n)` for a number that is not negative, of as many digits as `int` reads. -/
def strNat (n : Nat) : Str := (numeral n).map digitChar

/-- `str(i)`. -/
def str (i : Int) : Str := if i < 0 then ch '-' :: strNat i.natAbs else strNat i.natAbs

theorem str_natCast (n : Nat) : str n = strNat n := by
  rw [str, if_neg (by omega), Int.natAbs_natCast]

theorem val_digitChar {d : Nat} (h : d < 10) : (digitChar d).val = 0x30 + d := by
  interval_cases d <;> rfl

theorem digitChar_of_mem {n : Nat} {c : CodePoint} (h : c ∈ strNat n) :
    0x30 ≤ c.val ∧ c.val < 0x3a := by
  obtain ⟨d, hd, rfl⟩ := List.mem_map.mp h
  rw [val_digitChar (lt_of_mem_numeral hd)]
  have := lt_of_mem_numeral hd
  omega

theorem strNat_ne_nil (n : Nat) : strNat n ≠ [] := by
  simpa [strNat] using numeral_ne_nil n

/-- A character that is no digit is not in a numeral. -/
theorem notMem_strNat {c : CodePoint} (hc : c.val < 0x30 ∨ 0x3a ≤ c.val) (n : Nat) :
    c ∉ strNat n := by
  intro h
  have := digitChar_of_mem h
  omega

theorem decimal_digitChar {d : Nat} (h : d < 10) : decimal (digitChar d) = some d := by
  have hval := val_digitChar h
  rw [decimal, digitZeros, List.findSome?_cons_of_isSome]
  · rw [hval, if_pos (by omega)]
    congr 1
    omega
  · rw [hval, if_pos (by omega)]
    rfl

theorem digits_map_digitChar {ds : List Nat} (hne : ds ≠ []) (hds : ∀ d ∈ ds, d < 10) :
    digits (ds.map digitChar) = some ds := by
  induction ds with
  | nil => exact absurd rfl hne
  | cons d ds ih =>
    have hd := decimal_digitChar (hds d List.mem_cons_self)
    cases ds with
    | nil => simp [digits, hd]
    | cons d' ds =>
      have hd' : d' < 10 := hds d' (by simp)
      have hno : digitChar d' ≠ ch '_' := by
        intro heq
        have hval := congrArg Fin.val heq
        rw [val_digitChar hd', show (ch '_').val = 95 from rfl] at hval
        omega
      have htail := ih (List.cons_ne_nil d' ds) (fun x hx => hds x (List.mem_cons_of_mem d hx))
      rw [List.map_cons] at htail
      simp [digits, hd, hno, htail]

theorem not_isSpace_digit {c : CodePoint} (h : 0x30 ≤ c.val ∧ c.val < 0x3a) : isSpace c = false := by
  obtain ⟨n, hn⟩ := c
  obtain ⟨hlo, hhi⟩ : 48 ≤ n ∧ n < 58 := h
  interval_cases n <;> rfl

theorem digits_strNat (n : Nat) : digits (strNat n) = some (numeral n) :=
  digits_map_digitChar (numeral_ne_nil n) (fun _ hd => lt_of_mem_numeral hd)

theorem strNat_injective : Function.Injective strNat := by
  intro m n h
  have hdigits : digits (strNat m) = digits (strNat n) := congrArg digits h
  rw [digits_strNat, digits_strNat] at hdigits
  rw [← value_numeral m, Option.some.inj hdigits, value_numeral]

/-- A number that `int` reads back. -/
def WithinLimit (n : Nat) : Prop := n < 10 ^ maxStrDigits

instance (n : Nat) : Decidable (WithinLimit n) := inferInstanceAs (Decidable (n < _))

theorem number_strNat_eq_ok {n m : Nat} :
    number (strNat n) = .ok m ↔ WithinLimit n ∧ m = n := by
  have hrun : (strNat n).takeWhile (fun c => (decimal c).isSome || c == ch '_') = strNat n := by
    refine List.takeWhile_eq_self_iff.mpr (fun c hc => ?_)
    obtain ⟨d, hd, rfl⟩ := List.mem_map.mp hc
    rw [decimal_digitChar (lt_of_mem_numeral hd)]
    rfl
  have hlimit : WithinLimit n ↔ ¬maxStrDigits < (numeral n).length := by
    rw [WithinLimit, ← length_numeral_le_iff (by decide), Nat.not_lt]
  simp only [number, hrun, digits_strNat, hlimit, if_true, value_numeral]
  split_ifs with hlong
  · exact iff_of_false (fun h => nomatch h) (fun h => h.1 hlong)
  · rw [Except.ok.injEq]
    exact ⟨fun h => ⟨hlong, h.symm⟩, fun h => h.2.symm⟩

theorem int_strNat_eq_ok {n : Nat} {i : Int} :
    int (strNat n) = .ok i ↔ WithinLimit n ∧ i = n := by
  have hstrip : strip (strNat n) = strNat n := by
    have happend := strip_append (strNat_ne_nil n)
      (fun c hc => not_isSpace_digit (digitChar_of_mem (List.mem_of_mem_head? hc)))
      (fun c hc => not_isSpace_digit (digitChar_of_mem (List.mem_of_mem_getLast? hc))) []
    simpa [rstrip] using happend
  obtain ⟨c, t, hcons⟩ := List.exists_cons_of_ne_nil (strNat_ne_nil n)
  have hc : 0x30 ≤ c.val ∧ c.val < 0x3a := digitChar_of_mem (hcons ▸ List.mem_cons_self)
  have hminus : c ≠ ch '-' := fun heq => by
    rw [heq, show (ch '-').val = 45 from rfl] at hc
    omega
  have hplus : c ≠ ch '+' := fun heq => by
    rw [heq, show (ch '+').val = 43 from rfl] at hc
    omega
  have hint : int (strNat n) = (number (strNat n)).map (fun m => (m : Int)) := by
    rw [int, hstrip, hcons]
    dsimp only
    rw [if_neg hminus, if_neg hplus]
  rw [hint]
  constructor
  · intro h
    cases hnumber : number (strNat n) with
    | error e =>
      rw [hnumber] at h
      cases h
    | ok m =>
      rw [hnumber] at h
      obtain ⟨hwithin, rfl⟩ := number_strNat_eq_ok.mp hnumber
      exact ⟨hwithin, (Except.ok.inj h).symm⟩
  · rintro ⟨hwithin, rfl⟩
    rw [number_strNat_eq_ok.mpr ⟨hwithin, rfl⟩]
    rfl

/-! ## Division -/

/-- Half a step beyond the largest float, `(2 ^ 53 - 1) * 2 ^ 971`: from here on a quotient is
rounded to what is no float. -/
def floatLimit : Nat := (2 ^ 54 - 1) * 2 ^ 970

/-- `a / b` of integers raises `OverflowError`, for a `b` that is not 0. -/
def QuotientOverflows (a b : Int) : Prop := floatLimit * b.natAbs ≤ a.natAbs

instance (a b : Int) : Decidable (QuotientOverflows a b) :=
  inferInstanceAs (Decidable (floatLimit * _ ≤ _))

/-! ## The lines of a file -/

/-- The end of a line is `\n`, `\r` or `\r\n` in the file and `\n` in the text. -/
def translateNewlines : Str → Str
  | [] => []
  | [c] => if c = ch '\r' then [ch '\n'] else [c]
  | c :: d :: s =>
    if c = ch '\r' then
      ch '\n' :: (if d = ch '\n' then translateNewlines s else translateNewlines (d :: s))
    else c :: translateNewlines (d :: s)

/-- The lines that a loop over the file gets, without their ends. -/
def fileLines (text : Str) : List Str :=
  let lines := (translateNewlines text).splitOn (ch '\n')
  if lines.getLast? = some [] then lines.dropLast else lines

/-- A text without the end of a line. -/
def OneLine (s : Str) : Prop := ch '\n' ∉ s ∧ ch '\r' ∉ s

instance (s : Str) : Decidable (OneLine s) := inferInstanceAs (Decidable (_ ∧ _))

theorem OneLine.append {s t : Str} (hs : OneLine s) (ht : OneLine t) : OneLine (s ++ t) := by
  simp only [OneLine, List.mem_append, not_or]
  exact ⟨⟨hs.1, ht.1⟩, hs.2, ht.2⟩

theorem oneLine_strNat (n : Nat) : OneLine (strNat n) :=
  ⟨notMem_strNat (.inl (by decide)) n, notMem_strNat (.inl (by decide)) n⟩

theorem translateNewlines_eq_self {s : Str} (h : ch '\r' ∉ s) : translateNewlines s = s := by
  fun_induction translateNewlines s with
  | case1 => rfl
  | case2 => exact absurd List.mem_cons_self h
  | case3 => rfl
  | case4 => exact absurd List.mem_cons_self h
  | case5 c d s hc ih => exact congrArg (c :: ·) (ih (fun hs => h (List.mem_cons_of_mem c hs)))

/-- Lines that were written one after the other are read as they are. -/
theorem fileLines_flatMap {lines : List Str} (h : ∀ line ∈ lines, OneLine line) :
    fileLines (lines.flatMap (fun line => line ++ [ch '\n'])) = lines := by
  have hno : ch '\r' ∉ lines.flatMap (fun line => line ++ [ch '\n']) := by
    intro hmem
    obtain ⟨line, hline, hc⟩ := List.mem_flatMap.mp hmem
    rcases List.mem_append.mp hc with hc | hc
    · exact (h line hline).2 hc
    · exact absurd (List.mem_singleton.mp hc) (by decide)
  have hsplit : ∀ lines : List Str, (∀ line ∈ lines, OneLine line) →
      (lines.flatMap (fun line => line ++ [ch '\n'])).splitOn (ch '\n') = lines ++ [[]] := by
    intro lines h
    induction lines with
    | nil => rfl
    | cons line lines ih =>
      rw [List.flatMap_cons, List.append_assoc, List.singleton_append,
        List.splitOn_append_cons_self_of_not_mem (h line List.mem_cons_self).1,
        ih (fun l hl => h l (List.mem_cons_of_mem line hl)), List.cons_append]
  rw [fileLines, translateNewlines_eq_self hno, hsplit lines h]
  simp

end Python
