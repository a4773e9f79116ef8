import TransparentCa.Lib.PrefixCode

/- Python text. A `str` is a list of code points, lone surrogates included, which
   `json.load` can put into one; `encode` is UTF-8 and fails on a surrogate. `join`,
   `strip` and `splitlines` are the methods of these names, and `sort` orders texts letter
   by letter. -/
namespace Python

/-- A code point. -/
abbrev CodePoint := Fin 0x110000

abbrev Str := List CodePoint

instance : LawfulBEq Str := inferInstance

def ch (c : Char) : CodePoint := Fin.ofNat 0x110000 c.toNat

/-- A literal. -/
def py (s : String) : Str := s.toList.map ch

/-- `sep.join(parts)`. -/
def join (sep : Str) (parts : List Str) : Str := List.intercalate sep parts

/-- `texts.sort()`. -/
def sort (texts : List Str) : List Str := texts.insertionSort (· ≤ ·)

theorem perm_sort (texts : List Str) : (sort texts).Perm texts := List.perm_insertionSort _ _

theorem sort_eq_sort_iff {s t : List Str} : sort s = sort t ↔ s.Perm t := by
  constructor
  · intro h
    exact (perm_sort s).symm.trans (h ▸ perm_sort t)
  · intro h
    exact ((perm_sort s).trans (h.trans (perm_sort t).symm)).eq_of_pairwise'
      (List.pairwise_insertionSort _ _) (List.pairwise_insertionSort _ _)

/-! ## UTF-8 -/

def isSurrogate (c : CodePoint) : Bool := 0xD800 ≤ c.val && c.val ≤ 0xDFFF

/-- The bytes of one code point. -/
def utf8 (c : CodePoint) : List UInt8 :=
  if c.val < 0x80 then [UInt8.ofNat c.val]
  else if c.val < 0x800 then [UInt8.ofNat (0xC0 + c.val / 64), UInt8.ofNat (0x80 + c.val % 64)]
  else if c.val < 0x10000 then
    [UInt8.ofNat (0xE0 + c.val / 4096), UInt8.ofNat (0x80 + c.val / 64 % 64),
      UInt8.ofNat (0x80 + c.val % 64)]
  else
    [UInt8.ofNat (0xF0 + c.val / 262144), UInt8.ofNat (0x80 + c.val / 4096 % 64),
      UInt8.ofNat (0x80 + c.val / 64 % 64), UInt8.ofNat (0x80 + c.val % 64)]

/-- `s.encode("utf-8")`, `none` for `UnicodeEncodeError`. -/
def encode (s : Str) : Option (List UInt8) :=
  if s.any isSurrogate then none else some (s.flatMap utf8)

theorem encode_eq_some {s : Str} {bytes : List UInt8} (h : encode s = some bytes) :
    bytes = s.flatMap utf8 := by
  unfold encode at h
  split at h
  · cases h
  · exact (Option.some.inj h).symm

/-- The code point that a word of these bytes spells. -/
def decodeWord : List UInt8 → Nat
  | [a] => a.toNat
  | [a, b] => (a.toNat - 0xC0) * 64 + (b.toNat - 0x80)
  | [a, b, c] => (a.toNat - 0xE0) * 4096 + (b.toNat - 0x80) * 64 + (c.toNat - 0x80)
  | [a, b, c, d] =>
    (a.toNat - 0xF0) * 262144 + (b.toNat - 0x80) * 4096 + (c.toNat - 0x80) * 64 + (d.toNat - 0x80)
  | _ => 0

/-- The number of bytes that the first byte of a word announces. -/
def announced (b : UInt8) : Nat :=
  if b.toNat < 0xC0 then 1 else if b.toNat < 0xE0 then 2 else if b.toNat < 0xF0 then 3 else 4

theorem toNat_ofNat {n : Nat} (h : n < 256) : (UInt8.ofNat n).toNat = n := by
  rw [UInt8.toNat_ofNat']
  exact Nat.mod_eq_of_lt h

theorem decodeWord_utf8 (c : CodePoint) : decodeWord (utf8 c) = c.val := by
  obtain ⟨n, hn⟩ := c
  unfold utf8
  dsimp only [Fin.val_mk]
  split_ifs with h₁ h₂ h₃
  · exact toNat_ofNat (by omega)
  · show ((UInt8.ofNat (0xC0 + n / 64)).toNat - 0xC0) * 64 +
      ((UInt8.ofNat (0x80 + n % 64)).toNat - 0x80) = n
    rw [toNat_ofNat (by omega), toNat_ofNat (by omega)]
    omega
  · show ((UInt8.ofNat (0xE0 + n / 4096)).toNat - 0xE0) * 4096 +
      ((UInt8.ofNat (0x80 + n / 64 % 64)).toNat - 0x80) * 64 +
      ((UInt8.ofNat (0x80 + n % 64)).toNat - 0x80) = n
    rw [toNat_ofNat (by omega), toNat_ofNat (by omega), toNat_ofNat (by omega)]
    omega
  · show ((UInt8.ofNat (0xF0 + n / 262144)).toNat - 0xF0) * 262144 +
      ((UInt8.ofNat (0x80 + n / 4096 % 64)).toNat - 0x80) * 4096 +
      ((UInt8.ofNat (0x80 + n / 64 % 64)).toNat - 0x80) * 64 +
      ((UInt8.ofNat (0x80 + n % 64)).toNat - 0x80) = n
    rw [toNat_ofNat (by omega), toNat_ofNat (by omega), toNat_ofNat (by omega),
      toNat_ofNat (by omega)]
    omega

theorem utf8_injective : Function.Injective utf8 := by
  intro a b h
  exact Fin.ext (by rw [← decodeWord_utf8 a, h, decodeWord_utf8])

/-- The first byte of a word announces its length. -/
theorem utf8_eq_cons (c : CodePoint) :
    ∃ first rest, utf8 c = first :: rest ∧ announced first = (utf8 c).length := by
  have hc := c.isLt
  unfold utf8
  split_ifs with h₁ h₂ h₃
  · refine ⟨_, _, rfl, ?_⟩
    rw [announced, toNat_ofNat (by omega), if_pos (by omega)]
    rfl
  · refine ⟨_, _, rfl, ?_⟩
    rw [announced, toNat_ofNat (by omega), if_neg (by omega), if_pos (by omega)]
    rfl
  · refine ⟨_, _, rfl, ?_⟩
    rw [announced, toNat_ofNat (by omega), if_neg (by omega), if_neg (by omega), if_pos (by omega)]
    rfl
  · refine ⟨_, _, rfl, ?_⟩
    rw [announced, toNat_ofNat (by omega), if_neg (by omega), if_neg (by omega), if_neg (by omega)]
    rfl

theorem prefixFree_utf8 : PrefixCode.PrefixFree utf8 where
  nonempty c := by
    obtain ⟨first, rest, h, -⟩ := utf8_eq_cons c
    rw [h]
    exact List.cons_ne_nil first rest
  eq_of_prefix a b hpre := by
    obtain ⟨first, rest, ha, hlena⟩ := utf8_eq_cons a
    obtain ⟨first', rest', hb, hlenb⟩ := utf8_eq_cons b
    have hfirst : first = first' := by
      rw [ha, hb] at hpre
      exact (List.cons_prefix_cons.mp hpre).1
    exact utf8_injective (hpre.eq_of_length (by rw [← hlena, ← hlenb, hfirst]))

/-! ## Lines -/

/-- `c.isspace()`. -/
def isSpace (c : CodePoint) : Bool :=
  (9 ≤ c.val && c.val ≤ 13) || (0x1C ≤ c.val && c.val ≤ 0x20) || (0x2000 ≤ c.val && c.val ≤ 0x200A) ||
    c.val ∈ [0x85, 0xA0, 0x1680, 0x2028, 0x2029, 0x202F, 0x205F, 0x3000]

/-- `s.strip()`. -/
def strip (s : Str) : Str := (s.dropWhile isSpace).rdropWhile isSpace

/-- Where `splitlines` ends a line. -/
def isLineBoundary (c : CodePoint) : Bool :=
  (10 ≤ c.val && c.val ≤ 13) || (0x1C ≤ c.val && c.val ≤ 0x1E) || c.val ∈ [0x85, 0x2028, 0x2029]

/-- The lines of the text behind `line`, the beginning of its first line. -/
def linesFrom (line : Str) : Str → List Str
  | [] => if line = [] then [] else [line]
  | [c] => if isLineBoundary c then [line] else [line ++ [c]]
  | c :: d :: rest =>
    if c = ch '\r' ∧ d = ch '\n' then line :: linesFrom [] rest
    else if isLineBoundary c then line :: linesFrom [] (d :: rest)
    else linesFrom (line ++ [c]) (d :: rest)

/-- `s.splitlines()`. -/
def splitlines (s : Str) : List Str := linesFrom [] s

theorem not_boundary_of_mem_linesFrom {line s l : Str} (hline : ∀ c ∈ line, isLineBoundary c = false)
    (hl : l ∈ linesFrom line s) : ∀ c ∈ l, isLineBoundary c = false := by
  fun_induction linesFrom line s with
  | case1 => cases hl
  | case2 line hnil =>
    rw [List.mem_singleton.mp hl]
    exact hline
  | case3 line c hc =>
    rw [List.mem_singleton.mp hl]
    exact hline
  | case4 line c hc =>
    rw [List.mem_singleton.mp hl]
    intro x hx
    rcases List.mem_append.mp hx with hx | hx
    · exact hline x hx
    · rw [List.mem_singleton.mp hx]
      exact Bool.eq_false_iff.mpr hc
  | case5 line c d rest hcd ih =>
    rcases List.mem_cons.mp hl with rfl | hl
    · exact hline
    · exact ih (fun x hx => absurd hx List.not_mem_nil) hl
  | case6 line c d rest hcd hc ih =>
    rcases List.mem_cons.mp hl with rfl | hl
    · exact hline
    · exact ih (fun x hx => absurd hx List.not_mem_nil) hl
  | case7 line c d rest hcd hc ih =>
    refine ih (fun x hx => ?_) hl
    rcases List.mem_append.mp hx with hx | hx
    · exact hline x hx
    · rw [List.mem_singleton.mp hx]
      exact Bool.eq_false_iff.mpr hc

/-- A line does not go over a line boundary. -/
theorem not_boundary_of_mem_splitlines {s l : Str} (hl : l ∈ splitlines s) :
    ∀ c ∈ l, isLineBoundary c = false :=
  not_boundary_of_mem_linesFrom (fun _ hx => absurd hx List.not_mem_nil) hl

end Python
