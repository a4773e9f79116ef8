import Mathlib

/- Numbers as bytes, most significant byte first. -/
namespace BigEndian

/-- The last `w` bytes of `n`. -/
def be : Nat → Nat → List UInt8
  | 0, _ => []
  | w + 1, n => be w (n / 256) ++ [UInt8.ofNat n]

def ofBe (l : List UInt8) : Nat := l.foldl (fun n b => n * 256 + b.toNat) 0

@[simp] theorem length_be (w n : Nat) : (be w n).length = w := by
  induction w generalizing n with
  | zero => rfl
  | succ w ih => simp [be, ih]

theorem ofBe_append_singleton (l : List UInt8) (b : UInt8) :
    ofBe (l ++ [b]) = ofBe l * 256 + b.toNat := by
  simp [ofBe]

theorem ofBe_be {w n : Nat} (h : n < 256^w) : ofBe (be w n) = n := by
  induction w generalizing n with
  | zero =>
    rw [Nat.pow_zero] at h
    show 0 = n
    omega
  | succ w ih =>
    have hdiv : n / 256 < 256^w := by
      rw [Nat.pow_succ] at h
      exact Nat.div_lt_of_lt_mul (by omega)
    rw [be, ofBe_append_singleton, ih hdiv, UInt8.toNat_ofNat']
    show n / 256 * 256 + n % 256 = n
    omega

theorem be_injective {w n m : Nat} (hn : n < 256^w) (hm : m < 256^w) (h : be w n = be w m) :
    n = m := by
  rw [← ofBe_be hn, h, ofBe_be hm]

theorem be_ofBe (l : List UInt8) : be l.length (ofBe l) = l := by
  induction l using List.reverseRecOn with
  | nil => rfl
  | append_singleton l b ih =>
    have hb := b.toNat_lt
    have hdiv : (ofBe l * 256 + b.toNat) / 256 = ofBe l := by omega
    have hlast : UInt8.ofNat (ofBe l * 256 + b.toNat) = b := by
      apply UInt8.toNat_inj.mp
      rw [UInt8.toNat_ofNat']
      omega
    rw [List.length_append, List.length_singleton, ofBe_append_singleton, be, hdiv, hlast, ih]

theorem ofBe_injective {l m : List UInt8} (hlen : l.length = m.length) (h : ofBe l = ofBe m) :
    l = m := by
  rw [← be_ofBe l, hlen, h, be_ofBe]

/-! ## Least significant byte first -/

def le (w n : Nat) : List UInt8 := (be w n).reverse

def ofLe (l : List UInt8) : Nat := ofBe l.reverse

theorem le_ofLe (l : List UInt8) : le l.length (ofLe l) = l := by
  unfold le ofLe
  rw [← List.length_reverse, be_ofBe, List.reverse_reverse]

theorem ofLe_injective {l m : List UInt8} (hlen : l.length = m.length) (h : ofLe l = ofLe m) :
    l = m := by
  rw [← le_ofLe l, hlen, h, le_ofLe]

end BigEndian
