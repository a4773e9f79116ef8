import TransparentCa.Lib.JavaText

/- The basic Base64 coding of `java.util.Base64`. The encoder pads; the decoder also takes
   a last unit without its padding and does not look at the bits the padding stands for,
   so several texts decode to the same bytes and only one of them is what the encoder
   writes. -/
namespace Java.Base64

def alphabet : JString := u "ABCDEFGHIJKLMNOPQRSTUVWXYZabcdefghijklmnopqrstuvwxyz0123456789+/"

/-- The character of six bits. -/
def digit (n : Nat) : UInt16 := alphabet.getD n 0

def value (c : UInt16) : Option Nat := alphabet.idxOf? c

def pad : UInt16 := ch '='

def encode : List UInt8 → JString
  | a :: b :: c :: rest =>
    let n := a.toNat * 65536 + b.toNat * 256 + c.toNat
    digit (n / 262144) :: digit (n / 4096 % 64) :: digit (n / 64 % 64) :: digit (n % 64) ::
      encode rest
  | [a, b] =>
    let n := a.toNat * 65536 + b.toNat * 256
    [digit (n / 262144), digit (n / 4096 % 64), digit (n / 64 % 64), pad]
  | [a] =>
    let n := a.toNat * 65536
    [digit (n / 262144), digit (n / 4096 % 64), pad, pad]
  | [] => []

/-- `none` where the decoder throws. -/
def decode : JString → Option (List UInt8)
  | [] => some []
  | [_] => none
  | [w, x] =>
    match value w, value x with
    | some w, some x => some [UInt8.ofNat ((w * 262144 + x * 4096) / 65536)]
    | _, _ => none
  | [w, x, y] =>
    match value w, value x, value y with
    | some w, some x, some y =>
      let n := w * 262144 + x * 4096 + y * 64
      some [UInt8.ofNat (n / 65536), UInt8.ofNat (n / 256)]
    | _, _, _ => none
  | w :: x :: y :: z :: rest =>
    match value w, value x with
    | some w, some x =>
      match value y, value z with
      | some y, some z =>
        let n := w * 262144 + x * 4096 + y * 64 + z
        (decode rest).map (fun l =>
          UInt8.ofNat (n / 65536) :: UInt8.ofNat (n / 256) :: UInt8.ofNat n :: l)
      -- Padding ends the text, and `xx=` needs its second pad.
      | some y, none =>
        let n := w * 262144 + x * 4096 + y * 64
        if z = pad ∧ rest = [] then some [UInt8.ofNat (n / 65536), UInt8.ofNat (n / 256)] else none
      | none, _ =>
        if y = pad ∧ z = pad ∧ rest = [] then
          some [UInt8.ofNat ((w * 262144 + x * 4096) / 65536)]
        else none
    | _, _ => none

theorem value_digit {n : Nat} (h : n < 64) : value (digit n) = some n := by
  have hall : ∀ n < 64, value (digit n) = some n := by decide +kernel
  exact hall n h

theorem value_pad : value pad = none := by decide +kernel

/-! A unit, whole or padded, decodes to the bytes it was made from. -/

theorem ofNat_eq {n : Nat} {b : UInt8} (h : n % 256 = b.toNat) : UInt8.ofNat n = b := by
  rw [← UInt8.toNat_inj, UInt8.toNat_ofNat']
  exact h

theorem decode_unit {w x y z : Nat} (hw : w < 64) (hx : x < 64) (hy : y < 64) (hz : z < 64)
    (rest : JString) :
    decode (digit w :: digit x :: digit y :: digit z :: rest) =
      (decode rest).map (fun l => UInt8.ofNat ((w * 262144 + x * 4096 + y * 64 + z) / 65536) ::
        UInt8.ofNat ((w * 262144 + x * 4096 + y * 64 + z) / 256) ::
        UInt8.ofNat (w * 262144 + x * 4096 + y * 64 + z) :: l) := by
  simp only [decode, value_digit hw, value_digit hx, value_digit hy, value_digit hz]

theorem decode_unit_padded {w x y : Nat} (hw : w < 64) (hx : x < 64) (hy : y < 64) :
    decode [digit w, digit x, digit y, pad] =
      some [UInt8.ofNat ((w * 262144 + x * 4096 + y * 64) / 65536),
        UInt8.ofNat ((w * 262144 + x * 4096 + y * 64) / 256)] := by
  simp only [decode, value_digit hw, value_digit hx, value_digit hy, value_pad, and_self, if_true]

theorem decode_unit_padded_twice {w x : Nat} (hw : w < 64) (hx : x < 64) :
    decode [digit w, digit x, pad, pad] =
      some [UInt8.ofNat ((w * 262144 + x * 4096) / 65536)] := by
  simp only [decode, value_digit hw, value_digit hx, value_pad, and_self, if_true]

theorem decode_encode (l : List UInt8) : decode (encode l) = some l := by
  induction l using encode.induct with
  | case1 a b c rest ih =>
    have ha : a.toNat < 256 := a.toNat_lt
    have hb : b.toNat < 256 := b.toNat_lt
    have hc : c.toNat < 256 := c.toNat_lt
    simp only [encode]
    rw [decode_unit (by omega) (by omega) (by omega) (by omega), ih, Option.map_some,
      ofNat_eq (b := a) (by omega), ofNat_eq (b := b) (by omega), ofNat_eq (b := c) (by omega)]
  | case2 a b =>
    have ha : a.toNat < 256 := a.toNat_lt
    have hb : b.toNat < 256 := b.toNat_lt
    simp only [encode]
    rw [decode_unit_padded (by omega) (by omega) (by omega), ofNat_eq (b := a) (by omega),
      ofNat_eq (b := b) (by omega)]
  | case3 a =>
    have ha : a.toNat < 256 := a.toNat_lt
    simp only [encode]
    rw [decode_unit_padded_twice (by omega) (by omega), ofNat_eq (b := a) (by omega)]
  | case4 => rfl

end Java.Base64
