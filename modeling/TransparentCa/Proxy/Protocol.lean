import TransparentCa.Lib.BigEndian

/- Socket addresses and how SOCKS5 messages carry them: ATYP, the address and the port, all
   in network byte order. -/
namespace Proxy
open BigEndian

/-- The fields of a `sockaddr` that the proxy reads and writes. -/
inductive SockAddr where
  | inet (sin_addr : List.Vector UInt8 4) (sin_port : List.Vector UInt8 2)
  | inet6 (sin6_addr : List.Vector UInt8 16) (sin6_port : List.Vector UInt8 2)
  | other (sa_family : UInt16)
  deriving DecidableEq

/-- IPv4 or IPv6. -/
def SockAddr.IsInet : SockAddr → Prop
  | .inet _ _ => True
  | .inet6 _ _ => True
  | .other _ => False

instance : DecidablePred SockAddr.IsInet := fun a =>
  match a with
  | .inet _ _ => .isTrue trivial
  | .inet6 _ _ => .isTrue trivial
  | .other _ => .isFalse id

def kATYP_v4 : UInt8 := 0x01

def kATYP_v6 : UInt8 := 0x04

/-- `FillAddrPort`: the bytes written to `msg`; it returns their number. -/
def fillAddrPort : SockAddr → List UInt8
  | .inet addr port => [kATYP_v4] ++ addr.toList ++ port.toList
  | .inet6 addr port => [kATYP_v6] ++ addr.toList ++ port.toList
  | .other _ => []

theorem length_fillAddrPort (a : SockAddr) :
    (fillAddrPort a).length =
      match a with
      | .inet _ _ => 7
      | .inet6 _ _ => 19
      | .other _ => 0 := by
  cases a <;> simp [fillAddrPort]

def htons (port : UInt16) : List UInt8 := be 2 port.toNat

def ntohs (bytes : List UInt8) : UInt16 := UInt16.ofNat (ofBe bytes)

@[simp] theorem length_htons (port : UInt16) : (htons port).length = 2 := length_be 2 _

theorem ntohs_htons (port : UInt16) : ntohs (htons port) = port := by
  have hport : port.toNat < 256^2 := port.toNat_lt
  rw [ntohs, htons, ofBe_be hport]
  exact UInt16.ofNat_toNat

/-- A zeroed field of `n` bytes with `bytes` copied to its front. -/
def copyTo (n : Nat) (bytes : List UInt8) : List.Vector UInt8 n :=
  ⟨bytes.take n ++ List.replicate (n - bytes.length) 0, by simp; omega⟩

theorem toList_copyTo {n : Nat} {bytes : List UInt8} (h : bytes.length = n) :
    (copyTo n bytes).toList = bytes := by
  show bytes.take n ++ List.replicate (n - bytes.length) 0 = bytes
  rw [h, Nat.sub_self, List.replicate_zero, List.append_nil, List.take_of_length_le (Nat.le_of_eq h)]

@[simp] theorem copyTo_toList {n : Nat} (v : List.Vector UInt8 n) : copyTo n v.toList = v :=
  List.Vector.eq _ _ (toList_copyTo v.toList_length)

end Proxy
