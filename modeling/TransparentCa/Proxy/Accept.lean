import TransparentCa.Proxy.Preload

/- `accept4` and `accept` of the preload library. On a connection to the socket vendor they
   receive a descriptor and a `NewConnectionResponse` with the peer's address, on a little-endian
   machine. A caller that has room for an IPv4 address only is to get the IPv4 address embedded
   in it (`embedded`); which calls do what they should is `accept_proper_iff`. -/
namespace Proxy.Preload
open BigEndian

def SOCK_CLOEXEC : Flags := 0x80000#32

def SOCK_NONBLOCK : Flags := 0x800#32

def AF_INET : Nat := 2

def AF_INET6 : Nat := 10

/-! ## Addresses in memory -/

/-- A `sockaddr_in`, with `sin_zero` zeroed. -/
def sockaddrIn (sin_addr sin_port : List UInt8) : List UInt8 :=
  le 2 AF_INET ++ sin_port ++ sin_addr ++ List.replicate 8 0

/-- `sizeof(sockaddr_in)`. -/
def sizeofIn : Nat := 16

/-- The fields of a `sockaddr_in6` that `accept4` does not set, with what the stack holds there. -/
structure Unset where
  sin6_flowinfo : List.Vector UInt8 4
  sin6_scope_id : List.Vector UInt8 4

def sockaddrIn6 (unset : Unset) (sin6_addr sin6_port : List UInt8) : List UInt8 :=
  le 2 AF_INET6 ++ sin6_port ++ unset.sin6_flowinfo.toList ++ sin6_addr ++
    unset.sin6_scope_id.toList

/-- `sizeof(sockaddr_in6)`. -/
def sizeofIn6 : Nat := 28

/-- A `NewConnectionResponse` in memory: the type, `addr`, `port` and two bytes of padding. -/
abbrev NewConnectionResponse := List.Vector UInt8 24

namespace NewConnectionResponse

def addr (resp : NewConnectionResponse) : List UInt8 := (resp.toList.drop 4).take 16

def port (resp : NewConnectionResponse) : List UInt8 := (resp.toList.drop 20).take 2

theorem length_addr (resp : NewConnectionResponse) : (addr resp).length = 16 := by
  unfold addr
  rw [List.length_take, List.length_drop, resp.toList_length]
  rfl

theorem length_port (resp : NewConnectionResponse) : (port resp).length = 2 := by
  unfold port
  rw [List.length_take, List.length_drop, resp.toList_length]
  rfl

end NewConnectionResponse

/-- The response that the pool makes of a second reply with an IPv6 address carries this address
and its port. -/
theorem NewConnectionResponse.of_reply {resp : NewConnectionResponse} {rest : List UInt8}
    {addr : List.Vector UInt8 16} {port : List.Vector UInt8 2}
    (h : resp.toList = ClientSessionPool.newConnectionResponse
      ([0x05, 0x00, 0x00] ++ fillAddrPort (.inet6 addr port) ++ rest)) :
    resp.addr = addr.toList ∧ resp.port = port.toList := by
  have haddr : addr.toList.length = 16 := addr.toList_length
  have hport : port.toList.length = 2 := port.toList_length
  have hmessage : resp.toList = [0x04, 0x00, 0x00, 0x00] ++ (addr.toList ++ (port.toList ++ rest)) := by
    rw [h]
    simp [ClientSessionPool.newConnectionResponse, fillAddrPort, haddr, hport, List.drop_append]
  unfold NewConnectionResponse.addr NewConnectionResponse.port
  rw [hmessage]
  constructor
  · exact List.take_left' haddr
  · have hfront : ([0x04, 0x00, 0x00, 0x00] ++ addr.toList : List UInt8).length = 20 := by
      rw [List.length_append, haddr]
      rfl
    rw [← List.append_assoc, List.drop_left' hfront, List.take_left' hport]

/-- `ntohl`: the bytes of the word, in network byte order. -/
def ntohl (word : Nat) : Nat := ofBe (le 4 word)

/-- `uint_addr[i]`, for the 16 bytes of `addr`. -/
def uintAddr (addr : List UInt8) (i : Nat) : Nat := ofLe ((addr.drop (4 * i)).take 4)

/-- `sin_addr` of the zeroed `v4addr`, after the address was converted where it can be. -/
def toV4 (addr : List UInt8) : List UInt8 :=
  if uintAddr addr 0 = 0 ∧ uintAddr addr 1 = 0 ∧ uintAddr addr 2 = 0 ∧ uintAddr addr 3 ≠ 1 then
    -- IPv4 compatible address
    (addr.drop 12).take 4
  else if uintAddr addr 0 = 0 ∧ uintAddr addr 1 = 0 ∧ ntohl (uintAddr addr 2) = 0xFFFF then
    -- IPv4-mapped address
    (addr.drop 12).take 4
  else [0, 0, 0, 0]

/-! ## accept4 -/

/-- A control message: whether it is `SCM_RIGHTS` of `SOL_SOCKET`, and the descriptor in it. -/
structure Cmsg where
  rights : Bool
  fd : Int

inductive Recvmsg where
  | failed
  | message (resp : NewConnectionResponse) (cmsg : Option Cmsg)

structure Accepted where
  ret : Int
  /-- `errno` was set to `EBADF`. -/
  ebadf : Bool
  /-- The file status flags of the descriptor returned. -/
  fl : Flags
  /-- What was copied to `addr`. -/
  stored : List UInt8
  addrlen : Nat

/-- What the calls of an `accept4` find. -/
structure Waiting where
  /-- What `SO_DOMAIN` reads, unless `getsockopt` fails. -/
  domain : Option Domain
  getpeername : Bool
  recvmsg : Recvmsg
  /-- The flags of the descriptor received. -/
  fl : Flags
  unset : Unset
  /-- What `accept4` of the C library does. -/
  libc : Accepted

/-- `addr` is whether the caller gave an address buffer, of `addrlen` bytes. -/
def accept4 (os : Fcntl) (w : Waiting) (addr : Bool) (addrlen : Nat) (flags : Flags) : Accepted :=
  if w.domain ≠ some .AF_UNIX then w.libc
  else if ¬ w.getpeername then w.libc
  else
    match w.recvmsg with
    | .failed => ⟨-1, false, w.fl, [], addrlen⟩
    | .message _ none => ⟨-1, true, w.fl, [], addrlen⟩
    | .message resp (some cmsg) =>
      if ¬ cmsg.rights then ⟨-1, true, w.fl, [], addrlen⟩
      else if cmsg.fd < 0 then ⟨-1, true, w.fl, [], addrlen⟩
      else
        let fl := w.fl
        let fl := if flags ||| SOCK_CLOEXEC ≠ 0 then fl ||| FD_CLOEXEC else fl
        let fl := if flags ||| SOCK_NONBLOCK ≠ 0 then fl ||| O_NONBLOCK else fl
        let fl := os.setfl w.fl fl
        if ¬ addr then ⟨cmsg.fd, false, fl, [], addrlen⟩
        else if addrlen ≥ sizeofIn6 then
          ⟨cmsg.fd, false, fl, sockaddrIn6 w.unset resp.addr resp.port, sizeofIn6⟩
        else
          let v4addr := sockaddrIn (toV4 resp.addr) resp.port
          let addrlen := if addrlen ≥ sizeofIn then sizeofIn else addrlen
          ⟨cmsg.fd, false, fl, v4addr.take addrlen, addrlen⟩

def accept (os : Fcntl) (w : Waiting) (addr : Bool) (addrlen : Nat) : Accepted :=
  accept4 os w addr addrlen 0

/-! ## What it should do -/

/-- `::1`. -/
def loopback : List UInt8 := [0, 0, 0, 0, 0, 0, 0, 0, 0, 0, 0, 0, 0, 0, 0, 1]

/-- `::`. -/
def unspecified : List UInt8 := [0, 0, 0, 0, 0, 0, 0, 0, 0, 0, 0, 0, 0, 0, 0, 0]

/-- An address in `::ffff:0:0/96`. -/
def Mapped (addr : List UInt8) : Prop :=
  addr.take 12 = [0, 0, 0, 0, 0, 0, 0, 0, 0, 0, 0xFF, 0xFF]

/-- An address in `::/96` that is neither the loopback nor the unspecified address. -/
def Compatible (addr : List UInt8) : Prop :=
  addr.take 12 = [0, 0, 0, 0, 0, 0, 0, 0, 0, 0, 0, 0] ∧ addr ≠ loopback ∧ addr ≠ unspecified

instance : DecidablePred Mapped := fun addr =>
  inferInstanceAs (Decidable (addr.take 12 = _))

instance : DecidablePred Compatible := fun addr =>
  inferInstanceAs (Decidable (addr.take 12 = _ ∧ addr ≠ _ ∧ addr ≠ _))

/-- The embedded IPv4 address, or `0.0.0.0`. -/
def embedded (addr : List UInt8) : List UInt8 :=
  if Mapped addr ∨ Compatible addr then addr.drop 12 else [0, 0, 0, 0]

def NonBlocking (fl : Flags) : Prop := fl &&& O_NONBLOCK ≠ 0

instance : DecidablePred NonBlocking := fun fl => inferInstanceAs (Decidable (fl &&& O_NONBLOCK ≠ 0))

/-- The socket vendor delivers `resp` and the descriptor `fd`. -/
structure Waiting.Delivers (w : Waiting) (resp : NewConnectionResponse) (fd : Int) : Prop where
  domain : w.domain = some .AF_UNIX
  getpeername : w.getpeername = true
  recvmsg : w.recvmsg = .message resp (some ⟨true, fd⟩)
  fd : 0 ≤ fd

/-- What an `accept4` on which `resp` and `fd` are delivered should do. A buffer that is too short
for an address gets the front of it. -/
structure Proper (w : Waiting) (resp : NewConnectionResponse) (fd : Int) (addr : Bool)
    (addrlen : Nat) (flags : Flags) (a : Accepted) : Prop where
  ret : a.ret = fd
  blocking : NonBlocking a.fl ↔ NonBlocking w.fl ∨ flags &&& SOCK_NONBLOCK ≠ 0
  inet6 : addr → sizeofIn6 ≤ addrlen →
    a.addrlen = sizeofIn6 ∧ ∃ unset, a.stored = sockaddrIn6 unset resp.addr resp.port
  inet : addr → addrlen < sizeofIn6 →
    a.addrlen = min addrlen sizeofIn ∧
      a.stored = (sockaddrIn (embedded resp.addr) resp.port).take (min addrlen sizeofIn)

/-! ### Addresses -/

section
variable {addr : List UInt8}

theorem ofLe_eq_iff {l m : List UInt8} (h : l.length = m.length) : ofLe l = ofLe m ↔ l = m :=
  ⟨ofLe_injective h, congrArg ofLe⟩

theorem ntohl_ofLe {l : List UInt8} (h : l.length = 4) : ntohl (ofLe l) = ofBe l := by
  unfold ntohl
  rw [← h, le_ofLe]

theorem length_word (h : addr.length = 16) {i : Nat} (hi : i < 4) :
    ((addr.drop (4 * i)).take 4).length = 4 := by
  rw [List.length_take, List.length_drop]
  omega

/-- The words of an address, as `accept4` compares them. -/
theorem uintAddr_zero_iff (h : addr.length = 16) {i : Nat} (hi : i < 4) :
    uintAddr addr i = 0 ↔ (addr.drop (4 * i)).take 4 = [0, 0, 0, 0] :=
  ofLe_eq_iff (m := [0, 0, 0, 0]) (length_word h hi)

theorem uintAddr_one_iff (h : addr.length = 16) :
    uintAddr addr 3 = 1 ↔ addr.drop 12 = [1, 0, 0, 0] := by
  have hdrop : (addr.drop 12).take 4 = addr.drop 12 := by
    apply List.take_of_length_le
    rw [List.length_drop, h]
  unfold uintAddr
  rw [hdrop]
  exact ofLe_eq_iff (m := [1, 0, 0, 0]) (by rw [List.length_drop, h]; rfl)

theorem ntohl_uintAddr_iff (h : addr.length = 16) :
    ntohl (uintAddr addr 2) = 0xFFFF ↔ (addr.drop 8).take 4 = [0, 0, 0xFF, 0xFF] := by
  have hlen := length_word h (show 2 < 4 by decide)
  unfold uintAddr
  rw [ntohl_ofLe hlen]
  exact ⟨fun heq => ofBe_injective (m := [0, 0, 0xFF, 0xFF]) hlen heq, congrArg ofBe⟩

/-- Three words are the first twelve bytes. -/
theorem take_words (h : addr.length = 16) {last : List UInt8} (hlast : last.length = 4) :
    (addr.drop 0).take 4 = [0, 0, 0, 0] ∧ (addr.drop 4).take 4 = [0, 0, 0, 0] ∧
        (addr.drop 8).take 4 = last ↔
      addr.take 12 = [0, 0, 0, 0, 0, 0, 0, 0] ++ last := by
  have hsplit : addr.take 12 =
      (addr.drop 0).take 4 ++ (addr.drop 4).take 4 ++ (addr.drop 8).take 4 := by
    rw [show 12 = 4 + 4 + 4 from rfl, List.take_add, List.take_add]
    rfl
  have hlen (i : Nat) (hi : i < 4) := length_word h hi
  rw [hsplit]
  constructor
  · rintro ⟨h0, h1, h2⟩
    rw [h0, h1, h2]
    rfl
  · intro heq
    obtain ⟨hfront, h2⟩ := List.append_inj' heq ((hlen 2 (by decide)).trans hlast.symm)
    obtain ⟨h0, h1⟩ := List.append_inj
      (show (addr.drop 0).take 4 ++ (addr.drop 4).take 4 = [0, 0, 0, 0] ++ [0, 0, 0, 0] from hfront)
      (hlen 0 (by decide))
    exact ⟨h0, h1, h2⟩

/-- `accept4` takes the last word for the IPv4 address unless its value is 1. -/
theorem toV4_eq (h : addr.length = 16) :
    toV4 addr =
      if Mapped addr ∨ addr.take 12 = [0, 0, 0, 0, 0, 0, 0, 0, 0, 0, 0, 0] ∧
          addr.drop 12 ≠ [1, 0, 0, 0] then
        addr.drop 12
      else [0, 0, 0, 0] := by
  have hlast : (addr.drop 12).take 4 = addr.drop 12 := by
    apply List.take_of_length_le
    rw [List.length_drop, h]
  have hzero : uintAddr addr 0 = 0 ∧ uintAddr addr 1 = 0 ∧ uintAddr addr 2 = 0 ↔
      addr.take 12 = [0, 0, 0, 0, 0, 0, 0, 0, 0, 0, 0, 0] := by
    rw [uintAddr_zero_iff h (by decide), uintAddr_zero_iff h (by decide),
      uintAddr_zero_iff h (by decide)]
    exact take_words h rfl
  have hmapped : uintAddr addr 0 = 0 ∧ uintAddr addr 1 = 0 ∧ ntohl (uintAddr addr 2) = 0xFFFF ↔
      Mapped addr := by
    rw [uintAddr_zero_iff h (by decide), uintAddr_zero_iff h (by decide), ntohl_uintAddr_iff h]
    exact take_words h rfl
  have hcompatible : uintAddr addr 0 = 0 ∧ uintAddr addr 1 = 0 ∧ uintAddr addr 2 = 0 ∧
        uintAddr addr 3 ≠ 1 ↔
      addr.take 12 = [0, 0, 0, 0, 0, 0, 0, 0, 0, 0, 0, 0] ∧ addr.drop 12 ≠ [1, 0, 0, 0] := by
    rw [← hzero, Ne, Ne, uintAddr_one_iff h]
    tauto
  unfold toV4
  simp only [hlast, hmapped, hcompatible]
  split_ifs with h1 h2 h3 h4 h5
  · rfl
  · exact absurd (.inr h1) h2
  · rfl
  · exact absurd (.inl h3) h4
  · exact absurd h5 (not_or_intro h3 h1)
  · rfl

/-- `::1.0.0.0`. The value of its last word is 1, on a little-endian machine. -/
def lastWordOne : List UInt8 := [0, 0, 0, 0, 0, 0, 0, 0, 0, 0, 0, 0, 1, 0, 0, 0]

theorem eq_of_take_of_drop {l m : List UInt8} (htake : l.take 12 = m.take 12)
    (hdrop : l.drop 12 = m.drop 12) : l = m := by
  rw [← List.take_append_drop 12 l, htake, hdrop, List.take_append_drop]

/-- The loopback address is meant where the value is compared with 1, and is not found there. -/
theorem toV4_eq_embedded (h : addr.length = 16) (hloopback : addr ≠ loopback)
    (hone : addr ≠ lastWordOne) : toV4 addr = embedded addr := by
  rw [toV4_eq h]
  unfold embedded
  by_cases hmapped : Mapped addr
  · rw [if_pos (.inl hmapped), if_pos (.inl hmapped)]
  · by_cases hzero : addr.take 12 = [0, 0, 0, 0, 0, 0, 0, 0, 0, 0, 0, 0]
    · have hdrop : addr.drop 12 ≠ [1, 0, 0, 0] :=
        fun hdrop => hone (eq_of_take_of_drop hzero hdrop)
      rw [if_pos (.inr ⟨hzero, hdrop⟩)]
      by_cases hunspecified : addr = unspecified
      · rw [hunspecified]
        rfl
      · rw [if_pos (.inr ⟨hzero, hloopback, hunspecified⟩)]
    · rw [if_neg (not_or_intro hmapped (fun h => hzero h.1)),
        if_neg (not_or_intro hmapped (fun h => hzero h.1))]

/-! ### What is stored -/

/-- Lists that differ at one place have the same front up to there. -/
theorem take_append_cons_iff {front r r' : List UInt8} {x y : UInt8} (hne : x ≠ y) (n : Nat) :
    (front ++ x :: r).take n = (front ++ y :: r').take n ↔ n ≤ front.length := by
  constructor
  · intro heq
    by_contra hn
    have hat := congrArg (·[front.length]?) heq
    simp only [List.getElem?_take, if_pos (Nat.lt_of_not_le hn),
      List.getElem?_append_right (Nat.le_refl _), Nat.sub_self, List.getElem?_cons_zero] at hat
    exact hne (Option.some.inj hat)
  · intro hn
    rw [List.take_append_of_le_length hn, List.take_append_of_le_length hn]

/-- The loopback address is stored as `0.0.0.1`. -/
theorem take_loopback {port : List UInt8} (hport : port.length = 2) (n : Nat) :
    (sockaddrIn (toV4 loopback) port).take n = (sockaddrIn (embedded loopback) port).take n ↔
      n < 8 := by
  have hcode : sockaddrIn (toV4 loopback) port =
      (le 2 AF_INET ++ port ++ [0, 0, 0]) ++ 1 :: List.replicate 8 0 := by
    rw [show toV4 loopback = [0, 0, 0] ++ [1] by decide]
    simp [sockaddrIn]
  have hright : sockaddrIn (embedded loopback) port =
      (le 2 AF_INET ++ port ++ [0, 0, 0]) ++ 0 :: List.replicate 8 0 := by
    rw [show embedded loopback = [0, 0, 0] ++ [0] by decide]
    simp [sockaddrIn]
  rw [hcode, hright, take_append_cons_iff (by decide)]
  simp only [List.length_append, hport]
  exact Nat.lt_succ_iff.symm

/-- `::1.0.0.0` is stored as `0.0.0.0`. -/
theorem take_lastWordOne {port : List UInt8} (hport : port.length = 2) (n : Nat) :
    (sockaddrIn (toV4 lastWordOne) port).take n = (sockaddrIn (embedded lastWordOne) port).take n ↔
      n < 5 := by
  have hcode : sockaddrIn (toV4 lastWordOne) port =
      (le 2 AF_INET ++ port) ++ 0 :: ([0, 0, 0] ++ List.replicate 8 0) := by
    rw [show toV4 lastWordOne = [0, 0, 0, 0] by decide]
    simp [sockaddrIn]
  have hright : sockaddrIn (embedded lastWordOne) port =
      (le 2 AF_INET ++ port) ++ 1 :: ([0, 0, 0] ++ List.replicate 8 0) := by
    rw [show embedded lastWordOne = [1, 0, 0, 0] by decide]
    simp [sockaddrIn]
  rw [hcode, hright, take_append_cons_iff (by decide)]
  simp only [List.length_append, hport]
  exact Nat.lt_succ_iff.symm

end

/-! ### Flags -/

theorem or_ne_zero {a m : Flags} (h : m ≠ 0) : a ||| m ≠ 0 :=
  fun hor => h (BitVec.or_eq_zero_iff.mp hor).2

theorem nonBlocking_or (fl : Flags) : NonBlocking (fl ||| O_NONBLOCK) := by
  unfold NonBlocking
  rw [BitVec.and_or_distrib_right, BitVec.and_self]
  exact or_ne_zero (by decide)

/-! ## The calls that do it -/

section
variable {os : Fcntl} {w : Waiting} {resp : NewConnectionResponse} {fd : Int}

/-- Both tests of the flags hold whatever they are. -/
theorem accept4_delivered (h : w.Delivers resp fd) (hfl : os.Status w.fl) (addr : Bool)
    (addrlen : Nat) (flags : Flags) :
    accept4 os w addr addrlen flags =
      if ¬ addr then ⟨fd, false, w.fl ||| O_NONBLOCK, [], addrlen⟩
      else if addrlen ≥ sizeofIn6 then
        ⟨fd, false, w.fl ||| O_NONBLOCK, sockaddrIn6 w.unset resp.addr resp.port, sizeofIn6⟩
      else
        ⟨fd, false, w.fl ||| O_NONBLOCK,
          (sockaddrIn (toV4 resp.addr) resp.port).take (min addrlen sizeofIn),
          min addrlen sizeofIn⟩ := by
  have hset : os.setfl w.fl (w.fl ||| FD_CLOEXEC ||| O_NONBLOCK) = w.fl ||| O_NONBLOCK := by
    rw [BitVec.or_assoc, BitVec.or_comm FD_CLOEXEC, ← BitVec.or_assoc, os.setfl_access]
    exact os.setfl_status hfl (os.status_nonblock hfl)
  have hmin : (if addrlen ≥ sizeofIn then sizeofIn else addrlen) = min addrlen sizeofIn := by
    split_ifs with hge
    · exact (Nat.min_eq_right hge).symm
    · exact (Nat.min_eq_left (Nat.le_of_not_le hge)).symm
  unfold accept4
  rw [if_neg (not_not_intro h.domain), if_neg (not_not_intro h.getpeername), h.recvmsg]
  dsimp only
  rw [if_neg (not_not_intro rfl), if_neg (Int.not_lt.mpr h.fd),
    if_pos (or_ne_zero (m := SOCK_CLOEXEC) (by decide)),
    if_pos (or_ne_zero (m := SOCK_NONBLOCK) (by decide)), hset, hmin]

/-- The calls of `accept4` that do what they should. -/
def AcceptsWhen (w : Waiting) (resp : NewConnectionResponse) (addr : Bool) (addrlen : Nat)
    (flags : Flags) : Prop :=
  (NonBlocking w.fl ∨ flags &&& SOCK_NONBLOCK ≠ 0) ∧
    (addr → addrlen < sizeofIn6 →
      (resp.addr = loopback → addrlen < 8) ∧ (resp.addr = lastWordOne → addrlen < 5))

/-- The address that a caller with less room gets is the one embedded but in two cases. -/
theorem take_toV4_iff (resp : NewConnectionResponse) (addrlen : Nat) :
    (sockaddrIn (toV4 resp.addr) resp.port).take (min addrlen sizeofIn) =
        (sockaddrIn (embedded resp.addr) resp.port).take (min addrlen sizeofIn) ↔
      (resp.addr = loopback → addrlen < 8) ∧ (resp.addr = lastWordOne → addrlen < 5) := by
  have hport := resp.length_port
  by_cases hloopback : resp.addr = loopback
  · have hne : loopback ≠ lastWordOne := by decide
    rw [hloopback, take_loopback hport]
    simp only [hne, sizeofIn, false_implies, and_true, true_implies]
    omega
  · by_cases hone : resp.addr = lastWordOne
    · have hne : lastWordOne ≠ loopback := by decide
      rw [hone, take_lastWordOne hport]
      simp only [hne, sizeofIn, false_implies, true_and, true_implies]
      omega
    · rw [toV4_eq_embedded resp.length_addr hloopback hone]
      exact ⟨fun _ => ⟨fun h => absurd h hloopback, fun h => absurd h hone⟩, fun _ => rfl⟩

theorem accept4_proper_iff (h : w.Delivers resp fd) (hfl : os.Status w.fl) (addr : Bool)
    (addrlen : Nat) (flags : Flags) :
    Proper w resp fd addr addrlen flags (accept4 os w addr addrlen flags) ↔
      AcceptsWhen w resp addr addrlen flags := by
  have hnonblock := nonBlocking_or w.fl
  rw [accept4_delivered h hfl]
  cases addr with
  | false =>
    rw [if_pos Bool.false_ne_true]
    constructor
    · intro hp
      exact ⟨hp.blocking.mp hnonblock, fun haddr => absurd haddr Bool.false_ne_true⟩
    · rintro ⟨hblocking, -⟩
      exact ⟨rfl, iff_of_true hnonblock hblocking, fun haddr => absurd haddr Bool.false_ne_true,
        fun haddr => absurd haddr Bool.false_ne_true⟩
  | true =>
    rw [if_neg (not_not_intro rfl)]
    by_cases hlen : addrlen ≥ sizeofIn6
    · rw [if_pos hlen]
      constructor
      · intro hp
        exact ⟨hp.blocking.mp hnonblock, fun _ hlt => absurd hlen (Nat.not_le.mpr hlt)⟩
      · rintro ⟨hblocking, -⟩
        exact ⟨rfl, iff_of_true hnonblock hblocking, fun _ _ => ⟨rfl, _, rfl⟩,
          fun _ hlt => absurd hlen (Nat.not_le.mpr hlt)⟩
    · rw [if_neg hlen]
      constructor
      · intro hp
        refine ⟨hp.blocking.mp hnonblock, fun haddr hlt => ?_⟩
        exact (take_toV4_iff resp addrlen).mp (hp.inet haddr hlt).2
      · rintro ⟨hblocking, haddress⟩
        refine ⟨rfl, iff_of_true hnonblock hblocking, fun _ hle => absurd hle hlen,
          fun haddr hlt => ⟨rfl, ?_⟩⟩
        exact (take_toV4_iff resp addrlen).mpr (haddress haddr hlt)

end

/-- `accept4`, and `accept` with no flags: non-blocking mode is set always, the loopback address
is taken for an IPv4-compatible one, and `::1.0.0.0` is not. -/
theorem accept_proper_iff {os : Fcntl} {w : Waiting} {resp : NewConnectionResponse} {fd : Int}
    (h : w.Delivers resp fd) (hfl : os.Status w.fl) (addr : Bool) (addrlen : Nat) (flags : Flags) :
    (Proper w resp fd addr addrlen flags (accept4 os w addr addrlen flags) ↔
      AcceptsWhen w resp addr addrlen flags) ∧
    (Proper w resp fd addr addrlen 0 (accept os w addr addrlen) ↔
      AcceptsWhen w resp addr addrlen 0) :=
  ⟨accept4_proper_iff h hfl addr addrlen flags, accept4_proper_iff h hfl addr addrlen 0⟩

namespace Sample

/-- A connection from `10.0.0.1`, port 80, as the socket vendor delivers it. -/
def mapped : NewConnectionResponse :=
  ⟨[4, 0, 0, 0, 0, 0, 0, 0, 0, 0, 0, 0, 0, 0, 0xFF, 0xFF, 10, 0, 0, 1, 0, 80, 0, 0], rfl⟩

/-- The descriptor received is in blocking mode. -/
def accepted : Waiting where
  domain := some .AF_UNIX
  getpeername := true
  recvmsg := .message mapped (some ⟨true, 7⟩)
  fl := O_RDWR
  unset := ⟨copyTo 4 [], copyTo 4 []⟩
  libc := ⟨-1, false, O_RDWR, [], 0⟩

theorem delivers_accepted : accepted.Delivers mapped 7 := ⟨rfl, rfl, rfl, by decide⟩

theorem status_accepted : Linux.fcntl.Status accepted.fl := rfl

end Sample

open Preload.Sample in
/-- Room for an IPv4 address, and `SOCK_NONBLOCK`. -/
theorem accept_proper_mapped :
    accepted.Delivers mapped 7 ∧ Linux.fcntl.Status accepted.fl ∧
      Proper accepted mapped 7 true 16 SOCK_NONBLOCK
        (accept4 Linux.fcntl accepted true 16 SOCK_NONBLOCK) :=
  ⟨delivers_accepted, status_accepted,
    (accept_proper_iff delivers_accepted status_accepted true 16 SOCK_NONBLOCK).1.mpr
      ⟨.inr (by decide), fun _ _ => ⟨fun h => absurd h (by decide), fun h => absurd h (by decide)⟩⟩⟩

open Preload.Sample in
/-- `accept` makes a descriptor non-blocking that is not. -/
theorem accept_proper_blocking :
    ¬ ∀ (os : Fcntl) (w : Waiting) (resp : NewConnectionResponse) (fd : Int),
      w.Delivers resp fd → os.Status w.fl → ∀ (addr : Bool) (addrlen : Nat),
        Proper w resp fd addr addrlen 0 (accept os w addr addrlen) :=
  fun h => absurd
    ((h Linux.fcntl accepted mapped 7 delivers_accepted status_accepted false 0).blocking)
    (by decide)

end Proxy.Preload
