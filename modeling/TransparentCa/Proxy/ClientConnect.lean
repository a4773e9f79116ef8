import TransparentCa.Proxy.Exchange

/- `socks5_client_connect` of the preload library, the client's end of a CONNECT. It sends the
   greeting and the request at once, and takes the two replies from the socket before the
   application reads from it. It computes the length of the final reply by itself; the proxy's
   end is `Socks5State`, and the two agree (`connect_exchange`). -/
namespace Proxy
open Effects

/-- What one `recv` finds at the socket. -/
inductive Arrival where
  /-- At least one byte. -/
  | bytes (first : UInt8) (more : List UInt8)
  /-- `EINTR`. -/
  | interrupted
  deriving DecidableEq, Repr

namespace Arrival

/-- The bytes, in their order. -/
def stream (arrivals : List Arrival) : List UInt8 :=
  arrivals.flatMap (fun a => match a with | bytes first more => first :: more | interrupted => [])

@[simp] theorem stream_nil : stream [] = [] := rfl

@[simp] theorem stream_bytes (first : UInt8) (more : List UInt8) (arrivals : List Arrival) :
    stream (bytes first more :: arrivals) = first :: more ++ stream arrivals := rfl

@[simp] theorem stream_interrupted (arrivals : List Arrival) :
    stream (interrupted :: arrivals) = stream arrivals := rfl

end Arrival

open Arrival

/-- `recv_all`: the bytes received, at most `len`, and what arrives after them. At the end of
what arrives `recv` returns 0 or an error, and what there is is returned. -/
def recvAll : List Arrival → (len : Nat) → List UInt8 × List Arrival
  | arrivals, 0 => ([], arrivals)
  | [], _ + 1 => ([], [])
  | interrupted :: arrivals, len + 1 => recvAll arrivals (len + 1)
  | bytes first more :: arrivals, len + 1 =>
    match more.drop len with
    | [] =>
      let (received, arrivals) := recvAll arrivals (len - more.length)
      (first :: more ++ received, arrivals)
    -- The buffer is full, and the socket keeps the rest.
    | next :: more' => (first :: more.take len, bytes next more' :: arrivals)

theorem recvAll_spec (arrivals : List Arrival) (len : Nat) :
    (recvAll arrivals len).1 = (stream arrivals).take len ∧
      stream (recvAll arrivals len).2 = (stream arrivals).drop len := by
  induction arrivals generalizing len with
  | nil => cases len <;> exact ⟨rfl, rfl⟩
  | cons arrival arrivals ih =>
    cases len with
    | zero => exact ⟨rfl, rfl⟩
    | succ len =>
      cases arrival with
      | interrupted => exact ih (len + 1)
      | bytes first more =>
        simp only [stream_bytes, List.cons_append, List.take_succ_cons, List.drop_succ_cons]
        rw [List.take_append, List.drop_append]
        cases hdrop : more.drop len with
        | nil =>
          have hle : more.length ≤ len := List.drop_eq_nil_iff.mp hdrop
          have hrecv : recvAll (bytes first more :: arrivals) (len + 1) =
              (first :: more ++ (recvAll arrivals (len - more.length)).1,
                (recvAll arrivals (len - more.length)).2) := by
            simp only [recvAll, hdrop]
          obtain ⟨hreceived, hleft⟩ := ih (len - more.length)
          rw [hrecv, List.take_of_length_le hle, ← hreceived, ← hleft]
          exact ⟨rfl, rfl⟩
        | cons next more' =>
          have hlt : len < more.length := by
            by_contra hge
            rw [List.drop_eq_nil_iff.mpr (Nat.le_of_not_lt hge)] at hdrop
            cases hdrop
          have hrecv : recvAll (bytes first more :: arrivals) (len + 1) =
              (first :: more.take len, bytes next more' :: arrivals) := by
            simp only [recvAll, hdrop]
          rw [hrecv, Nat.sub_eq_zero_of_le (Nat.le_of_lt hlt), List.take_zero, List.drop_zero,
            List.append_nil]
          exact ⟨rfl, rfl⟩

/-- When at least so many bytes arrive, exactly these are taken. -/
theorem recvAll_append {arrivals : List Arrival} {front rest : List UInt8} {len : Nat}
    (h : stream arrivals = front ++ rest) (hlen : front.length = len) :
    (recvAll arrivals len).1 = front ∧ stream (recvAll arrivals len).2 = rest := by
  have hspec := recvAll_spec arrivals len
  rw [h, ← hlen, List.take_left, List.drop_left] at hspec
  rw [← hlen]
  exact hspec

/-! ## socks5_client_connect -/

structure Connect where
  ret : Int
  /-- What was given to `send`. -/
  sent : List UInt8
  /-- What is left at the socket. -/
  left : List Arrival

def expectedReply : List UInt8 := [0x05, 0x00, 0x05, 0x00, 0x00]

/-- `send` returns the number of bytes that were sent, or −1. -/
def socks5ClientConnect (send : List UInt8 → Int) (addr : SockAddr) (arrivals : List Arrival) :
    Connect :=
  let copied := fillAddrPort addr
  if copied.length = 0 then ⟨-1, [], arrivals⟩
  else
    let buffer := [0x05, 0x01, 0x00, 0x05, 0x01, 0x00] ++ copied
    if send buffer ≠ buffer.length then ⟨-1, buffer, arrivals⟩
    else
      let toReceive := expectedReply.length + 2
      let (reply, arrivals) := recvAll arrivals toReceive
      if reply.length ≠ toReceive then ⟨-1, buffer, arrivals⟩
      else if reply.take expectedReply.length ≠ expectedReply then
        if reply.getD 3 0 ≠ 0 then ⟨-(reply.getD 3 0).toNat, buffer, arrivals⟩
        else ⟨-1, buffer, arrivals⟩
      else
        let atyp := reply.getD expectedReply.length 0
        let extraByte := reply.getD (expectedReply.length + 1) 0
        let toReceive :=
          if atyp = 0x01 then 4 + 2 - 1
          else if atyp = 0x03 then extraByte.toNat + 2
          else if atyp = 0x04 then 16 + 2 - 1
          else toReceive
        let (received, arrivals) := recvAll arrivals toReceive
        if received.length ≠ toReceive then ⟨-1, buffer, arrivals⟩ else ⟨0, buffer, arrivals⟩

/-- The greeting and the request for `addr`. -/
def connectRequest (addr : SockAddr) : List UInt8 :=
  [0x05, 0x01, 0x00, 0x05, 0x01, 0x00] ++ fillAddrPort addr

theorem fillAddrPort_ne_nil {addr : SockAddr} (h : addr.IsInet) : (fillAddrPort addr).length ≠ 0 := by
  rw [length_fillAddrPort]
  cases addr with
  | inet _ _ => exact Nat.succ_ne_zero 6
  | inet6 _ _ => exact Nat.succ_ne_zero 18
  | other _ => exact h.elim

theorem wire_fillAddrPort {addr : SockAddr} (h : addr.IsInet) : Wire addr (fillAddrPort addr) := by
  cases addr with
  | inet addr port => exact .v4 addr port
  | inet6 addr port => exact .v6 addr port
  | other _ => exact h.elim

theorem request_connectRequest {addr : SockAddr} (h : addr.IsInet) :
    Request 0x01 addr (connectRequest addr) [] :=
  ⟨0x01, [0x00], fillAddrPort addr, by decide, rfl, by decide, wire_fillAddrPort h,
    by simp [connectRequest]⟩

section
variable {send : List UInt8 → Int} {addr : SockAddr} {arrivals : List Arrival} {data : List UInt8}

theorem sent_socks5ClientConnect (haddr : addr.IsInet) :
    (socks5ClientConnect send addr arrivals).sent = connectRequest addr := by
  unfold socks5ClientConnect
  simp only
  rw [if_neg (fillAddrPort_ne_nil haddr)]
  split_ifs <;> rfl

/-- The client up to the seven bytes that reveal ATYP. -/
theorem socks5ClientConnect_eq (haddr : addr.IsInet)
    (hsend : send (connectRequest addr) = (connectRequest addr).length) {reply rest : List UInt8}
    (hreply : stream arrivals = reply ++ rest) (hlen : reply.length = 7) :
    ∃ arrivals', stream arrivals' = rest ∧
      socks5ClientConnect send addr arrivals =
        if reply.take 5 ≠ expectedReply then
          if reply.getD 3 0 ≠ 0 then ⟨-(reply.getD 3 0).toNat, connectRequest addr, arrivals'⟩
          else ⟨-1, connectRequest addr, arrivals'⟩
        else
          let toReceive :=
            if reply.getD 5 0 = 0x01 then 5
            else if reply.getD 5 0 = 0x03 then (reply.getD 6 0).toNat + 2
            else if reply.getD 5 0 = 0x04 then 17
            else 7
          let received := recvAll arrivals' toReceive
          if received.1.length ≠ toReceive then ⟨-1, connectRequest addr, received.2⟩
          else ⟨0, connectRequest addr, received.2⟩ := by
  obtain ⟨hreceived, hleft⟩ := recvAll_append hreply hlen
  refine ⟨(recvAll arrivals 7).2, hleft, ?_⟩
  unfold socks5ClientConnect
  simp only
  rw [if_neg (fillAddrPort_ne_nil haddr),
    show [0x05, 0x01, 0x00, 0x05, 0x01, 0x00] ++ fillAddrPort addr = connectRequest addr from rfl,
    if_neg (not_not_intro hsend)]
  simp only [show expectedReply.length = 5 from rfl, hreceived]
  rw [if_neg (not_not_intro hlen)]

/-- A reply of success is taken whole, and nothing after it. -/
theorem connect_of_success (haddr : addr.IsInet)
    (hsend : send (connectRequest addr) = (connectRequest addr).length) {bound : SockAddr}
    (hbound : bound.IsInet)
    (hstream : stream arrivals = [0x05, 0x00] ++ ([0x05, 0x00, 0x00] ++ fillAddrPort bound) ++ data) :
    (socks5ClientConnect send addr arrivals).ret = 0 ∧
      stream (socks5ClientConnect send addr arrivals).left = data := by
  -- The seventh byte is the first of the address.
  obtain ⟨atyp, first, tail, hfill, hsize⟩ : ∃ atyp first tail,
      fillAddrPort bound = atyp :: first :: tail ∧
        tail.length = if atyp = 0x01 then 5 else if atyp = 0x03 then first.toNat + 2 else
          if atyp = 0x04 then 17 else 7 := by
    cases bound with
    | inet addr port =>
      obtain ⟨first, rest, hfirst⟩ := List.exists_of_length_succ addr.toList addr.toList_length
      have hrest := addr.toList_length
      rw [hfirst, List.length_cons] at hrest
      refine ⟨0x01, first, rest ++ port.toList, ?_, ?_⟩
      · show [0x01] ++ addr.toList ++ port.toList = _
        rw [hfirst]
        rfl
      · rw [if_pos rfl, List.length_append, port.toList_length]
        omega
    | inet6 addr port =>
      obtain ⟨first, rest, hfirst⟩ := List.exists_of_length_succ addr.toList addr.toList_length
      have hrest := addr.toList_length
      rw [hfirst, List.length_cons] at hrest
      refine ⟨0x04, first, rest ++ port.toList, ?_, ?_⟩
      · show [0x04] ++ addr.toList ++ port.toList = _
        rw [hfirst]
        rfl
      · rw [if_neg (by decide), if_neg (by decide), if_pos rfl, List.length_append,
          port.toList_length]
        omega
    | other _ => exact hbound.elim
  have hreply : stream arrivals = [0x05, 0x00, 0x05, 0x00, 0x00, atyp, first] ++ (tail ++ data) := by
    rw [hstream, hfill]
    simp
  obtain ⟨arrivals', hrest, heq⟩ := socks5ClientConnect_eq haddr hsend hreply rfl
  obtain ⟨hreceived, hleft⟩ := recvAll_append hrest hsize
  rw [heq]
  simp only [List.getD_cons_succ, List.getD_cons_zero, hreceived]
  rw [if_neg (not_not_intro rfl), if_neg (not_not_intro hsize)]
  exact ⟨rfl, hleft⟩

/-- The proxy's error reply. -/
theorem connect_of_error (haddr : addr.IsInet)
    (hsend : send (connectRequest addr) = (connectRequest addr).length)
    (hstream : stream arrivals = [0x05, 0x00] ++ Socks5State.errRespTemplate ++ data) :
    (socks5ClientConnect send addr arrivals).ret < 0 := by
  have hreply : stream arrivals = [0x05, 0x00, 0x05, 0x01, 0x00, 0x01, 0x00] ++
      ([0x00, 0x00, 0x00, 0x00, 0x00] ++ data) := hstream
  obtain ⟨arrivals', hrest, heq⟩ := socks5ClientConnect_eq haddr hsend hreply rfl
  have hmismatch : List.take 5 [0x05, 0x00, 0x05, 0x01, 0x00, 0x01, 0x00] ≠ expectedReply := by decide
  rw [heq, if_pos hmismatch, if_pos (by decide)]
  exact (by decide : (-1 : Int) < 0)

end

/-! ## The two ends -/

/-- For an IPv4 or IPv6 address: what the client sends makes the proxy call its connect
callback once, with this address, however the bytes are cut into chunks. Where the destination
is reached, the client takes the proxy's replies, however they arrive, and no byte after them,
and returns 0 if the proxy had an address for the reply; else it returns an error. -/
theorem connect_exchange {addr : SockAddr} (haddr : addr.IsInet) :
    (∀ send arrivals, (socks5ClientConnect send addr arrivals).sent = connectRequest addr) ∧
    ∀ chunks : List (List UInt8), chunks.flatten = connectRequest addr →
      ∀ (w : Network) (connected : Bool),
        connects (Prog.eval w.answer (Socks5State.serve connected chunks)).2 = [addr] ∧
        (w.reaches connected addr = true → ∀ send : List UInt8 → Int,
          send (connectRequest addr) = (connectRequest addr).length → ∀ arrivals data,
            stream arrivals =
              replies (Prog.eval w.answer (Socks5State.serve connected chunks)).2 ++ data →
            ((w.destAddress false).1 = .kStatusOK → (w.destAddress false).2.IsInet →
              (socks5ClientConnect send addr arrivals).ret = 0 ∧
                stream (socks5ClientConnect send addr arrivals).left = data) ∧
            ((w.destAddress false).1 ≠ .kStatusOK →
              (socks5ClientConnect send addr arrivals).ret < 0)) := by
  refine ⟨fun send arrivals => sent_socks5ClientConnect haddr, fun chunks hchunks w connected => ?_⟩
  have hrequest : Request 0x01 addr chunks.flatten [] := by
    rw [hchunks]
    exact request_connectRequest haddr
  rw [Socks5State.eval_serve_connect w hrequest connected]
  refine ⟨?_, fun hreached send hsend arrivals data hstream => ?_⟩
  · cases w.reaches connected addr with
    | true => rfl
    | false => rfl
  · rw [hreached, if_pos rfl] at hstream
    have hreplies : stream arrivals = [0x05, 0x00] ++ w.resp false ++ data := by
      rw [hstream]
      simp [replies]
    unfold Network.resp at hreplies
    constructor
    · intro hfound hbound
      rw [if_pos hfound] at hreplies
      exact connect_of_success haddr hsend hbound hreplies
    · intro hfailed
      rw [if_neg hfailed] at hreplies
      exact connect_of_error haddr hsend hreplies

namespace Sample

/-- 10.0.0.1:80 -/
def destination : SockAddr := .inet (copyTo 4 [10, 0, 0, 1]) (copyTo 2 [0, 80])

/-- A proxy with one IPv6 address, port 40000. -/
def network : Network :=
  ⟨fun _ => .kStatusInProgress,
    fun _ => (.kStatusOK, .inet6 (copyTo 16 [0xfd, 0, 0, 0, 0, 0, 0, 0, 0, 0, 0, 0, 0, 0, 0, 1])
      (copyTo 2 [0x9c, 0x40])),
    fun port => (.kStatusOK, port)⟩

/-- The replies and a byte of data, with a signal in between. -/
def arrivals : List Arrival :=
  [.bytes 0x05 [0x00, 0x05], .interrupted, .bytes 0x00 [0x00, 0x04, 0xfd, 0, 0, 0, 0],
    .bytes 0 [0, 0, 0, 0, 0, 0, 0, 0, 0, 1, 0x9c, 0x40, 71]]

end Sample

/-- A request in three chunks, and the application's first byte after the replies. -/
theorem connect_exchange_inet6 :
    connects (Prog.eval Sample.network.answer (Socks5State.serve true
      [[0x05], [0x01, 0x00, 0x05, 0x01], [0x00, 0x01, 10, 0, 0, 1, 0, 80]])).2 =
        [Sample.destination] ∧
      (socks5ClientConnect (fun data => data.length) Sample.destination Sample.arrivals).ret = 0 ∧
      stream (socks5ClientConnect (fun data => data.length) Sample.destination
        Sample.arrivals).left = [71] := by
  have hinet : Sample.destination.IsInet := trivial
  obtain ⟨-, h⟩ := connect_exchange hinet
  obtain ⟨hconnects, hreturns⟩ := h [[0x05], [0x01, 0x00, 0x05, 0x01],
    [0x00, 0x01, 10, 0, 0, 1, 0, 80]] rfl Sample.network true
  obtain ⟨hdone, -⟩ := hreturns rfl (fun data => data.length) rfl Sample.arrivals [71] (by decide)
  exact ⟨hconnects, hdone rfl trivial⟩

end Proxy
