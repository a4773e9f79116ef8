import TransparentCa.Proxy.ClientConnect

/- `socks5_client_connect` with the memory it uses: a buffer of 64 bytes on the stack, and one
   from `malloc` for a bound address that does not fit. A store outside of the buffer is
   `none`, and there is none (`socks5ClientConnectIn_eq`). Of the replies that say success the
   function accepts the well-formed ones, and those of an unknown ATYP with seven more bytes
   (`takesReply_iff`). -/
namespace Proxy
open Arrival

/-! ## Stores -/

/-- `bytes` stored from `offset` on; `none` when they do not lie in the buffer. -/
def storeAt (buf : List UInt8) (offset : Nat) (bytes : List UInt8) : Option (List UInt8) :=
  if offset + bytes.length ≤ buf.length then
    some (buf.take offset ++ bytes ++ buf.drop (offset + bytes.length))
  else none

theorem storeAt_of_le {buf bytes : List UInt8} {offset : Nat}
    (h : offset + bytes.length ≤ buf.length) :
    storeAt buf offset bytes =
      some (buf.take offset ++ bytes ++ buf.drop (offset + bytes.length)) := if_pos h

/-- Two stores, one behind the other. -/
theorem storeAt_storeAt {buf bytes bytes' : List UInt8} {offset : Nat}
    (h : offset + bytes.length + bytes'.length ≤ buf.length) :
    (storeAt buf offset bytes).bind (fun buf' => storeAt buf' (offset + bytes.length) bytes') =
      storeAt buf offset (bytes ++ bytes') := by
  have htake : (buf.take offset).length = offset := List.length_take_of_le (by omega)
  have hfront : (buf.take offset ++ bytes).length = offset + bytes.length := by
    rw [List.length_append, htake]
  have hlength : (buf.take offset ++ bytes ++ buf.drop (offset + bytes.length)).length =
      buf.length := by
    rw [List.length_append, hfront, List.length_drop]
    omega
  rw [storeAt_of_le (by omega), Option.bind_some, storeAt_of_le (by rw [hlength]; omega),
    storeAt_of_le (by rw [List.length_append]; omega), ← hfront, List.take_left,
    ← List.drop_drop, List.drop_left, List.drop_drop, hfront, List.length_append]
  simp only [List.append_assoc, Nat.add_assoc]

/-- `recv_all` into `buf`, from `offset` on: the number of bytes received, the buffer, and
what arrives after them. -/
def recvAllInto (offset len : Nat) :
    List Arrival → (received : Nat) → (buf : List UInt8) → Option (Nat × List UInt8 × List Arrival)
  | [], received, buf => some (received, buf, [])
  | interrupted :: arrivals, received, buf =>
    if received < len then recvAllInto offset len arrivals received buf
    else some (received, buf, interrupted :: arrivals)
  | bytes first more :: arrivals, received, buf =>
    if received < len then do
      let buf ← storeAt buf (offset + received) ((first :: more).take (len - received))
      match (first :: more).drop (len - received) with
      | [] => recvAllInto offset len arrivals (received + (first :: more).length) buf
      -- The buffer is full, and the socket keeps the rest.
      | next :: more' => some (len, buf, bytes next more' :: arrivals)
    else some (received, buf, bytes first more :: arrivals)

theorem recvAll_zero (arrivals : List Arrival) : recvAll arrivals 0 = ([], arrivals) := by
  cases arrivals <;> rfl

/-- `recv_all` stores what it receives, and no byte beyond the length it was given. -/
theorem recvAllInto_eq {offset len : Nat} (arrivals : List Arrival) {received : Nat}
    (hreceived : received ≤ len) {buf : List UInt8} (hbuf : offset + len ≤ buf.length) :
    recvAllInto offset len arrivals received buf =
      (storeAt buf (offset + received) (recvAll arrivals (len - received)).1).map (fun buf' =>
        (received + (recvAll arrivals (len - received)).1.length, buf',
          (recvAll arrivals (len - received)).2)) := by
  have hnone (buf : List UInt8) (hbuf : offset + len ≤ buf.length) :
      storeAt buf (offset + received) [] = some buf := by
    rw [storeAt_of_le (by simp only [List.length_nil]; omega), List.append_nil, List.length_nil,
      Nat.add_zero, List.take_append_drop]
  induction arrivals generalizing received buf with
  | nil =>
    have hrecv : recvAll [] (len - received) = ([], []) := by
      cases len - received <;> rfl
    rw [hrecv, hnone buf hbuf]
    rfl
  | cons arrival arrivals ih =>
    rcases Nat.lt_or_ge received len with hlt | hge
    · obtain ⟨k, hk⟩ : ∃ k, len - received = k + 1 := ⟨len - received - 1, by omega⟩
      cases arrival with
      | interrupted =>
        rw [recvAllInto, if_pos hlt, ih hreceived hbuf hnone, hk]
        rfl
      | bytes first more =>
        rw [recvAllInto, if_pos hlt, hk]
        simp only [List.drop_succ_cons, List.take_succ_cons]
        cases hdrop : more.drop k with
        | nil =>
          -- The arrival is taken whole, and the loop goes on behind it.
          have hle : more.length ≤ k := List.drop_eq_nil_iff.mp hdrop
          have hrecv : recvAll (bytes first more :: arrivals) (k + 1) =
              (first :: more ++ (recvAll arrivals (k - more.length)).1,
                (recvAll arrivals (k - more.length)).2) := by
            simp only [recvAll, hdrop]
          have hlen : (recvAll arrivals (k - more.length)).1.length ≤ k - more.length := by
            rw [(recvAll_spec arrivals _).1]
            exact List.length_take_le _ _
          have hrest : len - (received + (first :: more).length) = k - more.length := by
            simp only [List.length_cons]
            omega
          have hfits : offset + received + (first :: more).length +
              (recvAll arrivals (k - more.length)).1.length ≤ buf.length := by
            simp only [List.length_cons]
            omega
          rw [hrecv, List.take_of_length_le hle, ← storeAt_storeAt hfits]
          rw [storeAt_of_le (by omega)]
          simp only [Option.bind_eq_bind, Option.bind_some]
          rw [ih (by simp only [List.length_cons]; omega) ?_ ?_, hrest]
          · simp only [List.length_append, Nat.add_assoc]
          · rw [List.length_append, List.length_append, List.length_take, List.length_drop]
            simp only [List.length_cons] at hfits ⊢
            omega
          · intro buf' hbuf'
            rw [storeAt_of_le (by simp only [List.length_nil, List.length_cons]; omega),
              List.append_nil, List.length_nil, Nat.add_zero, List.take_append_drop]
        | cons next more' =>
          have hlt' : k < more.length := by
            by_contra hge
            rw [List.drop_eq_nil_iff.mpr (Nat.le_of_not_lt hge)] at hdrop
            cases hdrop
          have hrecv : recvAll (bytes first more :: arrivals) (k + 1) =
              (first :: more.take k, bytes next more' :: arrivals) := by
            simp only [recvAll, hdrop]
          have hlen : (first :: more.take k).length = k + 1 := by
            rw [List.length_cons, List.length_take_of_le (Nat.le_of_lt hlt')]
          rw [hrecv, storeAt_of_le (by rw [hlen]; omega)]
          simp only [Option.bind_eq_bind, Option.bind_some, Option.map_some, hlen]
          rw [← hk, Nat.add_sub_cancel' hreceived]
    · obtain rfl : received = len := by omega
      rw [Nat.sub_self, recvAll_zero, hnone buf hbuf]
      cases arrival with
      | interrupted => rw [recvAllInto, if_neg (by omega)]; rfl
      | bytes first more => rw [recvAllInto, if_neg (by omega)]; rfl

/-- The whole of it: at most `len` bytes from `offset` on. -/
theorem recvAllInto_spec {offset len : Nat} (arrivals : List Arrival) {buf : List UInt8}
    (hbuf : offset + len ≤ buf.length) :
    ∃ buf', recvAllInto offset len arrivals 0 buf =
        some ((recvAll arrivals len).1.length, buf', (recvAll arrivals len).2) ∧
      buf' = buf.take offset ++ (recvAll arrivals len).1 ++
        buf.drop (offset + (recvAll arrivals len).1.length) := by
  have hlen : (recvAll arrivals len).1.length ≤ len := by
    rw [(recvAll_spec arrivals len).1]
    exact List.length_take_le _ _
  rw [recvAllInto_eq arrivals (Nat.zero_le len) hbuf, Nat.sub_zero, Nat.add_zero,
    storeAt_of_le (by omega), Nat.zero_add]
  exact ⟨_, rfl, rfl⟩

/-! ## The function -/

/-- `sizeof(buffer)`. -/
def bufferSize : Nat := 64

/-- `socks5_client_connect`; `malloc size` says whether so many bytes could be had. `none` is
a store outside of a buffer. -/
def socks5ClientConnectIn (malloc : Nat → Bool) (send : List UInt8 → Int) (addr : SockAddr)
    (arrivals : List Arrival) : Option Connect := do
  let start : List UInt8 := [0x05, 0x01, 0x00, 0x05, 0x01, 0x00]
  let buffer := start ++ List.replicate (bufferSize - start.length) 0
  let buffer ← storeAt buffer start.length (fillAddrPort addr)
  let copied := (fillAddrPort addr).length
  if copied = 0 then return ⟨-1, [], arrivals⟩
  let sent := buffer.take (start.length + copied)
  if send sent ≠ sent.length then return ⟨-1, sent, arrivals⟩
  let toReceive := expectedReply.length + 2
  let (received, buffer, arrivals) ← recvAllInto 0 toReceive arrivals 0 buffer
  if received ≠ toReceive then return ⟨-1, sent, arrivals⟩
  if buffer.take expectedReply.length ≠ expectedReply then
    if buffer.getD 3 0 ≠ 0 then return ⟨-(buffer.getD 3 0).toNat, sent, arrivals⟩
    else return ⟨-1, sent, arrivals⟩
  let atyp := buffer.getD expectedReply.length 0
  let extraByte := buffer.getD (expectedReply.length + 1) 0
  let toReceive :=
    if atyp = 0x01 then 4 + 2 - 1
    else if atyp = 0x03 then extraByte.toNat + 2
    else if atyp = 0x04 then 16 + 2 - 1
    else toReceive
  if toReceive + 1 > bufferSize ∧ malloc (toReceive + 1) = false then
    return ⟨-1, sent, arrivals⟩
  let addrBuf :=
    if toReceive + 1 > bufferSize then List.replicate (toReceive + 1) 0 else buffer
  let addrBuf ← storeAt addrBuf 0 [extraByte]
  let (received, _, arrivals) ← recvAllInto 1 toReceive arrivals 0 addrBuf
  if received ≠ toReceive then return ⟨-1, sent, arrivals⟩ else return ⟨0, sent, arrivals⟩

/-- The number of bytes that follow the first two of a bound address, by these two. -/
def remaining (atyp extraByte : UInt8) : Nat :=
  if atyp = 0x01 then 5 else if atyp = 0x03 then extraByte.toNat + 2 else
    if atyp = 0x04 then 17 else 7

/-- What the function makes of the replies, once the request is sent. -/
def readReplies (malloc : Nat → Bool) (addr : SockAddr) (arrivals : List Arrival) : Connect :=
  let (reply, arrivals) := recvAll arrivals 7
  if reply.length ≠ 7 then ⟨-1, connectRequest addr, arrivals⟩
  else if reply.take 5 ≠ expectedReply then
    if reply.getD 3 0 ≠ 0 then ⟨-(reply.getD 3 0).toNat, connectRequest addr, arrivals⟩
    else ⟨-1, connectRequest addr, arrivals⟩
  else
    let k := remaining (reply.getD 5 0) (reply.getD 6 0)
    if k + 1 > bufferSize ∧ malloc (k + 1) = false then ⟨-1, connectRequest addr, arrivals⟩
    else
      let (received, arrivals) := recvAll arrivals k
      if received.length ≠ k then ⟨-1, connectRequest addr, arrivals⟩
      else ⟨0, connectRequest addr, arrivals⟩

theorem length_fillAddrPort_le (addr : SockAddr) : (fillAddrPort addr).length ≤ 19 := by
  rw [length_fillAddrPort]
  split <;> decide

/-- The request, at the front of the buffer. -/
theorem storeAt_request (addr : SockAddr) :
    ∃ buffer, storeAt ([0x05, 0x01, 0x00, 0x05, 0x01, 0x00] ++ List.replicate 58 0) 6
        (fillAddrPort addr) = some buffer ∧
      buffer.take (6 + (fillAddrPort addr).length) = connectRequest addr ∧
      buffer.length = bufferSize := by
  have hfill := length_fillAddrPort_le addr
  have hfits : 6 + (fillAddrPort addr).length ≤
      ([0x05, 0x01, 0x00, 0x05, 0x01, 0x00] ++ List.replicate 58 (0 : UInt8)).length := by
    rw [List.length_append, List.length_replicate]
    simp only [List.length_cons, List.length_nil]
    omega
  refine ⟨_, storeAt_of_le hfits, ?_, ?_⟩
  · refine List.take_left' ?_
    rw [List.length_append]
    rfl
  · rw [List.length_append, List.length_append, List.length_take, List.length_drop]
    simp only [List.length_append, List.length_replicate, List.length_cons, List.length_nil,
      bufferSize]
    omega

/-- Where no reply is awaited, the only store is that of the request. -/
theorem socks5ClientConnectIn_unsent (malloc : Nat → Bool) {send : List UInt8 → Int}
    {addr : SockAddr}
    (h : ¬ addr.IsInet ∨ send (connectRequest addr) ≠ (connectRequest addr).length)
    (arrivals : List Arrival) :
    ∃ c, socks5ClientConnectIn malloc send addr arrivals = some c := by
  obtain ⟨buffer, hstore, hrequest, -⟩ := storeAt_request addr
  unfold socks5ClientConnectIn
  simp only [List.length_cons, List.length_nil, Nat.zero_add, Nat.reduceAdd,
    show bufferSize - 6 = 58 from rfl, hstore, Option.bind_eq_bind, Option.bind_some, hrequest]
  by_cases hinet : addr.IsInet
  · rw [if_neg (fillAddrPort_ne_nil hinet), if_pos (h.resolve_left (not_not_intro hinet))]
    exact ⟨_, rfl⟩
  · have hnone : (fillAddrPort addr).length = 0 := by
      cases addr with
      | inet _ _ => exact absurd trivial hinet
      | inet6 _ _ => exact absurd trivial hinet
      | other _ => rfl
    rw [if_pos hnone]
    exact ⟨_, rfl⟩

/-- Every store is inside its buffer, and the buffers make no difference. -/
theorem socks5ClientConnectIn_eq (malloc : Nat → Bool) {send : List UInt8 → Int} {addr : SockAddr}
    (haddr : addr.IsInet) (hsend : send (connectRequest addr) = (connectRequest addr).length)
    (arrivals : List Arrival) :
    socks5ClientConnectIn malloc send addr arrivals = some (readReplies malloc addr arrivals) := by
  obtain ⟨buffer, hstore, hrequest, hbuffer⟩ := storeAt_request addr
  obtain ⟨buffer', hrecv, hbuffer'⟩ := recvAllInto_spec arrivals
    (show 0 + 7 ≤ buffer.length by rw [hbuffer]; decide)
  unfold socks5ClientConnectIn
  simp only [show expectedReply.length = 5 from rfl, List.length_cons, List.length_nil,
    Nat.zero_add, Nat.reduceAdd, show bufferSize - 6 = 58 from rfl, hstore, Option.bind_eq_bind, Option.bind_some,
    if_neg (fillAddrPort_ne_nil haddr), hrequest, if_neg (not_not_intro hsend), hrecv]
  unfold readReplies
  simp only
  by_cases hlen : (recvAll arrivals 7).1.length ≠ 7
  · rw [if_pos hlen, if_pos hlen]
    rfl
  · rw [if_neg hlen, if_neg hlen]
    rw [not_not] at hlen
    -- The reply lies at the front of the buffer.
    have htake : buffer'.take 5 = (recvAll arrivals 7).1.take 5 := by
      rw [hbuffer', List.take_zero, List.nil_append, List.take_append_of_le_length (by omega)]
    have hget (i : Nat) (hi : i < 7) : buffer'.getD i 0 = (recvAll arrivals 7).1.getD i 0 := by
      rw [hbuffer', List.take_zero, List.nil_append, List.getD_append _ _ _ _ (by omega)]
    have hsize : buffer'.length = bufferSize := by
      rw [hbuffer', List.take_zero, List.nil_append, List.length_append, List.length_drop, hbuffer,
        hlen]
      decide
    rw [htake, hget 3 (by decide), hget 5 (by decide), hget 6 (by decide)]
    have hremaining (atyp extraByte : UInt8) :
        (if atyp = 0x01 then 5 else if atyp = 0x03 then extraByte.toNat + 2 else
          if atyp = 0x04 then 17 else 7) = remaining atyp extraByte := rfl
    rw [hremaining]
    generalize remaining _ _ = k
    by_cases hmismatch : (recvAll arrivals 7).1.take 5 ≠ expectedReply
    · rw [if_pos hmismatch, if_pos hmismatch]
      split <;> rfl
    · rw [if_neg hmismatch, if_neg hmismatch]
      by_cases hmalloc : k + 1 > bufferSize ∧ malloc (k + 1) = false
      · rw [if_pos hmalloc, if_pos hmalloc]
        rfl
      · rw [if_neg hmalloc, if_neg hmalloc]
        -- Either buffer has room for the byte read ahead and for the rest.
        obtain ⟨addrBuf, heq, hroom⟩ : ∃ addrBuf : List UInt8,
            (if k + 1 > bufferSize then List.replicate (k + 1) 0 else buffer') = addrBuf ∧
              k + 1 ≤ addrBuf.length := by
          refine ⟨_, rfl, ?_⟩
          split
          · rw [List.length_replicate]
          · next hsmall =>
            rw [hsize]
            exact Nat.le_of_not_lt hsmall
        rw [heq, storeAt_of_le (by rw [List.length_singleton]; omega), Option.bind_some]
        obtain ⟨addrBuf', hrecv', -⟩ := recvAllInto_spec (recvAll arrivals 7).2
          (show 1 + k ≤ (addrBuf.take 0 ++ [(recvAll arrivals 7).1.getD 6 0] ++
            addrBuf.drop (0 + [(recvAll arrivals 7).1.getD 6 0].length)).length by
              simp only [List.take_zero, List.nil_append, List.length_append, List.length_drop,
                List.length_singleton]
              omega)
        rw [hrecv', Option.bind_some]
        simp only
        split <;> rfl

/-! ## The replies it takes -/

/-- ATYP, a bound address and a port. -/
inductive BoundAddress : List UInt8 → Prop where
  | v4 (bytes : List UInt8) (h : bytes.length = 6) : BoundAddress (0x01 :: bytes)
  | domain (n : UInt8) (bytes : List UInt8) (h : bytes.length = n.toNat + 2) :
      BoundAddress (0x03 :: n :: bytes)
  | v6 (bytes : List UInt8) (h : bytes.length = 18) : BoundAddress (0x04 :: bytes)

/-- The stream is a reply of success, well formed, and `rest`. -/
def SaysSuccess (replies rest : List UInt8) : Prop :=
  ∃ bound, BoundAddress bound ∧ replies = expectedReply ++ bound ++ rest

/-- Zero for a reply of success, of which exactly the bytes are taken, and else an error. -/
structure TakesReply (replies : List UInt8) (c : Connect) : Prop where
  success : ∀ rest, SaysSuccess replies rest → c.ret = 0 ∧ stream c.left = rest
  otherwise : (¬ ∃ rest, SaysSuccess replies rest) → c.ret < 0

/-- The ATYP of a reply of success is one that RFC 1928 has, unless the stream ends within the
seven bytes that follow the next. -/
def KnownType (replies : List UInt8) : Prop :=
  ∀ atyp extraByte tail, replies = expectedReply ++ [atyp, extraByte] ++ tail →
    7 ≤ tail.length → atyp = 0x01 ∨ atyp = 0x03 ∨ atyp = 0x04

/-- There is memory for a domain name that does not fit into the buffer on the stack. -/
def RoomForName (malloc : Nat → Bool) (replies : List UInt8) : Prop :=
  ∀ (n : UInt8) (tail : List UInt8), replies = expectedReply ++ [0x03, n] ++ tail →
    62 ≤ n.toNat → n.toNat + 2 ≤ tail.length → malloc (n.toNat + 3) = true

theorem boundAddress_iff {atyp extraByte : UInt8} {bytes : List UInt8} :
    BoundAddress (atyp :: extraByte :: bytes) ↔
      (atyp = 0x01 ∨ atyp = 0x03 ∨ atyp = 0x04) ∧ bytes.length = remaining atyp extraByte := by
  unfold remaining
  constructor
  · intro h
    generalize hbound : atyp :: extraByte :: bytes = bound at h
    cases h with
    | v4 bytes' hlen =>
      cases hbound
      exact ⟨.inl rfl, by simpa using hlen⟩
    | domain n bytes' hlen =>
      cases hbound
      exact ⟨.inr (.inl rfl), hlen⟩
    | v6 bytes' hlen =>
      cases hbound
      exact ⟨.inr (.inr rfl), by simpa using hlen⟩
  · rintro ⟨rfl | rfl | rfl, hlen⟩
    · exact .v4 _ (by simpa using hlen)
    · exact .domain _ _ hlen
    · exact .v6 _ (by simpa using hlen)

theorem BoundAddress.two_bytes {bound : List UInt8} (h : BoundAddress bound) :
    ∃ atyp extraByte bytes, bound = atyp :: extraByte :: bytes := by
  cases h with
  | v4 bytes hlen =>
    obtain ⟨extraByte, bytes, rfl⟩ := List.exists_cons_of_length_eq_add_one hlen
    exact ⟨_, _, _, rfl⟩
  | domain n bytes _ => exact ⟨_, _, _, rfl⟩
  | v6 bytes hlen =>
    obtain ⟨extraByte, bytes, rfl⟩ := List.exists_cons_of_length_eq_add_one hlen
    exact ⟨_, _, _, rfl⟩

/-- Success, told by the seven bytes read first. -/
theorem saysSuccess_iff {reply tail rest : List UInt8} (hlen : reply.length = 7) :
    SaysSuccess (reply ++ tail) rest ↔
      reply.take 5 = expectedReply ∧
        (reply.getD 5 0 = 0x01 ∨ reply.getD 5 0 = 0x03 ∨ reply.getD 5 0 = 0x04) ∧
        remaining (reply.getD 5 0) (reply.getD 6 0) ≤ tail.length ∧
        rest = tail.drop (remaining (reply.getD 5 0) (reply.getD 6 0)) := by
  obtain ⟨a, b, c, d, e, atyp, extraByte, rfl⟩ :
      ∃ a b c d e atyp extraByte, reply = [a, b, c, d, e, atyp, extraByte] := by
    rcases reply with _ | ⟨a, _ | ⟨b, _ | ⟨c, _ | ⟨d, _ | ⟨e, _ | ⟨atyp, _ | ⟨extraByte, _ | ⟨_, _⟩⟩⟩⟩⟩⟩⟩⟩
      <;> simp at hlen
    exact ⟨a, b, c, d, e, atyp, extraByte, rfl⟩
  show SaysSuccess _ _ ↔ [a, b, c, d, e] = expectedReply ∧ (atyp = 0x01 ∨ atyp = 0x03 ∨ atyp = 0x04) ∧
    remaining atyp extraByte ≤ tail.length ∧ rest = tail.drop (remaining atyp extraByte)
  constructor
  · rintro ⟨bound, hbound, heq⟩
    obtain ⟨atyp', extraByte', bytes, rfl⟩ := hbound.two_bytes
    have hsame : [a, b, c, d, e] ++ (atyp :: extraByte :: tail) =
        expectedReply ++ (atyp' :: extraByte' :: bytes ++ rest) := by
      rw [← List.append_assoc, ← heq]
      rfl
    obtain ⟨hfront, hback⟩ := List.append_inj hsame rfl
    cases hback
    obtain ⟨htype, hsize⟩ := boundAddress_iff.mp hbound
    refine ⟨hfront, htype, ?_, ?_⟩
    · rw [← hsize]
      show bytes.length ≤ (bytes ++ rest).length
      rw [List.length_append]
      omega
    · rw [← hsize]
      exact (List.drop_left : (bytes ++ rest).drop bytes.length = rest).symm
  · rintro ⟨hfront, htype, hsize, rfl⟩
    refine ⟨atyp :: extraByte :: tail.take (remaining atyp extraByte),
      boundAddress_iff.mpr ⟨htype, List.length_take_of_le hsize⟩, ?_⟩
    rw [← hfront]
    simp

theorem remaining_unknown {atyp : UInt8} (h : ¬ (atyp = 0x01 ∨ atyp = 0x03 ∨ atyp = 0x04))
    (extraByte : UInt8) : remaining atyp extraByte = 7 := by
  rw [not_or, not_or] at h
  unfold remaining
  rw [if_neg h.1, if_neg h.2.1, if_neg h.2.2]

/-- Only a domain name does not fit into the buffer on the stack. -/
theorem remaining_large {atyp extraByte : UInt8} (h : remaining atyp extraByte + 1 > bufferSize) :
    atyp = 0x03 ∧ remaining atyp extraByte = extraByte.toNat + 2 ∧ 62 ≤ extraByte.toNat := by
  unfold remaining bufferSize at *
  split_ifs at h ⊢ with h1 h3 h4
  · omega
  · exact ⟨h3, rfl, by omega⟩
  · omega
  · omega

section
variable {malloc : Nat → Bool} {addr : SockAddr} {arrivals : List Arrival}

/-- Fewer than seven bytes are an error, and no reply. -/
theorem takesReply_short (h : (stream arrivals).length < 7) :
    TakesReply (stream arrivals) (readReplies malloc addr arrivals) := by
  have hshort : (recvAll arrivals 7).1.length ≠ 7 := by
    rw [(recvAll_spec arrivals 7).1, List.length_take]
    omega
  have hret : readReplies malloc addr arrivals = ⟨-1, connectRequest addr, (recvAll arrivals 7).2⟩ :=
    if_pos hshort
  rw [hret]
  refine ⟨?_, fun _ => Int.negSucc_lt_zero 0⟩
  rintro rest ⟨bound, hbound, heq⟩
  obtain ⟨atyp, extraByte, bytes, rfl⟩ := hbound.two_bytes
  rw [heq] at h
  simp [expectedReply] at h
  omega

/-- How the function ends when it has the seven bytes that reveal ATYP. -/
theorem readReplies_spec {reply tail : List UInt8} (hlen : reply.length = 7)
    (hstream : stream arrivals = reply ++ tail) :
    let k := remaining (reply.getD 5 0) (reply.getD 6 0)
    if reply.take 5 = expectedReply ∧ ¬ (k + 1 > bufferSize ∧ malloc (k + 1) = false) ∧
        k ≤ tail.length then
      (readReplies malloc addr arrivals).ret = 0 ∧
        stream (readReplies malloc addr arrivals).left = tail.drop k
    else (readReplies malloc addr arrivals).ret < 0 := by
  intro k
  obtain ⟨hreceived, hleft⟩ := recvAll_append hstream hlen
  obtain ⟨hreceived', hleft'⟩ := recvAll_spec (recvAll arrivals 7).2 k
  rw [hleft] at hreceived' hleft'
  have hminus : ∀ sent left, (Connect.mk (-1) sent left).ret < 0 := fun _ _ => Int.negSucc_lt_zero 0
  unfold readReplies
  simp only [hreceived, if_neg (not_not_intro hlen)]
  by_cases hmatch : reply.take 5 = expectedReply
  · rw [if_neg (not_not_intro hmatch)]
    by_cases hmalloc : k + 1 > bufferSize ∧ malloc (k + 1) = false
    · rw [if_pos hmalloc, if_neg (fun h => h.2.1 hmalloc)]
      exact hminus _ _
    · rw [if_neg hmalloc, hreceived']
      by_cases henough : k ≤ tail.length
      · rw [if_pos ⟨hmatch, hmalloc, henough⟩,
          if_neg (not_not_intro (List.length_take_of_le henough))]
        exact ⟨rfl, hleft'⟩
      · rw [if_neg (fun h => henough h.2.2), if_pos (by rw [List.length_take]; omega)]
        exact hminus _ _
  · rw [if_pos hmatch, if_neg (fun h => hmatch h.1)]
    split
    · next hrep =>
      show -((reply.getD 3 0).toNat : Int) < 0
      have hpos : (reply.getD 3 0).toNat ≠ 0 := fun h => hrep (UInt8.toNat_inj.mp h)
      omega
    · exact hminus _ _

/-- What is taken for a reply of success although it is none, or is one and is refused. -/
theorem takesReply_long {reply tail : List UInt8} (hlen : reply.length = 7)
    (hstream : stream arrivals = reply ++ tail) :
    TakesReply (reply ++ tail) (readReplies malloc addr arrivals) ↔
      (reply.take 5 = expectedReply →
        remaining (reply.getD 5 0) (reply.getD 6 0) ≤ tail.length →
        (reply.getD 5 0 = 0x01 ∨ reply.getD 5 0 = 0x03 ∨ reply.getD 5 0 = 0x04) ∧
          ¬ (remaining (reply.getD 5 0) (reply.getD 6 0) + 1 > bufferSize ∧
            malloc (remaining (reply.getD 5 0) (reply.getD 6 0) + 1) = false)) := by
  have hspec := @readReplies_spec malloc addr arrivals reply tail hlen hstream
  simp only at hspec
  have hiff (rest : List UInt8) := @saysSuccess_iff reply tail rest hlen
  constructor
  · intro htakes hmatch henough
    by_cases htype : reply.getD 5 0 = 0x01 ∨ reply.getD 5 0 = 0x03 ∨ reply.getD 5 0 = 0x04
    · refine ⟨htype, fun hmalloc => ?_⟩
      rw [if_neg (fun h => h.2.1 hmalloc)] at hspec
      have hzero := (htakes.success _ ((hiff _).mpr ⟨hmatch, htype, henough, rfl⟩)).1
      omega
    · have hnone : ¬ ∃ rest, SaysSuccess (reply ++ tail) rest :=
        fun ⟨rest, h⟩ => htype ((hiff rest).mp h).2.1
      have hneg := htakes.otherwise hnone
      have hsmall : ¬ remaining (reply.getD 5 0) (reply.getD 6 0) + 1 > bufferSize := by
        rw [remaining_unknown htype]
        decide
      rw [if_pos ⟨hmatch, fun h => hsmall h.1, henough⟩] at hspec
      omega
  · intro hgood
    constructor
    · intro rest hsuccess
      obtain ⟨hmatch, -, henough, rfl⟩ := (hiff rest).mp hsuccess
      rw [if_pos ⟨hmatch, (hgood hmatch henough).2, henough⟩] at hspec
      exact hspec
    · intro hnone
      rw [if_neg ?_] at hspec
      · exact hspec
      · rintro ⟨hmatch, -, henough⟩
        exact hnone ⟨_, (hiff _).mpr ⟨hmatch, (hgood hmatch henough).1, henough, rfl⟩⟩

end

/-- With the request sent, the function takes a reply of success whole or returns an error,
exactly when a reply of success has a known ATYP and there is memory for its bound address. -/
theorem takesReply_readReplies_iff (malloc : Nat → Bool) (addr : SockAddr)
    (arrivals : List Arrival) :
    TakesReply (stream arrivals) (readReplies malloc addr arrivals) ↔
      KnownType (stream arrivals) ∧ RoomForName malloc (stream arrivals) := by
  rcases Nat.lt_or_ge (stream arrivals).length 7 with hshort | hlong
  · refine iff_of_true (takesReply_short hshort) ⟨?_, ?_⟩
    · intro atyp extraByte tail heq
      rw [heq] at hshort
      simp [expectedReply] at hshort
      omega
    · intro n tail heq
      rw [heq] at hshort
      simp [expectedReply] at hshort
      omega
  · obtain ⟨reply, tail, hstream, hlen⟩ : ∃ reply tail, stream arrivals = reply ++ tail ∧
        reply.length = 7 :=
      ⟨(stream arrivals).take 7, (stream arrivals).drop 7, (List.take_append_drop _ _).symm,
        List.length_take_of_le hlong⟩
    rw [hstream, takesReply_long hlen hstream]
    -- A reply of success is told by its first seven bytes.
    have hsplit (atyp extraByte : UInt8) (tail' : List UInt8) :
        reply ++ tail = expectedReply ++ [atyp, extraByte] ++ tail' ↔
          (reply = expectedReply ++ [atyp, extraByte] ∧ tail = tail') := by
      constructor
      · intro heq
        exact List.append_inj heq (by rw [hlen]; rfl)
      · rintro ⟨rfl, rfl⟩
        rfl
    constructor
    · intro hgood
      constructor
      · intro atyp extraByte tail' heq hseven
        obtain ⟨rfl, rfl⟩ := (hsplit atyp extraByte tail').mp heq
        by_contra hunknown
        refine hunknown (hgood rfl ?_).1
        show remaining atyp extraByte ≤ tail.length
        rw [remaining_unknown hunknown]
        exact hseven
      · intro n tail' heq hlarge henough
        obtain ⟨rfl, rfl⟩ := (hsplit 0x03 n tail').mp heq
        have hroom := (hgood rfl henough).2
        by_contra hnone
        refine hroom ⟨?_, Bool.eq_false_iff.mpr hnone⟩
        show n.toNat + 2 + 1 > 64
        omega
    · rintro ⟨hknown, hroom⟩ hmatch henough
      obtain ⟨atyp, extraByte, rfl⟩ : ∃ atyp extraByte, reply = expectedReply ++ [atyp, extraByte] := by
        obtain ⟨atyp, extraByte, htwo⟩ := List.length_eq_two.mp
          (show (reply.drop 5).length = 2 by rw [List.length_drop, hlen])
        exact ⟨atyp, extraByte, by rw [← hmatch, ← htwo, List.take_append_drop]⟩
      have henough' : remaining atyp extraByte ≤ tail.length := henough
      have htype : atyp = 0x01 ∨ atyp = 0x03 ∨ atyp = 0x04 := by
        by_contra hunknown
        rw [remaining_unknown hunknown] at henough'
        exact hunknown (hknown atyp extraByte tail rfl henough')
      refine ⟨htype, fun hmalloc => ?_⟩
      obtain ⟨hlarge, hnone⟩ : remaining atyp extraByte + 1 > bufferSize ∧
          malloc (remaining atyp extraByte + 1) = false := hmalloc
      obtain ⟨rfl, hsize, hname⟩ := remaining_large hlarge
      rw [hsize] at hnone henough'
      rw [hroom extraByte tail rfl hname henough'] at hnone
      cases hnone

/-- The function never stores a byte outside of its buffers; and for an address it can ask
for, with the request sent, it takes the replies as it should exactly when a reply of success
has a known ATYP and there is memory for its bound address. -/
theorem takesReply_iff (malloc : Nat → Bool) (send : List UInt8 → Int) (addr : SockAddr)
    (arrivals : List Arrival) :
    ∃ c, socks5ClientConnectIn malloc send addr arrivals = some c ∧
      (addr.IsInet → send (connectRequest addr) = (connectRequest addr).length →
        (TakesReply (stream arrivals) c ↔
          KnownType (stream arrivals) ∧ RoomForName malloc (stream arrivals))) := by
  by_cases hsent : addr.IsInet ∧ send (connectRequest addr) = (connectRequest addr).length
  · exact ⟨_, socks5ClientConnectIn_eq malloc hsent.1 hsent.2 arrivals,
      fun _ _ => takesReply_readReplies_iff malloc addr arrivals⟩
  · obtain ⟨c, hc⟩ := socks5ClientConnectIn_unsent malloc (not_and_or.mp hsent) arrivals
    exact ⟨c, hc, fun haddr hsend => absurd ⟨haddr, hsend⟩ hsent⟩

namespace Sample

/-- A reply of success that names the bound address, and a byte of data. -/
def namedReply : List Arrival :=
  [.bytes 0x05 [0x00, 0x05], .interrupted, .bytes 0x00 [0x00, 0x03, 0x01],
    .bytes 0x78 [0x9c, 0x40, 71]]

/-- Success, ATYP 02 and seven bytes. -/
def unknownReply : List Arrival := [.bytes 0x05 [0x00, 0x05, 0x00, 0x00, 0x02, 0, 0, 0, 0, 0, 0, 0, 0]]

end Sample

/-- The bound name is taken, and the data is left. -/
theorem takesReply_named :
    ∃ c, socks5ClientConnectIn (fun _ => true) (fun data => data.length) Sample.destination
        Sample.namedReply = some c ∧ c.ret = 0 ∧ stream c.left = [71] := by
  obtain ⟨c, hc, hiff⟩ := takesReply_iff (fun _ => true) (fun data => data.length)
    Sample.destination Sample.namedReply
  have hknown : KnownType (stream Sample.namedReply) := by
    intro atyp extraByte tail heq hseven
    cases heq
    exact .inr (.inl rfl)
  have htakes := (hiff trivial rfl).mpr ⟨hknown, fun _ _ _ _ _ => rfl⟩
  exact ⟨c, hc, htakes.success [71] ⟨_, .domain 0x01 [0x78, 0x9c, 0x40] rfl, rfl⟩⟩

/-- An ATYP that is none is taken for a bound address of eight bytes. -/
theorem takesReply_unknown :
    ∃ c, socks5ClientConnectIn (fun _ => true) (fun data => data.length) Sample.destination
        Sample.unknownReply = some c ∧ c.ret = 0 ∧
      ¬ ∃ rest, SaysSuccess (stream Sample.unknownReply) rest := by
  refine ⟨_, rfl, rfl, ?_⟩
  rintro ⟨rest, bound, hbound, heq⟩
  obtain ⟨atyp, extraByte, bytes, rfl⟩ := hbound.two_bytes
  have hatyp : 0x02 = atyp := congrArg (fun l => l.getD 5 0) heq
  have htype := (boundAddress_iff.mp hbound).1
  rw [← hatyp] at htype
  revert htype
  decide

end Proxy
