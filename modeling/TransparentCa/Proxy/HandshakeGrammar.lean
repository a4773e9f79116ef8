import TransparentCa.Proxy.Handshake

/- The requests that the handshake accepts. `Request` is the grammar of RFC 1928 as far as the
   proxy supports it; with replies delivered and the connection or the binding in progress,
   the handshake waits for a connection exactly when the client's bytes begin with such a
   request, and has then asked for the address on the wire (`handshake_grammar`). -/
namespace Proxy
open Effects Prog

/-- ATYP, address and port of a request. -/
inductive Wire : SockAddr → List UInt8 → Prop where
  | v4 (addr : List.Vector UInt8 4) (port : List.Vector UInt8 2) :
      Wire (.inet addr port) (0x01 :: (addr.toList ++ port.toList))
  | v6 (addr : List.Vector UInt8 16) (port : List.Vector UInt8 2) :
      Wire (.inet6 addr port) (0x04 :: (addr.toList ++ port.toList))

/-- The stream is a greeting that offers no authentication, a request, and `rest`. -/
def Request (cmd : UInt8) (addr : SockAddr) (stream rest : List UInt8) : Prop :=
  ∃ (n : UInt8) (methods wire : List UInt8), 1 ≤ n.toNat ∧ methods.length = n.toNat ∧
    0x00 ∈ methods ∧ Wire addr wire ∧
    stream = [0x05, n] ++ methods ++ [0x05, cmd, 0x00] ++ wire ++ rest

/-- The port of an address, in network byte order. -/
def SockAddr.port : SockAddr → List UInt8
  | .inet _ port => port.toList
  | .inet6 _ port => port.toList
  | .other _ => []

/-- Callbacks that deliver every reply, and leave connecting and binding in progress. -/
structure Cooperative
    (answer : List (Event Callback Callback.Val CallbackError) → (o : Callback) →
      Except CallbackError o.Val) : Prop where
  response : ∀ history data, answer history (.response data) = Except.ok CallbackStatus.kStatusOK
  connect : ∀ history addr,
    answer history (.connect addr) = Except.ok CallbackStatus.kStatusInProgress
  bind : ∀ history port, ∃ (ret : CallbackStatus) (bound : UInt16),
    answer history (.bind port) = Except.ok (ret, bound) ∧ ret ≠ .kStatusFail

namespace Socks5State

/-- The handshake in state `st`, where it waits for `size` bytes. -/
def reached (s : Socks5State) (st : HandshakeState) (size : Nat) : Socks5State :=
  { s with state_ := st, required_size_ := size }

/-- The loop ended without a call, and no connection is waited for. -/
def Idle (p : Callbacks (Socks5State × List UInt8)) : Prop :=
  ∃ s rest, p = .ret (s, rest) ∧ s.state_ ≠ .kWaitConnect ∧ s.state_ ≠ .kWaitAccept

section
variable (s : Socks5State)

theorem idle_of_lt {st : HandshakeState} {size : Nat} {buffer : List UInt8}
    (hst : rank st ≤ 3) (h : buffer.length < size) :
    Idle ((s.reached st size).proceedAll buffer) := by
  refine ⟨_, _, proceedAll_of_lt h, ?_, ?_⟩
  · rintro rfl
    simp [rank] at hst
  · rintro rfl
    simp [rank] at hst

theorem proceedAll_reached {st : HandshakeState} {size : Nat} {buffer : List UInt8}
    (hst : st ≠ .kSuccess) (h : size ≤ buffer.length) :
    (s.reached st size).proceedAll buffer =
      ((s.reached st size).transition buffer).bind (fun o =>
        if o.1 then o.2.1.proceedAll o.2.2 else .ret (o.2.1, o.2.2)) :=
  proceedAll_of_le hst h

/-! ## The greeting -/

theorem proceedAll_greetingHeader (b n : UInt8) (tail : List UInt8) :
    (s.reached .kGreetingHeader 2).proceedAll (b :: n :: tail) =
      if b ≠ 0x05 ∨ n = 0 then .ret (s.reached .kFail 2, tail)
      else (s.reached .kGreetingMethods n.toNat).proceedAll tail := by
  rw [s.proceedAll_reached (by decide) (by simp)]
  show (greetingHeader _ _).bind _ = _
  simp only [greetingHeader, copyOut, List.take_succ_cons, List.take_zero, List.getD_cons_zero,
    List.getD_cons_succ, List.drop_succ_cons, List.drop_zero]
  split <;> rfl

theorem greeting_cases (stream : List UInt8) :
    Idle ((s.reached .kGreetingHeader 2).proceedAll stream) ∨
      ∃ n tail, stream = 0x05 :: n :: tail ∧ n ≠ 0 := by
  match stream with
  | [] => exact .inl (s.idle_of_lt (by decide) (by decide))
  | [_] => exact .inl (s.idle_of_lt (by decide) (by simp))
  | b :: n :: tail =>
    by_cases hbad : b ≠ 0x05 ∨ n = 0
    · refine .inl ⟨s.reached .kFail 2, tail, ?_, nofun, nofun⟩
      rw [proceedAll_greetingHeader, if_pos hbad]
    · rw [not_or, not_not] at hbad
      exact .inr ⟨n, tail, by rw [hbad.1], hbad.2⟩

/-- The greeting's reply, and the loop that goes on when it was delivered. -/
def afterGreeting (size : Nat) (tail : List UInt8) : Callbacks (Socks5State × List UInt8) :=
  (Callback.callResponse [0x05, 0x00]).bind (fun ret =>
    if ret ≠ .kStatusOK then .ret (s.reached .kFail size, tail)
    else (s.reached .kRequestHeader 4).proceedAll tail)

theorem proceedAll_greetingMethods (hs : s.response_callback_ = true) (methods tail : List UInt8) :
    (s.reached .kGreetingMethods methods.length).proceedAll (methods ++ tail) =
      if 0x00 ∉ methods then .ret (s.reached .kFail methods.length, tail)
      else s.afterGreeting methods.length tail := by
  rw [s.proceedAll_reached (by decide) (by simp)]
  have hcopy : copyOut (methods ++ tail) methods.length = (methods, tail) := by
    simp [copyOut]
  show (greetingMethods _ _).bind _ = _
  simp only [greetingMethods]
  rw [show (s.reached .kGreetingMethods methods.length).required_size_ = methods.length from rfl,
    hcopy]
  simp only [Prog.ite_bind]
  split
  · rfl
  · rw [if_pos (show (s.reached .kGreetingMethods methods.length).response_callback_ = true from hs)]
    unfold afterGreeting respond
    rw [if_pos (show (s.reached .kGreetingMethods methods.length).response_callback_ = true from hs),
      bind_eq, Prog.bind_assoc]
    congr 1
    funext ret
    rw [Prog.ite_bind]
    rfl

theorem methods_cases (hs : s.response_callback_ = true) (n : Nat) (buffer : List UInt8) :
    Idle ((s.reached .kGreetingMethods n).proceedAll buffer) ∨
      ∃ methods tail, buffer = methods ++ tail ∧ methods.length = n ∧ 0x00 ∈ methods := by
  rcases Nat.lt_or_ge buffer.length n with hlen | hlen
  · exact .inl (s.idle_of_lt (by decide) hlen)
  · have hbuffer := (List.take_append_drop n buffer).symm
    have htake : (buffer.take n).length = n := List.length_take_of_le hlen
    by_cases hzero : 0x00 ∈ buffer.take n
    · exact .inr ⟨buffer.take n, buffer.drop n, hbuffer, htake, hzero⟩
    · refine .inl ⟨s.reached .kFail n, buffer.drop n, ?_, nofun, nofun⟩
      have heq := s.proceedAll_greetingMethods hs (buffer.take n) (buffer.drop n)
      rw [← hbuffer, htake, if_pos hzero] at heq
      exact heq

/-! ## The request -/

theorem proceedAll_requestHeader (b cmd r atyp : UInt8) (tail : List UInt8) :
    (s.reached .kRequestHeader 4).proceedAll (b :: cmd :: r :: atyp :: tail) =
      if b ≠ 0x05 ∨ r ≠ 0x00 then .ret (s.reached .kFail 4, tail)
      else if cmd = 0x01 then
        if atyp = 0x01 then (s.reached .kRequestAddrV4 6).proceedAll tail
        else if atyp = 0x03 then .ret (s.reached .kFail 4, tail)
        else if atyp = 0x04 then (s.reached .kRequestAddrV6 18).proceedAll tail
        else .ret (s.reached .kFail 4, tail)
      else if cmd = 0x02 then
        if atyp = 0x01 then (s.reached .kRequestBind 6).proceedAll tail
        else if atyp = 0x03 then .ret (s.reached .kFail 4, tail)
        else if atyp = 0x04 then (s.reached .kRequestBind 18).proceedAll tail
        else .ret (s.reached .kFail 4, tail)
      else .ret (s.reached .kFail 4, tail) := by
  rw [s.proceedAll_reached (by decide) (by simp)]
  show (requestHeader _ _).bind _ = _
  simp only [requestHeader, copyOut, List.take_succ_cons, List.take_zero, List.getD_cons_zero,
    List.getD_cons_succ, List.drop_succ_cons, List.drop_zero]
  split_ifs <;> rfl

theorem copyOut_vector {n : Nat} (v : List.Vector UInt8 n) (rest : List UInt8) :
    copyOut (v.toList ++ rest) n = (v.toList, rest) := by
  have hlen : v.toList.length = n := v.toList_length
  simp [copyOut, List.take_append_of_le_length (Nat.le_of_eq hlen.symm),
    List.drop_append_of_le_length (Nat.le_of_eq hlen.symm), hlen, List.take_of_length_le,
    List.drop_of_length_le]

/-- The call of the connect callback, and the loop after it. -/
def afterConnect (addr : SockAddr) (tail : List UInt8) : Callbacks (Socks5State × List UInt8) :=
  (Callback.callConnect addr).bind (fun ret =>
    match ret with
    | .kStatusOK => (s.reached .kResponse 0).proceedAll tail
    | .kStatusInProgress => .ret (s.reached .kWaitConnect 0, tail)
    | .kStatusFail => .ret (s.reached .kFail 0, tail))

/-- The call of the bind callback, and the reply after it. -/
def afterBind (port : List UInt8) (tail : List UInt8) : Callbacks (Socks5State × List UInt8) :=
  (Callback.callBind (ntohs port)).bind (fun r =>
    if r.1 = .kStatusFail then .ret (s.reached .kFail 0, tail)
    else (Callback.callResponse (bindResp r.2)).bind (fun ret =>
      if ret = .kStatusFail then .ret (s.reached .kFail 0, tail)
      else .ret (s.reached .kWaitAccept 0, tail)))

theorem requestConnect_bind (hs : s.connect_callback_ = true) (st : HandshakeState) (size : Nat)
    (addr : SockAddr) (tail : List UInt8) :
    ((s.reached st size).requestConnect addr tail).bind (fun o =>
      if o.1 then o.2.1.proceedAll o.2.2 else .ret (o.2.1, o.2.2)) = s.afterConnect addr tail := by
  unfold requestConnect afterConnect
  simp only
  rw [if_pos (show (s.reached st size).connect_callback_ = true from hs), bind_eq, Prog.bind_assoc]
  congr 1
  funext ret
  cases ret <;> rfl

theorem proceedAll_requestAddrV4 (hs : s.connect_callback_ = true) (addr : List.Vector UInt8 4)
    (port : List.Vector UInt8 2) (tail : List UInt8) :
    (s.reached .kRequestAddrV4 6).proceedAll (addr.toList ++ (port.toList ++ tail)) =
      s.afterConnect (.inet addr port) tail := by
  rw [s.proceedAll_reached (by decide) (by simp; omega), ← s.requestConnect_bind hs .kRequestAddrV4 6]
  show (requestAddrV4 _ _).bind _ = _
  simp only [requestAddrV4, copyOut_vector, copyTo_toList]

theorem proceedAll_requestAddrV6 (hs : s.connect_callback_ = true) (addr : List.Vector UInt8 16)
    (port : List.Vector UInt8 2) (tail : List UInt8) :
    (s.reached .kRequestAddrV6 18).proceedAll (addr.toList ++ (port.toList ++ tail)) =
      s.afterConnect (.inet6 addr port) tail := by
  rw [s.proceedAll_reached (by decide) (by simp; omega), ← s.requestConnect_bind hs .kRequestAddrV6 18]
  show (requestAddrV6 _ _).bind _ = _
  simp only [requestAddrV6, copyOut_vector, copyTo_toList]

theorem proceedAll_requestBind (hs : s.response_callback_ = true) (hb : s.bind_callback_ = true)
    {n : Nat} (addr : List.Vector UInt8 n) (port : List.Vector UInt8 2) (tail : List UInt8) :
    (s.reached .kRequestBind (n + 2)).proceedAll (addr.toList ++ (port.toList ++ tail)) =
      s.afterBind port.toList tail := by
  rw [s.proceedAll_reached (by decide) (by simp)]
  show (requestBind _ _).bind _ = _
  simp only [requestBind]
  rw [show (s.reached .kRequestBind (n + 2)).required_size_ - 2 = n from rfl, copyOut_vector]
  simp only [copyOut_vector, respond]
  rw [if_pos (show (s.reached .kRequestBind (n + 2)).bind_callback_ = true from hb), bind_eq,
    Prog.bind_assoc]
  unfold afterBind
  congr 1
  funext r
  rw [Prog.ite_bind]
  split
  · rfl
  · rw [if_pos (show (s.reached .kRequestBind (n + 2)).response_callback_ = true from hs), bind_eq,
      Prog.bind_assoc]
    congr 1
    funext ret
    rw [Prog.ite_bind]
    rfl

/-- An address and a port at the front of the buffer. -/
theorem address_cases {n : Nat} {buffer : List UInt8} (h : n + 2 ≤ buffer.length) :
    ∃ (addr : List.Vector UInt8 n) (port : List.Vector UInt8 2) (tail : List UInt8),
      buffer = addr.toList ++ (port.toList ++ tail) := by
  refine ⟨⟨buffer.take n, ?_⟩, ⟨(buffer.drop n).take 2, ?_⟩, (buffer.drop n).drop 2, ?_⟩
  · rw [List.length_take]
    omega
  · rw [List.length_take, List.length_drop]
    omega
  · show buffer = buffer.take n ++ ((buffer.drop n).take 2 ++ (buffer.drop n).drop 2)
    rw [List.take_append_drop, List.take_append_drop]

theorem request_cases (buffer : List UInt8) :
    Idle ((s.reached .kRequestHeader 4).proceedAll buffer) ∨
      ∃ cmd addr wire rest, (cmd = 0x01 ∨ cmd = 0x02) ∧ Wire addr wire ∧
        buffer = [0x05, cmd, 0x00] ++ wire ++ rest := by
  rcases Nat.lt_or_ge buffer.length 4 with hlen | hlen
  · exact .inl (s.idle_of_lt (by decide) hlen)
  · obtain ⟨b, cmd, r, atyp, tail, rfl⟩ : ∃ b cmd r atyp tail, buffer = b :: cmd :: r :: atyp :: tail := by
      match buffer, hlen with
      | b :: cmd :: r :: atyp :: tail, _ => exact ⟨b, cmd, r, atyp, tail, rfl⟩
    have hidle : Idle (.ret (s.reached .kFail 4, tail)) := ⟨_, _, rfl, nofun, nofun⟩
    -- The loop stops at the address, or the address is there.
    have haddr (st : HandshakeState) (n : Nat) (hst : rank st ≤ 3) :
        Idle ((s.reached st (n + 2)).proceedAll tail) ∨
          ∃ (addr : List.Vector UInt8 n) (port : List.Vector UInt8 2) (rest : List UInt8),
            tail = addr.toList ++ (port.toList ++ rest) := by
      rcases Nat.lt_or_ge tail.length (n + 2) with hlt | hle
      · exact .inl (s.idle_of_lt hst hlt)
      · exact .inr (address_cases hle)
    rw [proceedAll_requestHeader]
    by_cases hbad : b ≠ 0x05 ∨ r ≠ 0x00
    · rw [if_pos hbad]
      exact .inl hidle
    · rw [if_neg hbad]
      rw [not_or, not_not, not_not] at hbad
      obtain ⟨rfl, rfl⟩ := hbad
      split_ifs with hcmd hv4 hv3 hv6 hcmd' hv4 hv3 hv6
      · refine (haddr .kRequestAddrV4 4 (by decide)).imp_right ?_
        rintro ⟨addr, port, rest, rfl⟩
        exact ⟨cmd, _, _, rest, .inl hcmd, .v4 addr port, by simp [hv4]⟩
      · exact .inl hidle
      · refine (haddr .kRequestAddrV6 16 (by decide)).imp_right ?_
        rintro ⟨addr, port, rest, rfl⟩
        exact ⟨cmd, _, _, rest, .inl hcmd, .v6 addr port, by simp [hv6]⟩
      · exact .inl hidle
      · refine (haddr .kRequestBind 4 (by decide)).imp_right ?_
        rintro ⟨addr, port, rest, rfl⟩
        exact ⟨cmd, _, _, rest, .inr hcmd', .v4 addr port, by simp [hv4]⟩
      · exact .inl hidle
      · refine (haddr .kRequestBind 16 (by decide)).imp_right ?_
        rintro ⟨addr, port, rest, rfl⟩
        exact ⟨cmd, _, _, rest, .inr hcmd', .v6 addr port, by simp [hv6]⟩
      · exact .inl hidle
      · exact .inl hidle

theorem proceedAll_connect (hs : s.connect_callback_ = true) {addr : SockAddr} {wire : List UInt8}
    (hwire : Wire addr wire) (rest : List UInt8) :
    (s.reached .kRequestHeader 4).proceedAll ([0x05, 0x01, 0x00] ++ wire ++ rest) =
      s.afterConnect addr rest := by
  cases hwire with
  | v4 addr port =>
    rw [← s.proceedAll_requestAddrV4 hs, ← List.append_assoc]
    exact s.proceedAll_requestHeader 0x05 0x01 0x00 0x01 _
  | v6 addr port =>
    rw [← s.proceedAll_requestAddrV6 hs, ← List.append_assoc]
    exact s.proceedAll_requestHeader 0x05 0x01 0x00 0x04 _

theorem proceedAll_bind (hs : s.response_callback_ = true) (hb : s.bind_callback_ = true)
    {addr : SockAddr} {wire : List UInt8} (hwire : Wire addr wire) (rest : List UInt8) :
    (s.reached .kRequestHeader 4).proceedAll ([0x05, 0x02, 0x00] ++ wire ++ rest) =
      s.afterBind addr.port rest := by
  cases hwire with
  | v4 addr port =>
    show _ = s.afterBind port.toList rest
    rw [← s.proceedAll_requestBind hs hb addr, ← List.append_assoc]
    exact s.proceedAll_requestHeader 0x05 0x02 0x00 0x01 _
  | v6 addr port =>
    show _ = s.afterBind port.toList rest
    rw [← s.proceedAll_requestBind hs hb addr, ← List.append_assoc]
    exact s.proceedAll_requestHeader 0x05 0x02 0x00 0x04 _

/-- The greeting of a request. -/
theorem proceedAll_request (hs : s.response_callback_ = true) {n : UInt8} {methods : List UInt8}
    (hn : 1 ≤ n.toNat) (hlen : methods.length = n.toNat) (hzero : 0x00 ∈ methods)
    (tail : List UInt8) :
    (s.reached .kGreetingHeader 2).proceedAll ([0x05, n] ++ methods ++ tail) =
      s.afterGreeting n.toNat tail := by
  have hne : n ≠ 0 := by
    rintro rfl
    simp at hn
  have hgreeting := s.proceedAll_greetingHeader 0x05 n (methods ++ tail)
  rw [if_neg (by simp [hne]), ← hlen, s.proceedAll_greetingMethods hs,
    if_neg (not_not_intro hzero), hlen] at hgreeting
  rw [← hgreeting]
  simp

theorem stream_cases (hs : s.response_callback_ = true) (stream : List UInt8) :
    Idle ((s.reached .kGreetingHeader 2).proceedAll stream) ∨
      (∃ size tail, (s.reached .kGreetingHeader 2).proceedAll stream = s.afterGreeting size tail ∧
        Idle ((s.reached .kRequestHeader 4).proceedAll tail)) ∨
      ∃ cmd addr rest, (cmd = 0x01 ∨ cmd = 0x02) ∧ Request cmd addr stream rest := by
  rcases s.greeting_cases stream with hidle | ⟨n, tail, rfl, hn⟩
  · exact .inl hidle
  · have hheader := s.proceedAll_greetingHeader 0x05 n tail
    rw [if_neg (by simp [hn])] at hheader
    rcases s.methods_cases hs n.toNat tail with hidle | ⟨methods, rest, rfl, hlen, hzero⟩
    · rw [hheader]
      exact .inl hidle
    · have hpos : 1 ≤ n.toNat := by
        have hne : n.toNat ≠ 0 := fun h => hn (UInt8.toNat_inj.mp h)
        omega
      have hgreeting := s.proceedAll_request hs hpos hlen hzero rest
      refine .inr ?_
      rcases s.request_cases rest with hidle | ⟨cmd, addr, wire, rest, hcmd, hwire, rfl⟩
      · exact .inl ⟨n.toNat, rest, by simpa using hgreeting, hidle⟩
      · exact .inr ⟨cmd, addr, rest, hcmd, n, methods, wire, hpos, hlen, hzero, hwire, by simp⟩

/-! ## Cooperative callbacks -/

variable {answer : List (Event Callback Callback.Val CallbackError) → (o : Callback) →
  Except CallbackError o.Val}

theorem exec_callResponse (hc : Cooperative answer) (data : List UInt8)
    (history : List (Event Callback Callback.Val CallbackError)) :
    exec answer (Callback.callResponse data) history =
      (.ok .kStatusOK, [⟨.response data, Except.ok CallbackStatus.kStatusOK⟩]) := by
  refine (exec_invoke answer (.response data) history).trans ?_
  rw [hc.response]
  rfl

theorem exec_callConnect (hc : Cooperative answer) (addr : SockAddr)
    (history : List (Event Callback Callback.Val CallbackError)) :
    exec answer (Callback.callConnect addr) history =
      (.ok .kStatusInProgress, [⟨.connect addr, Except.ok CallbackStatus.kStatusInProgress⟩]) := by
  refine (exec_invoke answer (.connect addr) history).trans ?_
  rw [hc.connect]
  rfl

theorem exec_callBind (hc : Cooperative answer) (port : UInt16)
    (history : List (Event Callback Callback.Val CallbackError)) :
    ∃ (ret : CallbackStatus) (bound : UInt16), ret ≠ .kStatusFail ∧
      exec answer (Callback.callBind port) history =
        (.ok (ret, bound), [⟨.bind port, Except.ok (ret, bound)⟩]) := by
  obtain ⟨ret, bound, hanswer, hret⟩ := hc.bind history port
  refine ⟨ret, bound, hret, (exec_invoke answer (.bind port) history).trans ?_⟩
  rw [hanswer]
  rfl

theorem exec_afterGreeting (hc : Cooperative answer) (size : Nat) (tail : List UInt8)
    (history : List (Event Callback Callback.Val CallbackError)) :
    ∃ history', exec answer (s.afterGreeting size tail) history =
      ((exec answer ((s.reached .kRequestHeader 4).proceedAll tail) history').1,
        ⟨.response [0x05, 0x00], Except.ok CallbackStatus.kStatusOK⟩ ::
          (exec answer ((s.reached .kRequestHeader 4).proceedAll tail) history').2) := by
  refine ⟨history ++ [⟨.response [0x05, 0x00], Except.ok CallbackStatus.kStatusOK⟩], ?_⟩
  unfold afterGreeting
  rw [exec_bind, exec_callResponse hc]
  rfl

/-- What the callbacks were called with, and where the handshake stands. -/
theorem exec_connect (hc : Cooperative answer) (hs : s.response_callback_ = true)
    (hconnect : s.connect_callback_ = true) {addr : SockAddr} {stream rest : List UInt8}
    (h : Request 0x01 addr stream rest)
    (history : List (Event Callback Callback.Val CallbackError)) :
    exec answer ((s.reached .kGreetingHeader 2).proceedAll stream) history =
      (.ok (s.reached .kWaitConnect 0, rest),
        [⟨.response [0x05, 0x00], Except.ok CallbackStatus.kStatusOK⟩,
          ⟨.connect addr, Except.ok CallbackStatus.kStatusInProgress⟩]) := by
  obtain ⟨n, methods, wire, hn, hlen, hzero, hwire, rfl⟩ := h
  have hgreeting := s.proceedAll_request hs hn hlen hzero ([0x05, 0x01, 0x00] ++ wire ++ rest)
  simp only [← List.append_assoc] at hgreeting
  obtain ⟨history', heq⟩ := s.exec_afterGreeting hc n.toNat
    ([0x05, 0x01, 0x00] ++ wire ++ rest) history
  rw [s.proceedAll_connect hconnect hwire, afterConnect, exec_bind, exec_callConnect hc] at heq
  rw [hgreeting, heq]
  rfl

theorem exec_bind_request (hc : Cooperative answer) (hs : s.response_callback_ = true)
    (hbind : s.bind_callback_ = true) {addr : SockAddr} {stream rest : List UInt8}
    (h : Request 0x02 addr stream rest)
    (history : List (Event Callback Callback.Val CallbackError)) :
    ∃ (ret : CallbackStatus) (bound : UInt16),
      exec answer ((s.reached .kGreetingHeader 2).proceedAll stream) history =
        (.ok (s.reached .kWaitAccept 0, rest),
          [⟨.response [0x05, 0x00], Except.ok CallbackStatus.kStatusOK⟩,
            ⟨.bind (ntohs addr.port), Except.ok (ret, bound)⟩,
            ⟨.response (bindResp bound), Except.ok CallbackStatus.kStatusOK⟩]) := by
  obtain ⟨n, methods, wire, hn, hlen, hzero, hwire, rfl⟩ := h
  have hgreeting := s.proceedAll_request hs hn hlen hzero ([0x05, 0x02, 0x00] ++ wire ++ rest)
  simp only [← List.append_assoc] at hgreeting
  obtain ⟨history', heq⟩ := s.exec_afterGreeting hc n.toNat
    ([0x05, 0x02, 0x00] ++ wire ++ rest) history
  obtain ⟨ret, bound, hret, hexec⟩ := exec_callBind hc (ntohs addr.port) history'
  refine ⟨ret, bound, ?_⟩
  rw [s.proceedAll_bind hs hbind hwire, afterBind, exec_bind, hexec] at heq
  simp only [if_neg hret, exec_bind, exec_callResponse hc] at heq
  rw [hgreeting, heq]
  rfl

end

/-- The handshake recognizes the requests at the start of `stream`: where it stands, what it
left in the buffer and which callbacks it called. -/
structure Recognizes (stream : List UInt8) (s : Socks5State) (buffer : List UInt8)
    (calls : List Callback) : Prop where
  connect_iff : s.state_ = .kWaitConnect ↔ ∃ addr rest, Request 0x01 addr stream rest
  accept_iff : s.state_ = .kWaitAccept ↔ ∃ addr rest, Request 0x02 addr stream rest
  connect_calls : ∀ addr rest, Request 0x01 addr stream rest →
    buffer = rest ∧ calls = [.response [0x05, 0x00], .connect addr]
  accept_calls : ∀ addr rest, Request 0x02 addr stream rest → buffer = rest ∧
    ∃ bound, calls = [.response [0x05, 0x00], .bind (ntohs addr.port), .response (bindResp bound)]

section
variable {s : Socks5State} {answer : List (Event Callback Callback.Val CallbackError) →
  (o : Callback) → Except CallbackError o.Val}

/-- The handshake returns, and stands at a connection only after a request. -/
theorem exec_waits (hc : Cooperative answer) (hs : s.response_callback_ = true)
    (hconnect : s.connect_callback_ = true) (hbind : s.bind_callback_ = true)
    (stream : List UInt8) (history : List (Event Callback Callback.Val CallbackError)) :
    ∃ r buffer tr, exec answer ((s.reached .kGreetingHeader 2).proceedAll stream) history =
        (.ok (r, buffer), tr) ∧
      (r.state_ = .kWaitConnect ∨ r.state_ = .kWaitAccept →
        ∃ cmd addr rest, (cmd = 0x01 ∨ cmd = 0x02) ∧ Request cmd addr stream rest) := by
  rcases s.stream_cases hs stream with hidle | ⟨size, tail, heq, hidle⟩ | ⟨cmd, addr, rest, hcmd, h⟩
  · obtain ⟨r, buffer, hret, hne, hne'⟩ := hidle
    refine ⟨r, buffer, [], by rw [hret]; rfl, fun h => ?_⟩
    exact absurd h (not_or.mpr ⟨hne, hne'⟩)
  · obtain ⟨r, buffer, hret, hne, hne'⟩ := hidle
    obtain ⟨history', hexec⟩ := s.exec_afterGreeting hc size tail history
    rw [hret] at hexec
    refine ⟨r, buffer, _, by rw [heq, hexec]; rfl, fun h => ?_⟩
    exact absurd h (not_or.mpr ⟨hne, hne'⟩)
  · rcases hcmd with rfl | rfl
    · exact ⟨_, _, _, s.exec_connect hc hs hconnect h history, fun _ => ⟨_, addr, rest, .inl rfl, h⟩⟩
    · obtain ⟨ret, bound, hexec⟩ := s.exec_bind_request hc hs hbind h history
      exact ⟨_, _, _, hexec, fun _ => ⟨_, addr, rest, .inr rfl, h⟩⟩

theorem exec_recognizes (hc : Cooperative answer) (hs : s.response_callback_ = true)
    (hconnect : s.connect_callback_ = true) (hbind : s.bind_callback_ = true)
    (stream : List UInt8) (history : List (Event Callback Callback.Val CallbackError)) :
    ∃ r buffer tr, exec answer ((s.reached .kGreetingHeader 2).proceedAll stream) history =
        (.ok (r, buffer), tr) ∧ Recognizes stream r buffer (tr.map Event.op) := by
  obtain ⟨r, buffer, tr, hrun, hwaits⟩ := exec_waits hc hs hconnect hbind stream history
  -- A request decides the whole run.
  have hconnected : ∀ addr rest, Request 0x01 addr stream rest → r.state_ = .kWaitConnect ∧
      buffer = rest ∧ tr.map Event.op = [.response [0x05, 0x00], .connect addr] := by
    intro addr rest h
    have hexec := s.exec_connect hc hs hconnect h history
    rw [hrun] at hexec
    cases hexec
    exact ⟨rfl, rfl, rfl⟩
  have haccepted : ∀ addr rest, Request 0x02 addr stream rest → r.state_ = .kWaitAccept ∧
      buffer = rest ∧ ∃ bound, tr.map Event.op =
        [.response [0x05, 0x00], .bind (ntohs addr.port), .response (bindResp bound)] := by
    intro addr rest h
    obtain ⟨ret, bound, hexec⟩ := s.exec_bind_request hc hs hbind h history
    rw [hrun] at hexec
    cases hexec
    exact ⟨rfl, rfl, bound, rfl⟩
  refine ⟨r, buffer, tr, hrun, ?_⟩
  exact
    { connect_iff := by
        refine ⟨fun hstate => ?_, fun ⟨addr, rest, h⟩ => (hconnected addr rest h).1⟩
        obtain ⟨cmd, addr, rest, rfl | rfl, h⟩ := hwaits (.inl hstate)
        · exact ⟨addr, rest, h⟩
        · rw [(haccepted addr rest h).1] at hstate
          cases hstate
      accept_iff := by
        refine ⟨fun hstate => ?_, fun ⟨addr, rest, h⟩ => (haccepted addr rest h).1⟩
        obtain ⟨cmd, addr, rest, rfl | rfl, h⟩ := hwaits (.inr hstate)
        · rw [(hconnected addr rest h).1] at hstate
          cases hstate
        · exact ⟨addr, rest, h⟩
      connect_calls := fun addr rest h => (hconnected addr rest h).2
      accept_calls := fun addr rest h => (haccepted addr rest h).2 }

end

/-! ## Chunks -/

/-- Two runs that made the same calls and left the same state and the same bytes. -/
def SameRun (run run' : Except CallbackError (Socks5State × List UInt8) ×
    List (Event Callback Callback.Val CallbackError)) : Prop :=
  run.2 = run'.2 ∧
    run.1.map (fun r => (r.1.state_, r.2)) = run'.1.map (fun r => (r.1.state_, r.2))

theorem settle_state (s : Socks5State) : s.settle.state_ = s.state_ := by
  unfold settle
  split <;> rfl

/-- Programs that agree but for `required_size_` after a failure have the same runs. -/
theorem sameRun_of_settled {p p' : Callbacks (Socks5State × List UInt8)}
    (h : p.bind settled = p'.bind settled)
    (answer : List (Event Callback Callback.Val CallbackError) → (o : Callback) →
      Except CallbackError o.Val) (history : List (Event Callback Callback.Val CallbackError)) :
    SameRun (exec answer p history) (exec answer p' history) := by
  have hsettled (q : Callbacks (Socks5State × List UInt8)) :
      exec answer (q.bind settled) history =
        ((exec answer q history).1.map (fun r => (r.1.settle, r.2)), (exec answer q history).2) := by
    rw [exec_bind]
    generalize exec answer q history = run
    obtain ⟨e | r, t⟩ := run
    · rfl
    · show (_, t ++ []) = _
      rw [List.append_nil]
      rfl
  have hstate (out : Except CallbackError (Socks5State × List UInt8)) :
      (out.map (fun r => (r.1.settle, r.2))).map (fun r => (r.1.state_, r.2)) =
        out.map (fun r => (r.1.state_, r.2)) := by
    cases out with
    | error e => rfl
    | ok r => exact congrArg (fun st => Except.ok (st, r.2)) (settle_state r.1)
  have heq := congrArg (fun q => exec answer q history) h
  simp only [hsettled] at heq
  refine ⟨(Prod.mk.inj heq).2, ?_⟩
  rw [← hstate, (Prod.mk.inj heq).1, hstate]

/-- However the client's bytes are cut into chunks, the handshake makes the same calls, ends
in the same state and leaves the same bytes; and with cooperative callbacks it waits for a
connection exactly after a request, whose address it passed on. -/
theorem handshake_chunks
    (answer : List (Event Callback Callback.Val CallbackError) → (o : Callback) →
      Except CallbackError o.Val) (history : List (Event Callback Callback.Val CallbackError))
    (chunks : List (List UInt8)) :
    (∀ response connect destAddress bind : Bool,
      SameRun (exec answer (feed (init response connect destAddress bind) [] chunks) history)
        (exec answer (feed (init response connect destAddress bind) [] [chunks.flatten]) history)) ∧
    (Cooperative answer → ∀ destAddress : Bool,
      ∃ s buffer tr, exec answer (feed (init true true destAddress true) [] chunks) history =
          (.ok (s, buffer), tr) ∧ Recognizes chunks.flatten s buffer (tr.map Event.op)) := by
  constructor
  · intro response connect destAddress bind
    have hwhole := feed_eq response connect destAddress bind [chunks.flatten]
    rw [List.flatten_cons, List.flatten_nil, List.append_nil] at hwhole
    exact sameRun_of_settled ((feed_eq ..).trans hwhole.symm) answer history
  · intro hc destAddress
    obtain ⟨r, buffer, tr, hrun, hrec⟩ := exec_recognizes (s := init true true destAddress true)
      hc rfl rfl rfl chunks.flatten history
    obtain ⟨htrace, hstate⟩ := sameRun_of_settled (feed_eq true true destAddress true chunks)
      answer history
    rw [show proceedAll (init true true destAddress true) chunks.flatten =
      ((init true true destAddress true).reached .kGreetingHeader 2).proceedAll chunks.flatten
      from rfl, hrun] at htrace hstate
    generalize exec answer (feed (init true true destAddress true) [] chunks) history = run at *
    obtain ⟨e | ⟨s, buffer'⟩, t⟩ := run
    · cases hstate
    · simp only [Except.map, Except.ok.injEq, Prod.mk.injEq] at htrace hstate
      obtain ⟨hs, rfl⟩ := hstate
      subst htrace
      refine ⟨s, buffer', t, rfl, ?_⟩
      exact ⟨hs ▸ hrec.connect_iff, hs ▸ hrec.accept_iff, hrec.connect_calls, hrec.accept_calls⟩

namespace Sample

/-- The callbacks of a proxy whose clients, destinations and ports are all well. -/
def answer (_ : List (Event Callback Callback.Val CallbackError)) :
    (o : Callback) → Except CallbackError o.Val
  | .response _ => Except.ok CallbackStatus.kStatusOK
  | .connect _ => Except.ok CallbackStatus.kStatusInProgress
  | .destAddress _ => Except.ok (CallbackStatus.kStatusOK, SockAddr.inet (copyTo 4 [10, 0, 0, 2]) (copyTo 2 [4, 0]))
  | .bind port => Except.ok (CallbackStatus.kStatusOK, port)

theorem cooperative : Cooperative answer :=
  ⟨fun _ _ => rfl, fun _ _ => rfl, fun _ port => ⟨.kStatusOK, port, rfl, nofun⟩⟩

end Sample

/-- A request for 10.0.0.1:80 that arrives in three chunks, the last with a byte of data. -/
theorem handshake_chunks_three : Cooperative Sample.answer ∧
    ∃ s tr, exec Sample.answer (feed (init true true true true) []
        [[0x05], [0x01, 0x00, 0x05, 0x01], [0x00, 0x01, 10, 0, 0, 1, 0, 80, 71]]) [] =
          (.ok (s, [71]), tr) ∧ s.state_ = .kWaitConnect ∧
        tr.map Event.op = [.response [0x05, 0x00],
          .connect (.inet (copyTo 4 [10, 0, 0, 1]) (copyTo 2 [0, 80]))] := by
  obtain ⟨s, buffer, tr, hrun, hrec⟩ := (handshake_chunks Sample.answer []
    [[0x05], [0x01, 0x00, 0x05, 0x01], [0x00, 0x01, 10, 0, 0, 1, 0, 80, 71]]).2 Sample.cooperative true
  have hrequest : Request 0x01 (.inet (copyTo 4 [10, 0, 0, 1]) (copyTo 2 [0, 80]))
      (List.flatten [[0x05], [0x01, 0x00, 0x05, 0x01], [0x00, 0x01, 10, 0, 0, 1, 0, 80, 71]])
      [71] :=
    ⟨0x01, [0x00], _, by decide, rfl, by decide, .v4 _ _, rfl⟩
  obtain ⟨rfl, hcalls⟩ := hrec.connect_calls _ _ hrequest
  exact ⟨Sample.cooperative, s, tr, hrun, hrec.connect_iff.mpr ⟨_, _, hrequest⟩, hcalls⟩

end Socks5State
end Proxy
