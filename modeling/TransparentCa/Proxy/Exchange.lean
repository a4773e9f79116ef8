import TransparentCa.Proxy.HandshakeGrammar

/- One client of the proxy, from its first byte to the last reply: its request in chunks and,
   where a connection is awaited and comes, `ConnectionSucceed`. With replies that are
   delivered, and whatever else the callbacks answer, the calls are read off the request. -/
namespace Proxy
open Effects Prog

/-- What the callbacks of one client answer, whose replies are delivered. -/
structure Network where
  connect : SockAddr → CallbackStatus
  destAddress : Bool → CallbackStatus × SockAddr
  bind : UInt16 → CallbackStatus × UInt16

namespace Network

def answer (w : Network) : (o : Callback) → Except CallbackError o.Val
  | .response _ => Except.ok CallbackStatus.kStatusOK
  | .connect addr => Except.ok (w.connect addr)
  | .destAddress remote => Except.ok (w.destAddress remote)
  | .bind port => Except.ok (w.bind port)

/-- What `CreateResp` makes of the address. -/
def resp (w : Network) (isBind : Bool) : List UInt8 :=
  if (w.destAddress isBind).1 = .kStatusOK then
    [0x05, 0x00, 0x00] ++ fillAddrPort (w.destAddress isBind).2
  else Socks5State.errRespTemplate

/-- Whether the destination is connected to, when a pending connection succeeds as
`connected` says. -/
def reaches (w : Network) (connected : Bool) (addr : SockAddr) : Bool :=
  match w.connect addr with
  | .kStatusOK => true
  | .kStatusInProgress => connected
  | .kStatusFail => false

end Network

/-- The bytes of the replies among `calls`, in the order in which they were sent. -/
def replies (calls : List Callback) : List UInt8 :=
  calls.flatMap (fun o => match o with | .response data => data | _ => [])

/-- The addresses that the connect callback was called with. -/
def connects (calls : List Callback) : List SockAddr :=
  calls.filterMap (fun o => match o with | .connect addr => some addr | _ => none)

/-- The ports that the bind callback was called with. -/
def binds (calls : List Callback) : List UInt16 :=
  calls.filterMap (fun o => match o with | .bind port => some port | _ => none)

namespace Socks5State

/-- After the client's bytes: the connection that is awaited is there, or nothing more. What
was returned last, and the bytes of the client that were left. -/
def finish (connected : Bool) (r : Socks5State × List UInt8) : Callbacks (Bool × List UInt8) :=
  if connected ∧ (r.1.state_ = .kWaitConnect ∨ r.1.state_ = .kWaitAccept) then do
    let (ok, _) ← r.1.connectionSucceed
    return (ok, r.2)
  else return (r.1.state_ = .kSuccess, r.2)

def serve (connected : Bool) (chunks : List (List UInt8)) : Callbacks (Bool × List UInt8) := do
  let r ← feed (init true true true true) [] chunks
  finish connected r

theorem finish_settle (connected : Bool) (r : Socks5State × List UInt8) :
    finish connected (r.1.settle, r.2) = finish connected r := by
  unfold finish
  simp only [settle_state]
  by_cases hwaits : connected = true ∧ (r.1.state_ = .kWaitConnect ∨ r.1.state_ = .kWaitAccept)
  · have hsettle : r.1.settle = r.1 := by
      unfold settle
      rcases hwaits.2 with hstate | hstate
      · rw [if_neg (by rw [hstate]; decide)]
      · rw [if_neg (by rw [hstate]; decide)]
    rw [hsettle]
  · rw [if_neg hwaits, if_neg hwaits]

/-- The chunks do not matter. -/
theorem serve_eq (connected : Bool) (chunks : List (List UInt8)) :
    serve connected chunks =
      (proceedAll (init true true true true) chunks.flatten).bind (finish connected) := by
  have hfinish (p : Callbacks (Socks5State × List UInt8)) :
      (p.bind settled).bind (finish connected) = p.bind (finish connected) := by
    rw [Prog.bind_assoc]
    congr 1
    funext r
    exact finish_settle connected r
  calc serve connected chunks
      = (feed (init true true true true) [] chunks).bind (finish connected) := rfl
    _ = ((feed (init true true true true) [] chunks).bind settled).bind (finish connected) :=
        (hfinish _).symm
    _ = ((proceedAll (init true true true true) chunks.flatten).bind settled).bind
          (finish connected) := by rw [feed_eq]
    _ = _ := hfinish _

/-! ## The calls -/

variable (w : Network)

theorem eval_callResponse (data : List UInt8) :
    eval w.answer (Callback.callResponse data) = (.ok .kStatusOK, [.response data]) :=
  eval_invoke w.answer (.response data)

theorem eval_callConnect (addr : SockAddr) :
    eval w.answer (Callback.callConnect addr) = (.ok (w.connect addr), [.connect addr]) :=
  eval_invoke w.answer (.connect addr)

theorem eval_callDestAddress (remote : Bool) :
    eval w.answer (Callback.callDestAddress remote) =
      (.ok (w.destAddress remote), [.destAddress remote]) :=
  eval_invoke w.answer (.destAddress remote)

theorem eval_callBind (port : UInt16) :
    eval w.answer (Callback.callBind port) = (.ok (w.bind port), [.bind port]) :=
  eval_invoke w.answer (.bind port)

theorem eval_respond {s : Socks5State} (hs : s.response_callback_ = true) (data : List UInt8) :
    eval w.answer (s.respond data) = (.ok .kStatusOK, [.response data]) := by
  unfold respond
  rw [if_pos hs]
  exact eval_callResponse w data

theorem eval_createResp {s : Socks5State} (hs : s.dest_address_callback_ = true) (isBind : Bool) :
    eval w.answer (s.createResp isBind) = (.ok (w.resp isBind), [.destAddress isBind]) := by
  unfold createResp
  rw [if_pos hs, bind_eq, eval_bind (eval_callDestAddress w isBind)]
  unfold Network.resp
  generalize w.destAddress isBind = r
  obtain ⟨status, addr⟩ := r
  cases status <;> rfl

/-- The final reply of `ConnectionSucceed`. -/
theorem eval_connectionSucceed {s : Socks5State} (hs : s.dest_address_callback_ = true)
    (hr : s.response_callback_ = true) (hwaits : s.state_ = .kWaitConnect ∨ s.state_ = .kWaitAccept) :
    eval w.answer s.connectionSucceed = (.ok (true, { s with state_ := .kSuccess }),
      [.destAddress (s.state_ = .kWaitAccept), .response (w.resp (s.state_ = .kWaitAccept))]) := by
  unfold connectionSucceed
  rw [if_pos hwaits, bind_eq, eval_bind (eval_createResp w hs _), bind_eq,
    eval_bind (eval_respond w hr _)]
  rfl

/-- The greeting was answered, and the request is there. -/
theorem eval_request {stream tail : List UInt8} {n : UInt8} {methods : List UInt8}
    (hn : 1 ≤ n.toNat) (hlen : methods.length = n.toNat) (hzero : 0x00 ∈ methods)
    (hstream : stream = [0x05, n] ++ methods ++ tail) (connected : Bool) :
    eval w.answer ((proceedAll (init true true true true) stream).bind (finish connected)) =
      ((eval w.answer ((((init true true true true).reached .kRequestHeader 4).proceedAll tail).bind
          (finish connected))).1,
        .response [0x05, 0x00] ::
          (eval w.answer ((((init true true true true).reached .kRequestHeader 4).proceedAll tail).bind
            (finish connected))).2) := by
  have hgreeting : proceedAll (init true true true true) stream =
      (init true true true true).afterGreeting n.toNat tail := by
    rw [hstream]
    exact proceedAll_request (init true true true true) rfl hn hlen hzero tail
  rw [hgreeting]
  unfold afterGreeting
  rw [Prog.bind_assoc, eval_bind (eval_callResponse w _)]
  rfl

/-- The final reply that the loop sends by itself. -/
theorem eval_response (rest : List UInt8) :
    eval w.answer (((init true true true true).reached .kResponse 0).proceedAll rest) =
      (.ok ((init true true true true).reached .kSuccess 1, rest),
        [.destAddress false, .response (w.resp false)]) := by
  have htransition : eval w.answer (((init true true true true).reached .kResponse 0).response rest) =
      (.ok (true, (init true true true true).reached .kSuccess 1, rest),
        [.destAddress false, .response (w.resp false)]) := by
    unfold response
    rw [bind_eq, eval_bind (eval_createResp w rfl _), bind_eq, eval_bind (eval_respond w rfl _)]
    rfl
  rw [proceedAll_reached _ (by decide) (Nat.zero_le _)]
  show eval w.answer (((init true true true true).reached .kResponse 0).response rest |>.bind _) = _
  rw [eval_bind htransition]
  rfl

/-- The final reply of a connection that was awaited. -/
theorem eval_finish {st : HandshakeState} (hst : st = .kWaitConnect ∨ st = .kWaitAccept)
    (connected : Bool) (rest : List UInt8) :
    eval w.answer (finish connected ((init true true true true).reached st 0, rest)) =
      (.ok (connected, rest),
        if connected then
          [.destAddress (st = .kWaitAccept), .response (w.resp (st = .kWaitAccept))]
        else []) := by
  have hne : st ≠ .kSuccess := by
    rcases hst with rfl | rfl
    · decide
    · decide
  unfold finish
  cases connected with
  | true =>
    rw [if_pos ⟨rfl, hst⟩, bind_eq, eval_bind (eval_connectionSucceed w rfl rfl hst)]
    rfl
  | false =>
    rw [if_neg (fun h => Bool.false_ne_true h.1)]
    show (Except.ok (decide (st = .kSuccess), rest), []) = _
    rw [decide_eq_false hne]
    rfl

theorem eval_serve_connect {addr : SockAddr} {chunks : List (List UInt8)} {rest : List UInt8}
    (h : Request 0x01 addr chunks.flatten rest) (connected : Bool) :
    eval w.answer (serve connected chunks) =
      (.ok (w.reaches connected addr, rest),
        [.response [0x05, 0x00], .connect addr] ++
          if w.reaches connected addr then [.destAddress false, .response (w.resp false)]
          else []) := by
  obtain ⟨n, methods, wire, hn, hlen, hzero, hwire, hstream⟩ := h
  have htail : chunks.flatten = [0x05, n] ++ methods ++ ([0x05, 0x01, 0x00] ++ wire ++ rest) := by
    rw [hstream]
    simp only [List.append_assoc]
  rw [serve_eq, eval_request w hn hlen hzero htail, proceedAll_connect _ rfl hwire]
  unfold afterConnect Network.reaches
  rw [Prog.bind_assoc, eval_bind (eval_callConnect w addr)]
  cases w.connect addr with
  | kStatusOK =>
    simp only [eval_bind (eval_response w rest)]
    cases connected <;> rfl
  | kStatusInProgress =>
    show (((eval w.answer (finish connected _)).1, _ :: _ :: (eval w.answer (finish connected _)).2) :
      Except CallbackError (Bool × List UInt8) × List Callback) = _
    rw [eval_finish w (.inl rfl)]
    rfl
  | kStatusFail => cases connected <;> rfl

theorem eval_serve_bind {addr : SockAddr} {chunks : List (List UInt8)} {rest : List UInt8}
    (h : Request 0x02 addr chunks.flatten rest) (connected : Bool) :
    eval w.answer (serve connected chunks) =
      if (w.bind (ntohs addr.port)).1 = .kStatusFail then
        (.ok (false, rest), [.response [0x05, 0x00], .bind (ntohs addr.port)])
      else (.ok (connected, rest),
        [.response [0x05, 0x00], .bind (ntohs addr.port),
          .response (bindResp (w.bind (ntohs addr.port)).2)] ++
          if connected then [.destAddress true, .response (w.resp true)] else []) := by
  obtain ⟨n, methods, wire, hn, hlen, hzero, hwire, hstream⟩ := h
  have htail : chunks.flatten = [0x05, n] ++ methods ++ ([0x05, 0x02, 0x00] ++ wire ++ rest) := by
    rw [hstream]
    simp only [List.append_assoc]
  rw [serve_eq, eval_request w hn hlen hzero htail, proceedAll_bind _ rfl rfl hwire]
  unfold afterBind
  rw [Prog.bind_assoc, eval_bind (eval_callBind w _)]
  simp only
  by_cases hfail : (w.bind (ntohs addr.port)).1 = .kStatusFail
  · rw [if_pos hfail, if_pos hfail]
    cases connected <;> rfl
  · rw [if_neg hfail, if_neg hfail, Prog.bind_assoc, eval_bind (eval_callResponse w _)]
    show (((eval w.answer (finish connected _)).1,
      _ :: _ :: _ :: (eval w.answer (finish connected _)).2) :
        Except CallbackError (Bool × List UInt8) × List Callback) = _
    rw [eval_finish w (.inr rfl)]
    rfl

end Socks5State
end Proxy
