import TransparentCa.Proxy.Exchange
import TransparentCa.Proxy.SessionPool

/- BIND between `ClientSessionPool` and the proxy. The pool reads replies of fixed sizes, and
   hands the socket to the application after them; the proxy composes replies of several sizes.
   They stay in frame exactly if the proxy finds an IPv6 address for every connection that it
   accepts (`bind_exchange_iff`): its error reply has 10 bytes. At its first slot the pool reads
   what there is and sees the error; at the others, where it looks for an error as well, it first
   waits for the 12 bytes that are missing. -/
namespace Proxy
open Effects Prog ClientSessionPool

/-- The address of the accepted connection is found, and is an IPv6 address. -/
def Network.FindsInet6 (w : Network) : Prop :=
  (w.destAddress true).1 = .kStatusOK ∧ ∃ addr port, (w.destAddress true).2 = .inet6 addr port

/-- The first replies: 12 bytes without an error, from which the pool takes the bound port,
for itself and for the requests to come. -/
structure FirstReplies (bound : UInt16) (bytes : List UInt8) : Prop where
  size : bytes.length = 12
  rep : bytes.getD 3 0 = 0x00
  port : bytes.drop 10 = htons bound
  reused : ∀ (io : Startup) (resp : List.Vector UInt8 12) (p : ClientSessionPool),
    io.proxyResp = some resp → resp.toList = bytes → start io = some p →
      p.proxy_bind_request_ = bindRequest bound ∧ p.port_ = bound

/-- The reply after a connection was accepted, as the pool reads it: it takes this reply, and
leaves the traffic behind it. -/
structure SecondReply (bytes : List UInt8) : Prop where
  size : bytes.length = k2ndBindResponseSize
  taken : ∀ traffic, (bytes ++ traffic).take k2ndBindResponseSize = bytes
  traffic : ∀ traffic, (bytes ++ traffic).drop k2ndBindResponseSize = traffic

/-- What the proxy did with the request for `port`, up to the traffic. -/
structure InFrame (port : UInt16) (w : Network) (accepted : Bool)
    (run : Except CallbackError (Bool × List UInt8) × List Callback) : Prop where
  consumed : ∃ ok, run.1 = .ok (ok, [])
  bound : binds run.2 = [port]
  replies : (w.bind port).1 ≠ .kStatusFail → ∃ greeting reply later,
    run.2 = [.response greeting, .bind port, .response reply] ++ later ∧
      FirstReplies (w.bind port).2 (greeting ++ reply) ∧
      if accepted then SecondReply (Proxy.replies later) else later = []

/-! ## The request -/

theorem setPort_append {request port port' : List UInt8} (h : port.length = 2) :
    setPort (request ++ port) port' = request ++ port' := by
  unfold setPort
  rw [List.length_append, h, Nat.add_sub_cancel, List.take_left]

theorem bindRequest_eq (port : UInt16) :
    bindRequest port =
      [0x05, 0x01, 0x00, 0x05, 0x02, 0x00, 0x01, 0x00, 0x00, 0x00, 0x00] ++ htons port :=
  rfl

theorem setPort_bindRequest (port bound : UInt16) :
    setPort (bindRequest port) (htons bound) = bindRequest bound := by
  rw [bindRequest_eq, setPort_append (length_htons port), bindRequest_eq]

/-- The address of the request. -/
def anyAddr (port : UInt16) : SockAddr := .inet ⟨[0, 0, 0, 0], rfl⟩ ⟨htons port, length_htons port⟩

theorem request_bindRequest (port : UInt16) :
    Request 0x02 (anyAddr port) (bindRequest port) [] := by
  refine ⟨0x01, [0x00], _, by decide, rfl, by decide, .v4 _ _, ?_⟩
  rw [bindRequest_eq]
  simp

/-! ## The replies -/

theorem firstReplies (bound : UInt16) :
    FirstReplies bound ([0x05, 0x00] ++ Socks5State.bindResp bound) where
  size := by
    unfold Socks5State.bindResp
    simp
  rep := rfl
  port := rfl
  reused := by
    intro io resp p hresp hbytes hstart
    obtain ⟨port, resp', backlog, -, hresp', -, -, rfl⟩ := start_eq_some hstart
    rw [hresp] at hresp'
    cases hresp'
    have hdrop : resp.toList.drop 10 = htons bound := by
      rw [hbytes]
      rfl
    rw [hdrop, setPort_bindRequest, ntohs_htons]
    exact ⟨rfl, rfl⟩

theorem secondReply {bytes : List UInt8} (h : bytes.length = k2ndBindResponseSize) :
    SecondReply bytes where
  size := h
  taken := by
    intro traffic
    rw [← h, List.take_left]
  traffic := by
    intro traffic
    rw [← h, List.drop_left]

/-- `CreateResp` has the size that the pool reads for IPv6 addresses only. -/
theorem length_resp (w : Network) :
    (w.resp true).length = k2ndBindResponseSize ↔ w.FindsInet6 := by
  unfold Network.resp Network.FindsInet6 k2ndBindResponseSize
  by_cases hfound : (w.destAddress true).1 = .kStatusOK
  · rw [if_pos hfound, List.length_append, length_fillAddrPort]
    cases haddr : (w.destAddress true).2 with
    | inet addr port => simp
    | inet6 addr port => simp [hfound]
    | other family => simp
  · rw [if_neg hfound]
    refine ⟨fun h => ?_, fun h => absurd h.1 hfound⟩
    exact absurd h (by decide)

/-! ## The exchange -/

section
variable {port : UInt16} {w : Network} {accepted : Bool} {chunks : List (List UInt8)}

theorem eval_bindRequest (h : chunks.flatten = bindRequest port) :
    eval w.answer (Socks5State.serve accepted chunks) =
      if (w.bind port).1 = .kStatusFail then
        (.ok (false, []), [.response [0x05, 0x00], .bind port])
      else (.ok (accepted, []),
        [.response [0x05, 0x00], .bind port, .response (Socks5State.bindResp (w.bind port).2)] ++
          if accepted then [.destAddress true, .response (w.resp true)] else []) := by
  have hrequest : Request 0x02 (anyAddr port) chunks.flatten [] := by
    rw [h]
    exact request_bindRequest port
  have hport : ntohs (anyAddr port).port = port := ntohs_htons port
  rw [Socks5State.eval_serve_bind w hrequest accepted, hport]

theorem replies_later (resp : List UInt8) :
    replies [.destAddress true, .response resp] = resp := by
  simp [replies]

/-- The reply of an accepted connection is the one that the lookup decides. -/
theorem InFrame.findsInet6 (h : chunks.flatten = bindRequest port)
    (hframe : InFrame port w true (eval w.answer (Socks5State.serve true chunks)))
    (hbound : (w.bind port).1 ≠ .kStatusFail) : w.FindsInet6 := by
  obtain ⟨greeting, reply, later, hcalls, -, hsecond⟩ := hframe.replies hbound
  rw [eval_bindRequest h, if_neg hbound, if_pos rfl] at hcalls
  have hlater : later = [.destAddress true, .response (w.resp true)] := by
    simp only [List.cons_append, List.nil_append, List.cons.injEq] at hcalls
    exact hcalls.2.2.2.symm
  rw [if_pos rfl, hlater, replies_later] at hsecond
  exact (length_resp w).mp hsecond.size

theorem inFrame_bind (h : chunks.flatten = bindRequest port)
    (hfinds : (w.bind port).1 ≠ .kStatusFail → accepted = true → w.FindsInet6) :
    InFrame port w accepted (eval w.answer (Socks5State.serve accepted chunks)) := by
  rw [eval_bindRequest h]
  by_cases hfail : (w.bind port).1 = .kStatusFail
  · rw [if_pos hfail]
    exact ⟨⟨false, rfl⟩, rfl, fun hbound => absurd hfail hbound⟩
  · rw [if_neg hfail]
    cases accepted with
    | false =>
      refine ⟨⟨false, rfl⟩, rfl, fun _ => ⟨_, _, [], rfl, firstReplies _, ?_⟩⟩
      rw [if_neg Bool.false_ne_true]
    | true =>
      refine ⟨⟨true, rfl⟩, rfl, fun _ => ⟨_, _, _, rfl, firstReplies _, ?_⟩⟩
      rw [if_pos rfl, if_pos rfl, replies_later]
      exact secondReply ((length_resp w).mpr (hfinds hfail rfl))

/-- However the 13 bytes of the request arrive, and whatever binding, accepting and the lookup
of the address come to. -/
theorem bind_exchange_iff (port : UInt16) (w : Network) (accepted : Bool)
    {chunks : List (List UInt8)} (h : chunks.flatten = bindRequest port) :
    InFrame port w accepted (eval w.answer (Socks5State.serve accepted chunks)) ↔
      ((w.bind port).1 ≠ .kStatusFail → accepted = true → w.FindsInet6) := by
  refine ⟨fun hframe hbound haccepted => ?_, inFrame_bind h⟩
  subst haccepted
  exact hframe.findsInet6 h hbound

end

namespace Sample

/-- Ports are bound, and accepted connections have the address `addr`. -/
def listening (lookup : CallbackStatus × SockAddr) : Network :=
  ⟨fun _ => .kStatusInProgress, fun _ => lookup, fun port => (.kStatusOK, port)⟩

def remote : SockAddr := .inet6 (copyTo 16 [0xfd, 0, 0, 0, 0, 0, 0, 0, 0, 0, 0, 0, 0, 0, 0, 1]) (copyTo 2 [0x9c, 0x40])

/-- The peer is gone before its address is looked up. -/
def lost : CallbackStatus × SockAddr := (.kStatusFail, .other 0)

end Sample

theorem bind_exchange_inet6 :
    InFrame 4660 (Sample.listening (.kStatusOK, Sample.remote)) true
      (eval (Sample.listening (.kStatusOK, Sample.remote)).answer
        (Socks5State.serve true [[0x05], [0x01, 0x00, 0x05, 0x02, 0x00, 0x01, 0, 0, 0, 0, 0x12, 0x34]])) :=
  (bind_exchange_iff 4660 _ true rfl).mpr (fun _ _ => ⟨rfl, _, _, rfl⟩)

/-- The proxy's error reply: 10 bytes, and the pool takes 12 bytes of the traffic behind it. -/
theorem bind_error_takes_traffic :
    ¬ InFrame 4660 (Sample.listening Sample.lost) true
        (eval (Sample.listening Sample.lost).answer (Socks5State.serve true [bindRequest 4660])) ∧
      ∀ traffic, ((Sample.listening Sample.lost).resp true ++ traffic).drop k2ndBindResponseSize =
        traffic.drop 12 := by
  constructor
  · intro hframe
    obtain ⟨hfound, -⟩ := hframe.findsInet6 (by simp) (by decide)
    exact absurd hfound (by decide)
  · intro traffic
    rfl

end Proxy
