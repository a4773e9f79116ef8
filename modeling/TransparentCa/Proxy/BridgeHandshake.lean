import TransparentCa.Proxy.BridgeFlow

/- The handshake as a bridge runs it: with the bridge's callbacks the loop of `Proceed` ends
   without an exception, only takes bytes from the front of the buffer, and starts at most one
   connection or binding, after which it waits for no more bytes. -/
namespace Proxy
open Effects

/-- The operations that lead to a connection. -/
def Pending.started (p : Pending) : Nat := p.connects + p.accepts

namespace Socks5State
open ProxyBridge

def AllSet (s : Socks5State) : Prop :=
  s.response_callback_ = true ∧ s.connect_callback_ = true ∧
    s.dest_address_callback_ = true ∧ s.bind_callback_ = true

theorem SameCallbacks.allSet {s s' : Socks5State} (h : SameCallbacks s s') (hs : s.AllSet) :
    s'.AllSet := by
  obtain ⟨hresponse, hconnect, haddress, hbind⟩ := h
  unfold AllSet
  rw [hresponse, hconnect, haddress, hbind]
  exact hs

section
variable {p : Pending}

theorem ensures_callResponse {data : List UInt8}
    {Q : List (Event Callback Callback.Val CallbackError) → Except CallbackError CallbackStatus →
      Pending → Prop} (h : ∀ tr status, Q tr (.ok status) p) :
    Ensures Answers (Callback.callResponse data) p Q := by
  refine Ensures.invoke (o := Callback.response data) (fun r p' hanswer => ?_)
  cases hanswer with
  | response => exact h _ _

theorem ensures_callConnect {addr : SockAddr}
    {Q : List (Event Callback Callback.Val CallbackError) → Except CallbackError CallbackStatus →
      Pending → Prop}
    (h : ∀ tr, Q tr (.ok .kStatusInProgress) { p with connects := p.connects + 1 }) :
    Ensures Answers (Callback.callConnect addr) p Q := by
  refine Ensures.invoke (o := Callback.connect addr) (fun r p' hanswer => ?_)
  cases hanswer with
  | connect => exact h _

theorem ensures_callDestAddress {remote : Bool}
    {Q : List (Event Callback Callback.Val CallbackError) →
      Except CallbackError (CallbackStatus × SockAddr) → Pending → Prop}
    (h : ∀ tr r, Q tr (.ok r) p) : Ensures Answers (Callback.callDestAddress remote) p Q := by
  refine Ensures.invoke (o := Callback.destAddress remote) (fun r p' hanswer => ?_)
  cases hanswer with
  | destAddress => exact h _ _

theorem ensures_callBind {port : UInt16}
    {Q : List (Event Callback Callback.Val CallbackError) →
      Except CallbackError (CallbackStatus × UInt16) → Pending → Prop}
    (hok : ∀ tr bound, Q tr (.ok (.kStatusOK, bound))
      { p with accepts := p.accepts + 1, waits := p.waits + 1 })
    (hfail : ∀ tr bound, Q tr (.ok (.kStatusFail, bound)) p) :
    Ensures Answers (Callback.callBind port) p Q := by
  refine Ensures.invoke (o := Callback.bind port) (fun r p' hanswer => ?_)
  cases hanswer with
  | bind => exact hok _ _
  | bindFail => exact hfail _ _

end

/-- A transition from `buffer` with `p` pending: it takes bytes from the front, and starts at
most one operation, with which it waits for no more bytes. -/
structure After (buffer : List UInt8) (p : Pending) (o : Outcome) (p' : Pending) : Prop where
  rest : o.2.2 <:+ buffer
  started : p' = p ∨ p'.started = p.started + 1 ∧ o.1 = false ∧ o.2.1.required_size_ = 0

/-- What a transition with the bridge's callbacks ends as. -/
def Transits (buffer : List UInt8) (p : Pending) (c : Callbacks Outcome) : Prop :=
  Ensures Answers c p (fun _ out p' => ∃ o, out = .ok o ∧ After buffer p o p')

section
variable {s : Socks5State} {buffer rest : List UInt8} {p : Pending}

theorem transits_ret (ok : Bool) (h : rest <:+ buffer) :
    Transits buffer p (.ret (ok, s, rest)) :=
  Ensures.ret ⟨_, rfl, h, .inl rfl⟩

theorem transits_goto (st : HandshakeState) (h : rest <:+ buffer) :
    Transits buffer p (s.goto st rest) :=
  transits_ret _ h

theorem suffix_copyOut (buffer : List UInt8) (size : Nat) : (copyOut buffer size).2 <:+ buffer :=
  List.drop_suffix size buffer

theorem transits_greetingHeader : Transits buffer p (s.greetingHeader buffer) := by
  unfold greetingHeader
  split
  next greeting rest heq =>
  have hrest : rest <:+ buffer := by
    have hsuffix := suffix_copyOut buffer 2
    rw [heq] at hsuffix
    exact hsuffix
  split
  · exact transits_goto _ hrest
  · exact transits_goto _ hrest

theorem ensures_respond (hs : s.AllSet) {data : List UInt8} {k : CallbackStatus → Callbacks Outcome}
    (h : ∀ status, Transits buffer p (k status)) :
    Transits buffer p ((s.respond data).bind k) := by
  unfold respond
  rw [if_pos hs.1]
  exact Ensures.bind (ensures_callResponse (fun _ status => h status))

theorem transits_greetingMethods (hs : s.AllSet) :
    Transits buffer p (s.greetingMethods buffer) := by
  unfold greetingMethods
  split
  next methods rest heq =>
  have hrest : rest <:+ buffer := by
    have hsuffix := suffix_copyOut buffer s.required_size_
    rw [heq] at hsuffix
    exact hsuffix
  split
  · exact transits_goto _ hrest
  · rw [if_pos hs.1]
    refine ensures_respond hs (fun status => ?_)
    split
    · exact transits_goto _ hrest
    · exact transits_goto _ hrest

theorem transits_requestHeader : Transits buffer p (s.requestHeader buffer) := by
  unfold requestHeader
  split
  next header rest heq =>
  have hrest : rest <:+ buffer := by
    have hsuffix := suffix_copyOut buffer 4
    rw [heq] at hsuffix
    exact hsuffix
  simp only
  split_ifs <;> exact transits_goto _ hrest

/-- The connect callback starts an operation, and no more bytes are waited for. -/
theorem transits_requestConnect (hs : s.AllSet) (addr : SockAddr) (h : rest <:+ buffer) :
    Transits buffer p (s.requestConnect addr rest) := by
  unfold requestConnect
  simp only
  rw [if_pos hs.2.1]
  refine Ensures.bind (ensures_callConnect (fun _ => Ensures.ret ⟨_, rfl, h, .inr ?_⟩))
  refine ⟨?_, rfl, rfl⟩
  simp only [Pending.started]
  omega

theorem transits_requestBind (hs : s.AllSet) : Transits buffer p (s.requestBind buffer) := by
  have hrest : (copyOut (copyOut buffer (s.required_size_ - 2)).2 2).2 <:+ buffer :=
    (suffix_copyOut _ 2).trans (suffix_copyOut buffer _)
  unfold requestBind
  simp only
  rw [if_pos hs.2.2.2]
  refine Ensures.bind (ensures_callBind (fun _ bound => ?_) (fun _ bound => ?_))
  · show Ensures Answers (ite _ _ _) _ _
    have hok : CallbackStatus.kStatusOK ≠ .kStatusFail := by decide
    rw [if_neg hok]
    unfold respond
    rw [if_pos hs.1]
    refine Ensures.bind (ensures_callResponse (fun _ status => ?_))
    -- The reply may be refused: the accept is pending all the same.
    have hstarted : Pending.started { p with accepts := p.accepts + 1, waits := p.waits + 1 } =
        p.started + 1 := by
      simp only [Pending.started]
      omega
    show Ensures Answers (ite _ _ _) _ _
    split
    · exact Ensures.ret ⟨_, rfl, hrest, .inr ⟨hstarted, rfl, rfl⟩⟩
    · exact Ensures.ret ⟨_, rfl, hrest, .inr ⟨hstarted, rfl, rfl⟩⟩
  · show Ensures Answers (ite _ _ _) _ _
    rw [if_pos rfl]
    exact transits_goto _ hrest

theorem ensures_createResp {isBind : Bool} {α : Type} {k : List UInt8 → Callbacks α}
    {Q : Except CallbackError α → Pending → Prop}
    (h : ∀ resp, Ensures Answers (k resp) p (fun _ out p' => Q out p')) :
    Ensures Answers ((s.createResp isBind).bind k) p (fun _ out p' => Q out p') := by
  unfold createResp
  split
  · rw [Prog.bind_eq, Prog.bind_assoc]
    refine Ensures.bind (ensures_callDestAddress (fun _ r => ?_))
    show Ensures Answers (Prog.bind (ite _ _ _) k) _ _
    rw [Prog.ite_bind]
    split <;> exact h _
  · exact h _

theorem transits_response (hs : s.AllSet) : Transits buffer p (s.response buffer) := by
  unfold response
  refine ensures_createResp (fun resp => ensures_respond hs (fun status => ?_))
  split
  · exact transits_goto _ (List.suffix_refl _)
  · exact transits_goto _ (List.suffix_refl _)

theorem transits_transition (hs : s.AllSet) : Transits buffer p (s.transition buffer) := by
  unfold transition
  split
  · exact transits_greetingHeader
  · exact transits_greetingMethods hs
  · exact transits_requestHeader
  · exact transits_requestConnect hs _ ((suffix_copyOut _ 2).trans (suffix_copyOut buffer 4))
  · exact transits_requestConnect hs _ ((suffix_copyOut _ 2).trans (suffix_copyOut buffer 16))
  · exact transits_requestBind hs
  · exact transits_ret _ (List.suffix_refl _)
  · exact transits_ret _ (List.suffix_refl _)
  · exact transits_response hs
  · exact transits_ret _ (List.suffix_refl _)
  · exact transits_ret _ (List.suffix_refl _)

/-! ## The loop, and ConnectionSucceed -/

/-- What the loop of `Proceed` from `buffer` with `p` pending leaves. -/
structure Leaves (buffer : List UInt8) (p : Pending) (r : Socks5State × List UInt8)
    (p' : Pending) : Prop where
  rest : r.2 <:+ buffer
  sized : r.1.Sized
  callbacks : r.1.AllSet
  started : p' = p ∨ p'.started = p.started + 1 ∧ r.1.required_size_ = 0

theorem ensures_proceedAll (hs : s.Sized) (hset : s.AllSet) (buffer : List UInt8) (p : Pending) :
    Ensures Answers (s.proceedAll buffer) p
      (fun _ out p' => ∃ r, out = .ok r ∧ Leaves buffer p r p') := by
  -- A round that returns true starts nothing, and raises the rank.
  induction hk : 6 - rank s.state_ using Nat.strongRecOn generalizing s buffer with
  | _ k ih =>
    have hstay : Leaves buffer p (s, buffer) p := ⟨List.suffix_refl _, hs, hset, .inl rfl⟩
    rcases Nat.lt_or_ge buffer.length s.required_size_ with hlen | hlen
    · rw [proceedAll_of_lt hlen]
      exact Ensures.ret ⟨_, rfl, hstay⟩
    · by_cases hsuccess : s.state_ = .kSuccess
      · rw [proceedAll_eq, if_pos hsuccess]
        exact Ensures.ret ⟨_, rfl, hstay⟩
      · rw [proceedAll_of_le hsuccess hlen]
        refine Ensures.bind ((transits_transition hset).with_runs.mono ?_)
        intro tr out p' h
        obtain ⟨⟨o, rfl, hafter⟩, hruns⟩ := h
        have hadvance : Advance s o := (advance_transition s buffer).of_runs hruns
        obtain ⟨ok, s', rest⟩ := o
        have hsized : s'.Sized := hadvance.sized hs
        have hset' : s'.AllSet := hadvance.callbacks.allSet hset
        cases ok with
        | true =>
          have hsame : p' = p := by
            rcases hafter.started with hsame | ⟨-, hfalse, -⟩
            · exact hsame
            · cases hfalse
          have hlt : rank s.state_ < rank s'.state_ := hadvance.rank_lt rfl
          have hrank := rank_le s'.state_
          rw [hsame]
          show Ensures Answers (s'.proceedAll rest) p _
          apply (ih (6 - rank s'.state_) (by omega) hsized hset' rest rfl).mono
          intro tr' out' p'' h
          obtain ⟨r, hr, hleaves⟩ := h
          exact ⟨r, hr, hleaves.rest.trans hafter.rest, hleaves.sized, hleaves.callbacks,
            hleaves.started⟩
        | false =>
          refine Ensures.ret ⟨(s', rest), rfl, hafter.rest, hsized, hset', ?_⟩
          rcases hafter.started with hsame | ⟨hstarted, -, hsize⟩
          · exact .inl hsame
          · exact .inr ⟨hstarted, hsize⟩

theorem ensures_connectionSucceed (hs : s.Sized) (hset : s.AllSet) (p : Pending) :
    Ensures Answers s.connectionSucceed p
      (fun _ out p' => p' = p ∧ ∃ ok s', out = .ok (ok, s') ∧ s'.Sized ∧ s'.AllSet) := by
  unfold connectionSucceed
  by_cases hwait : s.state_ = .kWaitConnect ∨ s.state_ = .kWaitAccept
  · rw [if_pos hwait]
    have hsize : s.required_size_ = 0 := by
      unfold Sized at hs
      rcases hwait with hstate | hstate
      · rw [hstate] at hs
        exact hs
      · rw [hstate] at hs
        exact hs
    refine ensures_createResp (fun resp => ?_)
    unfold respond
    rw [if_pos hset.1]
    refine Ensures.bind (ensures_callResponse (fun _ status => ?_))
    -- Whether the reply was refused changes nothing.
    refine Ensures.ret ⟨rfl, _, _, rfl, ?_, ?_⟩
    · split
      · show s.required_size_ ≤ 1
        omega
      · show s.required_size_ ≤ 1
        omega
    · split
      · exact hset
      · exact hset
  · rw [if_neg hwait]
    have hfail : Sized { s with state_ := .kFail } := (sized_le hs : s.required_size_ ≤ 255)
    exact Ensures.ret ⟨rfl, _, _, rfl, hfail, hset⟩

end

end Socks5State
end Proxy
