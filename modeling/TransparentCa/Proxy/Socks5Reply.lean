import TransparentCa.Proxy.HandshakeGrammar

/- What the client was told when the handshake succeeds. A `Session` calls `Proceed` and
   `ConnectionSucceed` in any order, with any answers of the callbacks. The handshake should
   succeed only after the client got a complete reply of success; it does so exactly when no
   final reply is sent without an address, and no final reply of `ConnectionSucceed` is
   refused (`session_proper_iff`). -/
namespace Proxy
open Effects Prog

abbrev Calls : Type := List (Event Callback Callback.Val CallbackError)

/-- A reply, with what the response callback returned for it. -/
def reply : Event Callback Callback.Val CallbackError → Option (List UInt8 × CallbackStatus)
  | ⟨.response data, .ok status⟩ => some (data, status)
  | _ => none

/-- A complete reply of success: REP is 00, with ATYP, address and port. -/
def SuccessReply (data : List UInt8) : Prop :=
  ∃ addr wire, Wire addr wire ∧ data = [0x05, 0x00, 0x00] ++ wire

/-- An IPv4 or IPv6 address was found for the reply. -/
def AddressFound (calls : Calls) : Prop :=
  ∃ (remote : Bool) (addr : SockAddr),
    ⟨.destAddress remote, Except.ok (CallbackStatus.kStatusOK, addr)⟩ ∈ calls ∧ addr.IsInet

/-- The response callback returned `ret` for a reply. -/
def Replied (calls : Calls) (ret : CallbackStatus) : Prop :=
  ∃ data, ⟨.response data, Except.ok ret⟩ ∈ calls

inductive Operation where
  | proceed (buffer : List UInt8)
  | connectionSucceed

/-- One call of `Proceed` or `ConnectionSucceed`: the state before it, the callbacks it
called, what it returned and the state after it. -/
structure Moment where
  before : Socks5State
  op : Operation
  calls : Calls
  ok : Bool
  after : Socks5State

namespace Moment

def Runs (m : Moment) : Prop :=
  match m.op with
  | .proceed buffer =>
    ∃ rest, Prog.Runs (m.before.proceed buffer) m.calls (.ok (m.ok, m.after, rest))
  | .connectionSucceed => Prog.Runs m.before.connectionSucceed m.calls (.ok (m.ok, m.after))

/-- Where the call sends the final reply: the address was found, and the reply was not
refused. `Proceed` fails by itself when the reply is refused. -/
def Answered (m : Moment) : Prop :=
  match m.op with
  | .proceed _ => m.before.state_ = .kResponse →
      AddressFound m.calls ∨ ∃ ret, ret ≠ .kStatusOK ∧ Replied m.calls ret
  | .connectionSucceed => m.before.state_ = .kWaitConnect ∨ m.before.state_ = .kWaitAccept →
      AddressFound m.calls ∧ Replied m.calls .kStatusOK

end Moment

/-- The calls on one handshake, newest first, and the state they led to. -/
inductive Session : Socks5State → List Moment → Prop where
  | init (response connect destAddress bind : Bool) :
      Session (Socks5State.init response connect destAddress bind) []
  | step {log : List Moment} (m : Moment) (h : Session m.before log) (hm : m.Runs) :
      Session m.after (m :: log)

/-- The last reply given to the response callback. -/
def lastReply : List Moment → Option (List UInt8 × CallbackStatus)
  | [] => none
  | m :: log => (m.calls.filterMap reply).getLast?.or (lastReply log)

/-- The last reply was one of success, and it was delivered. -/
def Told (log : List Moment) : Prop := ∃ data, lastReply log = some (data, .kStatusOK) ∧ SuccessReply data

/-- Success, of the handshake or returned by `ConnectionSucceed`, is what the client was told. -/
def Proper : List Moment → Prop
  | [] => True
  | m :: log =>
    m.after.state_ = .kSuccess ∨ (m.op matches .connectionSucceed) ∧ m.ok = true → Told (m :: log)

/-! ## Replies -/

theorem runs_callResponse {data : List UInt8} {tr : Calls} {ret : CallbackStatus} :
    Runs (Callback.callResponse data) tr (.ok ret) ↔ tr = [⟨.response data, Except.ok ret⟩] :=
  runs_invoke

theorem runs_callDestAddress {remote : Bool} {tr : Calls} {r : CallbackStatus × SockAddr} :
    Runs (Callback.callDestAddress remote) tr (.ok r) ↔
      tr = [⟨.destAddress remote, Except.ok r⟩] :=
  runs_invoke

theorem successReply_iff (addr : SockAddr) :
    SuccessReply ([0x05, 0x00, 0x00] ++ fillAddrPort addr) ↔ addr.IsInet := by
  cases addr with
  | inet addr port => exact ⟨fun _ => trivial, fun _ => ⟨_, _, .v4 addr port, rfl⟩⟩
  | inet6 addr port => exact ⟨fun _ => trivial, fun _ => ⟨_, _, .v6 addr port, rfl⟩⟩
  | other family =>
    refine ⟨fun h => ?_, False.elim⟩
    obtain ⟨addr, wire, hwire, heq⟩ := h
    have hnil : wire = [] := (List.append_cancel_left heq).symm
    cases hwire <;> cases hnil

theorem not_successReply_errRespTemplate : ¬ SuccessReply Socks5State.errRespTemplate := by
  rintro ⟨addr, wire, -, heq⟩
  have hrep := congrArg (fun l => l[1]?) heq
  simp [Socks5State.errRespTemplate] at hrep

namespace Socks5State

/-- The final reply is one of success exactly when an address was found for it. -/
theorem createResp_success {s : Socks5State} {isBind : Bool} {tr : Calls} {resp : List UInt8}
    (h : Runs (s.createResp isBind) tr (.ok resp)) :
    tr.filterMap reply = [] ∧ (SuccessReply resp ↔ AddressFound tr) := by
  have hnone (tr : Calls) (htr : ¬ AddressFound tr) :
      SuccessReply errRespTemplate ↔ AddressFound tr :=
    ⟨fun h => absurd h not_successReply_errRespTemplate, fun h => absurd h htr⟩
  unfold createResp at h
  split at h
  · obtain ⟨⟨ret, addr⟩, t₁, t₂, rfl, h₁, h₂⟩ := runs_bind_ok.mp h
    obtain rfl := runs_callDestAddress.mp h₁
    have hfound : AddressFound [⟨.destAddress isBind, Except.ok (ret, addr)⟩] ↔
        ret = .kStatusOK ∧ addr.IsInet := by
      constructor
      · rintro ⟨remote, addr', hmem, hinet⟩
        cases List.mem_singleton.mp hmem
        exact ⟨rfl, hinet⟩
      · rintro ⟨rfl, hinet⟩
        exact ⟨isBind, addr, List.mem_singleton.mpr rfl, hinet⟩
    simp only at h₂
    split at h₂
    · next hret =>
      obtain ⟨rfl, heq⟩ := runs_ret.mp h₂
      cases heq
      rw [List.append_nil, hfound]
      refine ⟨by simp [reply], (successReply_iff addr).trans ?_⟩
      exact (and_iff_right hret).symm
    · next hret =>
      obtain ⟨rfl, heq⟩ := runs_ret.mp h₂
      cases heq
      rw [List.append_nil]
      exact ⟨by simp [reply], hnone _ (fun h => hret (hfound.mp h).1)⟩
  · obtain ⟨rfl, heq⟩ := runs_ret.mp h
    cases heq
    refine ⟨rfl, hnone [] ?_⟩
    rintro ⟨remote, addr, hmem, -⟩
    cases hmem

/-- The calls `calls` make the final reply `resp`, for which the response callback returned
`ret`. -/
structure SendsFinal (calls : Calls) (resp : List UInt8) (status : CallbackStatus) : Prop where
  replies : calls.filterMap reply = [(resp, status)]
  success : SuccessReply resp ↔ AddressFound calls

theorem SendsFinal.replied {calls : Calls} {resp : List UInt8} {status status' : CallbackStatus}
    (h : SendsFinal calls resp status) : Replied calls status' ↔ status' = status := by
  have hmem : Replied calls status' ↔ ∃ data, (data, status') ∈ calls.filterMap reply := by
    refine exists_congr (fun data => ?_)
    rw [List.mem_filterMap]
    constructor
    · intro hcall
      exact ⟨_, hcall, rfl⟩
    · rintro ⟨⟨op, ans⟩, hcall, hreply⟩
      cases op <;> cases ans <;> simp [reply] at hreply
      obtain ⟨rfl, rfl⟩ := hreply
      exact hcall
  rw [hmem, h.replies]
  simp

/-- The reply that is composed, and the call that sends it. -/
theorem sendsFinal {s : Socks5State} {isBind : Bool} {tr : Calls} {α : Type}
    {k : CallbackStatus → Callbacks α} {a : α}
    (h : Runs ((s.createResp isBind).bind (fun resp => (s.respond resp).bind k)) tr (.ok a)) :
    ∃ calls rest resp status, tr = calls ++ rest ∧ SendsFinal calls resp status ∧
      Runs (k status) rest (.ok a) := by
  obtain ⟨resp, t, t', rfl, hresp, hsend⟩ := runs_bind_ok.mp h
  obtain ⟨status, t₁, rest, rfl, hrespond, hk⟩ := runs_bind_ok.mp hsend
  unfold respond at hrespond
  split at hrespond
  · obtain rfl := runs_callResponse.mp hrespond
    obtain ⟨hnone, hsuccess⟩ := createResp_success hresp
    refine ⟨t ++ [⟨.response resp, Except.ok status⟩], rest, resp, status, by simp, ⟨?_, ?_⟩, hk⟩
    · rw [List.filterMap_append, hnone]
      rfl
    · rw [hsuccess]
      refine exists_congr (fun remote => exists_congr (fun addr => and_congr_left' ?_))
      simp
  · cases hrespond

theorem connectionSucceed_waits {s : Socks5State} {tr : Calls} {ok : Bool} {s' : Socks5State}
    (hs : s.state_ = .kWaitConnect ∨ s.state_ = .kWaitAccept)
    (h : Runs s.connectionSucceed tr (.ok (ok, s'))) :
    ∃ resp status, SendsFinal tr resp status ∧ ok = true ∧ s' = { s with state_ := .kSuccess } := by
  unfold connectionSucceed at h
  rw [if_pos hs] at h
  obtain ⟨calls, rest, resp, status, rfl, hfinal, h⟩ := sendsFinal h
  have hret : rest = [] ∧ ok = true ∧ s' = { s with state_ := .kSuccess } := by
    simp only [pure_eq, runs_ret, Except.ok.injEq, Prod.mk.injEq] at h
    obtain ⟨hrest, hok, hs'⟩ := h
    refine ⟨hrest, hok.trans (decide_eq_true trivial), ?_⟩
    cases status <;> exact hs'
  obtain ⟨rfl, rfl, rfl⟩ := hret
  rw [List.append_nil]
  exact ⟨resp, status, hfinal, rfl, rfl⟩

theorem connectionSucceed_fails {s : Socks5State} {tr : Calls} {ok : Bool} {s' : Socks5State}
    (hs : ¬ (s.state_ = .kWaitConnect ∨ s.state_ = .kWaitAccept))
    (h : Runs s.connectionSucceed tr (.ok (ok, s'))) :
    tr = [] ∧ ok = false ∧ s' = { s with state_ := .kFail } := by
  unfold connectionSucceed at h
  rw [if_neg hs] at h
  obtain ⟨rfl, heq⟩ := runs_ret.mp h
  cases heq
  exact ⟨rfl, rfl, rfl⟩

theorem proceed_response {s : Socks5State} {buffer rest : List UInt8} {tr : Calls} {ok : Bool}
    {s' : Socks5State} (hs : s.state_ = .kResponse) (hsized : s.Sized)
    (h : Runs (s.proceed buffer) tr (.ok (ok, s', rest))) :
    ∃ resp status, SendsFinal tr resp status ∧ (s'.state_ = .kSuccess ↔ status = .kStatusOK) := by
  have hsize : s.required_size_ = 0 := by simpa only [Sized, hs] using hsized
  rw [proceed_of_le (by omega)] at h
  simp only [transition, hs] at h
  obtain ⟨calls, rest', resp, status, rfl, hfinal, h⟩ := sendsFinal h
  have hret : rest' = [] ∧ (s'.state_ = .kSuccess ↔ status = .kStatusOK) := by
    split at h
    · next hne =>
      obtain ⟨rfl, heq⟩ := runs_ret.mp h
      cases heq
      exact ⟨rfl, nofun, fun heq => absurd heq hne⟩
    · next hok =>
      obtain ⟨rfl, heq⟩ := runs_ret.mp h
      cases heq
      exact ⟨rfl, fun _ => not_not.mp hok, fun _ => rfl⟩
  obtain ⟨rfl, hstate⟩ := hret
  rw [List.append_nil]
  exact ⟨resp, status, hfinal, hstate⟩

/-- `Proceed` in any other state does not make the handshake succeed. -/
theorem proceed_success {s : Socks5State} {buffer rest : List UInt8} {tr : Calls} {ok : Bool}
    {s' : Socks5State} (hs : s.state_ ≠ .kResponse)
    (h : Runs (s.proceed buffer) tr (.ok (ok, s', rest))) (hsuccess : s'.state_ = .kSuccess) :
    s.state_ = .kSuccess ∧ tr = [] := by
  rcases Nat.lt_or_ge buffer.length s.required_size_ with hlen | hlen
  · rw [proceed_of_lt hlen] at h
    obtain ⟨rfl, heq⟩ := runs_ret.mp h
    cases heq
    exact ⟨hsuccess, rfl⟩
  · rw [proceed_of_le hlen] at h
    have hstate : s.state_ = .kSuccess :=
      (((advance_transition s buffer).of_runs h).success hsuccess).resolve_right hs
    refine ⟨hstate, ?_⟩
    simp only [transition, hstate] at h
    exact (runs_ret.mp h).1

end Socks5State

/-! ## Sessions -/

theorem lastReply_of_sendsFinal {m : Moment} {resp : List UInt8} {status : CallbackStatus}
    (h : Socks5State.SendsFinal m.calls resp status) (log : List Moment) :
    lastReply (m :: log) = some (resp, status) := by
  unfold lastReply
  rw [h.replies]
  rfl

theorem told_of_sendsFinal {m : Moment} {resp : List UInt8} {status : CallbackStatus}
    (h : Socks5State.SendsFinal m.calls resp status) (log : List Moment) :
    Told (m :: log) ↔ AddressFound m.calls ∧ status = .kStatusOK := by
  unfold Told
  rw [lastReply_of_sendsFinal h]
  constructor
  · rintro ⟨data, heq, hdata⟩
    cases heq
    exact ⟨h.success.mp hdata, rfl⟩
  · rintro ⟨haddr, rfl⟩
    exact ⟨resp, rfl, h.success.mpr haddr⟩

theorem told_of_no_calls {m : Moment} (h : m.calls = []) {log : List Moment} (hlog : Told log) :
    Told (m :: log) := by
  obtain ⟨data, hlast, hdata⟩ := hlog
  refine ⟨data, ?_, hdata⟩
  unfold lastReply
  rw [h]
  exact hlast

/-- What one call of the session needs. -/
theorem proper_iff {m : Moment} {log : List Moment} (hm : m.Runs) (hsized : m.before.Sized)
    (hprev : m.before.state_ = .kSuccess → Told log) : Proper (m :: log) ↔ m.Answered := by
  obtain ⟨s, op, calls, ok, s'⟩ := m
  cases op with
  | proceed buffer =>
    obtain ⟨rest, hrun⟩ := hm
    by_cases hs : s.state_ = .kResponse
    · obtain ⟨resp, status, hfinal, hstate⟩ := Socks5State.proceed_response hs hsized hrun
      simp only [Proper, Moment.Answered, told_of_sendsFinal hfinal, hstate, hs, hfinal.replied,
        forall_const]
      by_cases hok : status = .kStatusOK
      · simp [hok]
      · simp [hok]
    · simp only [Proper, Moment.Answered, hs, false_implies, iff_true]
      rintro (hsuccess | ⟨hop, -⟩)
      · obtain ⟨hstate, hcalls⟩ := Socks5State.proceed_success hs hrun hsuccess
        exact told_of_no_calls hcalls (hprev hstate)
      · cases hop
  | connectionSucceed =>
    have hrun : Prog.Runs s.connectionSucceed calls (.ok (ok, s')) := hm
    by_cases hs : s.state_ = .kWaitConnect ∨ s.state_ = .kWaitAccept
    · obtain ⟨resp, status, hfinal, rfl, rfl⟩ := Socks5State.connectionSucceed_waits hs hrun
      have htold := @told_of_sendsFinal
        ⟨s, .connectionSucceed, calls, true, { s with state_ := .kSuccess }⟩ resp status hfinal log
      refine ⟨fun hproper _ => ?_, fun hanswered _ => ?_⟩
      · obtain ⟨haddr, hstatus⟩ := htold.mp (hproper (.inl rfl))
        exact ⟨haddr, hfinal.replied.mpr hstatus.symm⟩
      · obtain ⟨haddr, hreplied⟩ := hanswered hs
        exact htold.mpr ⟨haddr, (hfinal.replied.mp hreplied).symm⟩
    · obtain ⟨rfl, rfl, rfl⟩ := Socks5State.connectionSucceed_fails hs hrun
      simp [Proper, Moment.Answered, hs]

theorem Session.sized {s : Socks5State} {log : List Moment} (h : Session s log) : s.Sized := by
  induction h with
  | init response connect destAddress bind => exact Socks5State.sized_init ..
  | step m _ hm ih =>
    obtain ⟨s, op, calls, ok, s'⟩ := m
    cases op with
    | proceed buffer =>
      obtain ⟨rest, hrun⟩ : ∃ rest, Prog.Runs (s.proceed buffer) calls (.ok (ok, s', rest)) := hm
      show s'.Sized
      rcases Nat.lt_or_ge buffer.length s.required_size_ with hlen | hlen
      · rw [Socks5State.proceed_of_lt hlen] at hrun
        cases (runs_ret.mp hrun).2
        exact ih
      · rw [Socks5State.proceed_of_le hlen] at hrun
        exact ((Socks5State.advance_transition s buffer).of_runs hrun).sized ih
    | connectionSucceed =>
      have hrun : Prog.Runs s.connectionSucceed calls (.ok (ok, s')) := hm
      by_cases hs : s.state_ = .kWaitConnect ∨ s.state_ = .kWaitAccept
      · obtain ⟨-, -, -, -, rfl⟩ := Socks5State.connectionSucceed_waits hs hrun
        have hsize : s.required_size_ = 0 := by
          rcases hs with hs | hs <;> simpa only [Socks5State.Sized, hs] using ih
        show s.required_size_ ≤ 1
        omega
      · obtain ⟨-, -, rfl⟩ := Socks5State.connectionSucceed_fails hs hrun
        have hle : s.required_size_ ≤ 255 := Socks5State.sized_le ih
        exact hle

/-- A session that succeeded did so in its last call. -/
theorem Session.told {s : Socks5State} {log : List Moment} (h : Session s log)
    (hproper : Proper log) (hsuccess : s.state_ = .kSuccess) : Told log := by
  cases h with
  | init => cases hsuccess
  | step m _ _ => exact hproper (.inl hsuccess)

/-- The handshake never succeeds before the client was told so, exactly when each call that
sends a final reply found the address and, in `ConnectionSucceed`, delivered the reply. -/
theorem session_proper_iff {s : Socks5State} {log : List Moment} (h : Session s log) :
    (∀ log', log' <:+ log → Proper log') ↔ ∀ m ∈ log, m.Answered := by
  induction h with
  | init response connect destAddress bind =>
    refine ⟨fun _ m hm => absurd hm List.not_mem_nil, fun _ log' hlog' => ?_⟩
    rw [List.suffix_nil.mp hlog']
    trivial
  | @step log m hsession hm ih =>
    have hsuffix : (∀ log', log' <:+ m :: log → Proper log') ↔
        Proper (m :: log) ∧ ∀ log', log' <:+ log → Proper log' := by
      simp only [List.suffix_cons_iff, forall_eq_or_imp]
    rw [hsuffix, List.forall_mem_cons, ← ih]
    refine and_congr_left (fun hproper => ?_)
    exact proper_iff hm hsession.sized (hsession.told (hproper _ (List.suffix_refl _)))

/-! ## A connection through the proxy -/

namespace Moment.Sample
open Socks5State

def start : Socks5State := init true true true true

def destination : SockAddr := .inet (copyTo 4 [10, 0, 0, 1]) (copyTo 2 [0, 80])

def localAddress : SockAddr := .inet (copyTo 4 [10, 0, 0, 2]) (copyTo 2 [4, 0])

def answer (status : CallbackStatus) (_ : Calls) : (o : Callback) → Except CallbackError o.Val
  | .response _ => Except.ok status
  | .connect _ => Except.ok CallbackStatus.kStatusInProgress
  | .destAddress _ => Except.ok (CallbackStatus.kStatusOK, localAddress)
  | .bind port => Except.ok (CallbackStatus.kStatusOK, port)

/-- The call that sends the final reply, for which the response callback returns `status`. -/
def final (status : CallbackStatus) : Moment :=
  ⟨start.reached .kWaitConnect 0, .connectionSucceed,
    [⟨.destAddress false, Except.ok (CallbackStatus.kStatusOK, localAddress)⟩,
      ⟨.response ([0x05, 0x00, 0x00] ++ fillAddrPort localAddress), Except.ok status⟩],
    true, start.reached .kSuccess 0⟩

/-- A CONNECT handshake, newest call first. -/
def log (status : CallbackStatus) : List Moment :=
  [final status,
    ⟨start.reached .kRequestAddrV4 6, .proceed [10, 0, 0, 1, 0, 80],
      [⟨.connect destination, Except.ok CallbackStatus.kStatusInProgress⟩],
      false, start.reached .kWaitConnect 0⟩,
    ⟨start.reached .kRequestHeader 4, .proceed [0x05, 0x01, 0x00, 0x01], [],
      true, start.reached .kRequestAddrV4 6⟩,
    ⟨start.reached .kGreetingMethods 1, .proceed [0x00],
      [⟨.response [0x05, 0x00], Except.ok CallbackStatus.kStatusOK⟩],
      true, start.reached .kRequestHeader 4⟩,
    ⟨start, .proceed [0x05, 0x01], [], true, start.reached .kGreetingMethods 1⟩]

theorem session (status : CallbackStatus) : Session (start.reached .kSuccess 0) (log status) := by
  have h₀ : Session start [] := .init true true true true
  have h₁ := Session.step ⟨start, .proceed [0x05, 0x01], [], true,
    start.reached .kGreetingMethods 1⟩ h₀ ⟨[], .ret _⟩
  have h₂ := Session.step ⟨start.reached .kGreetingMethods 1, .proceed [0x00],
    [⟨.response [0x05, 0x00], Except.ok CallbackStatus.kStatusOK⟩], true,
    start.reached .kRequestHeader 4⟩ h₁
    ⟨[], runs_exec (answer .kStatusOK) _ []⟩
  have h₃ := Session.step ⟨start.reached .kRequestHeader 4, .proceed [0x05, 0x01, 0x00, 0x01], [],
    true, start.reached .kRequestAddrV4 6⟩ h₂ ⟨[], .ret _⟩
  have h₄ := Session.step ⟨start.reached .kRequestAddrV4 6, .proceed [10, 0, 0, 1, 0, 80],
    [⟨.connect destination, Except.ok CallbackStatus.kStatusInProgress⟩], false,
    start.reached .kWaitConnect 0⟩ h₃ ⟨[], runs_exec (answer .kStatusOK) _ []⟩
  have hfinal : (final status).Runs := by
    have hrun := runs_exec (answer status) (start.reached .kWaitConnect 0).connectionSucceed []
    cases status <;> exact hrun
  exact Session.step (final status) h₄ hfinal

end Moment.Sample

/-- The reply is refused, and `ConnectionSucceed` returns true all the same. -/
theorem success_untold :
    Session (Moment.Sample.start.reached .kSuccess 0) (Moment.Sample.log .kStatusFail) ∧
      ¬ Told (Moment.Sample.log .kStatusFail) := by
  refine ⟨Moment.Sample.session .kStatusFail, ?_⟩
  rintro ⟨data, hlast, -⟩
  have hstatus := congrArg (Option.map Prod.snd) hlast
  cases hstatus

/-- The reply is delivered. -/
theorem session_proper_connect :
    Session (Moment.Sample.start.reached .kSuccess 0) (Moment.Sample.log .kStatusOK) ∧
      Told (Moment.Sample.log .kStatusOK) := by
  have hsession := Moment.Sample.session .kStatusOK
  have hanswered : ∀ m ∈ Moment.Sample.log .kStatusOK, m.Answered := by
    intro m hm
    simp only [Moment.Sample.log, List.mem_cons, List.not_mem_nil, or_false] at hm
    rcases hm with rfl | rfl | rfl | rfl | rfl
    · refine fun _ => ⟨⟨false, Moment.Sample.localAddress, ?_, trivial⟩,
        [0x05, 0x00, 0x00] ++ fillAddrPort Moment.Sample.localAddress, ?_⟩
      · exact List.mem_cons_self
      · exact List.mem_cons_of_mem _ List.mem_cons_self
    · exact nofun
    · exact nofun
    · exact nofun
    · exact nofun
  refine ⟨hsession, ?_⟩
  exact (session_proper_iff hsession).mpr hanswered _ (List.suffix_refl _) (.inl rfl)

end Proxy
