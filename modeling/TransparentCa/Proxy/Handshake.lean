import TransparentCa.Proxy.Socks5State

/- The handshake as `Socks5HandshakeHandler` drives it: bytes are appended to the buffer as
   they arrive, and `Proceed` is called until it returns false or the state is `kSuccess`. It
   does not matter how the client's bytes are cut into chunks (`feed_eq`). -/
namespace Proxy
open Effects Prog

namespace Socks5State

/-! ## The loop -/

/-- How far the handshake has come. -/
def rank : HandshakeState → Nat
  | .kGreetingHeader => 0
  | .kGreetingMethods => 1
  | .kRequestHeader => 2
  | .kRequestAddrV4 => 3
  | .kRequestAddrV6 => 3
  | .kRequestBind => 3
  | .kWaitConnect => 4
  | .kWaitAccept => 4
  | .kResponse => 4
  | .kSuccess => 5
  | .kFail => 5

/-- `while (state() != kSuccess && Proceed(buffer)) {}`, left after at most `rounds` rounds. -/
def proceedLoop : Nat → Socks5State → List UInt8 → Callbacks (Socks5State × List UInt8)
  | 0, s, buffer => return (s, buffer)
  | rounds + 1, s, buffer =>
    if s.state_ = .kSuccess then return (s, buffer)
    else do
      let (ok, s, buffer) ← s.proceed buffer
      if ok then proceedLoop rounds s buffer else return (s, buffer)

/-- The loop to its end (`proceedAll_eq`). -/
def proceedAll (s : Socks5State) (buffer : List UInt8) : Callbacks (Socks5State × List UInt8) :=
  proceedLoop (6 - rank s.state_) s buffer

/-- The chunks of a stream, each appended when the loop has ended for those before it. -/
def feed : Socks5State → List UInt8 → List (List UInt8) → Callbacks (Socks5State × List UInt8)
  | s, buffer, [] => return (s, buffer)
  | s, buffer, chunk :: chunks => do
    let (s, buffer) ← s.proceedAll (buffer ++ chunk)
    feed s buffer chunks

theorem rank_le (st : HandshakeState) : rank st ≤ 5 := by
  cases st <;> decide

/-! ## What Proceed leaves -/

/-- The states that `Proceed` does not leave. -/
def Waits (s : Socks5State) : Prop :=
  s.state_ = .kWaitConnect ∨ s.state_ = .kWaitAccept ∨ s.state_ = .kSuccess ∨ s.state_ = .kFail

/-- The buffer size each state waits for. -/
def Sized (s : Socks5State) : Prop :=
  match s.state_ with
  | .kGreetingHeader => s.required_size_ = 2
  | .kGreetingMethods => 1 ≤ s.required_size_ ∧ s.required_size_ ≤ 255
  | .kRequestHeader => s.required_size_ = 4
  | .kRequestAddrV4 => s.required_size_ = 6
  | .kRequestAddrV6 => s.required_size_ = 18
  | .kRequestBind => s.required_size_ = 6 ∨ s.required_size_ = 18
  | .kWaitConnect => s.required_size_ = 0
  | .kWaitAccept => s.required_size_ = 0
  | .kResponse => s.required_size_ = 0
  | .kSuccess => s.required_size_ ≤ 1
  | .kFail => s.required_size_ ≤ 255

theorem returns_callResponse {data : List UInt8} {P : CallbackStatus → Prop} :
    (Callback.callResponse data).Returns P ↔ ∀ ret, P ret := returns_invoke

theorem returns_callConnect {addr : SockAddr} {P : CallbackStatus → Prop} :
    (Callback.callConnect addr).Returns P ↔ ∀ ret, P ret := returns_invoke

theorem returns_callBind {port : UInt16} {P : CallbackStatus × UInt16 → Prop} :
    (Callback.callBind port).Returns P ↔ ∀ r, P r := returns_invoke

theorem returns_goto {s : Socks5State} {st : HandshakeState} {buffer : List UInt8}
    {P : Outcome → Prop} :
    (s.goto st buffer).Returns P ↔ P (decide (st ≠ .kFail), { s with state_ := st }, buffer) :=
  Iff.rfl

def SameCallbacks (s s' : Socks5State) : Prop :=
  s'.response_callback_ = s.response_callback_ ∧ s'.connect_callback_ = s.connect_callback_ ∧
    s'.dest_address_callback_ = s.dest_address_callback_ ∧ s'.bind_callback_ = s.bind_callback_

/-- What a transition does to the state, whatever the callbacks answer. -/
structure Advance (s : Socks5State) (o : Outcome) : Prop where
  rank_lt : o.1 = true → rank s.state_ < rank o.2.1.state_
  waits : o.1 = false → o.2.1.Waits
  sized : s.Sized → o.2.1.Sized
  callbacks : SameCallbacks s o.2.1
  success : o.2.1.state_ = .kSuccess → s.state_ = .kSuccess ∨ s.state_ = .kResponse

theorem Advance.fail {s s' : Socks5State} {buffer : List UInt8}
    (hsize : s.Sized → s'.required_size_ ≤ 255) (hcallbacks : SameCallbacks s s') :
    (s'.goto .kFail buffer).Returns (Advance s) :=
  returns_goto.mpr ⟨nofun, fun _ => .inr (.inr (.inr rfl)), hsize, hcallbacks, nofun⟩

theorem Advance.goto {s s' : Socks5State} {st : HandshakeState} {buffer : List UInt8}
    (hrank : rank s.state_ < rank st) (hst : st ≠ .kFail)
    (hsized : s.Sized → Sized { s' with state_ := st }) (hcallbacks : SameCallbacks s s')
    (hsuccess : st = .kSuccess → s.state_ = .kResponse) :
    (s'.goto st buffer).Returns (Advance s) := by
  refine returns_goto.mpr ⟨fun _ => hrank, fun h => ?_, hsized, hcallbacks, fun h => ?_⟩
  · exact absurd (of_decide_eq_false h) (not_not_intro hst)
  · exact .inr (hsuccess h)

theorem sized_le {s : Socks5State} (h : s.Sized) : s.required_size_ ≤ 255 := by
  unfold Sized at h
  split at h <;> omega

theorem SameCallbacks.refl (s : Socks5State) : SameCallbacks s s := ⟨rfl, rfl, rfl, rfl⟩

theorem advance_greetingHeader {s : Socks5State} (hs : s.state_ = .kGreetingHeader)
    (buffer : List UInt8) : (s.greetingHeader buffer).Returns (Advance s) := by
  unfold greetingHeader
  split
  split
  · exact Advance.fail sized_le (.refl s)
  · next greeting rest heq hgreeting =>
    refine Advance.goto (by rw [hs]; decide) nofun (fun _ => ?_) ⟨rfl, rfl, rfl, rfl⟩ nofun
    have hlt := (greeting.getD 1 0).toNat_lt
    have hne : (greeting.getD 1 0).toNat ≠ 0 := by
      intro hzero
      exact hgreeting (.inr (UInt8.toNat_inj.mp hzero))
    show 1 ≤ (greeting.getD 1 0).toNat ∧ (greeting.getD 1 0).toNat ≤ 255
    omega

theorem advance_greetingMethods {s : Socks5State} (hs : s.state_ = .kGreetingMethods)
    (buffer : List UInt8) : (s.greetingMethods buffer).Returns (Advance s) := by
  have hnext (rest : List UInt8) :
      (goto { s with required_size_ := 4 } .kRequestHeader rest).Returns (Advance s) :=
    Advance.goto (by rw [hs]; decide) nofun (fun _ => rfl) ⟨rfl, rfl, rfl, rfl⟩ nofun
  unfold greetingMethods respond
  split
  split
  · exact Advance.fail sized_le (.refl s)
  · split
    · refine returns_bind.mpr (returns_callResponse.mpr (fun ret => ?_))
      split
      · exact Advance.fail sized_le (.refl s)
      · exact hnext _
    · exact hnext _

theorem advance_requestHeader {s : Socks5State} (hs : s.state_ = .kRequestHeader)
    (buffer : List UInt8) : (s.requestHeader buffer).Returns (Advance s) := by
  have hfail (rest : List UInt8) : (s.goto .kFail rest).Returns (Advance s) :=
    Advance.fail sized_le (.refl s)
  have hnext (n : Nat) (st : HandshakeState) (rest : List UInt8) (hrank : rank st = 3)
      (hsized : Sized { s with required_size_ := n, state_ := st }) :
      (goto { s with required_size_ := n } st rest).Returns (Advance s) := by
    refine Advance.goto ?_ ?_ (fun _ => hsized) ⟨rfl, rfl, rfl, rfl⟩ ?_
    · rw [hs, hrank]
      decide
    · rintro rfl
      cases hrank
    · rintro rfl
      cases hrank
  unfold requestHeader
  split
  simp only
  split_ifs
  · exact hfail _
  · exact hnext 6 .kRequestAddrV4 _ rfl rfl
  · exact hfail _
  · exact hnext 18 .kRequestAddrV6 _ rfl rfl
  · exact hfail _
  · exact hnext 6 .kRequestBind _ rfl (.inl rfl)
  · exact hfail _
  · exact hnext 18 .kRequestBind _ rfl (.inr rfl)
  · exact hfail _
  · exact hfail _

theorem advance_requestConnect {s : Socks5State} (hs : rank s.state_ = 3) (addr : SockAddr)
    (buffer : List UInt8) : (s.requestConnect addr buffer).Returns (Advance s) := by
  unfold requestConnect
  simp only
  split
  · refine returns_bind.mpr (returns_callConnect.mpr (fun ret => ?_))
    cases ret with
    | kStatusOK =>
      exact Advance.goto (by rw [hs]; decide) nofun (fun _ => rfl) ⟨rfl, rfl, rfl, rfl⟩ nofun
    | kStatusInProgress =>
      exact ⟨nofun, fun _ => .inl rfl, fun _ => rfl, ⟨rfl, rfl, rfl, rfl⟩, nofun⟩
    | kStatusFail => exact Advance.fail (fun _ => Nat.zero_le _) ⟨rfl, rfl, rfl, rfl⟩
  · exact Advance.goto (by rw [hs]; decide) nofun (fun _ => rfl) ⟨rfl, rfl, rfl, rfl⟩ nofun

theorem advance_requestBind (s : Socks5State) (buffer : List UInt8) :
    (s.requestBind buffer).Returns (Advance s) := by
  have hfail (rest : List UInt8) :
      (goto { s with required_size_ := 0 } .kFail rest).Returns (Advance s) :=
    Advance.fail (fun _ => Nat.zero_le _) ⟨rfl, rfl, rfl, rfl⟩
  unfold requestBind
  split
  split
  simp only
  split
  · refine returns_bind.mpr (returns_callBind.mpr (fun r => ?_))
    obtain ⟨ret, port⟩ := r
    simp only
    split
    · exact hfail _
    · unfold respond
      split
      · refine returns_bind.mpr (returns_callResponse.mpr (fun ret => ?_))
        split
        · exact hfail _
        · exact ⟨nofun, fun _ => .inr (.inl rfl), fun _ => rfl, ⟨rfl, rfl, rfl, rfl⟩, nofun⟩
      · trivial
  · trivial

theorem advance_response {s : Socks5State} (hs : s.state_ = .kResponse) (buffer : List UInt8) :
    (s.response buffer).Returns (Advance s) := by
  unfold response
  refine returns_bind.mpr (Returns.mono (returns_true _) (fun resp _ => ?_))
  refine returns_bind.mpr (Returns.mono (returns_true _) (fun ret _ => ?_))
  split
  · exact Advance.fail sized_le (.refl s)
  · exact Advance.goto (by rw [hs]; decide) nofun (fun _ => Nat.le_refl 1) ⟨rfl, rfl, rfl, rfl⟩
      (fun _ => hs)

theorem advance_transition (s : Socks5State) (buffer : List UInt8) :
    (s.transition buffer).Returns (Advance s) := by
  unfold transition
  split
  · next hs => exact advance_greetingHeader hs buffer
  · next hs => exact advance_greetingMethods hs buffer
  · next hs => exact advance_requestHeader hs buffer
  · next hs => exact advance_requestConnect (by rw [hs]; rfl) _ _
  · next hs => exact advance_requestConnect (by rw [hs]; rfl) _ _
  · next hs => exact advance_requestBind s buffer
  · next hs => exact ⟨nofun, fun _ => .inl hs, id, .refl s, .inl⟩
  · next hs => exact ⟨nofun, fun _ => .inr (.inl hs), id, .refl s, .inl⟩
  · next hs => exact advance_response hs buffer
  · next hs => exact ⟨nofun, fun _ => .inr (.inr (.inl hs)), id, .refl s, .inl⟩
  · next hs =>
    refine ⟨nofun, fun _ => .inr (.inr (.inr hs)), fun _ => ?_, ⟨rfl, rfl, rfl, rfl⟩, .inl⟩
    unfold Sized
    simp only [hs]
    exact Nat.zero_le _

/-- `Proceed` in a state that has not got the bytes it waits for. -/
theorem proceed_of_lt {s : Socks5State} {buffer : List UInt8}
    (h : buffer.length < s.required_size_) : s.proceed buffer = .ret (false, s, buffer) :=
  if_pos (decide_eq_true h)

theorem proceed_of_le {s : Socks5State} {buffer : List UInt8}
    (h : s.required_size_ ≤ buffer.length) : s.proceed buffer = s.transition buffer := by
  refine if_neg (fun hins => ?_)
  have hlt := of_decide_eq_true hins
  omega

theorem returns_rank_lt (s : Socks5State) (buffer : List UInt8) :
    (s.proceed buffer).Returns (fun o => o.1 = true → rank s.state_ < rank o.2.1.state_) := by
  rcases Nat.lt_or_ge buffer.length s.required_size_ with h | h
  · rw [proceed_of_lt h]
    exact nofun
  · rw [proceed_of_le h]
    exact (advance_transition s buffer).mono (fun _ ho => ho.rank_lt)

theorem proceedLoop_succ (rounds : Nat) (s : Socks5State) (buffer : List UInt8) :
    proceedLoop (rounds + 1) s buffer =
      if s.state_ = .kSuccess then .ret (s, buffer)
      else (s.proceed buffer).bind (fun o =>
        if o.1 then proceedLoop rounds o.2.1 o.2.2 else .ret (o.2.1, o.2.2)) := rfl

/-- The loop ends before the rounds run out, so that more rounds change nothing. -/
theorem proceedLoop_enough (n m : Nat) (s : Socks5State) (buffer : List UInt8)
    (hn : 6 - rank s.state_ ≤ n) (hm : 6 - rank s.state_ ≤ m) :
    proceedLoop n s buffer = proceedLoop m s buffer := by
  have hrank := rank_le s.state_
  induction n generalizing m s buffer with
  | zero => omega
  | succ n ih =>
    cases m with
    | zero => omega
    | succ m =>
      rw [proceedLoop_succ, proceedLoop_succ]
      split
      · rfl
      · refine bind_congr_of_returns ((returns_rank_lt s buffer).mono (fun o ho => ?_))
        obtain ⟨ok, s', rest⟩ := o
        cases ok with
        | true =>
          have hlt := ho rfl
          have hrank' := rank_le s'.state_
          exact ih m s' rest (by simp only at hlt; omega) (by simp only at hlt; omega) hrank'
        | false => rfl

theorem proceedAll_eq (s : Socks5State) (buffer : List UInt8) :
    s.proceedAll buffer =
      if s.state_ = .kSuccess then .ret (s, buffer)
      else (s.proceed buffer).bind (fun o =>
        if o.1 then o.2.1.proceedAll o.2.2 else .ret (o.2.1, o.2.2)) := by
  have hrank := rank_le s.state_
  obtain ⟨n, hn⟩ : ∃ n, 6 - rank s.state_ = n + 1 := ⟨5 - rank s.state_, by omega⟩
  rw [proceedAll, hn, proceedLoop_succ]
  split
  · rfl
  · refine bind_congr_of_returns ((returns_rank_lt s buffer).mono (fun o ho => ?_))
    obtain ⟨ok, s', rest⟩ := o
    cases ok with
    | true =>
      have hlt := ho rfl
      simp only at hlt
      exact proceedLoop_enough n _ s' rest (by omega) (Nat.le_refl _)
    | false => rfl

/-! ## Chunks -/

/-- More bytes behind the buffer. -/
def Outcome.append (extra : List UInt8) (o : Outcome) : Outcome := (o.1, o.2.1, o.2.2 ++ extra)

theorem copyOut_append {buffer : List UInt8} {size : Nat} (h : size ≤ buffer.length)
    (extra : List UInt8) :
    copyOut (buffer ++ extra) size = ((copyOut buffer size).1, (copyOut buffer size).2 ++ extra) := by
  simp only [copyOut, List.take_append_of_le_length h, List.drop_append_of_le_length h]

section
variable (s : Socks5State) {buffer : List UInt8} (extra : List UInt8)

theorem greetingHeader_append (h : 2 ≤ buffer.length) :
    s.greetingHeader (buffer ++ extra) =
      (s.greetingHeader buffer).bind (fun o => .ret (Outcome.append extra o)) := by
  unfold greetingHeader
  rw [copyOut_append h]
  generalize copyOut buffer 2 = x
  obtain ⟨field, rest⟩ := x
  simp only [Prog.ite_bind]
  rfl

theorem greetingMethods_append (h : s.required_size_ ≤ buffer.length) :
    s.greetingMethods (buffer ++ extra) =
      (s.greetingMethods buffer).bind (fun o => .ret (Outcome.append extra o)) := by
  unfold greetingMethods
  rw [copyOut_append h]
  generalize copyOut buffer s.required_size_ = x
  obtain ⟨methods, rest⟩ := x
  simp only [bind_eq, Prog.ite_bind, Prog.bind_assoc]
  rfl

theorem requestHeader_append (h : 4 ≤ buffer.length) :
    s.requestHeader (buffer ++ extra) =
      (s.requestHeader buffer).bind (fun o => .ret (Outcome.append extra o)) := by
  unfold requestHeader
  rw [copyOut_append h]
  generalize copyOut buffer 4 = x
  obtain ⟨field, rest⟩ := x
  simp only [Prog.ite_bind]
  rfl

theorem requestConnect_append (addr : SockAddr) (rest : List UInt8) :
    s.requestConnect addr (rest ++ extra) =
      (s.requestConnect addr rest).bind (fun o => .ret (Outcome.append extra o)) := by
  unfold requestConnect
  simp only [bind_eq]
  split
  · rw [Prog.bind_assoc]
    congr 1
    funext ret
    cases ret <;> rfl
  · rfl

/-- Two fields of the buffer, one behind the other. -/
theorem copyOut_copyOut_append {n m : Nat} (h : n + m ≤ buffer.length) :
    copyOut (copyOut (buffer ++ extra) n).2 m =
      ((copyOut (copyOut buffer n).2 m).1, (copyOut (copyOut buffer n).2 m).2 ++ extra) := by
  have hdrop : m ≤ (buffer.drop n).length := by
    rw [List.length_drop]
    omega
  rw [copyOut_append (by omega)]
  exact copyOut_append hdrop extra

theorem requestAddrV4_append (h : 6 ≤ buffer.length) :
    s.requestAddrV4 (buffer ++ extra) =
      (s.requestAddrV4 buffer).bind (fun o => .ret (Outcome.append extra o)) := by
  have hport := @copyOut_copyOut_append buffer extra 4 2 h
  unfold requestAddrV4
  rw [copyOut_append (by omega)] at hport ⊢
  simp only at hport ⊢
  rw [hport]
  exact requestConnect_append s extra _ _

theorem requestAddrV6_append (h : 18 ≤ buffer.length) :
    s.requestAddrV6 (buffer ++ extra) =
      (s.requestAddrV6 buffer).bind (fun o => .ret (Outcome.append extra o)) := by
  have hport := @copyOut_copyOut_append buffer extra 16 2 h
  unfold requestAddrV6
  rw [copyOut_append (by omega)] at hport ⊢
  simp only at hport ⊢
  rw [hport]
  exact requestConnect_append s extra _ _

theorem requestBind_append (hsize : 2 ≤ s.required_size_) (h : s.required_size_ ≤ buffer.length) :
    s.requestBind (buffer ++ extra) =
      (s.requestBind buffer).bind (fun o => .ret (Outcome.append extra o)) := by
  have hport := @copyOut_copyOut_append buffer extra (s.required_size_ - 2) 2 (by omega)
  unfold requestBind
  rw [copyOut_append (by omega)] at hport ⊢
  simp only [bind_eq] at hport ⊢
  rw [hport]
  simp only
  split
  · rw [Prog.bind_assoc]
    congr 1
    funext r
    obtain ⟨ret, port⟩ := r
    simp only
    split
    · rfl
    · rw [Prog.bind_assoc]
      congr 1
      funext ret
      cases ret <;> rfl
  · rfl

theorem response_append (rest : List UInt8) :
    s.response (rest ++ extra) =
      (s.response rest).bind (fun o => .ret (Outcome.append extra o)) := by
  unfold response
  simp only [bind_eq, Prog.bind_assoc]
  congr 1
  funext resp
  congr 1
  funext ret
  cases ret <;> rfl

end

/-- A transition does not look beyond the bytes it waits for. -/
theorem transition_append {s : Socks5State} {buffer : List UInt8} (hs : s.Sized)
    (hlen : s.required_size_ ≤ buffer.length) (extra : List UInt8) :
    s.transition (buffer ++ extra) =
      (s.transition buffer).bind (fun o => .ret (Outcome.append extra o)) := by
  unfold Sized at hs
  unfold transition
  split <;> simp only [*] at hs
  · exact greetingHeader_append s extra (by omega)
  · exact greetingMethods_append s extra hlen
  · exact requestHeader_append s extra (by omega)
  · exact requestAddrV4_append s extra (by omega)
  · exact requestAddrV6_append s extra (by omega)
  · exact requestBind_append s extra (by omega) hlen
  · rfl
  · rfl
  · exact response_append s extra buffer
  · rfl
  · rfl

/-- The state as it shows: a handshake that failed waits for nothing, whatever
`required_size_` was left at. -/
def settle (s : Socks5State) : Socks5State :=
  if s.state_ = .kFail then { s with required_size_ := 0 } else s

def settled (r : Socks5State × List UInt8) : Callbacks (Socks5State × List UInt8) :=
  .ret (r.1.settle, r.2)

/-- A handshake that failed, once more in the loop: with as many bytes left as the message
that failed was long, it forgets their number, and the handler reads no more of them. -/
def lapse (r : Socks5State × List UInt8) : Socks5State × List UInt8 :=
  if r.1.state_ = .kFail ∧ r.1.required_size_ ≤ r.2.length then
    ({ r.1 with required_size_ := 0 }, r.2)
  else r

def lapsed (r : Socks5State × List UInt8) : Callbacks (Socks5State × List UInt8) :=
  .ret (lapse r)

theorem lapse_of_lt {s : Socks5State} {buffer : List UInt8}
    (h : buffer.length < s.required_size_) : lapse (s, buffer) = (s, buffer) :=
  if_neg (fun hlapse => Nat.not_le_of_lt h hlapse.2)

theorem lapse_of_ne {s : Socks5State} (h : s.state_ ≠ .kFail) (buffer : List UInt8) :
    lapse (s, buffer) = (s, buffer) :=
  if_neg (fun hlapse => h hlapse.1)

/-- To the handler it makes no difference. -/
theorem insufficientBuffer_lapse (r : Socks5State × List UInt8) :
    (lapse r).1.insufficientBuffer (lapse r).2 = r.1.insufficientBuffer r.2 := by
  unfold lapse
  split
  · next h =>
    have hnot : ¬ r.2.length < r.1.required_size_ := Nat.not_lt_of_le h.2
    simp [insufficientBuffer, hnot]
  · rfl

theorem state_lapse (r : Socks5State × List UInt8) : (lapse r).1.state_ = r.1.state_ := by
  unfold lapse
  split <;> rfl

theorem settle_lapse (r : Socks5State × List UInt8) :
    ((lapse r).1.settle, (lapse r).2) = (r.1.settle, r.2) := by
  unfold lapse
  split
  · next h => simp [settle, h.1]
  · rfl

/-- A handshake that waits stays as it is, and the bytes stay in the buffer. -/
theorem proceedAll_waits {s : Socks5State} (h : s.Waits) (buffer : List UInt8) :
    s.proceedAll buffer = lapsed (s, buffer) := by
  rw [proceedAll_eq]
  by_cases hsuccess : s.state_ = .kSuccess
  · rw [if_pos hsuccess, lapsed, lapse_of_ne (by rw [hsuccess]; decide)]
  · rw [if_neg hsuccess]
    rcases Nat.lt_or_ge buffer.length s.required_size_ with hlen | hlen
    · rw [proceed_of_lt hlen, lapsed, lapse_of_lt hlen]
      rfl
    · rw [proceed_of_le hlen]
      unfold transition
      rcases h with h | h | h | h
      · simp [h, lapsed, lapse]
      · simp [h, lapsed, lapse]
      · exact absurd h hsuccess
      · simp [h, lapsed, lapse, hlen]

theorem lapse_lapse (r : Socks5State × List UInt8) : lapse (lapse r) = lapse r := by
  by_cases h : r.1.state_ = .kFail ∧ r.1.required_size_ ≤ r.2.length
  · simp [lapse, h.1, h.2]
  · have hsame : lapse r = r := if_neg h
    rw [hsame, hsame]

/-- The loop where the bytes do not suffice. -/
theorem proceedAll_of_lt {s : Socks5State} {buffer : List UInt8}
    (h : buffer.length < s.required_size_) : s.proceedAll buffer = .ret (s, buffer) := by
  rw [proceedAll_eq, proceed_of_lt h]
  split <;> rfl

/-- The loop where they do: a transition, and the loop from the state it leads to. -/
theorem proceedAll_of_le {s : Socks5State} {buffer : List UInt8} (hs : s.state_ ≠ .kSuccess)
    (h : s.required_size_ ≤ buffer.length) :
    s.proceedAll buffer = (s.transition buffer).bind (fun o =>
      if o.1 then o.2.1.proceedAll o.2.2 else .ret (o.2.1, o.2.2)) := by
  rw [proceedAll_eq, if_neg hs, proceed_of_le h]

/-- The loop on a longer buffer is the loop on its front and then, with the bytes behind it,
on what that left. -/
theorem proceedAll_append {s : Socks5State} (hs : s.Sized) (buffer extra : List UInt8) :
    (s.proceedAll (buffer ++ extra)).bind lapsed =
      (s.proceedAll buffer).bind (fun r => (r.1.proceedAll (r.2 ++ extra)).bind lapsed) := by
  -- Each round that returns true raises the rank.
  induction hk : 6 - rank s.state_ using Nat.strongRecOn generalizing s buffer with
  | _ k ih =>
    rcases Nat.lt_or_ge buffer.length s.required_size_ with hlen | hlen
    · rw [proceedAll_of_lt hlen]
      rfl
    · by_cases hsuccess : s.state_ = .kSuccess
      · rw [proceedAll_eq s buffer, if_pos hsuccess]
        rfl
      · have hlen' : s.required_size_ ≤ (buffer ++ extra).length := by
          rw [List.length_append]
          omega
        rw [proceedAll_of_le hsuccess hlen, proceedAll_of_le hsuccess hlen',
          transition_append hs hlen, Prog.bind_assoc, Prog.bind_assoc, Prog.bind_assoc]
        refine bind_congr_of_returns ((advance_transition s buffer).mono (fun o ho => ?_))
        obtain ⟨ok, s', rest⟩ := o
        cases ok with
        | true =>
          have hlt := ho.rank_lt rfl
          have hrank := rank_le s'.state_
          simp only at hlt
          exact ih (6 - rank s'.state_) (by omega) (ho.sized hs) rest rfl
        | false =>
          show lapsed (s', rest ++ extra) = (s'.proceedAll (rest ++ extra)).bind lapsed
          rw [proceedAll_waits (ho.waits rfl)]
          exact congrArg Prog.ret (lapse_lapse (s', rest ++ extra)).symm

theorem sized_proceedAll {s : Socks5State} (hs : s.Sized) (buffer : List UInt8) :
    (s.proceedAll buffer).Returns (fun r => r.1.Sized) := by
  induction hk : 6 - rank s.state_ using Nat.strongRecOn generalizing s buffer with
  | _ k ih =>
    rcases Nat.lt_or_ge buffer.length s.required_size_ with hlen | hlen
    · rw [proceedAll_of_lt hlen]
      exact hs
    · by_cases hsuccess : s.state_ = .kSuccess
      · rw [proceedAll_eq, if_pos hsuccess]
        exact hs
      · rw [proceedAll_of_le hsuccess hlen, returns_bind]
        refine (advance_transition s buffer).mono (fun o ho => ?_)
        obtain ⟨ok, s', rest⟩ := o
        cases ok with
        | true =>
          have hlt := ho.rank_lt rfl
          have hrank := rank_le s'.state_
          simp only at hlt
          exact ih (6 - rank s'.state_) (by omega) (ho.sized hs) rest rfl
        | false => exact ho.sized hs

/-- The chunks, one at least, one after another: the loop on all of them at once. -/
theorem feed_cons {s : Socks5State} (hs : s.Sized) (buffer chunk : List UInt8)
    (chunks : List (List UInt8)) :
    (feed s buffer (chunk :: chunks)).bind lapsed =
      (s.proceedAll (buffer ++ (chunk :: chunks).flatten)).bind lapsed := by
  induction chunks generalizing s buffer chunk with
  | nil =>
    show ((s.proceedAll (buffer ++ chunk)).bind (fun r => .ret (r.1, r.2))).bind lapsed = _
    rw [Prog.bind_assoc, List.flatten_cons, List.flatten_nil, List.append_nil]
    rfl
  | cons chunk' chunks ih =>
    calc (feed s buffer (chunk :: chunk' :: chunks)).bind lapsed
        = (s.proceedAll (buffer ++ chunk)).bind (fun r =>
            (feed r.1 r.2 (chunk' :: chunks)).bind lapsed) := Prog.bind_assoc _ _ _
      _ = (s.proceedAll (buffer ++ chunk)).bind (fun r =>
            (r.1.proceedAll (r.2 ++ (chunk' :: chunks).flatten)).bind lapsed) := by
          refine bind_congr_of_returns ((sized_proceedAll hs _).mono (fun r hr => ?_))
          exact ih hr r.2 chunk'
      _ = (s.proceedAll (buffer ++ chunk ++ (chunk' :: chunks).flatten)).bind lapsed :=
          (proceedAll_append hs _ _).symm
      _ = _ := by rw [List.flatten_cons (l := chunk), List.append_assoc]

variable (response connect destAddress bind : Bool)

theorem sized_init : (init response connect destAddress bind).Sized := rfl

theorem feed_lapsed (chunks : List (List UInt8)) :
    (feed (init response connect destAddress bind) [] chunks).bind lapsed =
      (proceedAll (init response connect destAddress bind) chunks.flatten).bind lapsed := by
  cases chunks with
  | nil => rfl
  | cons chunk chunks => exact feed_cons (sized_init ..) [] chunk chunks

theorem feed_eq (chunks : List (List UInt8)) :
    (feed (init response connect destAddress bind) [] chunks).bind settled =
      (proceedAll (init response connect destAddress bind) chunks.flatten).bind settled := by
  have hsettled (p : Callbacks (Socks5State × List UInt8)) :
      (p.bind lapsed).bind settled = p.bind settled := by
    rw [Prog.bind_assoc]
    congr 1
    funext r
    exact congrArg Prog.ret (settle_lapse r)
  rw [← hsettled, feed_lapsed, hsettled]

end Socks5State
end Proxy
