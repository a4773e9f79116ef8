import TransparentCa.Proxy.BridgeSafety

/- What a bridge reads after it refused its client. `Socks5HandshakeHandler` reads on while
   the buffer holds less than `required_size_`, and a failure leaves `required_size_` at the
   length of the message that failed: with fewer bytes than that behind the message, the
   handler waits for more of a stream it has given up (`reads_refused_iff`). From the address
   on the size is zero when a message fails. -/
namespace Proxy
open Effects Prog

abbrev CallbackEvent := Event Callback Callback.Val CallbackError

/-- The reply to the greeting was delivered. -/
def Greeted (calls : List CallbackEvent) : Prop :=
  ∃ more, calls = ⟨.response [0x05, 0x00], Except.ok CallbackStatus.kStatusOK⟩ :: more

/-- The header of a request that the proxy supports. -/
def SupportedHeader (header : List UInt8) : Prop :=
  ∃ cmd atyp : UInt8, header = [0x05, cmd, 0x00, atyp] ∧ (cmd = 0x01 ∨ cmd = 0x02) ∧
    (atyp = 0x01 ∨ atyp = 0x04)

/-- The client's bytes fail the handshake with `message`, before the address of a request,
and go on with `rest`. -/
inductive Refused (greeted : Prop) : (stream message rest : List UInt8) → Prop where
  | greeting (version n : UInt8) (rest : List UInt8) (h : version ≠ 0x05 ∨ n = 0) :
      Refused greeted ([version, n] ++ rest) [version, n] rest
  | methods (n : UInt8) (methods rest : List UInt8) (hn : n ≠ 0) (hlen : methods.length = n.toNat)
      (h : 0x00 ∉ methods ∨ ¬ greeted) :
      Refused greeted ([0x05, n] ++ (methods ++ rest)) methods rest
  | request (n : UInt8) (methods header rest : List UInt8) (hn : n ≠ 0)
      (hlen : methods.length = n.toNat) (hzero : 0x00 ∈ methods) (hgreeted : greeted)
      (hheader : header.length = 4) (h : ¬ SupportedHeader header) :
      Refused greeted ([0x05, n] ++ (methods ++ (header ++ rest))) header rest

namespace Socks5State

/-! ## From the address on -/

/-- A failure that waits for no more bytes. -/
def FailsEmpty (s : Socks5State) : Prop := s.state_ = .kFail → s.required_size_ = 0

section
variable {s : Socks5State}

theorem failsEmpty_requestConnect (addr : SockAddr) (buffer : List UInt8) :
    (s.requestConnect addr buffer).Returns (fun o => o.2.1.FailsEmpty) := by
  unfold requestConnect
  simp only
  split
  · refine returns_bind.mpr (returns_callConnect.mpr (fun ret => ?_))
    cases ret with
    | kStatusOK => exact fun _ => rfl
    | kStatusInProgress => exact fun _ => rfl
    | kStatusFail => exact fun _ => rfl
  · exact fun _ => rfl

theorem failsEmpty_requestBind (buffer : List UInt8) :
    (s.requestBind buffer).Returns (fun o => o.2.1.FailsEmpty) := by
  unfold requestBind
  split
  split
  simp only
  split
  · refine returns_bind.mpr (returns_callBind.mpr (fun r => ?_))
    obtain ⟨ret, port⟩ := r
    simp only
    split
    · exact fun _ => rfl
    · unfold respond
      split
      · refine returns_bind.mpr (returns_callResponse.mpr (fun ret => ?_))
        split
        · exact fun _ => rfl
        · exact fun _ => rfl
      · trivial
  · trivial

theorem failsEmpty_response (h : s.required_size_ = 0) (buffer : List UInt8) :
    (s.response buffer).Returns (fun o => o.2.1.FailsEmpty) := by
  unfold response
  refine returns_bind.mpr (Returns.mono (returns_true _) (fun resp _ => ?_))
  refine returns_bind.mpr (Returns.mono (returns_true _) (fun ret _ => ?_))
  split
  · exact fun _ => h
  · exact nofun

theorem failsEmpty_transition (hs : s.Sized) (hrank : 3 ≤ rank s.state_) (buffer : List UInt8) :
    (s.transition buffer).Returns (fun o => o.2.1.FailsEmpty) := by
  unfold Sized at hs
  unfold transition
  split <;> simp only [*, rank] at hs hrank
  · omega
  · omega
  · omega
  · exact failsEmpty_requestConnect _ _
  · exact failsEmpty_requestConnect _ _
  · exact failsEmpty_requestBind _
  · exact fun _ => hs
  · exact fun _ => hs
  · exact failsEmpty_response hs buffer
  · next hstate =>
    intro hfail
    rw [show s.state_ = .kFail from hfail] at hstate
    cases hstate
  · exact fun _ => rfl

/-- The loop, from a state behind the request's header. -/
theorem failsEmpty_proceedAll (hs : s.Sized) (hrank : 3 ≤ rank s.state_) (hfail : s.FailsEmpty)
    (buffer : List UInt8) : (s.proceedAll buffer).Returns (fun r => r.1.FailsEmpty) := by
  induction hk : 6 - rank s.state_ using Nat.strongRecOn generalizing s buffer with
  | _ k ih =>
    rcases Nat.lt_or_ge buffer.length s.required_size_ with hlen | hlen
    · rw [proceedAll_of_lt hlen]
      exact hfail
    · by_cases hsuccess : s.state_ = .kSuccess
      · rw [proceedAll_eq, if_pos hsuccess]
        exact hfail
      · rw [proceedAll_of_le hsuccess hlen, returns_bind]
        refine ((advance_transition s buffer).and (failsEmpty_transition hs hrank buffer)).mono ?_
        intro o ho
        obtain ⟨hadvance, hempty⟩ := ho
        obtain ⟨ok, s', rest⟩ := o
        cases ok with
        | true =>
          have hlt : rank s.state_ < rank s'.state_ := hadvance.rank_lt rfl
          have hle := rank_le s'.state_
          have hrank' : 3 ≤ rank s'.state_ := by omega
          exact ih (6 - rank s'.state_) (by omega) (hadvance.sized hs) hrank' hempty rest rfl
        | false => exact hempty

end

/-! ## The message that fails -/

/-- The loop ended in a failure, and still waits for more bytes than there are. -/
def WaitsOn (s : Socks5State) (rest : List UInt8) : Prop :=
  s.state_ = .kFail ∧ rest.length < s.required_size_

/-- A run that waits on after a failure has failed with a message that is longer than what
follows it. -/
def FailedIn (stream : List UInt8) (calls : List CallbackEvent) : Prop :=
  ∃ message rest, Refused (Greeted calls) stream message rest ∧ rest.length < message.length

section
variable {s : Socks5State} {calls : List CallbackEvent} {s' : Socks5State} {rest : List UInt8}

theorem not_waitsOn_of_failsEmpty (h : s.FailsEmpty) : ¬ s.WaitsOn rest := by
  rintro ⟨hfail, hlt⟩
  rw [h hfail] at hlt
  exact Nat.not_lt_zero _ hlt

/-- The loop stopped for want of bytes. -/
theorem not_waitsOn_of_lt {st : HandshakeState} {size : Nat} {buffer : List UInt8}
    (hst : st ≠ .kFail) (hlt : buffer.length < size)
    (h : Runs ((s.reached st size).proceedAll buffer) calls (.ok (s', rest))) :
    ¬ s'.WaitsOn rest := by
  rw [proceedAll_of_lt hlt] at h
  obtain ⟨-, heq⟩ := runs_ret.mp h
  cases heq
  exact fun hwaits => hst hwaits.1

theorem not_waitsOn_behind {st : HandshakeState} {size : Nat} {buffer : List UInt8}
    (h : Runs ((s.reached st size).proceedAll buffer) calls (.ok (s', rest)))
    (hs : (s.reached st size).Sized) (hrank : 3 ≤ rank st) (hst : st ≠ .kFail) :
    ¬ s'.WaitsOn rest :=
  not_waitsOn_of_failsEmpty
    ((failsEmpty_proceedAll hs hrank (fun hfail => absurd hfail hst) buffer).of_runs h)

/-- The request's header, in a client that was greeted. -/
theorem header_of_waitsOn {buffer : List UInt8}
    (h : Runs ((s.reached .kRequestHeader 4).proceedAll buffer) calls (.ok (s', rest)))
    (hwaits : s'.WaitsOn rest) :
    ∃ header, buffer = header ++ rest ∧ header.length = 4 ∧ ¬ SupportedHeader header ∧
      s'.required_size_ = 4 := by
  rcases Nat.lt_or_ge buffer.length 4 with hlen | hlen
  · exact absurd hwaits (not_waitsOn_of_lt (by decide) hlen h)
  · obtain ⟨b, cmd, r, atyp, tail, rfl⟩ : ∃ b cmd r atyp tail, buffer = b :: cmd :: r :: atyp :: tail := by
      rcases buffer with _ | ⟨b, _ | ⟨cmd, _ | ⟨r, _ | ⟨atyp, tail⟩⟩⟩⟩
      · simp at hlen
      · simp at hlen
      · simp at hlen
      · simp at hlen
      · exact ⟨b, cmd, r, atyp, tail, rfl⟩
    rw [proceedAll_requestHeader] at h
    -- Where the header is refused the loop ends with it.
    have hrefused (hrun : Runs (.ret (s.reached .kFail 4, tail)) calls (.ok (s', rest)))
        (hnot : ¬ SupportedHeader [b, cmd, r, atyp]) :
        ∃ header, b :: cmd :: r :: atyp :: tail = header ++ rest ∧ header.length = 4 ∧
          ¬ SupportedHeader header ∧ s'.required_size_ = 4 := by
      obtain ⟨-, heq⟩ := runs_ret.mp hrun
      cases heq
      exact ⟨[b, cmd, r, atyp], rfl, rfl, hnot, rfl⟩
    split_ifs at h with hbad hcmd hv4 hv3 hv6 hcmd' hv4 hv3 hv6
    · refine hrefused h ?_
      rintro ⟨cmd', atyp', heq, -⟩
      cases heq
      simp at hbad
    · exact absurd hwaits (not_waitsOn_behind h rfl (by decide) (by decide))
    · refine hrefused h ?_
      rintro ⟨cmd', atyp', heq, -, rfl | rfl⟩
      · cases heq
        exact hv4 rfl
      · cases heq
        cases hv3
    · exact absurd hwaits (not_waitsOn_behind h rfl (by decide) (by decide))
    · refine hrefused h ?_
      rintro ⟨cmd', atyp', heq, -, rfl | rfl⟩
      · cases heq
        exact hv4 rfl
      · cases heq
        exact hv6 rfl
    · exact absurd hwaits (not_waitsOn_behind h (.inl rfl) (by decide) (by decide))
    · refine hrefused h ?_
      rintro ⟨cmd', atyp', heq, -, rfl | rfl⟩
      · cases heq
        exact hv4 rfl
      · cases heq
        cases hv3
    · exact absurd hwaits (not_waitsOn_behind h (.inr rfl) (by decide) (by decide))
    · refine hrefused h ?_
      rintro ⟨cmd', atyp', heq, -, rfl | rfl⟩
      · cases heq
        exact hv4 rfl
      · cases heq
        exact hv6 rfl
    · refine hrefused h ?_
      rintro ⟨cmd', atyp', heq, rfl | rfl, -⟩
      · cases heq
        exact hcmd rfl
      · cases heq
        exact hcmd' rfl

/-- The greeting's reply, and how it went. -/
theorem runs_afterGreeting {size : Nat} {tail : List UInt8}
    (h : Runs (s.afterGreeting size tail) calls (.ok (s', rest))) :
    ∃ (status : CallbackStatus) (more : List CallbackEvent),
      calls = ⟨.response [0x05, 0x00], Except.ok status⟩ :: more ∧
      Runs (if status ≠ .kStatusOK then .ret (s.reached .kFail size, tail)
        else (s.reached .kRequestHeader 4).proceedAll tail) more (.ok (s', rest)) := by
  unfold afterGreeting Callback.callResponse at h
  exact runs_invoke_bind.mp h

/-- The greeting's methods, and what comes after them. -/
theorem failedIn_of_methods (hs : s.response_callback_ = true) {n : UInt8} (hn : n ≠ 0)
    {buffer : List UInt8}
    (h : Runs ((s.reached .kGreetingMethods n.toNat).proceedAll buffer) calls (.ok (s', rest)))
    (hwaits : s'.WaitsOn rest) : FailedIn ([0x05, n] ++ buffer) calls := by
  rcases Nat.lt_or_ge buffer.length n.toNat with hlen | hlen
  · exact absurd hwaits (not_waitsOn_of_lt (by decide) hlen h)
  · obtain ⟨methods, tail, rfl, hmethods⟩ : ∃ methods tail, buffer = methods ++ tail ∧
        methods.length = n.toNat :=
      ⟨buffer.take n.toNat, buffer.drop n.toNat, (List.take_append_drop _ _).symm,
        List.length_take_of_le hlen⟩
    rw [← hmethods, s.proceedAll_greetingMethods hs] at h
    split at h
    · next hzero =>
      obtain ⟨-, heq⟩ := runs_ret.mp h
      cases heq
      exact ⟨methods, rest, .methods n methods rest hn hmethods (.inl hzero), hwaits.2⟩
    · next hzero =>
      obtain ⟨status, more, rfl, hafter⟩ := runs_afterGreeting h
      split at hafter
      · next hrefused =>
        obtain ⟨rfl, heq⟩ := runs_ret.mp hafter
        cases heq
        refine ⟨methods, rest, .methods n methods rest hn hmethods (.inr ?_), hwaits.2⟩
        rintro ⟨more, heq⟩
        cases heq
        exact hrefused rfl
      · next hok =>
        obtain ⟨header, rfl, hheader, hnot, hsize⟩ := header_of_waitsOn hafter hwaits
        refine ⟨header, rest, .request n methods header rest hn hmethods (not_not.mp hzero) ?_
          hheader hnot, ?_⟩
        · exact ⟨more, by rw [not_not.mp hok]⟩
        · rw [hheader, ← hsize]
          exact hwaits.2

theorem failedIn_of_waitsOn (hs : s.response_callback_ = true) {stream : List UInt8}
    (h : Runs ((s.reached .kGreetingHeader 2).proceedAll stream) calls (.ok (s', rest)))
    (hwaits : s'.WaitsOn rest) : FailedIn stream calls := by
  rcases stream with _ | ⟨version, _ | ⟨n, tail⟩⟩
  · exact absurd hwaits (not_waitsOn_of_lt (by decide) (by decide) h)
  · exact absurd hwaits (not_waitsOn_of_lt (by decide) (by simp) h)
  · rw [proceedAll_greetingHeader] at h
    split at h
    · next hbad =>
      obtain ⟨-, heq⟩ := runs_ret.mp h
      cases heq
      exact ⟨[version, n], rest, .greeting version n rest hbad, hwaits.2⟩
    · next hgood =>
      rw [not_or, not_not] at hgood
      obtain ⟨rfl, hn⟩ := hgood
      exact failedIn_of_methods hs hn h hwaits

/-- The run over a stream that fails with `message` ends there. -/
theorem waitsOn_of_refused (hs : s.response_callback_ = true) {stream message tail : List UInt8}
    (hrefused : Refused (Greeted calls) stream message tail)
    (h : Runs ((s.reached .kGreetingHeader 2).proceedAll stream) calls (.ok (s', rest))) :
    s' = s.reached .kFail message.length ∧ rest = tail := by
  have hret {size : Nat} {tr : List CallbackEvent}
      (hrun : Runs (.ret (s.reached .kFail size, tail)) tr (.ok (s', rest))) :
      s' = s.reached .kFail size ∧ rest = tail := by
    obtain ⟨-, heq⟩ := runs_ret.mp hrun
    cases heq
    exact ⟨rfl, rfl⟩
  -- The greeting, up to the methods.
  have hmethods {n : UInt8} {methods buffer : List UInt8} (hn : n ≠ 0)
      (hlen : methods.length = n.toNat)
      (hrun : Runs ((s.reached .kGreetingHeader 2).proceedAll ([0x05, n] ++ (methods ++ buffer)))
        calls (.ok (s', rest))) :
      Runs (if 0x00 ∉ methods then .ret (s.reached .kFail methods.length, buffer)
        else s.afterGreeting methods.length buffer) calls (.ok (s', rest)) := by
    have hheader := s.proceedAll_greetingHeader 0x05 n (methods ++ buffer)
    rw [if_neg (by simp [hn]), ← hlen, s.proceedAll_greetingMethods hs] at hheader
    rw [← hheader]
    exact hrun
  cases hrefused with
  | greeting version n _ hbad =>
    show s' = s.reached .kFail 2 ∧ _
    rw [show [version, n] ++ tail = version :: n :: tail from rfl, proceedAll_greetingHeader,
      if_pos hbad] at h
    exact hret h
  | methods n _ _ hn hlen hbad =>
    have hrun := hmethods hn hlen h
    split at hrun
    · exact hret hrun
    · next hzero =>
      obtain ⟨status, more, rfl, hafter⟩ := runs_afterGreeting hrun
      split at hafter
      · exact hret hafter
      · next hok =>
        refine absurd ⟨more, ?_⟩ (hbad.resolve_left hzero)
        rw [not_not.mp hok]
  | request n methods header _ hn hlen hzero hgreeted hheader hnot =>
    have hrun := hmethods hn hlen h
    rw [if_neg (not_not_intro hzero)] at hrun
    obtain ⟨status, more, rfl, hafter⟩ := runs_afterGreeting hrun
    obtain ⟨more', heq⟩ := hgreeted
    obtain ⟨b, cmd, r, atyp, rfl⟩ : ∃ b cmd r atyp, message = [b, cmd, r, atyp] := by
      rcases message with _ | ⟨b, _ | ⟨cmd, _ | ⟨r, _ | ⟨atyp, _ | ⟨_, _⟩⟩⟩⟩⟩ <;> simp at hheader
      exact ⟨b, cmd, r, atyp, rfl⟩
    cases heq
    rw [if_neg (not_not_intro rfl),
      show [b, cmd, r, atyp] ++ tail = b :: cmd :: r :: atyp :: tail from rfl,
      proceedAll_requestHeader] at hafter
    show s' = s.reached .kFail 4 ∧ _
    -- The branches that go on are those of a header that is supported.
    have hsupported (hbad : ¬ (b ≠ 0x05 ∨ r ≠ 0x00)) (hcmd : cmd = 0x01 ∨ cmd = 0x02)
        (hatyp : atyp = 0x01 ∨ atyp = 0x04) : False := by
      rw [not_or, not_not, not_not] at hbad
      obtain ⟨rfl, rfl⟩ := hbad
      exact hnot ⟨cmd, atyp, rfl, hcmd, hatyp⟩
    split_ifs at hafter with hbad hcmd hv4 hv3 hv6 hcmd' hv4 hv3 hv6
    · exact hret hafter
    · exact (hsupported hbad (.inl hcmd) (.inl hv4)).elim
    · exact hret hafter
    · exact (hsupported hbad (.inl hcmd) (.inr hv6)).elim
    · exact hret hafter
    · exact (hsupported hbad (.inr hcmd') (.inl hv4)).elim
    · exact hret hafter
    · exact (hsupported hbad (.inr hcmd') (.inr hv6)).elim
    · exact hret hafter
    · exact hret hafter

theorem waitsOn_iff (hs : s.response_callback_ = true) {stream : List UInt8}
    (h : Runs ((s.reached .kGreetingHeader 2).proceedAll stream) calls (.ok (s', rest))) :
    s'.WaitsOn rest ↔ FailedIn stream calls := by
  refine ⟨failedIn_of_waitsOn hs h, ?_⟩
  rintro ⟨message, tail, hrefused, hlt⟩
  obtain ⟨rfl, rfl⟩ := waitsOn_of_refused hs hrefused h
  exact ⟨rfl, hlt⟩

end
end Socks5State
end Proxy
