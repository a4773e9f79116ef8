import TransparentCa.Proxy.BridgeHandshake

/- The invariant of a bridge over whole runs, from `PerformSocks5Handshake` to the end of
   forwarding. At any time there is a read of the handshake, or a connection that is awaited,
   or the traffic is forwarded, and never two of these: what keeps the handshake's reads and
   the forwarding's reads apart, which share a buffer. -/
namespace Proxy
open Effects

namespace Flow

/-- No handler of the flow has run. -/
structure Untouched (f : Flow) : Prop where
  reads : f.reads = []
  writes : f.writes = []
  sent : f.sent = []
  sinkShutdown : f.sinkShutdown = false

end Flow

namespace ProxyBridge

structure Safe (capacity : Nat) (b : ProxyBridge) : Prop where
  sized : b.socks5_state_.Sized
  callbacks : b.socks5_state_.AllSet
  up : b.up.Inv capacity b.handshakeReads
  down : b.down.Inv capacity []
  one : b.handshakeReads.length + b.pending.started + b.forwarding.toNat ≤ 1
  untouched : b.forwarding = false → b.up.Untouched ∧ b.down.Untouched
  settled : b.forwarding = true → b.up.Settled ∧ b.down.Settled

variable {capacity : Nat} {b : ProxyBridge}

/-! ## The handshake -/

theorem untouched_init : Flow.init.Untouched := ⟨rfl, rfl, rfl, rfl⟩

/-- A read of the handshake, when nothing is outstanding, on a buffer that holds less than a
message of the handshake. -/
theorem safe_readHandshake (h : b.Safe capacity) (hreads : b.handshakeReads = [])
    (hstarted : b.pending.started = 0) (hforwarding : b.forwarding = false)
    (hsize : b.up.buff.dataSize ≤ 255) {n : Nat} (hn : Rounded capacity 1 n) :
    ∃ b', b.readHandshake n = some b' ∧ b'.Safe capacity := by
  obtain ⟨hup, hdown⟩ := h.untouched hforwarding
  have hfree : b.up.buff.reserved = none := by
    have hlist := h.up.reads
    rw [hreads, hup.reads] at hlist
    exact Option.toList_eq_nil_iff.mp hlist.symm
  obtain ⟨hle, hlt⟩ := hn
  have hreserve : b.up.buff.reserveAtLeast 1 n = some { b.up.buff with reserved := some n } :=
    if_pos ⟨hfree, Nat.one_pos, hle⟩
  unfold readHandshake
  rw [hreserve, hreads]
  refine ⟨_, rfl, ?_⟩
  exact
    { sized := h.sized
      callbacks := h.callbacks
      up :=
        { reads := by
            show [n] ++ b.up.reads = [n]
            rw [hup.reads]
            rfl
          reading := h.up.reading
          writes := h.up.writes
          writing := h.up.writing
          peeked := h.up.peeked
          received := h.up.received
          size := by
            show b.up.buff.dataSize + n ≤ Flow.maxData capacity
            unfold Flow.maxData Flow.kMaxBufferSize Flow.kReadSize
            omega
          readable := h.up.readable
          shutdown := h.up.shutdown }
      down := h.down
      one := by
        show 1 + b.pending.started + b.forwarding.toNat ≤ 1
        rw [hstarted, hforwarding]
        decide
      untouched := fun _ => ⟨⟨hup.reads, hup.writes, hup.sent, hup.sinkShutdown⟩, hdown⟩
      settled := by
        intro htrue
        rw [show b.forwarding = true from htrue] at hforwarding
        cases hforwarding }

theorem safe_handshake (h : b.Safe capacity) {l l' : List Nat} {size : Nat}
    (hreads : b.handshakeReads = l ++ size :: l') {n : Nat} (hn : Rounded capacity 1 n)
    (ec : ErrorCode) {bytes : List UInt8} (hbytes : bytes.length ≤ size)
    {out : Except CallbackError (Socks5State × List UInt8)} {pending : Pending}
    (hout : ec.failed = false → ∀ buff, b.up.buff.commit bytes = some buff → ∃ tr,
      Prog.Runs (b.socks5_state_.proceedAll buff.data) tr out ∧
        Served Answers b.pending tr pending) :
    ∃ b', socks5HandshakeHandler n ec bytes out pending { b with handshakeReads := l ++ l' } =
      some b' ∧ b'.Safe capacity := by
  -- The read is all that is outstanding.
  have hone := h.one
  rw [hreads, List.length_append, List.length_cons] at hone
  have hforwarding : b.forwarding = false := by
    cases hforward : b.forwarding with
    | false => rfl
    | true =>
      rw [hforward, Bool.toNat_true] at hone
      omega
  have hstarted : b.pending.started = 0 := by omega
  obtain ⟨hup, hdown⟩ := h.untouched hforwarding
  have hlist := h.up.reads
  rw [hup.reads, List.append_nil, hreads] at hlist
  obtain ⟨rfl, rfl, hreserved⟩ := Flow.eq_of_append_cons_eq_toList hlist
  have hpeeked : b.up.buff.peeked = none := by
    have hwrites := h.up.writes
    rw [hup.writes] at hwrites
    exact Option.map_eq_none_iff.mp (Option.toList_eq_nil_iff.mp hwrites.symm)
  have hcommit : b.up.buff.commit bytes = some ⟨b.up.buff.data ++ bytes, none, none⟩ := by
    unfold ByteQueue.commit
    rw [hreserved, hpeeked]
    exact if_pos hbytes
  have hfits : b.up.buff.dataSize + bytes.length ≤ Flow.maxData capacity := by
    have hsize := h.up.size
    rw [hreserved, Option.getD_some] at hsize
    omega
  -- What the handler leaves of the bytes, as far as the flow goes.
  have hflow (data : List UInt8) (hdata : data.length ≤ Flow.maxData capacity) :
      Flow.Inv capacity [] { b.up with buff := ⟨data, none, none⟩, received := data } := by
    exact
      { reads := hup.reads
        reading := h.up.reading
        writes := hup.writes
        writing := h.up.writing
        peeked := nofun
        received := by
          show data = b.up.sent ++ data
          rw [hup.sent, List.nil_append]
        size := by
          show data.length + 0 ≤ Flow.maxData capacity
          omega
        readable := h.up.readable
        shutdown := by
          intro hshut
          have hopen := hup.sinkShutdown
          rw [show b.up.sinkShutdown = true from hshut] at hopen
          cases hopen }
  have hafter (data : List UInt8) (hdata : data.length ≤ Flow.maxData capacity)
      (s : Socks5State) (hsized : s.Sized) (hset : s.AllSet) (p : Pending) (hp : p.started ≤ 1) :
      Safe capacity { b with
        up := { b.up with buff := ⟨data, none, none⟩, received := data }
        socks5_state_ := s
        handshakeReads := []
        pending := p } := by
    exact
      { sized := hsized
        callbacks := hset
        up := hflow data hdata
        down := h.down
        one := by
          show 0 + p.started + b.forwarding.toNat ≤ 1
          rw [hforwarding, Bool.toNat_false]
          omega
        untouched := fun _ => ⟨⟨hup.reads, hup.writes, hup.sent, hup.sinkShutdown⟩, hdown⟩
        settled := by
          intro htrue
          rw [show b.forwarding = true from htrue] at hforwarding
          cases hforwarding }
  have hlength : (b.up.buff.data ++ bytes).length ≤ Flow.maxData capacity := by
    rw [List.length_append]
    exact hfits
  unfold socks5HandshakeHandler
  simp only [List.nil_append, hcommit, Option.bind_eq_bind, Option.bind_some]
  cases hec : ec.failed with
  | true =>
    exact ⟨_, rfl, hafter _ hlength _ h.sized h.callbacks b.pending (by omega)⟩
  | false =>
    obtain ⟨tr, hruns, hserved⟩ := hout hec _ hcommit
    have hensures := Socks5State.ensures_proceedAll h.sized h.callbacks
      (b.up.buff.data ++ bytes) b.pending
    obtain ⟨⟨s, rest⟩, rfl, hleaves⟩ := hensures.of_runs tr out pending hruns hserved
    have hrest : rest.length ≤ Flow.maxData capacity :=
      Nat.le_trans hleaves.rest.length_le hlength
    have hpending : pending.started ≤ 1 := by
      rcases hleaves.started with rfl | ⟨hnext, -⟩
      · omega
      · omega
    have hsafe := hafter rest hrest s hleaves.sized hleaves.callbacks pending hpending
    simp only [Bool.false_eq_true, if_false, ne_eq, not_true_eq_false]
    cases hmore : s.insufficientBuffer rest with
    | false => exact ⟨_, rfl, hsafe⟩
    | true =>
      rw [if_pos rfl]
      have hlt : rest.length < s.required_size_ := of_decide_eq_true hmore
      -- More bytes are only waited for where nothing was started.
      have hsame : pending = b.pending := by
        rcases hleaves.started with hsame | ⟨-, hzero⟩
        · exact hsame
        · rw [show s.required_size_ = 0 from hzero] at hlt
          exact absurd hlt (Nat.not_lt_zero _)
      have hsmall : rest.length ≤ 255 := by
        have hle := Socks5State.sized_le hleaves.sized
        simp only at hle
        omega
      have hnone : pending.started = 0 := by
        rw [hsame]
        exact hstarted
      exact safe_readHandshake hsafe rfl hnone hforwarding hsmall hn

/-! ## Forwarding -/

theorem safe_forwardTraffic (hsized : b.socks5_state_.Sized) (hset : b.socks5_state_.AllSet)
    (hup : b.up.Inv capacity []) (hdown : b.down.Inv capacity []) (hreads : b.handshakeReads = [])
    (hstarted : b.pending.started = 0) {n m : Nat} (hn : Rounded capacity Flow.kReadSize n)
    (hm : Rounded capacity Flow.kReadSize m) :
    ∃ b', b.forwardTraffic n m = some b' ∧ b'.Safe capacity := by
  obtain ⟨up₁, hread, hup₁, hupRead, -⟩ := Flow.scheduleRead_spec hup hn
  obtain ⟨down₁, hwrite, hdown₁, hdownWrite, -⟩ := Flow.scheduleWrite_spec hdown
  obtain ⟨down₂, hread', hdown₂, hdownRead, hdownKeep⟩ := Flow.scheduleRead_spec hdown₁ hm
  obtain ⟨up₂, hwrite', hup₂, hupWrite, hupKeep⟩ := Flow.scheduleWrite_spec hup₁
  unfold forwardTraffic
  simp only [hread, hwrite, hread', hwrite', Option.bind_eq_bind, Option.bind_some]
  refine ⟨_, rfl, ?_⟩
  exact
    { sized := hsized
      callbacks := hset
      up := by
        show up₂.Inv capacity b.handshakeReads
        rw [hreads]
        exact hup₂
      down := hdown₂
      one := by
        show b.handshakeReads.length + b.pending.started + Bool.toNat true ≤ 1
        rw [hreads, hstarted]
        decide
      untouched := nofun
      settled := fun _ => ⟨⟨hupKeep hupRead, hupWrite⟩, ⟨hdownRead, hdownKeep hdownWrite⟩⟩ }

/-- While traffic is forwarded nothing of the handshake is outstanding. -/
theorem Safe.forwarding_of_touched (h : b.Safe capacity)
    (htouched : ¬ (b.up.Untouched ∧ b.down.Untouched)) :
    b.handshakeReads = [] ∧ b.pending.started = 0 := by
  have hforwarding : b.forwarding = true := by
    by_contra hfalse
    exact htouched (h.untouched (Bool.not_eq_true _ ▸ hfalse))
  have hone := h.one
  rw [hforwarding, Bool.toNat_true] at hone
  exact ⟨List.eq_nil_of_length_eq_zero (by omega), by omega⟩

/-- What the handlers of the upstream flow have in common. -/
theorem safe_up (h : b.Safe capacity) (htouched : ¬ (b.up.Untouched ∧ b.down.Untouched))
    {n m : Nat} (hn : Rounded capacity Flow.kReadSize n) (hm : Rounded capacity Flow.kReadSize m)
    {handled : Option Flow} (hhandled : b.up.Inv capacity [] →
      ∃ up, handled = some up ∧ up.Inv capacity []) :
    ∃ b', (handled.bind fun up => forwardTraffic n m { b with up := up }) = some b' ∧
      b'.Safe capacity := by
  obtain ⟨hreads, hstarted⟩ := h.forwarding_of_touched htouched
  have hinv := h.up
  rw [hreads] at hinv
  obtain ⟨up, hup, hkept⟩ := hhandled hinv
  rw [hup, Option.bind_some]
  exact safe_forwardTraffic (b := { b with up := up }) h.sized h.callbacks hkept h.down hreads
    hstarted hn hm

/-- What the handlers of the downstream flow have in common. -/
theorem safe_down (h : b.Safe capacity) (htouched : ¬ (b.up.Untouched ∧ b.down.Untouched))
    {n m : Nat} (hn : Rounded capacity Flow.kReadSize n) (hm : Rounded capacity Flow.kReadSize m)
    {handled : Option Flow} (hhandled : b.down.Inv capacity [] →
      ∃ down, handled = some down ∧ down.Inv capacity []) :
    ∃ b', (handled.bind fun down => forwardTraffic n m { b with down := down }) = some b' ∧
      b'.Safe capacity := by
  obtain ⟨hreads, hstarted⟩ := h.forwarding_of_touched htouched
  obtain ⟨down, hdown, hkept⟩ := hhandled h.down
  have hinv := h.up
  rw [hreads] at hinv
  rw [hdown, Option.bind_some]
  exact safe_forwardTraffic (b := { b with down := down }) h.sized h.callbacks hinv hkept hreads
    hstarted hn hm

/-- A connection that was awaited, whether it succeeded or not. -/
theorem safe_connected (h : b.Safe capacity) (hstarted : b.pending.started = 1) {p : Pending}
    (hp : p.started = 0) {n m : Nat} (hn : Rounded capacity Flow.kReadSize n)
    (hm : Rounded capacity Flow.kReadSize m) {failed : Bool}
    {out : Except CallbackError (Bool × Socks5State)}
    (hout : failed = false → ∃ tr, Prog.Runs b.socks5_state_.connectionSucceed tr out ∧
      Served Answers b.pending tr b.pending) :
    ∃ b', (if failed then some { b with pending := p }
      else connected n m out { b with pending := p }) = some b' ∧ b'.Safe capacity := by
  have hone := h.one
  have hreads : b.handshakeReads = [] := List.eq_nil_of_length_eq_zero (by omega)
  have hforwarding : b.forwarding = false := by
    cases hforward : b.forwarding with
    | false => rfl
    | true =>
      rw [hforward, Bool.toNat_true] at hone
      omega
  have hkept (s : Socks5State) (hsized : s.Sized) (hset : s.AllSet) :
      Safe capacity { b with socks5_state_ := s, pending := p } := by
    exact
      { sized := hsized
        callbacks := hset
        up := h.up
        down := h.down
        one := by
          show b.handshakeReads.length + p.started + b.forwarding.toNat ≤ 1
          omega
        untouched := h.untouched
        settled := h.settled }
  cases failed with
  | true => exact ⟨_, rfl, hkept _ h.sized h.callbacks⟩
  | false =>
    obtain ⟨tr, hruns, hserved⟩ := hout rfl
    have hensures := Socks5State.ensures_connectionSucceed h.sized h.callbacks b.pending
    obtain ⟨-, ok, s, rfl, hsized, hset⟩ := hensures.of_runs tr out _ hruns hserved
    cases ok with
    | false => exact ⟨_, rfl, hkept s hsized hset⟩
    | true =>
      have hinv := h.up
      rw [hreads] at hinv
      exact safe_forwardTraffic (b := { b with socks5_state_ := s, pending := p }) hsized hset hinv
        h.down hreads hp hn hm

/-! ## Every step -/

theorem safe_step (h : b.Safe capacity) {r : Option ProxyBridge} (hstep : Step capacity b r) :
    ∃ b', r = some b' ∧ b'.Safe capacity := by
  cases hstep with
  | handshake hreads n hn ec bytes hbytes out pending hout =>
    exact safe_handshake h hreads hn ec hbytes hout
  | @connect k hconnects n m hn hm ec out hout =>
    have hone := h.one
    have hstarted : b.pending.started = k + 1 + b.pending.accepts := by
      unfold Pending.started
      rw [hconnects]
    have hp : Pending.started { b.pending with connects := k } = k + b.pending.accepts := rfl
    exact safe_connected h (by omega) (by omega) hn hm hout
  | @accept k haccepts n m hn hm ec out hout =>
    have hone := h.one
    have hstarted : b.pending.started = b.pending.connects + (k + 1) := by
      unfold Pending.started
      rw [haccepts]
    have hp : Pending.started { b.pending with accepts := k } = b.pending.connects + k := rfl
    exact safe_connected h (by omega) (by omega) hn hm hout
  | wait hwaits =>
    exact ⟨_, rfl, h.sized, h.callbacks, h.up, h.down, h.one, h.untouched, h.settled⟩
  | clientRead hreads n m hn hm ec bytes hbytes =>
    refine safe_up h (fun htouched => ?_) hn hm (fun hinv => ?_)
    · have hnil := htouched.1.reads
      rw [hreads] at hnil
      exact absurd hnil (List.append_ne_nil_of_right_ne_nil _ (List.cons_ne_nil _ _))
    · exact Flow.readHandler_spec hinv hreads ec hbytes
  | destRead hreads n m hn hm ec bytes hbytes =>
    refine safe_down h (fun htouched => ?_) hn hm (fun hinv => ?_)
    · have hnil := htouched.2.reads
      rw [hreads] at hnil
      exact absurd hnil (List.append_ne_nil_of_right_ne_nil _ (List.cons_ne_nil _ _))
    · exact Flow.readHandler_spec hinv hreads ec hbytes
  | destWrite hwrites n m hn hm ec written hwritten =>
    refine safe_up h (fun htouched => ?_) hn hm (fun hinv => ?_)
    · have hnil := htouched.1.writes
      rw [hwrites] at hnil
      exact absurd hnil (List.append_ne_nil_of_right_ne_nil _ (List.cons_ne_nil _ _))
    · exact Flow.writeHandler_spec hinv hwrites ec hwritten
  | clientWrite hwrites n m hn hm ec written hwritten =>
    refine safe_down h (fun htouched => ?_) hn hm (fun hinv => ?_)
    · have hnil := htouched.2.writes
      rw [hwrites] at hnil
      exact absurd hnil (List.append_ne_nil_of_right_ne_nil _ (List.cons_ne_nil _ _))
    · exact Flow.writeHandler_spec hinv hwrites ec hwritten

theorem safe_init : init.Safe capacity where
  sized := rfl
  callbacks := ⟨rfl, rfl, rfl, rfl⟩
  up := Flow.inv_init capacity
  down := Flow.inv_init capacity
  one := Nat.zero_le 1
  untouched := fun _ => ⟨untouched_init, untouched_init⟩
  settled := nofun

theorem safe_of_reachable (h : Reachable capacity b) : b.Safe capacity := by
  induction h with
  | handshake hn hb =>
    have hinit : init.Safe capacity := safe_init
    obtain ⟨b', hread, hsafe⟩ := safe_readHandshake hinit rfl rfl rfl (Nat.zero_le _) hn
    rw [show init.readHandshake _ = some _ from hb] at hread
    cases hread
    exact hsafe
  | forward hn hm hb =>
    obtain ⟨b', hforward, hsafe⟩ := safe_forwardTraffic (b := init) rfl ⟨rfl, rfl, rfl, rfl⟩
      (Flow.inv_init capacity) (Flow.inv_init capacity) rfl rfl hn hm
    rw [hb] at hforward
    cases hforward
    exact hsafe
  | step _ hstep ih =>
    obtain ⟨b', hb', hsafe⟩ := safe_step ih hstep
    cases hb'
    exact hsafe

end ProxyBridge
end Proxy
