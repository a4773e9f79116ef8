import TransparentCa.Proxy.HandshakeRefusal

/- The reads that a bridge schedules for the handshake. After every chunk the handler reads on
   exactly when the buffer is short of `required_size_`; told in terms of the client's bytes,
   a bridge that has refused its client reads on when fewer bytes follow the message that
   failed than the message itself has. -/
namespace Proxy
open Effects Prog Socks5State

namespace Socks5State

theorem feed_snoc (s : Socks5State) (buffer : List UInt8) (chunks : List (List UInt8))
    (chunk : List UInt8) :
    feed s buffer (chunks ++ [chunk]) =
      (feed s buffer chunks).bind (fun r => r.1.proceedAll (r.2 ++ chunk)) := by
  induction chunks generalizing s buffer with
  | nil =>
    show (s.proceedAll (buffer ++ chunk)).bind (fun r => .ret (r.1, r.2)) = _
    exact Prog.bind_pure_self _
  | cons first chunks ih =>
    show (s.proceedAll (buffer ++ first)).bind (fun r => feed r.1 r.2 (chunks ++ [chunk])) =
      ((s.proceedAll (buffer ++ first)).bind (fun r => feed r.1 r.2 chunks)).bind _
    rw [Prog.bind_assoc]
    exact Prog.bind_congr rfl (fun r => ih r.1 r.2)

/-- The chunks as they came, or all at once: the handler reads on after a failure in the same
cases. -/
theorem waitsOn_feed_iff {chunks : List (List UInt8)} {calls : List CallbackEvent}
    {s : Socks5State} {rest : List UInt8}
    (h : Runs (feed (init true true true true) [] chunks) calls (.ok (s, rest))) :
    s.WaitsOn rest ↔ FailedIn chunks.flatten calls := by
  have hlapsed : Runs ((feed (init true true true true) [] chunks).bind lapsed) (calls ++ [])
      (.ok (lapse (s, rest))) := Runs.bind h (.ret _)
  rw [feed_lapsed, List.append_nil] at hlapsed
  obtain ⟨⟨s', rest'⟩, t, t', rfl, hwhole, hret⟩ := runs_bind_ok.mp hlapsed
  obtain ⟨rfl, heq⟩ := runs_ret.mp hret
  have hsame : lapse (s', rest') = lapse (s, rest) := (Except.ok.inj heq).symm
  have hstate : s'.state_ = s.state_ := by
    rw [← state_lapse (s', rest'), hsame, state_lapse]
  have hshort : s'.insufficientBuffer rest' = s.insufficientBuffer rest := by
    rw [← insufficientBuffer_lapse (s', rest'), hsame, insufficientBuffer_lapse]
  have hiff := waitsOn_iff (s := init true true true true) rfl hwhole
  rw [List.append_nil, ← hiff]
  unfold WaitsOn insufficientBuffer at *
  rw [hstate, ← decide_eq_decide.mp hshort]

end Socks5State

namespace ProxyBridge

/-- The bridge once its handler has run for each of `chunks`, with the calls it made. -/
inductive Handshaking (capacity : Nat) :
    List (List UInt8) → List CallbackEvent → ProxyBridge → Prop where
  | start {n : Nat} (hn : Rounded capacity 1 n) {b : ProxyBridge}
      (h : init.performSocks5Handshake n = some b) : Handshaking capacity [] [] b
  | chunk {chunks : List (List UInt8)} {calls : List CallbackEvent} {b : ProxyBridge}
      (hb : Handshaking capacity chunks calls b) {l l' : List Nat} {size : Nat}
      (hreads : b.handshakeReads = l ++ size :: l') {n : Nat} (hn : Rounded capacity 1 n)
      {bytes : List UInt8} (hbytes : bytes.length ≤ size) {buff : ByteQueue}
      (hcommit : b.up.buff.commit bytes = some buff) {tr : List CallbackEvent}
      {out : Except CallbackError (Socks5State × List UInt8)} {pending : Pending}
      (hruns : Runs (b.socks5_state_.proceedAll buff.data) tr out)
      (hserved : Served Answers b.pending tr pending) {b' : ProxyBridge}
      (hhandler : socks5HandshakeHandler n .success bytes out pending
        { b with handshakeReads := l ++ l' } = some b') :
      Handshaking capacity (chunks ++ [bytes]) (calls ++ tr) b'

variable {capacity : Nat} {chunks : List (List UInt8)} {calls : List CallbackEvent}
  {b b' : ProxyBridge}

/-- Such a bridge is one of the reachable ones. -/
theorem Handshaking.reachable (h : Handshaking capacity chunks calls b) : Reachable capacity b := by
  induction h with
  | start hn h => exact .handshake hn h
  | chunk _ hreads hn hbytes hcommit hruns hserved hhandler ih =>
    refine .step ih ?_
    rw [← hhandler]
    refine Step.handshake hreads _ hn .success _ hbytes _ _ (fun _ buff' hcommit' => ?_)
    rw [hcommit] at hcommit'
    cases hcommit'
    exact ⟨_, hruns, hserved⟩

/-- A read is scheduled when the buffer is short, and only then. -/
theorem readHandshake_spec {n : Nat} (h : b.readHandshake n = some b') :
    b'.handshakeReads = b.handshakeReads ++ [n] ∧ b'.socks5_state_ = b.socks5_state_ ∧
      b'.up.buff.data = b.up.buff.data := by
  unfold readHandshake at h
  obtain ⟨buff, hreserve, hret⟩ := Option.bind_eq_some_iff.mp h
  cases hret
  unfold ByteQueue.reserveAtLeast at hreserve
  split at hreserve
  · cases hreserve
    exact ⟨rfl, rfl, rfl⟩
  · cases hreserve

theorem socks5HandshakeHandler_spec {n : Nat} {bytes : List UInt8}
    {out : Except CallbackError (Socks5State × List UInt8)} {pending : Pending}
    (h : socks5HandshakeHandler n .success bytes out pending b = some b') :
    ∃ s rest, out = .ok (s, rest) ∧ b'.socks5_state_ = s ∧ b'.up.buff.data = rest ∧
      b'.handshakeReads = b.handshakeReads ++ if s.insufficientBuffer rest then [n] else [] := by
  unfold socks5HandshakeHandler at h
  obtain ⟨buff, -, h⟩ := Option.bind_eq_some_iff.mp h
  simp only [ErrorCode.failed, Bool.false_eq_true, if_false] at h
  cases out with
  | error e => cases h
  | ok r =>
    obtain ⟨s, rest⟩ := r
    simp only at h
    split at h
    · cases h
    · split at h
      · next hshort =>
        obtain ⟨hreads, hstate, hdata⟩ := readHandshake_spec h
        exact ⟨s, rest, rfl, hstate, hdata, by rw [hreads, if_pos hshort]⟩
      · next hshort =>
        cases h
        exact ⟨s, rest, rfl, rfl, rfl, by rw [if_neg hshort, List.append_nil]⟩

/-- What a bridge has done in the handshake is feeding the chunks, and it reads on when the
buffer is short. -/
theorem Handshaking.feed (h : Handshaking capacity chunks calls b) :
    Runs (Socks5State.feed (.init true true true true) [] chunks) calls
        (.ok (b.socks5_state_, b.up.buff.data)) ∧
      ∃ n, b.handshakeReads =
        if b.socks5_state_.insufficientBuffer b.up.buff.data then [n] else [] := by
  induction h with
  | start _ h =>
    obtain ⟨hreads, hstate, hdata⟩ := readHandshake_spec h
    rw [hstate, hdata, hreads]
    exact ⟨.ret _, _, rfl⟩
  | @chunk chunks calls b _ l l' size hreads n _ bytes _ buff hcommit tr out pending hruns _ b' hhandler ih =>
    obtain ⟨hfeed, n', hone⟩ := ih
    obtain ⟨s, rest, rfl, rfl, rfl, hreads'⟩ := socks5HandshakeHandler_spec hhandler
    have hdata : buff.data = b.up.buff.data ++ bytes := by
      unfold ByteQueue.commit at hcommit
      split at hcommit
      · split at hcommit
        · cases hcommit
          rfl
        · cases hcommit
      · cases hcommit
    constructor
    · rw [feed_snoc]
      rw [hdata] at hruns
      exact Runs.bind hfeed hruns
    · -- There was one read, which has completed.
      have hnone : l ++ l' = [] := by
        rw [hreads] at hone
        have hlength := congrArg List.length hone
        rw [List.length_append, List.length_cons] at hlength
        rw [List.append_eq_nil_iff]
        split at hlength
        · simp only [List.length_singleton] at hlength
          exact ⟨List.length_eq_zero_iff.mp (by omega), List.length_eq_zero_iff.mp (by omega)⟩
        · simp at hlength
      refine ⟨n, ?_⟩
      rw [hreads']
      show (l ++ l') ++ _ = _
      rw [hnone, List.nil_append]

/-- A bridge that has refused its client reads no more, exactly when the message that failed
is followed by as many bytes as it has itself. -/
theorem reads_refused_iff (h : Handshaking capacity chunks calls b) :
    (b.socks5_state_.state_ = .kFail → b.handshakeReads = []) ↔
      ∀ message rest, Refused (Greeted calls) chunks.flatten message rest →
        message.length ≤ rest.length := by
  obtain ⟨hfeed, n, hreads⟩ := h.feed
  have hfailed : (∀ message rest, Refused (Greeted calls) chunks.flatten message rest →
      message.length ≤ rest.length) ↔ ¬ FailedIn chunks.flatten calls := by
    unfold FailedIn
    push Not
    rfl
  rw [hfailed, ← waitsOn_feed_iff hfeed]
  unfold WaitsOn
  rw [hreads]
  constructor
  · rintro hnone ⟨hstate, hlt⟩
    have hshort : b.socks5_state_.insufficientBuffer b.up.buff.data = true := decide_eq_true hlt
    have hempty := hnone hstate
    rw [if_pos hshort] at hempty
    cases hempty
  · intro hnot hstate
    refine if_neg (fun hshort => hnot ⟨hstate, of_decide_eq_true hshort⟩)

namespace Sample

/-- A bridge that reads its client for the first time, into one block. -/
def waiting : ProxyBridge :=
  { init with up := { init.up with buff := ⟨[], some 128, none⟩ }, handshakeReads := [128] }

/-- The same bridge when the client's first bytes were no greeting of version 5. -/
def refused (rest : List UInt8) (reads : List Nat) : ProxyBridge :=
  { init with
    up := { init.up with buff := ⟨rest, reads.head?, none⟩, received := rest }
    socks5_state_ := (Socks5State.init true true true true).reached .kFail 2
    handshakeReads := reads }

theorem handshaking_waiting : Handshaking 128 [] [] waiting :=
  .start (n := 128) ⟨by decide, by decide⟩ rfl

/-- The handler's run over a greeting of version 4 and what came with it. -/
theorem handshaking_refused {rest : List UInt8} {reads : List Nat} (hlen : rest.length ≤ 126)
    (hhandler : socks5HandshakeHandler 128 .success ([0x04, 0x01] ++ rest)
      (.ok ((Socks5State.init true true true true).reached .kFail 2, rest)) ⟨0, 0, 0⟩
      { waiting with handshakeReads := [] } = some (refused rest reads)) :
    Handshaking 128 [[0x04, 0x01] ++ rest] [] (refused rest reads) := by
  have hbytes : ([0x04, 0x01] ++ rest).length ≤ 128 := by
    rw [List.length_append]
    simp only [List.length_cons, List.length_nil]
    omega
  have hcommit : waiting.up.buff.commit ([0x04, 0x01] ++ rest) =
      some ⟨[0x04, 0x01] ++ rest, none, none⟩ := if_pos hbytes
  have hruns : Runs (waiting.socks5_state_.proceedAll ([0x04, 0x01] ++ rest)) []
      (.ok ((Socks5State.init true true true true).reached .kFail 2, rest)) := .ret _
  have hn : Rounded 128 1 128 := ⟨by decide, by decide⟩
  have hreads : waiting.handshakeReads = [] ++ 128 :: [] := rfl
  exact handshaking_waiting.chunk hreads hn hbytes hcommit hruns (.nil _) hhandler

end Sample

/-- A greeting of version 4 with two bytes behind it: the connection is given up. -/
theorem reads_refused_four_bytes :
    (Sample.refused [0x00, 0x00] []).socks5_state_.state_ = .kFail ∧
      (Sample.refused [0x00, 0x00] []).handshakeReads = [] := by
  have hrun : Handshaking 128 [[0x04, 0x01] ++ [0x00, 0x00]] [] (Sample.refused [0x00, 0x00] []) :=
    Sample.handshaking_refused (by decide) rfl
  have hfollowed : ∀ message rest, Refused (Greeted [])
      [[0x04, 0x01] ++ [0x00, 0x00]].flatten message rest → message.length ≤ rest.length := by
    intro message rest h
    generalize hstream : [[(0x04 : UInt8), 0x01] ++ [0x00, 0x00]].flatten = stream at h
    cases h with
    | greeting version n _ _ =>
      cases hstream
      decide
    | methods n _ _ _ _ _ => cases hstream
    | request n methods _ _ _ _ _ _ _ _ => cases hstream
  exact ⟨rfl, (reads_refused_iff hrun).mpr hfollowed rfl⟩

/-- Alone, it leaves the bridge reading a client that it has refused. -/
theorem reads_refused_greeting :
    Handshaking 128 [[0x04, 0x01]] [] (Sample.refused [] [128]) ∧
      (Sample.refused [] [128]).socks5_state_.state_ = .kFail ∧
      (Sample.refused [] [128]).handshakeReads = [128] :=
  ⟨Sample.handshaking_refused (Nat.zero_le _) rfl, rfl, rfl⟩

end ProxyBridge
end Proxy
