import TransparentCa.Proxy.BridgeSafety

/- What a bridge guarantees in every reachable state: how it uses its two buffers
   (`buffers_used`), and what it does with the traffic (`traffic_forwarded`). -/
namespace Proxy

namespace Flow

variable {capacity : Nat} {extra : List Nat} {f : Flow}

/-- The outstanding `reads` and writes use the buffer as it allows: at most one reservation
and one peek, each for one operation, and whatever the operation reports can be committed or
drained. The buffer holds no more than `maxData`, even with all that is reserved. -/
structure Used (capacity : Nat) (reads : List Nat) (f : Flow) : Prop where
  reserve : reads.length ≤ 1 ∧ reads = f.buff.reserved.toList
  peek : f.writes.length ≤ 1 ∧ f.writes.map List.length = f.buff.peeked.toList
  commit : ∀ size ∈ reads, ∀ bytes : List UInt8, bytes.length ≤ size → f.buff.commit bytes ≠ none
  drain : ∀ bytes ∈ f.writes, ∀ written ≤ bytes.length, f.buff.drain written ≠ none
  size : f.buff.dataSize + f.buff.reserved.getD 0 ≤ maxData capacity

theorem length_toList_le {α : Type} (o : Option α) : o.toList.length ≤ 1 := by
  cases o with
  | none => exact Nat.zero_le 1
  | some a => exact Nat.le_refl 1

theorem Inv.used (h : f.Inv capacity extra) : f.Used capacity (extra ++ f.reads) where
  reserve := by
    rw [h.reads]
    exact ⟨length_toList_le _, rfl⟩
  peek := by
    rw [h.writes]
    refine ⟨length_toList_le _, ?_⟩
    cases hpeeked : f.buff.peeked with
    | none => rfl
    | some n =>
      have hle : n ≤ f.buff.data.length := h.peeked n hpeeked
      show [(f.buff.data.take n).length] = [n]
      rw [List.length_take, Nat.min_eq_left hle]
  commit := by
    intro size hsize bytes hbytes
    rw [h.reads, Option.mem_toList] at hsize
    unfold ByteQueue.commit
    rw [show f.buff.reserved = some size from hsize]
    simp only
    rw [if_pos hbytes]
    exact Option.some_ne_none _
  drain := by
    intro bytes hbytes written hwritten
    rw [h.writes, Option.mem_toList] at hbytes
    obtain ⟨n, hpeeked, rfl⟩ := Option.map_eq_some_iff.mp hbytes
    rw [List.length_take] at hwritten
    unfold ByteQueue.drain
    rw [hpeeked]
    simp only
    rw [if_pos (Nat.le_trans hwritten (Nat.min_le_left _ _))]
    exact Option.some_ne_none _
  size := h.size

/-- What is read from the source goes to the sink: all of it in this order, and the sink is
shut down after the last byte. When nothing is outstanding there is a reason. -/
structure Forwards (f : Flow) : Prop where
  sent : f.sent <+: f.received
  kept : f.received = f.sent ++ f.buff.data
  shutdown : f.sinkShutdown = true → f.writeErrors = [] → f.readErrors ≠ [] ∧ f.sent = f.received
  idle : f.reads = [] → f.writes = [] →
    (f.readable = false ∨ f.writable = false) ∧ (f.writable = false ∨ f.buff.data = [])

theorem Inv.forwards (h : f.Inv capacity extra) (hsettled : f.Settled) : f.Forwards where
  sent := by
    rw [h.received]
    exact List.prefix_append _ _
  kept := h.received
  shutdown := by
    intro hshut hnone
    obtain ⟨hreadable, hempty⟩ := h.shutdown hshut hnone
    refine ⟨(h.readable hreadable).1, ?_⟩
    rw [h.received, hempty, List.append_nil]
  idle := by
    intro hreads hwrites
    have hreading : f.reading ≠ true := by
      rw [h.reading, hreads]
      decide
    have hwriting : f.writing ≠ true := by
      rw [h.writing, hwrites]
      decide
    have hwrite : f.writable = false ∨ f.buff.data = [] := hsettled.write.resolve_left hwriting
    refine ⟨?_, hwrite⟩
    rcases hsettled.read.resolve_left hreading with hreadable | hwritable | hfull
    · exact .inl hreadable
    · exact .inr hwritable
    · -- A full buffer is written, unless nothing can be written.
      refine .inr (hwrite.resolve_right (fun hempty => ?_))
      rw [ByteQueue.dataSize, hempty] at hfull
      exact absurd hfull (by decide)

end Flow

namespace ProxyBridge

variable {capacity : Nat} {b : ProxyBridge}

/-- In every reachable state, of the handshake or of forwarding, the buffers are used as they
allow, and no completion makes an `assert` of a buffer fail. -/
theorem buffers_used (h : Reachable capacity b) :
    b.up.Used capacity (b.handshakeReads ++ b.up.reads) ∧ b.down.Used capacity b.down.reads ∧
      ∀ r, Step capacity b r → r ≠ none := by
  have hsafe := safe_of_reachable h
  refine ⟨hsafe.up.used, hsafe.down.used, fun r hstep => ?_⟩
  obtain ⟨b', rfl, -⟩ := safe_step hsafe hstep
  exact Option.some_ne_none _

/-! ## A bridge between two open sockets -/

namespace Sample

/-- Three blocks make the size of a read. -/
theorem rounded_three : Rounded 4072 Flow.kReadSize 12216 := by
  unfold Rounded
  decide

/-- `ForwardTraffic` was called: blocks are reserved for each read. -/
def started : ProxyBridge :=
  { init with
    up := { Flow.init with buff := ⟨[], some 12216, none⟩, reading := true, reads := [12216] }
    down := { Flow.init with buff := ⟨[], some 12216, none⟩, reading := true, reads := [12216] }
    forwarding := true }

theorem reachable_started : Reachable 4072 started :=
  .forward rounded_three rounded_three rfl

/-- The client sent two bytes, and the next read is scheduled behind them. -/
def sending : ProxyBridge :=
  { started with
    up := { started.up with
      buff := ⟨[104, 105], some 12214, some 2⟩, reads := [12214], writing := true
      writes := [[104, 105]], received := [104, 105] } }

theorem reachable_sending : Reachable 4072 sending := by
  have hrounded : Rounded 4072 Flow.kReadSize 12214 := by
    unfold Rounded
    decide
  have hreads : started.up.reads = [] ++ 12216 :: [] := rfl
  exact .step reachable_started
    (.clientRead hreads 12214 12216 hrounded rounded_three .success [104, 105] (by decide))

/-- The client's connection was reset before it sent anything. -/
def reset : ProxyBridge :=
  { started with
    up := { started.up with
      buff := .empty, reading := false, reads := [], readable := false, sinkShutdown := true
      readErrors := [.other 104] } }

theorem reachable_reset : Reachable 4072 reset := by
  have hreads : started.up.reads = [] ++ 12216 :: [] := rfl
  exact .step reachable_started
    (.clientRead hreads 12216 12216 rounded_three rounded_three (.other 104) [] (by decide))

end Sample

theorem buffers_used_sending :
    Sample.sending.up.Used 4072 [12214] ∧ Sample.sending.down.Used 4072 [12216] ∧
      ∀ r, Step 4072 Sample.sending r → r ≠ none :=
  buffers_used Sample.reachable_sending

/-- In every state of forwarding, each direction forwards. -/
theorem traffic_forwarded (h : Reachable capacity b) (hforwarding : b.forwarding = true) :
    b.up.Forwards ∧ b.down.Forwards := by
  have hsafe := safe_of_reachable h
  obtain ⟨hup, hdown⟩ := hsafe.settled hforwarding
  exact ⟨hsafe.up.forwards hup, hsafe.down.forwards hdown⟩

theorem traffic_forwarded_sending :
    Sample.sending.up.Forwards ∧ Sample.sending.down.Forwards :=
  traffic_forwarded Sample.reachable_sending rfl

/-- A read that failed ends the stream, even where the source did not report its end. -/
theorem shutdown_without_eof :
    Reachable 4072 Sample.reset ∧ Sample.reset.forwarding = true ∧
      Sample.reset.up.sinkShutdown = true ∧ Sample.reset.up.writeErrors = [] ∧
      ErrorCode.eof ∉ Sample.reset.up.readErrors :=
  ⟨Sample.reachable_reset, rfl, rfl, rfl, by decide⟩

end ProxyBridge
end Proxy
