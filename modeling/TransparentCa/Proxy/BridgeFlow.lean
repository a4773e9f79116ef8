import TransparentCa.Proxy.ProxyBridge

/- One direction of a bridge, under the completions of its reads and writes. `Inv` ties the
   flags, the buffer and the outstanding operations together: it keeps every `assert` of the
   buffer from failing, bounds what the buffer holds, and loses no byte. `ForwardTraffic`
   leaves the direction settled: what may go on is going on. -/
namespace Proxy
namespace Flow

/-- The most that a buffer can hold: one byte short of `kMaxBufferSize`, and a whole read. -/
def maxData (capacity : Nat) : Nat := kMaxBufferSize - 1 + kReadSize + (capacity - 1)

/-- Reads of `extra` bytes are outstanding that the flow's handlers did not start. -/
structure Inv (capacity : Nat) (extra : List Nat) (f : Flow) : Prop where
  reads : extra ++ f.reads = f.buff.reserved.toList
  reading : f.reading = !f.reads.isEmpty
  writes : f.writes = (f.buff.peeked.map (fun n => f.buff.data.take n)).toList
  writing : f.writing = !f.writes.isEmpty
  peeked : ∀ n ∈ f.buff.peeked, n ≤ f.buff.dataSize
  received : f.received = f.sent ++ f.buff.data
  size : f.buff.dataSize + f.buff.reserved.getD 0 ≤ maxData capacity
  readable : f.readable = false → f.readErrors ≠ [] ∧ f.reads = []
  shutdown : f.sinkShutdown = true → f.writeErrors = [] → f.readable = false ∧ f.buff.data = []

/-- No read is missing. -/
def ReadSettled (f : Flow) : Prop :=
  f.reading = true ∨ f.readable = false ∨ f.writable = false ∨ kMaxBufferSize ≤ f.buff.dataSize

/-- No write is missing. -/
def WriteSettled (f : Flow) : Prop := f.writing = true ∨ f.writable = false ∨ f.buff.data = []

structure Settled (f : Flow) : Prop where
  read : f.ReadSettled
  write : f.WriteSettled

variable {capacity : Nat} {extra : List Nat} {f f' : Flow}

theorem eq_of_append_cons_eq_toList {α : Type} {l l' : List α} {a : α} {o : Option α}
    (h : l ++ a :: l' = o.toList) : l = [] ∧ l' = [] ∧ o = some a := by
  cases o with
  | none => simp at h
  | some x =>
    rw [Option.toList_some, List.append_eq_singleton_iff] at h
    rcases h with ⟨rfl, h⟩ | ⟨-, h⟩
    · cases h
      exact ⟨rfl, rfl, rfl⟩
    · cases h

theorem inv_init (capacity : Nat) : Flow.init.Inv capacity [] where
  reads := rfl
  reading := rfl
  writes := rfl
  writing := rfl
  peeked := nofun
  received := rfl
  size := Nat.zero_le _
  readable := nofun
  shutdown := nofun

/-! ## ForwardTraffic -/

theorem scheduleRead_spec (h : f.Inv capacity []) {n : Nat}
    (hn : ProxyBridge.Rounded capacity kReadSize n) :
    ∃ f', f.scheduleRead n = some f' ∧ f'.Inv capacity [] ∧ f'.ReadSettled ∧
      (f.WriteSettled → f'.WriteSettled) := by
  unfold scheduleRead
  by_cases hread : ¬ f.reading ∧ f.readable ∧ f.writable ∧ f.buff.dataSize < kMaxBufferSize
  · rw [if_pos hread]
    obtain ⟨hreading, hreadable, -, hsize⟩ := hread
    have hnil : f.reads = [] := by
      have hempty := h.reading
      rw [Bool.not_eq_true] at hreading
      simpa [hreading] using hempty
    have hfree : f.buff.reserved = none := by
      have hreads := h.reads
      rw [hnil] at hreads
      exact Option.toList_eq_nil_iff.mp hreads.symm
    obtain ⟨hle, hlt⟩ := hn
    have hreserve : f.buff.reserveAtLeast kReadSize n = some { f.buff with reserved := some n } :=
      if_pos ⟨hfree, by decide, hle⟩
    rw [hreserve]
    refine ⟨_, rfl, ?_, .inl rfl, id⟩
    exact
      { reads := by
          show [] ++ (f.reads ++ [n]) = _
          rw [hnil]
          rfl
        reading := by
          show true = !(f.reads ++ [n]).isEmpty
          simp
        writes := h.writes
        writing := h.writing
        peeked := h.peeked
        received := h.received
        size := by
          show f.buff.dataSize + n ≤ maxData capacity
          unfold maxData
          omega
        readable := by
          intro hfalse
          rw [show f.readable = false from hfalse] at hreadable
          cases hreadable
        shutdown := h.shutdown }
  · rw [if_neg hread]
    refine ⟨f, rfl, h, ?_, id⟩
    unfold ReadSettled
    by_contra hnot
    simp only [not_or, Bool.not_eq_true, Bool.not_eq_false, Nat.not_le] at hnot
    obtain ⟨hreading, hreadable, hwritable, hsize⟩ := hnot
    exact hread ⟨by rw [hreading]; decide, hreadable, hwritable, hsize⟩

theorem scheduleWrite_spec (h : f.Inv capacity extra) :
    ∃ f', f.scheduleWrite = some f' ∧ f'.Inv capacity extra ∧ f'.WriteSettled ∧
      (f.ReadSettled → f'.ReadSettled) := by
  unfold scheduleWrite
  by_cases hwrite : ¬ f.writing ∧ f.writable ∧ f.buff.dataSize > 0
  · rw [if_pos hwrite]
    obtain ⟨hwriting, hwritable, hsize⟩ := hwrite
    have hnil : f.writes = [] := by
      have hempty := h.writing
      rw [Bool.not_eq_true] at hwriting
      simpa [hwriting] using hempty
    have hfree : f.buff.peeked = none := by
      have hwrites := h.writes
      rw [hnil] at hwrites
      exact Option.map_eq_none_iff.mp (Option.toList_eq_nil_iff.mp hwrites.symm)
    have hpeek : f.buff.peek = some { f.buff with peeked := some f.buff.dataSize } := if_pos hfree
    rw [hpeek]
    refine ⟨_, rfl, ?_, .inl rfl, id⟩
    exact
      { reads := h.reads
        reading := h.reading
        writes := by
          show f.writes ++ [f.buff.data] = [f.buff.data.take f.buff.dataSize]
          rw [hnil, ByteQueue.dataSize, List.take_length]
          rfl
        writing := by
          show true = !(f.writes ++ [f.buff.data]).isEmpty
          simp
        peeked := by
          intro n hn
          cases hn
          exact Nat.le_refl _
        received := h.received
        size := h.size
        readable := h.readable
        shutdown := h.shutdown }
  · rw [if_neg hwrite]
    refine ⟨f, rfl, h, ?_, id⟩
    unfold WriteSettled
    by_contra hnot
    simp only [not_or, Bool.not_eq_true, Bool.not_eq_false] at hnot
    obtain ⟨hwriting, hwritable, hdata⟩ := hnot
    exact hwrite ⟨by rw [hwriting]; decide, hwritable, List.length_pos_of_ne_nil hdata⟩

/-! ## The handlers -/

theorem readHandler_spec (h : f.Inv capacity []) {l l' : List Nat} {size : Nat}
    (hreads : f.reads = l ++ size :: l') (ec : ErrorCode) {bytes : List UInt8}
    (hbytes : bytes.length ≤ size) :
    ∃ f', readHandler ec bytes { f with reads := l ++ l' } = some f' ∧ f'.Inv capacity [] := by
  have hlist := h.reads
  rw [hreads, List.nil_append] at hlist
  obtain ⟨rfl, rfl, hreserved⟩ := eq_of_append_cons_eq_toList hlist
  have hcommit : f.buff.commit bytes =
      some { f.buff with data := f.buff.data ++ bytes, reserved := none } := by
    unfold ByteQueue.commit
    rw [hreserved]
    exact if_pos hbytes
  -- A read was outstanding, so that nothing was shut down but after a failed write.
  have hreadable : f.readable = true := by
    by_contra hfalse
    have hnil := (h.readable (Bool.not_eq_true _ ▸ hfalse)).2
    rw [hreads] at hnil
    cases hnil
  have hopen : f.sinkShutdown = true → f.writeErrors ≠ [] := by
    intro hshut hnone
    rw [(h.shutdown hshut hnone).1] at hreadable
    cases hreadable
  have hinv (r : Bool) (errors : List ErrorCode) (shut : Bool) (hr : r = false → errors ≠ [])
      (hshut : shut = true → f.writeErrors = [] → r = false ∧ f.buff.data ++ bytes = []) :
      Inv capacity [] { f with
        buff := { f.buff with data := f.buff.data ++ bytes, reserved := none }
        reading := false
        reads := []
        received := f.received ++ bytes
        readable := r
        readErrors := errors
        sinkShutdown := shut } := by
    exact
      { reads := rfl
        reading := rfl
        writes := by
          refine h.writes.trans (congrArg Option.toList ?_)
          refine Option.map_congr (fun n hn => ?_)
          exact (List.take_append_of_le_length (h.peeked n hn)).symm
        writing := h.writing
        peeked := by
          intro n hn
          have hle := h.peeked n hn
          show n ≤ (f.buff.data ++ bytes).length
          rw [List.length_append]
          exact Nat.le_trans hle (Nat.le_add_right _ _)
        received := by
          show f.received ++ bytes = f.sent ++ (f.buff.data ++ bytes)
          rw [h.received, List.append_assoc]
        size := by
          have hsize := h.size
          rw [hreserved] at hsize
          simp only [ByteQueue.dataSize, Option.getD_some, Option.getD_none, List.length_append]
            at hsize ⊢
          omega
        readable := fun hfalse => ⟨hr hfalse, rfl⟩
        shutdown := hshut }
  unfold readHandler
  simp only [List.nil_append, hcommit, Option.bind_eq_bind, Option.bind_some]
  cases hec : ec.failed with
  | false =>
    refine ⟨_, rfl, hinv f.readable f.readErrors f.sinkShutdown ?_ ?_⟩
    · rw [hreadable]
      intro hfalse
      cases hfalse
    · exact fun hshut hnone => absurd hnone (hopen hshut)
  | true =>
    have herrors : f.readErrors ++ [ec] ≠ [] := by simp
    by_cases hempty : (f.buff.data ++ bytes).length = 0
    · refine ⟨_, if_pos hempty, hinv false _ true (fun _ => herrors) ?_⟩
      exact fun _ _ => ⟨rfl, List.length_eq_zero_iff.mp hempty⟩
    · refine ⟨_, if_neg hempty, hinv false _ f.sinkShutdown (fun _ => herrors) ?_⟩
      exact fun hshut hnone => absurd hnone (hopen hshut)

theorem writeHandler_spec (h : f.Inv capacity extra) {l l' : List (List UInt8)}
    {bytes : List UInt8} (hwrites : f.writes = l ++ bytes :: l') (ec : ErrorCode) {written : Nat}
    (hwritten : written ≤ bytes.length) :
    ∃ f', writeHandler ec bytes written { f with writes := l ++ l' } = some f' ∧
      f'.Inv capacity extra := by
  have hlist := h.writes
  rw [hwrites] at hlist
  obtain ⟨rfl, rfl, hmap⟩ := eq_of_append_cons_eq_toList hlist
  obtain ⟨n, hpeeked, rfl⟩ := Option.map_eq_some_iff.mp hmap
  have hle : written ≤ n := by
    rw [List.length_take] at hwritten
    omega
  have hdrain : f.buff.drain written =
      some { f.buff with data := f.buff.data.drop written, peeked := none } := by
    unfold ByteQueue.drain
    rw [hpeeked]
    exact if_pos hle
  have hsent : (f.buff.data.take n).take written = f.buff.data.take written := by
    rw [List.take_take, Nat.min_eq_left hle]
  have hinv (w : Bool) (errors : List ErrorCode) (shut receive : Bool)
      (hshut : shut = true → errors = [] → f.readable = false ∧ f.buff.data.drop written = []) :
      Inv capacity extra { f with
        buff := { f.buff with data := f.buff.data.drop written, peeked := none }
        writing := false
        writes := []
        sent := f.sent ++ f.buff.data.take written
        writable := w
        writeErrors := errors
        sinkShutdown := shut
        sourceShutdown := receive } := by
    exact
      { reads := h.reads
        reading := h.reading
        writes := rfl
        writing := rfl
        peeked := nofun
        received := by
          show f.received = f.sent ++ f.buff.data.take written ++ f.buff.data.drop written
          rw [List.append_assoc, List.take_append_drop]
          exact h.received
        size := by
          have hsize := h.size
          simp only [ByteQueue.dataSize, List.length_drop] at hsize ⊢
          omega
        readable := h.readable
        shutdown := hshut }
  -- What was shut down stays so, with nothing to write, until a write fails.
  have hkeep : f.sinkShutdown = true → f.writeErrors = [] →
      f.readable = false ∧ f.buff.data.drop written = [] := by
    intro hshut hnone
    obtain ⟨hreadable, hdata⟩ := h.shutdown hshut hnone
    exact ⟨hreadable, by rw [hdata, List.drop_nil]⟩
  have hclosed (hlast : ¬ f.readable = true ∧ (f.buff.data.drop written).length = 0) :
      f.readable = false ∧ f.buff.data.drop written = [] :=
    ⟨Bool.not_eq_true _ ▸ hlast.1, List.length_eq_zero_iff.mp hlast.2⟩
  unfold writeHandler
  simp only [List.nil_append, hdrain, Option.bind_eq_bind, Option.bind_some, hsent]
  cases hec : ec.failed with
  | false =>
    by_cases hlast : ¬ f.readable = true ∧ (f.buff.data.drop written).length = 0
    · exact ⟨_, if_pos hlast, hinv false _ true _ (fun _ _ => hclosed hlast)⟩
    · exact ⟨_, if_neg hlast, hinv f.writable _ _ _ hkeep⟩
  | true =>
    have herrors : f.writeErrors ++ [ec] ≠ [] := by simp
    by_cases hlast : ¬ f.readable = true ∧ (f.buff.data.drop written).length = 0
    · exact ⟨_, if_pos hlast, hinv false _ true true (fun _ hnone => absurd hnone herrors)⟩
    · exact ⟨_, if_neg hlast, hinv false _ _ true (fun _ hnone => absurd hnone herrors)⟩

end Flow
end Proxy
