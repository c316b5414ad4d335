/-
# `Sponge.ByteStreamRuns` — the byte stream as a bounded FIFO, and its end of file.

A run is any sequence of writes, peeks, ends of input, and reads or pops of at most what is there.  Beside
the stream it records the prefixes that `write` accepted and the bytes that were read or popped; what is
unread is the first without the second.

The FIFO is exact for every run, but `peek_output` and `read` reserve a string of the length they are asked for
first, so a length that no string can have throws (`reserve_bounds_peek`).  The end of file is not exact: `write` on
a full stream appends an EMPTY chunk, which `buffer_empty()` counts although there is nothing in it, and which stays
when the bytes before it have been read (`full_write_hides_eof`).  It is exact in the runs that write data only while
there is room.
-/
import Sponge.ByteStream
import Sponge.Lib.Run

namespace Sponge

open Sponge.Lib

/-! ## Runs -/

/-- A stream, the bytes it accepted and the bytes taken out of it. -/
structure StreamRun where
  stream : ByteStream
  accepted : Bytes := []
  taken : Bytes := []
  deriving DecidableEq, Repr

inductive StreamCall where
  | write (data : Bytes)
  | peekOutput (len : Nat)
  | read (len : Nat)
  | popOutput (len : Nat)
  | endInput
  deriving DecidableEq, Repr

namespace StreamRun

/-- `peek_output` leaves the stream alone, also when it throws; the bytes that `pop_output` removes are those that
its loop would show. -/
def step (h : StreamRun) : StreamCall → Except Exception StreamRun
  | .write data => .ok { h with
      stream := (h.stream.write data).2
      accepted := h.accepted ++ data.take (h.stream.write data).1 }
  | .peekOutput _ => .ok h
  | .read len => (h.stream.read len).2.map fun bytes =>
      { h with stream := (h.stream.read len).1, taken := h.taken ++ bytes }
  | .popOutput len => (h.stream.popOutput len).2.map fun _ =>
      { h with stream := (h.stream.popOutput len).1, taken := h.taken ++ h.stream.peeked len }
  | .endInput => .ok { h with stream := h.stream.endInput }

def Start (capacity : Nat) (h : StreamRun) : Prop := h = { stream := ByteStream.new capacity }

theorem start_new (capacity : Nat) : Start capacity { stream := ByteStream.new capacity } := rfl

/-- Reads and pops ask for at most what is there. -/
def within (h : StreamRun) : StreamCall → Prop
  | .read len => len ≤ h.stream.bufferSize
  | .popOutput len => len ≤ h.stream.bufferSize
  | _ => True

/-- Data is written only while there is room for some of it. -/
def roomy (h : StreamRun) : StreamCall → Prop
  | .write data => data ≠ [] → 0 < h.stream.remainingCapacity
  | _ => True

instance (h : StreamRun) (call : StreamCall) : Decidable (h.within call) := by
  unfold within
  split <;> infer_instance

instance (h : StreamRun) (call : StreamCall) : Decidable (h.roomy call) := by
  unfold roomy
  split <;> infer_instance

/-- The unread data, from the outside: what was accepted without what was taken. -/
def unread (h : StreamRun) : Bytes := h.accepted.drop h.taken.length

end StreamRun

/-! ## The FIFO -/

namespace StreamRun

/-- The stream is in order and holds what was accepted and not taken. -/
structure Fifo (capacity : Nat) (h : StreamRun) : Prop where
  wf : h.stream.WF
  capacity : h.stream.capacity = capacity
  order : h.accepted = h.taken ++ h.stream.contents
  read : h.stream.bytesRead = h.taken.length

variable {capacity : Nat} {h h' : StreamRun} {call : StreamCall}

theorem Fifo.start (hs : Start capacity h) : Fifo capacity h := by
  subst hs
  exact ⟨ByteStream.WF.new capacity, rfl, rfl, rfl⟩

theorem Fifo.write (hf : Fifo capacity h) (data : Bytes) :
    Fifo capacity { h with
      stream := (h.stream.write data).2
      accepted := h.accepted ++ data.take (h.stream.write data).1 } := by
  obtain ⟨hwf, -, hcont, -⟩ := hf.wf.write data
  refine ⟨hwf, (ByteStream.write_capacity _ _).trans hf.capacity, ?_,
    (ByteStream.write_bytesRead _ _).trans hf.read⟩
  dsimp only
  rw [hcont, hf.order, List.append_assoc]

theorem Fifo.take (hf : Fifo capacity h) (len : Nat) :
    Fifo capacity { h with stream := h.stream.dropped len, taken := h.taken ++ h.stream.contents.take len } := by
  refine ⟨hf.wf.dropped len, hf.capacity, ?_, ?_⟩
  · dsimp only
    rw [ByteStream.contents_dropped hf.wf.valid, List.append_assoc, List.take_append_drop, hf.order]
  · show h.stream.bytesRead + _ = _
    rw [hf.read, List.length_append, List.length_take]

theorem Fifo.step (hf : Fifo capacity h) (hok : h.within call) (hs : h.step call = .ok h') :
    Fifo capacity h' := by
  cases call with
  | write data =>
    obtain rfl := Except.ok.inj hs
    exact hf.write data
  | peekOutput len =>
    obtain rfl := Except.ok.inj hs
    exact hf
  | read len =>
    have hle : len ≤ h.stream.contents.length := hf.wf.bufferSize ▸ hok
    obtain ⟨bytes, hbytes, rfl⟩ := map_ok.mp hs
    rcases Nat.lt_or_ge maxSize len with hlt | hlen
    · rw [h.stream.read_of_lt hlt] at hbytes
      cases hbytes
    · rw [ByteStream.read_eq hf.wf.valid hlen, if_pos hle] at hbytes
      obtain rfl := Except.ok.inj hbytes
      rw [ByteStream.read_eq hf.wf.valid hlen]
      exact hf.take len
  | popOutput len =>
    have hle : len ≤ h.stream.contents.length := hf.wf.bufferSize ▸ hok
    obtain ⟨_, -, rfl⟩ := map_ok.mp hs
    rw [ByteStream.popOutput_eq hf.wf.valid, if_pos hle, hf.wf.peeked]
    exact hf.take len
  | endInput =>
    obtain rfl := Except.ok.inj hs
    exact ⟨hf.wf.endInput, hf.capacity, hf.order, hf.read⟩

theorem fifo_of_reach {ok : StreamRun → StreamCall → Prop} (hwithin : ∀ h call, ok h call → h.within call)
    (hr : Reach (Start capacity) step ok h) : Fifo capacity h :=
  Reach.invariant (P := Fifo capacity) (fun _ hs => Fifo.start hs)
    (fun h call _ hf hok hs => hf.step (hwithin h call hok) hs) hr

theorem Fifo.unread_eq (hf : Fifo capacity h) : h.unread = h.stream.contents := by
  rw [unread, hf.order, List.drop_left]

/-- **The byte stream is a bounded FIFO**, in every state of every run: peeking shows a prefix of the unread data iff
it asks for no more than a string can hold; what was taken and what is unread make up what was accepted; the counters
count; a write accepts the prefix that fits; and a read or a pop of at most what is there returns, the read iff it
asks for no more than a string can hold. -/
theorem bounded_fifo (hr : Reach (Start capacity) step within h) :
    (∀ n, h.stream.peekOutput n = .ok (h.unread.take (min n h.stream.bufferSize)) ↔ n ≤ maxSize) ∧
    h.taken ++ h.unread = h.accepted ∧ h.unread.length = h.stream.bufferSize ∧
    h.stream.bytesWritten = h.stream.bytesRead + h.stream.bufferSize ∧
    h.stream.bufferSize ≤ capacity ∧
    h.stream.remainingCapacity = capacity - h.stream.bufferSize ∧
    (∀ data, (h.stream.write data).1 = min data.length h.stream.remainingCapacity ∧
      (h.stream.write data).2.contents = h.unread ++ data.take (min data.length h.stream.remainingCapacity)) ∧
    (∀ len ≤ h.stream.bufferSize,
      (h.stream.read len = ((h.stream.popOutput len).1, .ok (h.unread.take len)) ↔ len ≤ maxSize) ∧
      (h.stream.popOutput len).2 = .ok () ∧
      (h.stream.popOutput len).1.contents = h.unread.drop len ∧
      (h.stream.popOutput len).1.bytesRead = h.stream.bytesRead + len) := by
  have hf := fifo_of_reach (fun _ _ hok => hok) hr
  have hsize := hf.wf.bufferSize
  have hremain := hf.wf.remainingCapacity
  rw [hf.capacity] at hremain
  rw [hf.unread_eq]
  refine ⟨fun n => ⟨fun hpeek => ?_, fun hle => ?_⟩, hf.order.symm, hsize.symm, ?_, ?_, ?_, fun data => ?_,
    fun len hle => ?_⟩
  · by_contra hlt
    rw [h.stream.peekOutput_of_lt (Nat.lt_of_not_le hlt)] at hpeek
    cases hpeek
  · rw [h.stream.peekOutput_of_le hle, hf.wf.peeked, hsize, List.take_eq_take_min]
  · rw [hsize]
    exact hf.wf.balance
  · rw [hsize, ← hf.capacity]
    exact hf.wf.fits
  · rw [hremain, hsize]
  · obtain ⟨-, hcount, hcont, -⟩ := hf.wf.write data
    rw [hf.capacity] at hcount
    rw [hcont, hcount, hremain]
    exact ⟨rfl, rfl⟩
  · rw [hsize] at hle
    rw [ByteStream.popOutput_eq hf.wf.valid, if_pos hle]
    refine ⟨⟨fun hread => ?_, fun hlen => ?_⟩, rfl, ByteStream.contents_dropped hf.wf.valid len, ?_⟩
    · by_contra hlt
      rw [h.stream.read_of_lt (Nat.lt_of_not_le hlt)] at hread
      cases (Prod.mk.inj hread).2
    · rw [ByteStream.read_eq hf.wf.valid hlen, if_pos hle]
    · show h.stream.bytesRead + min len h.stream.contents.length = _
      rw [Nat.min_eq_left hle]

/-- A write that is cut, a read and a pop. -/
theorem bounded_fifo_cut : ∃ h : StreamRun, Reach (Start 3) step within h ∧
    h.accepted = [1, 2, 3, 4] ∧ h.taken = [1, 2] ∧ h.unread = [3, 4] ∧
    h.stream.peekOutput 9 = .ok (h.unread.take (min 9 h.stream.bufferSize)) ∧
    h.taken ++ h.unread = h.accepted := by
  obtain ⟨h, hr, htest⟩ : ∃ h, Reach (Start 3) step within h ∧
      (decide (h.accepted = [1, 2, 3, 4]) && decide (h.taken = [1, 2]) && decide (h.unread = [3, 4])) = true :=
    Reach.exec_any _ (s := { stream := ByteStream.new 3 })
      (l := [.write [1, 2, 3, 7], .read 1, .popOutput 1, .write [4], .peekOutput 5])
      (.start (start_new 3)) (by decide +kernel)
  simp only [Bool.and_eq_true, decide_eq_true_eq] at htest
  obtain ⟨hpeek, horder, -⟩ := bounded_fifo hr
  exact ⟨h, hr, htest.1.1, htest.1.2, htest.2, (hpeek 9).mpr (by decide), horder⟩

/-- **A peek may ask for too much.**  The reservation of `2^64 - 1` bytes throws although the stream holds one and
one would be shown. -/
theorem reserve_bounds_peek : ∃ h : StreamRun, Reach (Start 1) step within h ∧
    h.unread.take (min (2 ^ 64 - 1) h.stream.bufferSize) = [97] ∧
    h.stream.peekOutput (2 ^ 64 - 1) = .error (.lengthError "basic_string::_M_create") :=
  ⟨{ stream := { buffers := [{ storage := [97] }], capacity := 1, bytesWirtten := 1 }, accepted := [97] },
    Reach.of_exec (l := [.write [97]]) (.start (start_new 1)) (by decide), by decide,
    ByteStream.peekOutput_of_lt _ (by decide)⟩

end StreamRun

/-! ## Streams without empty chunks -/

theorem BufferList.removePrefix_dense {bl : BufferList} (hv : ∀ b ∈ bl, b.Valid) (hd : ∀ b ∈ bl, 0 < b.size) (n : Nat) :
    ∀ b ∈ (removePrefix bl n).1, 0 < b.size := by
  induction bl generalizing n with
  | nil => cases n <;> simp [removePrefix]
  | cons b bs ih =>
    have hvs : ∀ c ∈ bs, c.Valid := fun c hc => hv c (by simp [hc])
    have hds : ∀ c ∈ bs, 0 < c.size := fun c hc => hd c (by simp [hc])
    cases n with
    | zero => simpa [removePrefix] using hd
    | succ n =>
      rw [removePrefix]
      split
      · exact ih hvs hds _
      · -- the chunk in which the removal stops keeps at least one byte
        rename_i hgt
        obtain ⟨hvalid, hrest⟩ := Buffer.removePrefix_spec (hv b (by simp)) (n := n + 1) (by omega)
        intro c hc
        rcases List.mem_cons.mp hc with rfl | hc
        · rw [Buffer.size_eq hvalid, hrest, List.length_drop, ← Buffer.size_eq (hv b (by simp))]
          omega
        · exact hds c hc

namespace ByteStream

variable {s : ByteStream}

/-- No chunk is empty. -/
def Dense (s : ByteStream) : Prop := ∀ b ∈ s.buffers, 0 < b.size

theorem Dense.new (capacity : Nat) : (new capacity).Dense := List.forall_mem_nil _

theorem Dense.write (h : s.Dense) (hwf : s.WF) {data : Bytes} (hroom : data ≠ [] → 0 < s.remainingCapacity) :
    (s.write data).2.Dense := by
  by_cases hne : data = []
  · rw [hne]
    exact h
  · have hpos := hroom hne
    have hlen := List.length_pos_iff.mpr hne
    rw [hwf.remainingCapacity] at hpos
    rw [write_of_nonempty hwf hne]
    intro b hb
    rcases List.mem_append.mp hb with hb | hb
    · exact h b hb
    · -- the new chunk has room for a byte, and a byte to put there
      rw [List.mem_singleton.mp hb, Buffer.size, sub64_of_le (Nat.zero_le _), List.length_take]
      omega

theorem Dense.dropped (h : s.Dense) (hwf : s.WF) (len : Nat) : (s.dropped len).Dense :=
  BufferList.removePrefix_dense hwf.valid h len

theorem Dense.read (h : s.Dense) (hwf : s.WF) (len : Nat) : (s.read len).1.Dense := by
  rcases s.read_cases len with heq | ⟨_, heq⟩
  · rw [heq]
    exact h
  · rw [heq]
    exact h.dropped hwf len

/-- Without empty chunks an empty deque is an empty stream. -/
theorem Dense.bufferEmpty_iff (h : s.Dense) (hwf : s.WF) : s.bufferEmpty = true ↔ s.contents = [] := by
  rw [bufferEmpty, List.isEmpty_iff]
  constructor
  · intro hnone
    rw [contents, hnone, BufferList.contents_nil]
  · intro hnone
    cases hb : s.buffers with
    | nil => rfl
    | cons b bs =>
      have hmem : b ∈ s.buffers := by rw [hb]; exact List.mem_cons_self
      have hpos := h b hmem
      rw [Buffer.size_eq (hwf.valid b hmem)] at hpos
      rw [contents, hb, BufferList.contents_cons] at hnone
      rw [(List.append_eq_nil_iff.mp hnone).1] at hpos
      exact absurd hpos (Nat.lt_irrefl 0)

theorem Dense.eof_iff (h : s.Dense) (hwf : s.WF) : s.eof = true ↔ s.isInputEnd = true ∧ s.contents = [] := by
  rw [← h.bufferEmpty_iff hwf]
  exact Bool.and_eq_true_iff

end ByteStream

/-! ## The end of file -/

namespace StreamRun

variable {capacity : Nat} {h h' : StreamRun} {call : StreamCall}

theorem dense_step (hd : h.stream.Dense) (hf : Fifo capacity h) (hok : h.within call) (hroom : h.roomy call)
    (hs : h.step call = .ok h') : h'.stream.Dense := by
  cases call with
  | write data =>
    obtain rfl := Except.ok.inj hs
    exact hd.write hf.wf hroom
  | peekOutput len =>
    obtain rfl := Except.ok.inj hs
    exact hd
  | read len =>
    obtain ⟨bytes, -, rfl⟩ := map_ok.mp hs
    exact hd.read hf.wf len
  | popOutput len =>
    have hle : len ≤ h.stream.contents.length := hf.wf.bufferSize ▸ hok
    obtain ⟨_, -, rfl⟩ := map_ok.mp hs
    rw [ByteStream.popOutput_eq hf.wf.valid, if_pos hle]
    exact hd.dropped hf.wf len
  | endInput =>
    obtain rfl := Except.ok.inj hs
    exact hd

/-- **The end of file is exact** in the runs that write data only while there is room: the stream is empty
iff nothing is unread, and at its end iff the input has ended and all that was written has been read. -/
theorem eof_exact (hr : Reach (Start capacity) step (fun h call => h.within call ∧ h.roomy call) h) :
    (h.stream.bufferEmpty = true ↔ h.stream.bufferSize = 0) ∧
    (h.stream.eof = true ↔
      h.stream.inputEnded = true ∧ h.stream.bytesRead = h.stream.bytesWritten) := by
  obtain ⟨hf, hd⟩ : Fifo capacity h ∧ h.stream.Dense := by
    refine Reach.invariant (P := fun h => Fifo capacity h ∧ h.stream.Dense) ?_ ?_ hr
    · rintro h hs
      refine ⟨Fifo.start hs, ?_⟩
      subst hs
      exact ByteStream.Dense.new capacity
    · rintro h call h' ⟨hf, hd⟩ ⟨hok, hroom⟩ hs
      exact ⟨hf.step hok hs, dense_step hd hf hok hroom hs⟩
  have hsize : h.stream.contents = [] ↔ h.stream.bufferSize = 0 := by
    rw [hf.wf.bufferSize, List.length_eq_zero_iff]
  refine ⟨(hd.bufferEmpty_iff hf.wf).trans hsize, ?_⟩
  have hbalance : h.stream.bytesWritten = h.stream.bytesRead + h.stream.bufferSize := by
    rw [hf.wf.bufferSize]
    exact hf.wf.balance
  rw [hd.eof_iff hf.wf, hsize, ByteStream.inputEnded]
  refine and_congr_right fun _ => ?_
  omega

/-- A stream that was written, ended and read to its end. -/
theorem eof_exact_read : ∃ h : StreamRun,
    Reach (Start 2) step (fun h call => h.within call ∧ h.roomy call) h ∧
    h.stream.eof = true ∧ h.stream.bytesRead = 2 ∧ h.stream.bytesRead = h.stream.bytesWritten := by
  obtain ⟨h, hr, htest⟩ : ∃ h, Reach (Start 2) step (fun h call => h.within call ∧ h.roomy call) h ∧
      (h.stream.eof && decide (h.stream.bytesRead = 2)) = true :=
    Reach.exec_any _ (s := { stream := ByteStream.new 2 })
      (l := [.write [1, 2, 3], .read 1, .endInput, .popOutput 1])
      (.start (start_new 2)) (by decide +kernel)
  simp only [Bool.and_eq_true, decide_eq_true_eq] at htest
  exact ⟨h, hr, htest.1, htest.2, ((eof_exact hr).2.mp htest.1).2⟩

/-- **A write on a full stream hides the end.**  The empty chunk it leaves is not read by the read of the
only byte, so the stream is neither empty nor at its end although nothing is unread. -/
theorem full_write_hides_eof : ∃ h : StreamRun, Reach (Start 1) step within h ∧
    h.stream.bufferSize = 0 ∧ h.stream.bufferEmpty = false ∧
    h.stream.inputEnded = true ∧ h.stream.bytesRead = h.stream.bytesWritten ∧ h.stream.eof = false := by
  obtain ⟨h, hr, htest⟩ : ∃ h, Reach (Start 1) step within h ∧
      (decide (h.stream.bufferSize = 0) && !h.stream.bufferEmpty && h.stream.inputEnded
        && decide (h.stream.bytesRead = h.stream.bytesWritten) && !h.stream.eof) = true :=
    Reach.exec_any _ (s := { stream := ByteStream.new 1 })
      (l := [.write [1], .write [2], .endInput, .read 1])
      (.start (start_new 1)) (by decide +kernel)
  simp only [Bool.and_eq_true, decide_eq_true_eq, Bool.not_eq_true'] at htest
  exact ⟨h, hr, htest.1.1.1.1, htest.1.1.1.2, htest.1.1.2, htest.1.2, htest.2⟩

end StreamRun

/-! ## Streams with an empty chunk at the end -/

namespace ByteStream

variable {s : ByteStream}

/-- The last chunk is empty. -/
def Plugged (s : ByteStream) : Prop := ∃ front chunk, s.buffers = front ++ [chunk] ∧ chunk.size = 0

/-- A write on a full stream leaves an empty chunk. -/
theorem Plugged.write {data : Bytes} (hdata : data ≠ []) (hfull : s.remainingCapacity = 0) :
    (s.write data).2.Plugged := by
  have hpos := List.length_pos_iff.mpr hdata
  unfold ByteStream.write
  rw [if_neg (by simpa using hdata), hfull]
  dsimp only
  rw [if_pos hpos]
  exact ⟨s.buffers, _, rfl, rfl⟩

/-- The removal stops before the empty chunk: it runs only while bytes are left to remove. -/
theorem removePrefix_plugged {chunk : Buffer} (front : BufferList) {n : Nat} (hn : n ≤ BufferList.size front) :
    ∃ front', (BufferList.removePrefix (front ++ [chunk]) n).1 = front' ++ [chunk] := by
  induction front generalizing n with
  | nil =>
    obtain rfl : n = 0 := Nat.le_zero.mp hn
    exact ⟨[], rfl⟩
  | cons b bs ih =>
    have hsize : BufferList.size (b :: bs) = b.size + BufferList.size bs := List.sum_cons
    cases n with
    | zero => exact ⟨b :: bs, rfl⟩
    | succ n =>
      rw [List.cons_append, BufferList.removePrefix]
      split
      · exact ih (by omega)
      · exact ⟨b.removePrefix (n + 1) :: bs, rfl⟩

/-- Reads of what is there do not remove it. -/
theorem Plugged.read (h : s.Plugged) (hwf : s.WF) {len : Nat} (hlen : len ≤ s.contents.length) :
    (s.read len).1.Plugged := by
  obtain ⟨front, chunk, hb, hempty⟩ := h
  have hsize : BufferList.size s.buffers = BufferList.size front := by
    rw [hb, BufferList.size, List.map_append, List.sum_append, List.map_singleton, List.sum_singleton, hempty]
    rfl
  have hle : len ≤ BufferList.size front := by
    rw [← hsize]
    exact Nat.le_trans hlen (Nat.le_of_eq hwf.bufferSize.symm)
  obtain ⟨front', hleft⟩ := removePrefix_plugged front hle
  rw [← hb] at hleft
  rcases s.read_cases len with heq | ⟨_, heq⟩
  · rw [heq]
    exact ⟨front, chunk, hb, hempty⟩
  · rw [heq]
    exact ⟨front', chunk, hleft, hempty⟩

theorem Plugged.eof (h : s.Plugged) : s.eof = false := by
  obtain ⟨front, chunk, hb, -⟩ := h
  rw [ByteStream.eof, hb]
  simp

end ByteStream

end Sponge
