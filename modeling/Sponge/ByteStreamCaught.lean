/-
# `Sponge.ByteStreamCaught` — runs of a byte stream in which what it throws is caught.

`remove_prefix` takes the chunks out one by one and throws when there is none left, so a read or a pop that
asks for more than there is throws with the stream DRAINED.  The two callers then differ: `read` has counted
what was there before the loop, `pop_output` counts after the loop and so not at all.

A pop that asks too much of a stream that is not empty therefore loses bytes: they are neither in the stream nor
counted as read.  Beside the stream a run records how many; with them the counters agree in every run
(`written_eq`).

A length that no string can have is a case of its own: `read` throws where it reserves the room, before anything has
changed.
-/
import Sponge.ByteStreamRuns

namespace Sponge

open Sponge.Lib

/-! ## What asking for too much does -/

namespace ByteStream

variable {s : ByteStream} {len : Nat}

/-- What a read or a pop of `len` bytes should do: take exactly these and count them, or throw and change
nothing. -/
inductive AllOrNothing {α : Type} (s : ByteStream) (len : Nat) : ByteStream × Except Exception α → Prop
  | took {s' : ByteStream} {a : α} (enough : len ≤ s.bufferSize) (contents : s'.contents = s.contents.drop len)
      (read : s'.bytesRead = s.bytesRead + len) (written : s'.bytesWritten = s.bytesWritten) :
      AllOrNothing s len (s', .ok a)
  | threw {s' : ByteStream} {e : Exception} (contents : s'.contents = s.contents)
      (read : s'.bytesRead = s.bytesRead) (written : s'.bytesWritten = s.bytesWritten)
      (remaining : s'.remainingCapacity = s.remainingCapacity) : AllOrNothing s len (s', .error e)

/-- The stream with some more bytes counted as read. -/
def counting (s : ByteStream) (lost : Nat) : ByteStream := { s with bytesRead := s.bytesRead + lost }

theorem write_counting (s : ByteStream) (lost : Nat) (data : Bytes) :
    (s.counting lost).write data = ((s.write data).1, (s.write data).2.counting lost) := by
  unfold write
  split
  · rfl
  · rfl

theorem dropped_counting (s : ByteStream) (lost len : Nat) :
    (s.counting lost).dropped len = (s.dropped len).counting lost := by
  simp only [dropped, counting, contents, Nat.add_right_comm]

theorem took_dropped {α : Type} (hv : ∀ b ∈ s.buffers, b.Valid) (hle : len ≤ s.contents.length) (a : α) :
    AllOrNothing s len (s.dropped len, .ok a) := by
  refine .took ?_ (contents_dropped hv len) ?_ rfl
  · rwa [bufferSize, BufferList.size_eq hv]
  · show s.bytesRead + min len s.contents.length = s.bytesRead + len
    rw [Nat.min_eq_left hle]

/-- A throw that drains the stream has changed nothing iff the stream was empty. -/
theorem threw_dropped_iff {α : Type} (hv : ∀ b ∈ s.buffers, b.Valid) (hlt : s.contents.length < len) (e : Exception)
    {bytesRead : Nat} (hread : s.contents = [] → bytesRead = s.bytesRead) :
    AllOrNothing (α := α) s len ({ s.dropped len with bytesRead := bytesRead }, .error e) ↔ s.bufferSize = 0 := by
  have hsize : s.bufferSize = s.contents.length := BufferList.size_eq hv
  obtain ⟨hvalid, hcont, -, -⟩ := BufferList.removePrefix_spec hv len
  have hnil : (s.dropped len).contents = [] := hcont.trans (List.drop_of_length_le (Nat.le_of_lt hlt))
  rw [hsize, List.length_eq_zero_iff]
  constructor
  · intro h
    cases h with
    | threw contents read written remaining => exact contents.symm.trans hnil
  · intro hempty
    have hleft : BufferList.size (BufferList.removePrefix s.buffers len).1 = BufferList.size s.buffers := by
      rw [BufferList.size_eq hvalid, BufferList.size_eq hv, hcont, show BufferList.contents s.buffers = [] from hempty,
        List.drop_nil]
    refine .threw (hnil.trans hempty.symm) (hread hempty) rfl ?_
    exact congrArg (sub64 s.capacity) hleft

/-- **`read`** keeps the promise iff it asks for what is there, or of an empty stream, or for what no string can
hold. -/
theorem read_allOrNothing_iff (hv : ∀ b ∈ s.buffers, b.Valid) :
    AllOrNothing s len (s.read len) ↔ len ≤ s.bufferSize ∨ s.bufferSize = 0 ∨ maxSize < len := by
  have hsize : s.bufferSize = s.contents.length := BufferList.size_eq hv
  rcases Nat.lt_or_ge maxSize len with hlong | hlen
  · rw [s.read_of_lt hlong]
    exact iff_of_true (.threw rfl rfl rfl rfl) (.inr (.inr hlong))
  · rw [read_eq hv hlen]
    by_cases hle : len ≤ s.contents.length
    · rw [if_pos hle]
      exact iff_of_true (took_dropped hv hle _) (.inl (hsize ▸ hle))
    · rw [if_neg hle]
      refine (threw_dropped_iff hv (Nat.lt_of_not_le hle) _ fun hempty => ?_).trans (by omega)
      rw [hempty, List.length_nil, Nat.min_zero, Nat.add_zero]

/-- **`pop_output`** keeps the promise iff it asks for what is there, or of an empty stream. -/
theorem popOutput_allOrNothing_iff (hv : ∀ b ∈ s.buffers, b.Valid) :
    AllOrNothing s len (s.popOutput len) ↔ len ≤ s.bufferSize ∨ s.bufferSize = 0 := by
  have hsize : s.bufferSize = s.contents.length := BufferList.size_eq hv
  rw [popOutput_eq hv]
  by_cases hle : len ≤ s.contents.length
  · rw [if_pos hle]
    exact iff_of_true (took_dropped hv hle _) (.inl (hsize ▸ hle))
  · rw [if_neg hle]
    exact (threw_dropped_iff hv (Nat.lt_of_not_le hle) _ fun _ => rfl).trans (by omega)

end ByteStream

/-! ## Runs -/

/-- A stream, and the bytes that pops have lost. -/
structure CaughtRun where
  stream : ByteStream
  lost : Nat := 0
  deriving DecidableEq, Repr

/-- The calls that change a stream. -/
inductive CaughtCall where
  | write (data : Bytes)
  | read (len : Nat)
  | popOutput (len : Nat)
  | endInput
  | setError
  deriving DecidableEq, Repr

namespace CaughtRun

open ByteStream (AllOrNothing)

/-- Every call returns here: the caller catches what the stream throws and goes on with it as it is. -/
def step (h : CaughtRun) : CaughtCall → Except Exception CaughtRun
  | .write data => .ok { h with stream := (h.stream.write data).2 }
  | .read len => .ok { h with stream := (h.stream.read len).1 }
  | .popOutput len => .ok
      { stream := (h.stream.popOutput len).1
        lost := h.lost + if h.stream.bufferSize < len then h.stream.bufferSize else 0 }
  | .endInput => .ok { h with stream := h.stream.endInput }
  | .setError => .ok { h with stream := h.stream.setError }

def Start (capacity : Nat) (h : CaughtRun) : Prop := h = { stream := ByteStream.new capacity }

theorem start_new (capacity : Nat) : Start capacity { stream := ByteStream.new capacity } := rfl

/-- The stream would be in order if it had counted the lost bytes as read. -/
structure Inv (h : CaughtRun) : Prop where
  wf : (h.stream.counting h.lost).WF

variable {capacity : Nat} {h h' : CaughtRun} {call : CaughtCall}

theorem Inv.start (hs : Start capacity h) : Inv h := by
  subst hs
  exact ⟨ByteStream.WF.new capacity⟩

theorem Inv.valid (hi : Inv h) : ∀ b ∈ h.stream.buffers, b.Valid := hi.wf.valid

theorem Inv.bufferSize (hi : Inv h) : h.stream.bufferSize = h.stream.contents.length :=
  hi.wf.bufferSize

theorem Inv.dropped (hi : Inv h) (len : Nat) : ((h.stream.dropped len).counting h.lost).WF := by
  rw [← ByteStream.dropped_counting]
  exact hi.wf.dropped len

theorem Inv.read (hi : Inv h) (len : Nat) : ((h.stream.read len).1.counting h.lost).WF := by
  rcases Nat.lt_or_ge maxSize len with hlong | hlen
  · rw [h.stream.read_of_lt hlong]
    exact hi.wf
  · rw [ByteStream.read_eq hi.valid hlen]
    exact hi.dropped len

/-- What a pop that asks too much does not count is what it adds to the loss. -/
theorem Inv.popOutput (hi : Inv h) (len : Nat) : ((h.stream.popOutput len).1.counting
    (h.lost + if h.stream.bufferSize < len then h.stream.bufferSize else 0)).WF := by
  have hsize := hi.bufferSize
  have hdropped := hi.dropped len
  rw [ByteStream.popOutput_eq hi.valid]
  by_cases hle : len ≤ h.stream.contents.length
  · rw [if_pos hle, if_neg (by omega), Nat.add_zero]
    exact hdropped
  · rw [if_neg hle, if_pos (by omega), hsize]
    -- the counter that `read` would have left
    have hcount : h.stream.bytesRead + (h.lost + h.stream.contents.length)
        = h.stream.bytesRead + min len h.stream.contents.length + h.lost := by
      omega
    simp only [ByteStream.counting, hcount]
    exact hdropped

theorem Inv.step (hi : Inv h) (hs : h.step call = .ok h') : Inv h' := by
  cases call with
  | write data =>
    obtain rfl := Except.ok.inj hs
    have hwf := (hi.wf.write data).1
    rw [ByteStream.write_counting] at hwf
    exact ⟨hwf⟩
  | read len =>
    obtain rfl := Except.ok.inj hs
    exact ⟨hi.read len⟩
  | popOutput len =>
    obtain rfl := Except.ok.inj hs
    exact ⟨hi.popOutput len⟩
  | endInput =>
    obtain rfl := Except.ok.inj hs
    exact ⟨hi.wf.endInput⟩
  | setError =>
    obtain rfl := Except.ok.inj hs
    exact ⟨hi.wf.setError⟩

theorem Inv.of_reach (hr : Reach (Start capacity) CaughtRun.step (fun _ _ => True) h) : Inv h :=
  Reach.invariant (P := Inv) (fun _ hs => Inv.start hs) (fun _ _ _ hi _ hs => hi.step hs) hr

/-- **Where the written bytes are**, in every run: read, in the stream, or lost by a pop. -/
theorem Inv.written_eq (hi : Inv h) :
    h.stream.bytesWritten = h.stream.bytesRead + h.stream.bufferSize + h.lost := by
  have hbalance : h.stream.bytesWritten = h.stream.bytesRead + h.lost + h.stream.contents.length :=
    hi.wf.balance
  rw [hbalance, hi.bufferSize, Nat.add_right_comm]

/-- **A read or a pop takes what it asks for, or throws and changes nothing**, in every state of every run in
which exceptions are caught, exactly if it asks for at most what is there, or nothing is there, or (a read) for more
than a string can hold; and the counters agree with the stream exactly as long as no pop has lost bytes. -/
theorem read_pop_all_or_nothing (hr : Reach (Start capacity) CaughtRun.step (fun _ _ => True) h) :
    (∀ len, AllOrNothing h.stream len (h.stream.read len) ↔
      len ≤ h.stream.bufferSize ∨ h.stream.bufferSize = 0 ∨ maxSize < len) ∧
    (∀ len, AllOrNothing h.stream len (h.stream.popOutput len) ↔
      len ≤ h.stream.bufferSize ∨ h.stream.bufferSize = 0) ∧
    (h.stream.bytesWritten = h.stream.bytesRead + h.stream.bufferSize ↔ h.lost = 0) := by
  have hi := Inv.of_reach hr
  refine ⟨fun len => ByteStream.read_allOrNothing_iff hi.valid,
    fun len => ByteStream.popOutput_allOrNothing_iff hi.valid, ?_⟩
  rw [hi.written_eq]
  omega

/-- An over-long pop of an empty stream, and an over-long read, are caught: the counters still agree. -/
theorem read_pop_all_or_nothing_caught : ∃ h : CaughtRun,
    Reach (Start 4) CaughtRun.step (fun _ _ => True) h ∧ h.stream.bytesRead = 2 ∧ h.stream.bufferSize = 1 ∧
    h.stream.bytesWritten = h.stream.bytesRead + h.stream.bufferSize ∧
    AllOrNothing h.stream 1 (h.stream.popOutput 1) := by
  obtain ⟨h, hr, htest⟩ : ∃ h, Reach (Start 4) CaughtRun.step (fun _ _ => True) h ∧
      (decide (h.stream.bytesRead = 2) && decide (h.stream.bufferSize = 1) && decide (h.lost = 0)) = true :=
    Reach.exec_any _ (s := { stream := ByteStream.new 4 })
      (l := [.popOutput 1, .write [1, 2], .read 3, .write [3]])
      (.start (start_new 4)) (by decide +kernel)
  simp only [Bool.and_eq_true, decide_eq_true_eq] at htest
  obtain ⟨⟨hread, hsize⟩, hlost⟩ := htest
  obtain ⟨-, hpop, hbalance⟩ := read_pop_all_or_nothing hr
  exact ⟨h, hr, hread, hsize, hbalance.mpr hlost, (hpop 1).mpr (.inl (Nat.le_of_eq hsize.symm))⟩

/-- **Asking for too much drains the stream.**  After `ab` has been written, `read(3)` throws with both bytes
gone and counted; `pop_output(3)` throws with both bytes gone and not counted, and the counters never agree
again. -/
theorem over_long_drains : ∃ h : CaughtRun, Reach (Start 4) CaughtRun.step (fun _ _ => True) h ∧
    h.stream.contents = [97, 98] ∧ h.stream.bytesWritten = 2 ∧ h.stream.bytesRead = 0 ∧
    (∃ e, (h.stream.read 3).2 = .error e) ∧
    (h.stream.read 3).1.contents = [] ∧ (h.stream.read 3).1.bytesRead = 2 ∧
    (∃ e, (h.stream.popOutput 3).2 = .error e) ∧
    (h.stream.popOutput 3).1.contents = [] ∧ (h.stream.popOutput 3).1.bytesRead = 0 ∧
    (h.stream.popOutput 3).1.bytesWritten - (h.stream.popOutput 3).1.bytesRead
      ≠ (h.stream.popOutput 3).1.bufferSize := by
  refine ⟨{ stream := { buffers := [{ storage := [97, 98] }], capacity := 4, bytesWirtten := 2 } }, ?_,
    by decide, by decide, by decide, ⟨_, rfl⟩, by decide, by decide, ⟨_, rfl⟩, by decide, by decide, by decide⟩
  exact Reach.of_exec (l := [.write [97, 98]]) (.start (start_new 4)) (by decide)

end CaughtRun

end Sponge
