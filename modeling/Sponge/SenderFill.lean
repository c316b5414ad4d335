/-
# `Sponge.SenderFill` — `fill_window` leaves nothing to do.

A `fill_window` that returned early with room in the window would stall the connection until something else
woke the sender up.  The source has four early returns and a loop, and each of them is left in a state in
which the next call finds nothing to send: the window is used up, the SYN is in flight, the stream is drained
and no FIN is due, or the FIN is queued.  That is `TCPSender.idle`, so a second call does nothing
(`Segmented.fillWindow_idle`), and behind the handshake `idle` says what the window was filled with.

The window is measured against what the peer advertised: a run remembers the window of the last acknowledgment
that was accepted, and `_window_size` is that number, with 0 taken for 1.
-/
import Sponge.SenderHistory

namespace Sponge

open Sponge.Lib

namespace TCPSender

/-- **After `fill_window` created a batch** there is nothing left to send. -/
theorem Filled.idle_after {s s' : TCPSender} {segs : List TCPSegment} (h : Filled s segs s')
    (hwf : s.stream.WF) : s'.idle := by
  have hroom := h.room
  have hspace := h.space_eq
  have hread : s.readable = min (s.windowSize - s.bytedInFlight) s.stream.contents.length := rfl
  have htake : (s.stream.contents.take s.readable).length = s.readable :=
    List.length_take_of_le (Nat.min_le_right _ _)
  have hwindow : s'.windowSize = s.windowSize := by rw [h.result]; rfl
  have hflight : s'.bytedInFlight = s.bytedInFlight + space segs := by rw [h.result]; rfl
  have hstream : s'.stream = (s.stream.read s.readable).1 := by rw [h.result]; rfl
  have hsyn : s'.isSynReceived = s.isSynReceived := by rw [h.result]; rfl
  have hfin : s'.isFinReceived = s.isFinReceived := by rw [h.result]; rfl
  have hqueue : s'.queued = s.queued ++ segs := by
    rw [h.result, enqueue_queued]
    rfl
  by_cases hfull : s'.windowSize ≤ s'.bytedInFlight
  · exact Or.inl hfull
  cases hopen : s.isSynReceived with
  | false =>
    -- the batch carries the SYN, and waits for its acknowledgment
    refine Or.inr (Or.inl ⟨hsyn.trans hopen, fun hnil => h.batch.ne_nil ?_⟩)
    rw [queued, hnil, List.map_nil] at hqueue
    exact (List.append_eq_nil_iff.mp hqueue.symm).2
  | true =>
    -- room is left, so the stream was read to its last byte
    rw [hopen, if_pos rfl, htake] at hspace
    have hempty : s'.stream.contents = [] := by
      rw [hstream, hwf.read_contents h.short]
      exact List.drop_of_length_le (by omega)
    have hzero : s'.readable = 0 := by
      rw [readable, hempty]
      exact Nat.min_zero _
    have hsame : (s'.stream.read s'.readable).1 = s'.stream := by rw [hzero, ByteStream.read_zero]
    by_cases hend : s'.stream.eof = true ∧ s'.isFinReceived = false
    · -- the batch ended the stream, and had room for the FIN
      refine Or.inr (Or.inr (Or.inr ⟨by rw [hsame]; exact hend.1, hend.2, ?_⟩))
      have hflag : s.finFlag = true := by
        rw [finFlag, ← hstream, hend.1, ← hfin, hend.2]
        simp only [Bool.not_false, Bool.and_self, Bool.true_and, decide_eq_true_eq]
        omega
      obtain ⟨-, back, hback, hbackFin⟩ := h.batch.fin_last
      rw [finQueued_eq, hqueue, endsInFin_append h.batch.ne_nil, endsInFin, hback]
      exact hbackFin.trans hflag
    · refine Or.inr (Or.inr (Or.inl ⟨hsyn.trans hopen, hzero, ?_⟩))
      rw [finFlag, hsame]
      cases heof : s'.stream.eof with
      | false => rfl
      | true =>
        cases hf : s'.isFinReceived with
        | true => rfl
        | false => exact absurd ⟨heof, hf⟩ hend

end TCPSender

namespace SenderRun

variable {s s' : TCPSender} {accepted : Bytes} {created : List TCPSegment}

/-- **After `fill_window`** there is nothing left to send. -/
theorem Segmented.fillWindow_idle (h : Segmented s accepted created) (hs : s.fillWindow = .ok s') :
    s'.idle := by
  obtain ⟨t, ht, hcases⟩ := h.toKept.fillWindow
  obtain rfl : t = s' := Except.ok.inj (ht.symm.trans hs)
  rcases hcases with ⟨hidle, -⟩ | ⟨segs, hf⟩
  · rcases h.fillWindow_ok hs with ⟨-, rfl⟩ | hf
    · exact hidle
    · exact absurd hidle hf.not_idle
  · exact hf.idle_after h.wf

/-- An idle sender is left as it is. -/
theorem Segmented.fillWindow_of_idle (h : Segmented s accepted created) (hidle : s.idle) :
    s.fillWindow = .ok s := by
  obtain ⟨s', hs, -⟩ := h.toKept.fillWindow
  rcases h.fillWindow_ok hs with ⟨-, rfl⟩ | hf
  · exact hs
  · exact absurd hidle hf.not_idle

/-- What an idle sender whose SYN is acknowledged has done: used up the window, or sent all of the stream,
with the FIN if it has ended. -/
theorem Segmented.idle_spent (h : Segmented s accepted created) (hidle : s.idle)
    (hsyn : s.isSynReceived = true) :
    s.windowSize ≤ s.bytedInFlight ∨
    (s.stream.contents = [] ∧ (s.stream.eof = true → TCPSender.endsInFin created = true)) := by
  rcases Nat.lt_or_ge s.bytedInFlight s.windowSize with hroom | hfull
  · refine Or.inr ?_
    rcases hidle with hfull | ⟨hopen, -⟩ | ⟨-, hread, hflag⟩ | ⟨-, -, hqueued⟩
    · omega
    · rw [hsyn] at hopen
      exact absurd hopen (by decide)
    · -- nothing to read: the stream is drained, and its FIN, if it is due, was sent before
      have hempty : s.stream.contents = [] := by
        rw [TCPSender.readable] at hread
        exact List.length_eq_zero_iff.mp (by omega)
      refine ⟨hempty, fun heof => ?_⟩
      rw [TCPSender.finFlag, hread, ByteStream.read_zero, heof] at hflag
      have hdone : s.isFinReceived = true := by
        by_contra hne
        rw [eq_false_of_ne_true hne, decide_eq_true (by omega)] at hflag
        exact absurd hflag (by decide)
      exact (h.finFlag.mp hdone).2
    · -- the FIN is queued, so the stream is at its end
      obtain ⟨front, hfront⟩ := h.queue
      rw [TCPSender.finQueued_eq] at hqueued
      have hne : s.queued ≠ [] := fun hnil => by
        rw [hnil] at hqueued
        exact absurd hqueued (by decide)
      rw [← TCPSender.endsInFin_append hne, hfront] at hqueued
      exact ⟨ByteStream.contents_of_eof (h.finDone hqueued), fun _ => hqueued⟩
  · exact Or.inl hfull

end SenderRun

/-- A run of the sender that remembers the window of the last accepted acknowledgment. -/
structure AdvertisedRun where
  run : SenderRun
  lastWindow : Option UInt16 := none

namespace AdvertisedRun

open SenderRun (Segmented newSegments)

/-- The window that counts: 0 is taken for 1, and at first there is room for the SYN alone. -/
def effectiveWindow (lastWindow : Option UInt16) : Nat := lastWindow.elim 1 fun w => max 1 w.toNat

/-- The record of a call; an acknowledgment beyond the next sequence number is not accepted. -/
def record (h : AdvertisedRun) : SenderCall → Option UInt16
  | .ackReceived ackno windowSize =>
    if unwrap ackno h.run.sender.isn h.run.sender.nextSeqno ≤ h.run.sender.nextSeqno then some windowSize
    else h.lastWindow
  | _ => h.lastWindow

def step (h : AdvertisedRun) (call : SenderCall) : Except Exception AdvertisedRun :=
  (h.run.step call).map fun run => { run := run, lastWindow := h.record call }

def Start (h : AdvertisedRun) : Prop := ∃ run, SenderRun.Start run ∧ h = { run := run }

/-- No write after the end of input. -/
def silentAfterEnd (h : AdvertisedRun) (call : SenderCall) : Prop := SenderRun.silentAfterEnd h.run call

instance (h : AdvertisedRun) : DecidablePred (silentAfterEnd h) :=
  fun call => inferInstanceAs (Decidable (SenderRun.silentAfterEnd h.run call))

/-- The invariant: nothing is lost, and `_window_size` is the window that counts. -/
structure Inv (h : AdvertisedRun) : Prop where
  segmented : Segmented h.run.sender h.run.accepted h.run.created
  window : h.run.sender.windowSize = effectiveWindow h.lastWindow

theorem Start.inv {h : AdvertisedRun} (hstart : Start h) : Inv h := by
  obtain ⟨run, ⟨capacity, retxTimeout, fixedIsn, random, rfl⟩, rfl⟩ := hstart
  exact ⟨Segmented.new capacity retxTimeout fixedIsn random, rfl⟩

/-- Only an accepted acknowledgment changes the window. -/
theorem Inv.window_step {h : AdvertisedRun} (hi : Inv h) {call : SenderCall} {run : SenderRun}
    (hs : h.run.step call = .ok run) : run.sender.windowSize = effectiveWindow (h.record call) := by
  cases call with
  | fillWindow =>
    obtain ⟨s', hs', rfl⟩ := map_ok.mp hs
    rcases hi.segmented.fillWindow_ok hs' with ⟨-, rfl⟩ | hf
    · exact hi.window
    · rw [hf.result]
      exact hi.window
  | ackReceived ackno windowSize =>
    obtain rfl := Except.ok.inj hs
    rcases h.run.sender.ackReceived_cases ackno windowSize with ⟨hgt, heq⟩ | ⟨hle, j, -, hw, -, -⟩
    · have hrecord : h.record (.ackReceived ackno windowSize) = h.lastWindow := if_neg (Nat.not_le.mpr hgt)
      rw [hrecord]
      show (h.run.sender.ackReceived ackno windowSize).windowSize = _
      rw [heq]
      exact hi.window
    · have hrecord : h.record (.ackReceived ackno windowSize) = some windowSize := if_pos hle
      rw [hrecord]
      refine hw.trans ?_
      show _ = max 1 windowSize.toNat
      split
      · rename_i hzero
        rw [hzero]
        rfl
      · rename_i hzero
        have : windowSize.toNat ≠ 0 := fun h0 => hzero (UInt16.toNat_inj.mp h0)
        omega
  | tick ms =>
    obtain rfl := Except.ok.inj hs
    exact (h.run.sender.tick_ticked ms).window.trans hi.window
  | write _ | endInput | sendEmptySegment | pop =>
    obtain rfl := Except.ok.inj hs
    exact hi.window

theorem Inv.step {h h' : AdvertisedRun} {call : SenderCall} (hi : Inv h) (hok : silentAfterEnd h call)
    (hs : h.step call = .ok h') : Inv h' := by
  obtain ⟨run, hrun, rfl⟩ := map_ok.mp hs
  exact ⟨hi.segmented.step hok hrun, hi.window_step hrun⟩

/-- **`fill_window` fills as much as possible and is idempotent.**  In every state of every run that writes
nothing after the end of input, `fill_window` returns, and a second call returns the same sender: it creates
nothing and changes nothing.  Once the SYN is acknowledged, either as much is in flight as the window that
counts, or the stream is drained and, if it is at its end, a FIN has been created. -/
theorem fillWindow_fills {h : AdvertisedRun} (hr : Reach Start step silentAfterEnd h) :
    ∃ s', h.run.sender.fillWindow = .ok s' ∧ s'.fillWindow = .ok s' ∧
      (s'.isSynReceived = true →
        effectiveWindow h.lastWindow ≤ s'.bytesInFlight ∨
        (s'.stream.bufferSize = 0 ∧ (s'.stream.eof = true →
          ∃ seg ∈ h.run.created ++ newSegments h.run.sender s', seg.header.fin = true))) := by
  have hi : Inv h := Reach.invariant (fun _ hstart => hstart.inv) (fun _ _ _ hi hok hs => hi.step hok hs) hr
  obtain ⟨s', hs, -⟩ := hi.segmented.toKept.fillWindow
  have hseg := hi.segmented.fillWindow hs
  have hidle := hi.segmented.fillWindow_idle hs
  have hstep : h.run.step .fillWindow = .ok _ := map_ok.mpr ⟨s', hs, rfl⟩
  have hwindow : s'.windowSize = effectiveWindow h.lastWindow := hi.window_step hstep
  refine ⟨s', hs, hseg.fillWindow_of_idle hidle, fun hsyn => ?_⟩
  rw [← hwindow]
  refine (hseg.idle_spent hidle hsyn).imp id ?_
  rintro ⟨hempty, hfin⟩
  refine ⟨by rw [hseg.wf.bufferSize, hempty]; rfl, fun heof => ?_⟩
  exact TCPSender.exists_fin_of_endsInFin (hfin heof)

/-- Three bytes and the end of the stream into a window of ten: the data and the FIN go out together. -/
theorem fillWindow_fills_three : ∃ h : AdvertisedRun, Reach Start step silentAfterEnd h ∧
    h.lastWindow = some 10 ∧ ∃ s', h.run.sender.fillWindow = .ok s' ∧ s'.fillWindow = .ok s' ∧
      s'.stream.bufferSize = 0 := by
  obtain ⟨h, hr, htest⟩ : ∃ h, Reach Start step silentAfterEnd h ∧ (decide (h.lastWindow = some 10)
      && returns h.run.sender.fillWindow (fun s' => s'.isSynReceived
        && decide (s'.bytesInFlight < 10))) = true :=
    Reach.exec_any _ (s := { run := { sender := TCPSender.new 8 1000 (some ⟨7⟩) ⟨0⟩ } })
      (l := [.fillWindow, .ackReceived ⟨8⟩ 10, .write [1, 2, 3], .endInput])
      (.start ⟨_, ⟨8, 1000, some ⟨7⟩, ⟨0⟩, rfl⟩, rfl⟩) (by decide +kernel)
  rw [Bool.and_eq_true, decide_eq_true_eq] at htest
  obtain ⟨hwindow, hreturns⟩ := htest
  obtain ⟨s, hs, htest⟩ := returns_iff.mp hreturns
  rw [Bool.and_eq_true, decide_eq_true_eq] at htest
  obtain ⟨s', hs', hagain, hfills⟩ := fillWindow_fills hr
  obtain rfl : s' = s := Except.ok.inj (hs'.symm.trans hs)
  refine ⟨h, hr, hwindow, s', hs', hagain, ?_⟩
  rcases hfills htest.1 with hfull | ⟨hempty, -⟩
  · rw [hwindow] at hfull
    have hten : effectiveWindow (some 10) = 10 := by decide
    omega
  · exact hempty

end AdvertisedRun

end Sponge
