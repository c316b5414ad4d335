/-
# `Sponge.SenderTimer` — the per-segment timers implement one retransmission timer.

The source keeps a timeout and a start time with EVERY queued segment and only ever looks at the front one:
`tick` compares the front's deadline with the time, an expiry restarts the front's clock, and an acknowledgment
that removes segments restarts the clock of the new front.  A segment that is not at the front carries the
clock it was created with, which nobody reads before it is overwritten.

`Implements` is the simulation relation with the single timer of `Sponge.Lib.Retransmitter`: the front's clock
is the timer.  Every call keeps it (`Implements.step`), so a `tick` resends exactly what the single timer says.
-/
import Sponge.SenderQueue
import Sponge.Lib.Retransmitter

namespace Sponge

open Sponge.Lib

namespace TCPSender

/-- The two senders agree on the time and on the initial timeout. -/
structure SameClock (s s' : TCPSender) : Prop where
  time : s'.lastTickTime = s.lastTickTime
  initial : s'.initialRetransmissionTimeout = s.initialRetransmissionTimeout

/-- The front segment starts its clock anew. -/
def restartFront (timeout time : Nat) (queue : List TCPSenderSegment) : List TCPSenderSegment :=
  queue.modifyHead fun front => { front with rto := timeout, time := time }

/-- **An accepted acknowledgment**, on the queue with its clocks: a front part goes, and if anything went the
new front starts anew. -/
theorem ackReceived_segQueue {s : TCPSender} {ackno : WrappingInt32} (windowSize : UInt16)
    (hle : unwrap ackno s.isn s.nextSeqno ≤ s.nextSeqno) :
    SameClock s (s.ackReceived ackno windowSize) ∧
    (s.ackReceived ackno windowSize).isWindowZero = (windowSize == 0) ∧
    ∃ j ≤ s.segQueue.length, (s.ackReceived ackno windowSize).segQueue =
      if 0 < j then restartFront s.initialRetransmissionTimeout s.lastTickTime (s.segQueue.drop j)
      else s.segQueue := by
  obtain ⟨j, hpop, htrim, hflag, -, -⟩ := popAcked_spec (unwrap ackno s.isn s.nextSeqno) (s := { s with
    windowSize := if windowSize = 0 then 1 else windowSize.toNat
    isWindowZero := windowSize == 0 }) rfl false
  have hj : j ≤ s.segQueue.length := by
    have hle := hpop.le
    rwa [queued, List.length_map] at hle
  rw [ackReceived, if_neg (Nat.not_lt.mpr hle)]
  dsimp only
  generalize popAcked (unwrap ackno s.isn s.nextSeqno) s.segQueue { s with
    windowSize := if windowSize = 0 then 1 else windowSize.toNat
    isWindowZero := windowSize == 0 } false = res at htrim hflag
  have hqueue : res.1.segQueue = s.segQueue.drop j := htrim.segQueue
  have hzero := htrim.isWindowZero
  have htime := htrim.time
  have hinitial := htrim.initial
  rw [Bool.false_or] at hflag
  have hsame : ¬ 0 < j → res.1.segQueue = s.segQueue := fun hnone => by
    rw [hqueue, Nat.eq_zero_of_not_pos hnone]
    rfl
  cases hq : res.1.segQueue with
  | nil =>
    refine ⟨⟨htime, hinitial⟩, hzero, j, hj, ?_⟩
    dsimp only
    by_cases hpos : 0 < j
    · rw [if_pos hpos, ← hqueue, hq]
      rfl
    · rw [if_neg hpos, ← hsame hpos, hq]
  | cons front rest =>
    dsimp only
    by_cases hpos : 0 < j
    · rw [if_pos (hflag.trans (decide_eq_true hpos))]
      refine ⟨⟨htime, hinitial⟩, hzero, j, hj, ?_⟩
      rw [if_pos hpos, ← hqueue, hq, htime, hinitial]
      rfl
    · rw [if_neg (by rw [hflag, decide_eq_false hpos]; decide)]
      refine ⟨⟨htime, hinitial⟩, hzero, j, hj, ?_⟩
      rw [if_neg hpos, hsame hpos]

end TCPSender

/-! ## The simulation -/

open TCPSender (Filled)

/-- The sender implements the single timer: the same items are outstanding, at the same time, and the clock
of the front segment is the timer. -/
structure TCPSender.Implements (s : TCPSender) (m : Retransmitter TCPSegment) : Prop where
  initial : m.initial = s.initialRetransmissionTimeout
  outstanding : m.outstanding = s.queued
  now : m.now = s.lastTickTime
  backoff : m.backoff = !s.isWindowZero
  front : ∀ front rest, s.segQueue = front :: rest → front.time = m.started ∧ front.rto = m.timeout

namespace TCPSender.Implements

variable {s s' : TCPSender} {m : Retransmitter TCPSegment}

theorem new (capacity : Nat) (retxTimeout : UInt16) (fixedIsn : Option WrappingInt32)
    (random : WrappingInt32) :
    (TCPSender.new capacity retxTimeout fixedIsn random).Implements (.new retxTimeout.toNat) :=
  ⟨rfl, rfl, rfl, rfl, by simp [TCPSender.new]⟩

/-- A call that touches neither the queue nor the clocks. -/
theorem same (h : s.Implements m) (hinitial : s'.initialRetransmissionTimeout = s.initialRetransmissionTimeout)
    (htime : s'.lastTickTime = s.lastTickTime) (hzero : s'.isWindowZero = s.isWindowZero)
    (hqueue : s'.segQueue = s.segQueue) : s'.Implements m :=
  ⟨h.initial.trans hinitial.symm, by rw [h.outstanding, queued, queued, hqueue], h.now.trans htime.symm,
    by rw [h.backoff, hzero], by rw [hqueue]; exact h.front⟩

/-- New segments join the queue with the initial timeout and the present time; the first of an empty queue is
the front. -/
theorem filled {segs : List TCPSegment} (h : s.Implements m) (hf : Filled s segs s') :
    s'.Implements (m.send segs) := by
  have hinitial : s'.initialRetransmissionTimeout = s.initialRetransmissionTimeout := by rw [hf.result]; rfl
  have htime : s'.lastTickTime = s.lastTickTime := by rw [hf.result]; rfl
  have hzero : s'.isWindowZero = s.isWindowZero := by rw [hf.result]; rfl
  have hqueued : s'.queued = s.queued ++ segs := by
    rw [hf.result, enqueue_queued]
    rfl
  have hqueue : s'.segQueue = s.segQueue ++ segs.map fun seg =>
      { seg := seg, rto := s.initialRetransmissionTimeout, time := s.lastTickTime } := by
    rw [hf.result]
    rfl
  cases hq : s.segQueue with
  | nil =>
    have hnone : m.outstanding = [] := by rw [h.outstanding, queued, hq, List.map_nil]
    have hnil : s.queued = [] := by rw [queued, hq, List.map_nil]
    rw [Retransmitter.send_first hnone hf.batch.ne_nil]
    refine ⟨h.initial.trans hinitial.symm, ?_, h.now.trans htime.symm, by rw [hzero]; exact h.backoff, ?_⟩
    · rw [hqueued, hnil, List.nil_append]
    · intro front rest hcons
      obtain ⟨seg, segs', rfl⟩ := List.exists_cons_of_ne_nil hf.batch.ne_nil
      rw [hqueue, hq, List.nil_append, List.map_cons] at hcons
      rw [← (List.cons.inj hcons).1]
      exact ⟨h.now.symm, h.initial.symm⟩
  | cons front rest =>
    have hsome : m.outstanding ≠ [] := by
      rw [h.outstanding, queued, hq]
      simp
    rw [Retransmitter.send_more hsome]
    refine ⟨h.initial.trans hinitial.symm, ?_, h.now.trans htime.symm, by rw [hzero]; exact h.backoff, ?_⟩
    · rw [hqueued, ← h.outstanding]
    · intro front' rest' hcons
      rw [hqueue, hq, List.cons_append] at hcons
      rw [← (List.cons.inj hcons).1]
      exact h.front front rest hq

/-- An acknowledgment that is accepted. -/
theorem ackReceived {ackno : WrappingInt32} (windowSize : UInt16) (h : s.Implements m)
    (hle : unwrap ackno s.isn s.nextSeqno ≤ s.nextSeqno) :
    (s.ackReceived ackno windowSize).Implements ((m.advertise (windowSize == 0)).acknowledge
      (s.queued.length - (s.ackReceived ackno windowSize).queued.length)) := by
  obtain ⟨hclock, hzero, j, hj, hqueue⟩ := ackReceived_segQueue windowSize hle
  generalize s.ackReceived ackno windowSize = s' at hclock hzero hqueue ⊢
  have hqueued : s'.queued = s.queued.drop j := by
    rw [queued, queued, ← List.map_drop, hqueue]
    split
    · rw [restartFront]
      cases s.segQueue.drop j <;> rfl
    · rename_i hnone
      rw [Nat.eq_zero_of_not_pos hnone, List.drop_zero]
  have hremoved : s.queued.length - s'.queued.length = j := by
    rw [hqueued, List.length_drop, queued, List.length_map]
    omega
  have hout : (m.advertise (windowSize == 0)).outstanding.drop j = s'.queued := by
    rw [hqueued, ← h.outstanding]
    rfl
  have hbackoff : (!(windowSize == 0)) = !s'.isWindowZero := by rw [hzero]
  have hinitial : m.initial = s'.initialRetransmissionTimeout := h.initial.trans hclock.initial.symm
  have hnow : m.now = s'.lastTickTime := h.now.trans hclock.time.symm
  rw [hremoved]
  rcases Nat.eq_zero_or_pos j with rfl | hpos
  · -- nothing went, and no clock is touched
    rw [Retransmitter.acknowledge_zero]
    refine ⟨hinitial, hout, hnow, hbackoff, fun front rest hcons => ?_⟩
    rw [hqueue, if_neg (Nat.lt_irrefl 0)] at hcons
    exact h.front front rest hcons
  · rw [if_pos hpos] at hqueue
    by_cases hleft : s'.queued = []
    · rw [Retransmitter.acknowledge_all (hout.trans hleft)]
      refine ⟨hinitial, hleft.symm, hnow, hbackoff, fun front rest hcons => ?_⟩
      rw [queued, hcons] at hleft
      exact absurd hleft (by simp)
    · rw [Retransmitter.acknowledge_some hpos (by rw [hout]; exact hleft)]
      refine ⟨hinitial, hout, hnow, hbackoff, fun front rest hcons => ?_⟩
      rw [hqueue, restartFront] at hcons
      cases hdrop : s.segQueue.drop j with
      | nil =>
        rw [hdrop] at hcons
        exact absurd hcons (by simp)
      | cons first others =>
        rw [hdrop, List.modifyHead_cons] at hcons
        rw [← (List.cons.inj hcons).1]
        exact ⟨h.now.symm, h.initial.symm⟩

/-- **`tick`** does to the front's clock what the single timer does, and resends the same. -/
theorem tick (h : s.Implements m) (ms : Nat) :
    (s.tick ms).Implements (m.tick ms) ∧ (s.tick ms).segmentsOut = s.segmentsOut ++ m.resent ms := by
  rw [TCPSender.tick]
  cases hq : s.segQueue with
  | nil =>
    have hnone : m.outstanding = [] := by rw [h.outstanding, queued, hq, List.map_nil]
    have hdue := Retransmitter.due_nil hnone ms
    rw [Retransmitter.tick_of_not_due hdue, Retransmitter.resent_of_not_due hdue]
    exact ⟨⟨h.initial, hnone, congrArg (· + ms) h.now, h.backoff, by simp⟩, (List.append_nil _).symm⟩
  | cons front rest =>
    obtain ⟨htime, hrto⟩ := h.front front rest hq
    have hcons : m.outstanding = front.seg :: rest.map TCPSenderSegment.seg := by
      rw [h.outstanding, queued, hq, List.map_cons]
    have hdue := Retransmitter.due_cons hcons ms
    rw [← htime, ← hrto, h.now] at hdue
    dsimp only
    by_cases hout : front.time + front.rto ≤ s.lastTickTime + ms
    · rw [decide_eq_true hout] at hdue
      rw [if_pos hout, Retransmitter.tick_of_due hdue, Retransmitter.resent_of_due hdue hcons]
      refine ⟨⟨h.initial, hcons, congrArg (· + ms) h.now, h.backoff, ?_⟩, rfl⟩
      intro front' rest' hfront
      rw [← (List.cons.inj hfront).1]
      -- the timeout is doubled unless the last accepted window was zero
      refine ⟨congrArg (· + ms) h.now.symm, ?_⟩
      rw [h.backoff, ← hrto]
    · rw [decide_eq_false hout] at hdue
      rw [if_neg hout, Retransmitter.tick_of_not_due hdue, Retransmitter.resent_of_not_due hdue]
      exact ⟨⟨h.initial, hcons, congrArg (· + ms) h.now, h.backoff, fun _ _ hfront =>
        h.front _ _ (hq.trans hfront)⟩, (List.append_nil _).symm⟩

end TCPSender.Implements

/-! ## Runs -/

/-- A run of the sender, with the single timer beside it. -/
structure TimedRun where
  run : SenderRun
  timer : Retransmitter TCPSegment

namespace TimedRun

open SenderRun (Kept newSegments departed)

/-- What a call tells the single timer: which segments were created; how many an accepted acknowledgment
removed, and whether it advertised no window; how much time has passed. -/
def record (h : TimedRun) (s' : TCPSender) : SenderCall → Retransmitter TCPSegment
  | .fillWindow => h.timer.send (newSegments h.run.sender s')
  | .ackReceived ackno windowSize =>
    if unwrap ackno h.run.sender.isn h.run.sender.nextSeqno ≤ h.run.sender.nextSeqno then
      (h.timer.advertise (windowSize == 0)).acknowledge (h.run.sender.queued.length - s'.queued.length)
    else h.timer
  | .tick msSinceLastTick => h.timer.tick msSinceLastTick
  | .write _ | .endInput | .sendEmptySegment | .pop => h.timer

def step (h : TimedRun) (call : SenderCall) : Except Exception TimedRun :=
  (h.run.step call).map fun run => { run := run, timer := h.record run.sender call }

/-- A run starts with a new sender, and with a timer whose initial timeout is the one of the sender. -/
def Start (h : TimedRun) : Prop :=
  ∃ (capacity : Nat) (retxTimeout : UInt16) (fixedIsn : Option WrappingInt32) (random : WrappingInt32),
    h = { run := { sender := TCPSender.new capacity retxTimeout fixedIsn random }
          timer := .new retxTimeout.toNat }

/-- The invariant of a run. -/
structure Inv (h : TimedRun) : Prop where
  kept : Kept h.run.sender h.run.created
  implements : h.run.sender.Implements h.timer

theorem Start.inv {h : TimedRun} (hstart : Start h) : Inv h := by
  obtain ⟨capacity, retxTimeout, fixedIsn, random, rfl⟩ := hstart
  exact ⟨Kept.new capacity retxTimeout fixedIsn random,
    TCPSender.Implements.new capacity retxTimeout fixedIsn random⟩

/-- **One call** keeps the front's clock in step with the single timer. -/
theorem Inv.step {h h' : TimedRun} {call : SenderCall} (hi : Inv h) (hs : h.step call = .ok h') : Inv h' := by
  obtain ⟨run, hrun, rfl⟩ := map_ok.mp hs
  refine ⟨hi.kept.step hrun, ?_⟩
  have himp := hi.implements
  cases call with
  | fillWindow =>
    obtain ⟨s', hs', rfl⟩ := map_ok.mp hrun
    show s'.Implements (h.timer.send (newSegments h.run.sender s'))
    rcases hi.kept.fillWindow_ok hs' with ⟨hnil, rfl | ⟨-, rfl⟩⟩ | hf
    · rw [hnil, Retransmitter.send_nil]
      exact himp
    · rw [hnil, Retransmitter.send_nil]
      exact himp.same rfl rfl rfl rfl
    · exact himp.filled hf
  | ackReceived ackno windowSize =>
    obtain rfl := Except.ok.inj hrun
    dsimp only [record]
    split
    · rename_i hle
      exact himp.ackReceived windowSize hle
    · rename_i hgt
      rcases h.run.sender.ackReceived_cases ackno windowSize with ⟨-, heq⟩ | ⟨hle, -⟩
      · rw [heq]
        exact himp
      · exact absurd hle hgt
  | tick ms =>
    obtain rfl := Except.ok.inj hrun
    exact (himp.tick ms).1
  | write _ | endInput | sendEmptySegment | pop =>
    obtain rfl := Except.ok.inj hrun
    exact himp.same rfl rfl rfl rfl

/-- **One retransmission timer.**  In every state of every run, and for every time that passes: `tick` resends
something iff segments are outstanding and at least the current timeout of the single timer has passed since
its start.  What is resent is then one segment, the oldest created one that is still outstanding, as it was
created; and otherwise nothing. -/
theorem single_timer {h : TimedRun} (hr : Reach Start step (fun _ _ => True) h) (ms : Nat) :
    ((h.run.sender.tick ms).segmentsOut ≠ h.run.sender.segmentsOut ↔
      h.run.sender.queued ≠ [] ∧ h.timer.timeout ≤ h.timer.now + ms - h.timer.started) ∧
    ((h.run.sender.tick ms).segmentsOut ≠ h.run.sender.segmentsOut →
      ∃ k seg, h.run.created[k]? = some seg ∧ h.run.sender.queued = h.run.created.drop k ∧
        (h.run.sender.tick ms).segmentsOut = h.run.sender.segmentsOut ++ [seg]) := by
  have hi : Inv h := Reach.invariant (fun _ hstart => hstart.inv) (fun _ _ _ hi _ hs => hi.step hs) hr
  have hout := (hi.implements.tick ms).2
  have houtstanding := hi.implements.outstanding
  have hdue : h.timer.due ms = true ↔
      h.run.sender.queued ≠ [] ∧ h.timer.timeout ≤ h.timer.now + ms - h.timer.started := by
    rw [Retransmitter.due, houtstanding]
    simp
  rw [hout, ← hdue]
  cases hd : h.timer.due ms with
  | false => simp [Retransmitter.resent, hd]
  | true =>
    obtain ⟨seg, rest, hq⟩ := List.exists_cons_of_ne_nil (hdue.mp hd).1
    have hresent : h.timer.resent ms = [seg] := by
      rw [Retransmitter.resent, hd, houtstanding, hq]
      rfl
    rw [hresent]
    refine ⟨by simp, fun _ => ⟨departed h.run.sender h.run.created, seg, ?_, hi.kept.queued_eq, rfl⟩⟩
    have hfirst := hi.kept.queued_getElem? 0
    rw [Nat.add_zero, hq] at hfirst
    exact hfirst.symm

/-- Two segments in flight, the first one acknowledged after half a second: the second one is resent a full
second after that, not after its own creation. -/
theorem single_timer_second : ∃ h : TimedRun, Reach Start step (fun _ _ => True) h ∧
    h.timer.now = 500 ∧ (h.run.sender.tick 999).segmentsOut = h.run.sender.segmentsOut ∧
    ∃ seg, (h.run.sender.tick 1000).segmentsOut = h.run.sender.segmentsOut ++ [seg] := by
  obtain ⟨h, hr, htest⟩ : ∃ h, Reach Start step (fun _ _ => True) h ∧ (decide (h.timer.now = 500)
      && decide (h.timer.started = 500) && decide (h.timer.timeout = 1000)
      && decide (h.run.sender.queued ≠ [])) = true :=
    Reach.exec_any _ (s := { run := { sender := TCPSender.new 8 1000 (some ⟨7⟩) ⟨0⟩ }
                             timer := .new 1000 })
      (l := [.fillWindow, .ackReceived ⟨8⟩ 10, .write [1], .fillWindow, .write [2], .fillWindow, .tick 500,
        .ackReceived ⟨9⟩ 10])
      (.start ⟨8, 1000, some ⟨7⟩, ⟨0⟩, rfl⟩) (by decide +kernel)
  simp only [Bool.and_eq_true, decide_eq_true_eq] at htest
  obtain ⟨⟨⟨hnow, hstarted⟩, htimeout⟩, hsome⟩ := htest
  refine ⟨h, hr, hnow, ?_, ?_⟩
  · by_contra hne
    have hdue := ((single_timer hr 999).1.mp hne).2
    omega
  · obtain ⟨_, seg, -, -, hout⟩ := (single_timer hr 1000).2
      ((single_timer hr 1000).1.mpr ⟨hsome, by omega⟩)
    exact ⟨seg, hout⟩

end TimedRun

end Sponge
