/-
# `Sponge.ZeroWindow` — what counts towards giving up.

`tick` resets the connection when `consecutive_retransmissions()` has reached `MAX_RETX_ATTEMPTS`.  A peer
that is alive but has no room answers every probe with a window of zero, so these timeouts should not count;
and an acknowledgment of new data should start the count again.  A run records, beside the connection, the
window of the last acknowledgment that the sender accepted (one before the first), the highest position
acknowledged so far, and the timeouts that count: those since it last rose, with the window not zero.

The code's counter knows neither.  The flag `_is_window_zero` only stops the doubling of the timeout, so eight
probes end the connection (`probing_kills`); and the counter restarts when a whole SEGMENT is acknowledged, not
when a part of it is.  In runs without timeouts while the window is zero, and without acknowledgments of a
part of the oldest segment after a timeout, the counter counts what it should.
-/
import Sponge.ConnectionSilence

namespace Sponge

open Sponge.Lib
open TCPConfig (MAX_RETX_ATTEMPTS)

/-! ## The counter of the sender -/

namespace TCPSender

/-- The oldest segment in flight ends at or before a position. -/
def covered (s : TCPSender) (position : Nat) : Bool :=
  s.queued.head?.any fun front => decide (s.endOf front ≤ position)

/-- What is popped is a front part, so something is popped exactly if the oldest segment is covered. -/
theorem covered_iff_popped {s : TCPSender} {position j : Nat} (hj : j ≤ s.queued.length)
    (hcovered : ∀ seg ∈ s.queued.take j, s.endOf seg ≤ position)
    (hbeyond : ∀ seg, s.queued[j]? = some seg → position < s.endOf seg) :
    s.covered position = true ↔ 0 < j := by
  cases hq : s.queued with
  | nil =>
    rw [hq, List.length_nil] at hj
    rw [covered, hq]
    exact ⟨fun h => absurd h (by simp), fun h => absurd h (Nat.not_lt.mpr hj)⟩
  | cons front rest =>
    rw [hq] at hcovered hbeyond
    rw [covered, hq, List.head?_cons, Option.any_some, decide_eq_true_eq]
    cases j with
    | zero => exact ⟨fun hle => absurd (hbeyond front rfl) (Nat.not_lt.mpr hle), fun h => absurd h (by simp)⟩
    | succ j => exact ⟨fun _ => Nat.succ_pos j, fun _ => hcovered front (by simp)⟩

/-- **`ack_received`** sets the window flag and restarts the count when the oldest segment is covered. -/
theorem ackReceived_accepted {s : TCPSender} {ackno : WrappingInt32} (windowSize : UInt16) {position : Nat}
    (hpos : unwrap ackno s.isn s.nextSeqno = position) (hle : position ≤ s.nextSeqno) :
    (s.ackReceived ackno windowSize).isWindowZero = (windowSize == 0) ∧
    (s.ackReceived ackno windowSize).consecutiveRetrans
      = if s.covered position then 0 else s.consecutiveRetrans := by
  obtain ⟨j, hpop, htrim, -, hcovered, hbeyond⟩ := popAcked_spec position (s := { s with
    windowSize := if windowSize = 0 then 1 else windowSize.toNat
    isWindowZero := windowSize == 0 }) rfl false
  have hany : s.covered position = true ↔ 0 < j := covered_iff_popped hpop.le hcovered hbeyond
  have hzero := htrim.isWindowZero
  have hcount := htrim.count
  rw [← if_congr hany rfl rfl] at hcount
  rw [ackReceived, hpos, if_neg (Nat.not_lt.mpr hle)]
  dsimp only
  generalize popAcked position s.segQueue { s with
    windowSize := if windowSize = 0 then 1 else windowSize.toNat
    isWindowZero := windowSize == 0 } false = res at hzero hcount ⊢
  -- restarting the timer of the new front touches neither
  cases res.1.segQueue with
  | nil => exact ⟨hzero, hcount⟩
  | cons front rest =>
    dsimp only
    split
    · exact ⟨hzero, hcount⟩
    · exact ⟨hzero, hcount⟩

end TCPSender

/-! ## Runs -/

/-- The position that a segment acknowledges, if the connection passes the acknowledgment to its sender and
the sender accepts it. -/
def TCPConnection.acknowledges (c : TCPConnection) (seg : TCPSegment) : Option Nat :=
  if seg.header.rst = false ∧ c.active = true ∧ c.ignored seg = false ∧ seg.header.ack = true ∧
      unwrap seg.header.ackno c.sender.isn c.sender.nextSeqno ≤ c.sender.nextSeqno
  then some (unwrap seg.header.ackno c.sender.isn c.sender.nextSeqno) else none

structure ProbeRun where
  conn : TCPConnection
  window : Nat := 1
  acked : Nat := 0
  timeouts : Nat := 0

namespace ProbeRun

open TCPConnection (Call Tracked)

/-- A retransmission timeout in this call of `tick`. -/
def timeout (w : ProbeRun) (ms : Nat) : Bool :=
  decide (w.conn.sender.consecutiveRetransmissions < MAX_RETX_ATTEMPTS) && w.conn.sender.timedOut ms

/-- The record of a call that returned. -/
def record (w : ProbeRun) : Call → ProbeRun
  | .tick ms => if w.timeout ms && decide (w.window ≠ 0) then { w with timeouts := w.timeouts + 1 } else w
  | .segmentReceived seg =>
    match w.conn.acknowledges seg with
    | some position =>
      { w with
        window := seg.header.win.toNat
        acked := max w.acked position
        timeouts := if w.acked < position then 0 else w.timeouts }
    | none => w
  | _ => w

def step (w : ProbeRun) (call : Call) : Except Exception ProbeRun :=
  (w.conn.step call).map fun conn => { w.record call with conn := conn }

def Start (w : ProbeRun) : Prop := ∃ cfg random, w = { conn := TCPConnection.new cfg random }

/-- No timeout while the window is zero, and no acknowledgment of only a part of the oldest segment while there
is a count to restart. -/
def steady (w : ProbeRun) : Call → Prop
  | .tick ms => w.timeout ms = true → w.window ≠ 0
  | .segmentReceived seg =>
    w.conn.sender.consecutiveRetransmissions ≠ 0 → ∀ position ∈ w.conn.acknowledges seg, w.acked < position →
      ∀ front ∈ w.conn.sender.queued.head?, w.conn.sender.endOf front ≤ position
  | _ => True

instance (w : ProbeRun) : DecidablePred (steady w)
  | .tick _ => inferInstanceAs (Decidable (_ = true → _ ≠ _))
  | .segmentReceived seg => inferInstanceAs (Decidable (_ ≠ 0 → ∀ position ∈ w.conn.acknowledges seg,
      w.acked < position → ∀ front ∈ w.conn.sender.queued.head?, w.conn.sender.endOf front ≤ position))
  | .connect | .write _ | .endInputStream | .readInbound _ | .pop => isTrue trivial

/-! ## What a run keeps -/

/-- The sender counts no more than what counts, nothing while nothing is in flight, and has no RST queued. -/
structure Probing (window timeouts : Nat) (s : TCPSender) : Prop where
  zero : s.isWindowZero = decide (window = 0)
  count : s.consecutiveRetrans ≤ timeouts
  rest : s.queued = [] → s.consecutiveRetrans = 0
  plain : ∀ seg ∈ s.queued, seg.header.rst = false

variable {window timeouts : Nat} {s s' : TCPSender}

theorem Probing.new (capacity : Nat) (retxTimeout : UInt16) (fixedIsn : Option WrappingInt32)
    (random : WrappingInt32) : Probing 1 0 (TCPSender.new capacity retxTimeout fixedIsn random) :=
  ⟨rfl, Nat.le_refl 0, fun _ => rfl, fun _ h => absurd h (by simp [TCPSender.new, TCPSender.queued])⟩

theorem Probing.fillWindow (h : Probing window timeouts s) (ht : Tracked s) (hs : s.fillWindow = .ok s') :
    Probing window timeouts s' := by
  obtain ⟨created, hk⟩ := ht
  rcases hk.fillWindow_ok hs with ⟨-, rfl | ⟨-, rfl⟩⟩ | hf
  · exact h
  · exact ⟨h.zero, h.count, h.rest, h.plain⟩
  · -- a batch of stamped pieces joins the queue
    generalize SenderRun.newSegments s s' = segs at hf
    have hqueue : s'.queued = s.queued ++ segs := by
      rw [hf.result, TCPSender.enqueue_queued]
      rfl
    have hcount : s'.consecutiveRetrans = s.consecutiveRetrans := by rw [hf.result]; rfl
    refine ⟨?_, hcount ▸ h.count, fun hnil => ?_, ?_⟩
    · rw [hf.result]
      exact h.zero
    · rw [hqueue, List.append_eq_nil_iff] at hnil
      rw [hcount]
      exact h.rest hnil.1
    · rw [hqueue]
      refine List.forall_mem_append.mpr ⟨h.plain, fun seg hseg => ?_⟩
      obtain ⟨k, fin, payload, rfl, -⟩ := hf.batch.stamped seg hseg
      rfl

theorem Probing.tick (h : Probing window timeouts s) (ms : Nat) (hwindow : s.timedOut ms = true → window ≠ 0) :
    Probing window (if s.timedOut ms && decide (window ≠ 0) then timeouts + 1 else timeouts) (s.tick ms) := by
  obtain ⟨hcount, hzero, -⟩ := s.tick_timedOut ms
  have hticked := s.tick_ticked ms
  refine ⟨hzero.trans h.zero, ?_, fun hnil => ?_, fun seg hseg => h.plain seg (hticked.queue ▸ hseg)⟩
  · rw [hcount]
    have hle := h.count
    cases hout : s.timedOut ms with
    | true =>
      rw [if_pos rfl, decide_eq_true (hwindow hout)]
      exact Nat.succ_le_succ hle
    | false => exact hle
  · rw [hticked.queue] at hnil
    have hout : s.timedOut ms = false := by
      rw [TCPSender.timedOut, List.map_eq_nil_iff.mp hnil]
      rfl
    rw [hcount, hout]
    exact h.rest hnil

/-- What is not covered although the acknowledgment reaches the end of the oldest segment is nothing. -/
theorem queued_nil_of_not_covered {position : Nat} (hcov : s.covered position = false)
    (hreach : ∀ front ∈ s.queued.head?, s.endOf front ≤ position) : s.queued = [] := by
  cases hq : s.queued with
  | nil => rfl
  | cons front rest =>
    rw [TCPSender.covered, hq, List.head?_cons, Option.any_some] at hcov
    exact absurd (hreach front (by rw [hq]; rfl)) (of_decide_eq_false hcov)

theorem Probing.ackReceived (h : Probing window timeouts s) {ackno : WrappingInt32} (win : UInt16)
    {acked position : Nat} (hpos : unwrap ackno s.isn s.nextSeqno = position) (hle : position ≤ s.nextSeqno)
    (hok : s.consecutiveRetransmissions ≠ 0 → acked < position →
      ∀ front ∈ s.queued.head?, s.endOf front ≤ position) :
    Probing win.toNat (if acked < position then 0 else timeouts) (s.ackReceived ackno win) := by
  obtain ⟨hzero, hcount⟩ := TCPSender.ackReceived_accepted win hpos hle
  rcases s.ackReceived_cases ackno win with ⟨hlt, -⟩ | ⟨-, j, hpop, -, hcovered, -⟩
  · rw [hpos] at hlt
    exact absurd hlt (Nat.not_lt.mpr hle)
  · rw [hpos] at hcovered
    generalize s.ackReceived ackno win = t at hzero hcount hpop
    refine ⟨?_, ?_, fun hnil => ?_, fun seg hseg => ?_⟩
    · rw [hzero, Bool.eq_iff_iff, beq_iff_eq, decide_eq_true_eq]
      exact UInt16.toNat_inj.symm
    · rw [hcount]
      cases hcov : s.covered position with
      | true => exact Nat.zero_le _
      | false =>
        rw [if_neg Bool.false_ne_true]
        split
        · -- new data: there was no count to restart, or nothing was in flight before it
          rename_i hnew
          refine Nat.le_of_eq (Classical.byContradiction fun hne => hne ?_)
          exact h.rest (queued_nil_of_not_covered hcov (hok hne hnew))
        · exact h.count
    · rw [hcount]
      cases hcov : s.covered position with
      | true => rfl
      | false =>
        rw [if_neg Bool.false_ne_true]
        -- all has been popped, and what is popped is covered, so there was nothing
        rw [hpop.queue, List.drop_eq_nil_iff] at hnil
        rw [List.take_of_length_le hnil] at hcovered
        exact h.rest (queued_nil_of_not_covered hcov fun front hfront =>
          hcovered front (List.mem_of_mem_head? hfront))
    · rw [hpop.queue] at hseg
      exact h.plain seg (List.mem_of_mem_drop hseg)

/-- The sender of a run is in order, has passed on its segments, and counts right. -/
structure Inv (w : ProbeRun) : Prop where
  tracked : Tracked w.conn.sender
  drained : w.conn.sender.segmentsOut = []
  probing : Probing w.window w.timeouts w.conn.sender

variable {w w' : ProbeRun} {call : Call}

theorem Inv.start (hs : Start w) : Inv w := by
  obtain ⟨cfg, random, rfl⟩ := hs
  exact ⟨Tracked.new cfg random, rfl, Probing.new _ _ _ _⟩

/-- The record of an acknowledgment, in terms of what the sender is told. -/
theorem Probing.acked (h : Probing w.window w.timeouts w.conn.sender) {seg : TCPSegment}
    (hok : w.steady (.segmentReceived seg)) (hrst : seg.header.rst = false) (hactive : w.conn.active = true)
    (hignored : w.conn.ignored seg = false) :
    Probing (w.record (.segmentReceived seg)).window (w.record (.segmentReceived seg)).timeouts
      (w.conn.acked seg) := by
  by_cases hack : seg.header.ack = true
  · generalize hpos : unwrap seg.header.ackno w.conn.sender.isn w.conn.sender.nextSeqno = position
    by_cases hle : position ≤ w.conn.sender.nextSeqno
    · have hsome : w.conn.acknowledges seg = some position := by
        rw [TCPConnection.acknowledges, hpos, if_pos ⟨hrst, hactive, hignored, hack, hle⟩]
      rw [record, hsome, TCPConnection.acked, if_pos hack]
      exact h.ackReceived _ hpos hle fun hne => hok hne position hsome
    · have hnone : w.conn.acknowledges seg = none := by
        rw [TCPConnection.acknowledges, hpos, if_neg fun hall => hle hall.2.2.2.2]
      rw [record, hnone, TCPConnection.acked, if_pos hack]
      rcases w.conn.sender.ackReceived_cases seg.header.ackno seg.header.win with ⟨-, heq⟩ | ⟨hle', -⟩
      · rw [heq]
        exact h
      · rw [hpos] at hle'
        exact absurd hle' hle
  · have hnone : w.conn.acknowledges seg = none := by
      rw [TCPConnection.acknowledges, if_neg fun hall => hack hall.2.2.2.1]
    rw [record, hnone, TCPConnection.acked, if_neg hack]
    exact h

/-- Only the queue, the counter and the window flag matter. -/
theorem Probing.same (h : Probing window timeouts s) (hzero : s'.isWindowZero = s.isWindowZero)
    (hcount : s'.consecutiveRetrans = s.consecutiveRetrans) (hqueue : s'.queued = s.queued) :
    Probing window timeouts s' :=
  ⟨hzero.trans h.zero, hcount ▸ h.count, fun hnil => hcount.trans (h.rest (hqueue ▸ hnil)),
    fun seg hseg => h.plain seg (hqueue ▸ hseg)⟩

theorem Probing.answers {seg : TCPSegment} (h : Probing window timeouts s) (ht : Tracked s)
    (ha : TCPConnection.Answers s seg s') : Probing window timeouts s' :=
  ha.keeps h (fun _ hfill => h.fillWindow ht hfill) fun _ hprobing => hprobing.same rfl rfl rfl

theorem Probing.segmentReceived (h : Inv w) {seg : TCPSegment} (hok : w.steady (.segmentReceived seg))
    {c : TCPConnection} (hs : w.conn.segmentReceived seg = .ok c) :
    Probing (w.record (.segmentReceived seg)).window (w.record (.segmentReceived seg)).timeouts c.sender := by
  rcases w.conn.segmentReceived_cases seg with ⟨hrst, heq⟩ | ⟨hrst, hignored, heq⟩ |
    ⟨hrst, hactive, hignored, heq⟩
  · have hnone : w.conn.acknowledges seg = none := by
      rw [TCPConnection.acknowledges, if_neg fun hall => by
        rw [hrst] at hall
        exact absurd hall.1 (by decide)]
    obtain rfl := Except.ok.inj (heq.symm.trans hs)
    rw [record, hnone]
    exact h.probing.same rfl rfl rfl
  · have hnone : w.conn.acknowledges seg = none := by
      rw [TCPConnection.acknowledges, if_neg fun hall => by
        rcases hignored with hoff | hon
        · rw [hoff] at hall
          exact absurd hall.2.1 (by decide)
        · rw [hon] at hall
          exact absurd hall.2.2.1 (by decide)]
    obtain rfl := Except.ok.inj (heq.symm.trans hs)
    rw [record, hnone]
    exact h.probing
  · obtain ⟨r, -, hans⟩ := bind_ok.mp (heq.symm.trans hs)
    obtain ⟨s', ha, rfl⟩ := TCPConnection.answer_ok hans
    have hacked := h.probing.acked hok hrst hactive hignored
    exact (hacked.answers (h.tracked.acked seg) ha).same rfl rfl rfl

theorem Probing.ticked (h : Inv w) {ms : Nat} (hok : w.steady (.tick ms)) :
    Probing (w.record (.tick ms)).window (w.record (.tick ms)).timeouts (w.conn.tick ms).sender := by
  rw [TCPConnection.tick]
  by_cases hlimit : w.conn.sender.consecutiveRetransmissions ≥ MAX_RETX_ATTEMPTS
  · -- the retries are used up: no retransmission
    have hno : w.timeout ms = false := by
      rw [timeout, decide_eq_false (Nat.not_lt.mpr hlimit), Bool.false_and]
    rw [if_pos hlimit, record, hno]
    exact h.probing.same rfl rfl rfl
  · have htimeout : w.timeout ms = w.conn.sender.timedOut ms := by
      rw [timeout, decide_eq_true (Nat.lt_of_not_le hlimit), Bool.true_and]
    rw [if_neg hlimit]
    have hticked := h.probing.tick ms fun hout => hok (htimeout.trans hout)
    rw [record, htimeout]
    split
    · rename_i hcond
      rw [if_pos hcond] at hticked
      exact hticked.same rfl rfl rfl
    · rename_i hcond
      rw [if_neg hcond] at hticked
      exact hticked.same rfl rfl rfl

theorem record_refill {stream : ByteStream} (h : w.conn.refill call = some stream) : w.record call = w := by
  cases call with
  | connect | write _ | endInputStream | readInbound _ | pop => rfl
  | segmentReceived _ | tick _ => exact absurd h (by simp [TCPConnection.refill])

theorem Inv.step (h : Inv w) (hok : w.steady call) (hs : w.step call = .ok w') : Inv w' := by
  obtain ⟨c, hc, rfl⟩ := map_ok.mp hs
  refine ⟨h.tracked.step hc, TCPConnection.drained_step h.drained hc, ?_⟩
  rcases TCPConnection.step_cases hc with ⟨stream, s, href, hf, rfl⟩ | ⟨seg, rfl, hseg⟩ | ⟨ms, rfl, rfl⟩ |
    ⟨len, rfl, rfl⟩ | ⟨rfl, rfl⟩
  · rw [record_refill href]
    have hstream : Probing w.window w.timeouts { w.conn.sender with stream := stream } :=
      h.probing.same rfl rfl rfl
    exact (hstream.fillWindow (h.tracked.withStream (TCPConnection.refill_wf h.tracked.wf href)) hf).same
      rfl rfl rfl
  · exact Probing.segmentReceived h hok hseg
  · exact Probing.ticked h hok
  · exact h.probing
  · exact h.probing

end ProbeRun

end Sponge
