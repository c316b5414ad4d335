/-
# `Sponge.ConnectionTimeWait` — when an endpoint may stop.

The side that closes first has to stay for `10 * rt_timeout` after the last segment it received, because
its last acknowledgment may have been lost; the side that closes second may stop at once.  The connection
decides this with two flags: `_send_fin_first` is cleared when the peer's FIN comes before the local end,
and `_linger_after_streams_finish` is cleared when the second closer is done or the time is over.  The tests
are weaker than what they stand for:

* `_send_fin_first` is cleared as soon as ANY segment with a FIN has come, also when bytes before that FIN
  are missing, so the inbound stream may end only after the local one;
* it is cleared by any segment that finds the outbound stream not at its end, also when that stream was at its
  end when the peer's FIN came, and has been written to since;
* `tick` clears the lingering flag when the SYN, not the FIN, has been acknowledged, so the time may be
  over before the streams are, and the late acknowledgment of the FIN stops the connection at once.

`timely` excludes all of it by what is known before the call, and `time_wait_respected` shows that then the
wait is respected in every run without a reset.
-/
import Sponge.TcpConnection

namespace Sponge

open Sponge.Lib

open TCPConnection (Call Tracked)

/-- A connection in a run, and whether the inbound stream has ended while the outbound stream was not at its
end. -/
structure PassiveRun where
  conn : TCPConnection
  passive : Bool := false

namespace PassiveRun

/-- The run after a call.  The receiver takes a segment before the sender reads on in its stream, so the
outbound stream is looked at as it was before the call. -/
def record (r : PassiveRun) (c : TCPConnection) : PassiveRun :=
  { conn := c
    passive := r.passive || (c.inboundStream.inputEnded && !r.conn.inboundStream.inputEnded
      && !r.conn.sender.stream.eof) }

def step (r : PassiveRun) (call : Call) : Except Exception PassiveRun := (r.conn.step call).map r.record

def Start (r : PassiveRun) : Prop := ∃ cfg random, r = { conn := TCPConnection.new cfg random }

variable {r : PassiveRun} {c : TCPConnection}

theorem record_passive_of_passive (h : r.passive = true) : (r.record c).passive = true := by
  rw [record, h, Bool.true_or]

theorem record_passive_of_ends (hended : c.inboundStream.inputEnded = true)
    (hbefore : r.conn.inboundStream.inputEnded = false) (hopen : r.conn.sender.stream.eof = false) :
    (r.record c).passive = true := by
  rw [record, hended, hbefore, hopen]
  simp

/-- A call that does not end the inbound stream. -/
theorem record_eq (hended : c.inboundStream.inputEnded = r.conn.inboundStream.inputEnded) :
    r.record c = { conn := c, passive := r.passive } := by
  rw [record, hended]
  cases r.conn.inboundStream.inputEnded <;> simp

end PassiveRun

/-- The same with the time since the last segment. -/
structure ClosingRun extends PassiveRun where
  elapsed : Nat := 0

namespace ClosingRun

/-- The time since the last segment, after a call. -/
def clock (elapsed : Nat) : Call → Nat
  | .segmentReceived _ => 0
  | .tick msSinceLastTick => elapsed + msSinceLastTick
  | _ => elapsed

def step (r : ClosingRun) (call : Call) : Except Exception ClosingRun :=
  (r.conn.step call).map fun c => { r.record c with elapsed := clock r.elapsed call }

def Start (r : ClosingRun) : Prop := ∃ cfg random, r = { conn := TCPConnection.new cfg random }

/-- No RST is received, and none is sent. -/
def noReset (r : ClosingRun) : Call → Prop
  | .segmentReceived seg => seg.header.rst = false
  | .tick _ => r.conn.sender.consecutiveRetransmissions < TCPConfig.MAX_RETX_ATTEMPTS
  | _ => True

/-- The calls in which the tests of a connection that is not the second closer mean what they stand for.  A segment
that finds the outbound stream not at its end, and leaves a FIN known, is the one with which the inbound stream
ends; and the time is over only after the FIN has been acknowledged. -/
def timely (r : ClosingRun) : Call → Prop
  | .segmentReceived seg => r.passive = false → r.conn.active = true → r.conn.ignored seg = false →
      returns (r.conn.receiver.segmentReceived seg) (fun receiver => receiver.fsn.isSome &&
        (!receiver.streamOut.inputEnded || r.conn.inboundStream.inputEnded)) = true →
      r.conn.sender.stream.eof = true
  | .tick msSinceLastTick => r.passive = false → r.conn.sender.isSynReceived = true →
      r.conn.inboundStream.eof = true → r.conn.lingerAfterStreamsFinish = true →
      10 * r.conn.cfg.rtTimeout.toNat ≤ r.conn.lastReceivedTime + msSinceLastTick →
      r.conn.sender.isFinReceived = true
  | _ => True

instance (r : ClosingRun) : DecidablePred (noReset r)
  | .segmentReceived _ => inferInstanceAs (Decidable (_ = false))
  | .tick _ => inferInstanceAs (Decidable (_ < _))
  | .connect | .write _ | .endInputStream | .readInbound _ | .pop => isTrue trivial

instance (r : ClosingRun) : DecidablePred (timely r)
  | .segmentReceived _ => inferInstanceAs (Decidable (_ = false → _ = true → _ = false → _ = true → _ = true))
  | .tick _ => inferInstanceAs (Decidable (_ = false → _ = true → _ = true → _ = true → _ ≤ _ → _ = true))
  | .connect | .write _ | .endInputStream | .readInbound _ | .pop => isTrue trivial

/-! ## What one call does to the flags -/

/-- A call that leaves the flags alone and keeps ended streams ended. -/
structure Quiet (c c' : TCPConnection) : Prop where
  cfg : c'.cfg = c.cfg
  rst : c'.isRst = c.isRst
  linger : c'.lingerAfterStreamsFinish = c.lingerAfterStreamsFinish
  first : c'.sendFinFirst = c.sendFinFirst
  time : c'.lastReceivedTime = c.lastReceivedTime
  fin : c'.sender.isFinReceived = c.sender.isFinReceived
  eof : c.inboundStream.eof = true → c'.inboundStream.eof = true

variable {c c' : TCPConnection}

theorem quiet_of_step {call : Call} (h : Tracked c.sender) (hs : c.step call = .ok c')
    (hseg : ∀ seg, call ≠ .segmentReceived seg) (htick : ∀ ms, call ≠ .tick ms) : Quiet c c' := by
  rcases TCPConnection.step_cases hs with ⟨stream, s, href, hf, rfl⟩ | ⟨seg, hcall, -⟩ | ⟨ms, hcall, -⟩ |
    ⟨len, -, rfl⟩ | ⟨-, rfl⟩
  · have hflags := (h.withStream (TCPConnection.refill_wf h.wf href)).fillWindow_flags hf
    exact ⟨rfl, rfl, rfl, rfl, rfl, hflags.1, fun h => h⟩
  · exact absurd hcall (hseg seg)
  · exact absurd hcall (htick ms)
  · exact ⟨rfl, rfl, rfl, rfl, rfl, rfl, fun heof => ByteStream.eof_read heof len⟩
  · exact ⟨rfl, rfl, rfl, rfl, rfl, rfl, fun h => h⟩

theorem active_eq_false (hrst : c.isRst = false) : c.active = false ↔
    c.sender.isFinReceived = true ∧ c.inboundStream.eof = true ∧ c.lingerAfterStreamsFinish = false := by
  rw [TCPConnection.active, hrst, if_neg (by simp)]
  simp only [Bool.not_eq_eq_eq_not, Bool.not_false, Bool.and_eq_true, Bool.not_true, and_assoc]
  rfl

theorem Quiet.inactive (h : Quiet c c') (hrst : c.isRst = false) (hdone : c.active = false) :
    c'.active = false := by
  obtain ⟨hfin, heof, hlinger⟩ := (active_eq_false hrst).mp hdone
  refine (active_eq_false (h.rst.trans hrst)).mpr ⟨h.fin.trans hfin, h.eof heof, h.linger.trans hlinger⟩

/-! ## Runs -/

/-- The invariant: the clock is the connection's own; a cleared flag has its reason. -/
structure Inv (r : ClosingRun) : Prop where
  tracked : Tracked r.conn.sender
  rst : r.conn.isRst = false
  time : r.elapsed = r.conn.lastReceivedTime
  first : r.conn.sendFinFirst = false → r.passive = true
  linger : r.conn.lingerAfterStreamsFinish = false → r.passive = true ∨ r.conn.active = false

/-- What a call establishes: if the connection has just stopped, it had the right to. -/
def Allowed (r r' : ClosingRun) : Prop :=
  r.conn.active = true → r'.conn.active = false →
    r'.passive = true ∨ 10 * r'.conn.cfg.rtTimeout.toNat ≤ r'.elapsed

theorem Inv.quiet {r : ClosingRun} (h : Inv r) {call : Call} {c' : TCPConnection}
    (hs : r.conn.step call = .ok c') (hseg : ∀ seg, call ≠ .segmentReceived seg)
    (htick : ∀ ms, call ≠ .tick ms) {r' : ClosingRun} (hconn : r'.conn = c')
    (hpassive : r.passive = true → r'.passive = true) (helapsed : r'.elapsed = r.elapsed) :
    Inv r' ∧ Allowed r r' := by
  subst hconn
  have hq := quiet_of_step h.tracked hs hseg htick
  refine ⟨⟨h.tracked.step hs, hq.rst.trans h.rst, ?_, fun hfirst => ?_, fun hl => ?_⟩, fun hact hdone => ?_⟩
  · rw [helapsed, h.time, hq.time]
  · rw [hq.first] at hfirst
    exact hpassive (h.first hfirst)
  · rw [hq.linger] at hl
    exact (h.linger hl).imp hpassive (hq.inactive h.rst)
  · obtain ⟨-, -, hl⟩ := (active_eq_false (hq.rst.trans h.rst)).mp hdone
    rw [hq.linger] at hl
    rcases h.linger hl with hp | hna
    · exact Or.inl (hpassive hp)
    · rw [hact] at hna
      exact absurd hna (by decide)

/-- A segment that is dropped restarts the clock and changes nothing else. -/
theorem Inv.dropped {r r' : ClosingRun} (h : Inv r) (hconn : r'.conn = { r.conn with lastReceivedTime := 0 })
    (hkeep : r.passive = true → r'.passive = true) (helapsed : r'.elapsed = 0) : Inv r' ∧ Allowed r r' := by
  have hactive : r'.conn.active = r.conn.active := by rw [hconn]; rfl
  refine ⟨⟨by rw [hconn]; exact h.tracked, by rw [hconn]; exact h.rst, by rw [helapsed, hconn], fun hf => ?_,
    fun hl => ?_⟩, fun hact hdone => ?_⟩
  · rw [hconn] at hf
    exact hkeep (h.first hf)
  · rw [hconn] at hl
    rw [hactive]
    exact (h.linger hl).imp_left hkeep
  · rw [hactive, hact] at hdone
    exact absurd hdone (by decide)

/-- A FIN that is known while the local end is open came with this segment, and in order. -/
theorem timely.ends {r : ClosingRun} {seg : TCPSegment} (hok : timely r (.segmentReceived seg))
    (hpassive : r.passive = false) (hact : r.conn.active = true) (hign : r.conn.ignored seg = false)
    {receiver : TCPReceiver} (hrec : r.conn.receiver.segmentReceived seg = .ok receiver)
    (hfsn : receiver.fsn.isSome = true) (hopen : r.conn.sender.stream.eof = false) :
    receiver.streamOut.inputEnded = true ∧ r.conn.inboundStream.inputEnded = false := by
  by_contra hnot
  have heof := hok hpassive hact hign (returns_iff.mpr ⟨receiver, hrec, by
    rw [hfsn]
    revert hnot
    cases receiver.streamOut.inputEnded <;> cases r.conn.inboundStream.inputEnded <;> simp⟩)
  rw [hopen] at heof
  exact absurd heof (by decide)

theorem Inv.segmentReceived {r : ClosingRun} (h : Inv r) {seg : TCPSegment} {c' : TCPConnection}
    (hrst : seg.header.rst = false) (hok : timely r (.segmentReceived seg))
    (hs : r.conn.segmentReceived seg = .ok c') {r' : ClosingRun} (hrecord : r'.toPassiveRun = r.record c')
    (helapsed : r'.elapsed = 0) : Inv r' ∧ Allowed r r' := by
  obtain rfl : r'.conn = c' := congrArg PassiveRun.conn hrecord
  have hstep : r.conn.step (.segmentReceived seg) = .ok r'.conn := hs
  have hkeep : r.passive = true → r'.passive = true := fun hp => by
    rw [hrecord]
    exact PassiveRun.record_passive_of_passive hp
  rcases r.conn.segmentReceived_cases seg with ⟨hr, -⟩ | ⟨-, -, heq⟩ | ⟨-, hact, hign, heq⟩
  · rw [hrst] at hr
    exact absurd hr (by decide)
  · exact h.dropped (Except.ok.inj (hs.symm.trans heq)) hkeep helapsed
  · obtain ⟨receiver, hrec, hans⟩ := bind_ok.mp (heq.symm.trans hs)
    obtain ⟨s', -, hc⟩ := TCPConnection.answer_ok hans
    obtain ⟨j, hp⟩ := r.conn.acked_popped seg
    have hstream := hp.stream
    have hreceiver : r'.conn.receiver = receiver := by rw [hc]; rfl
    -- `_send_fin_first` is cleared now only by a FIN that has just ended the inbound stream
    have hfirst : r'.conn.sendFinFirst = false → r'.passive = true := by
      intro hf
      have hf' : (if receiver.fsn.isSome && !(r.conn.acked seg).stream.eof then false
          else r.conn.sendFinFirst) = false := by rw [hc] at hf; exact hf
      rw [hstream] at hf'
      split at hf'
      · rename_i hcond
        rw [Bool.and_eq_true, Bool.not_eq_true'] at hcond
        cases hpassive : r.passive with
        | true => exact hkeep hpassive
        | false =>
          obtain ⟨hended, hbefore⟩ := hok.ends hpassive hact hign hrec hcond.1 hcond.2
          rw [hrecord]
          refine PassiveRun.record_passive_of_ends ?_ hbefore hcond.2
          rw [TCPConnection.inboundStream, hreceiver]
          exact hended
      · exact hkeep (h.first hf')
    have hlinger : r'.conn.lingerAfterStreamsFinish = false → r'.passive = true := by
      intro hl
      have hl' : (if (r.conn.acked seg).isSynReceived && receiver.streamOut.eof && !r'.conn.sendFinFirst
          then false else r.conn.lingerAfterStreamsFinish) = false := by
        rw [hc] at hl ⊢
        exact hl
      split at hl'
      · rename_i hcond
        simp only [Bool.and_eq_true, Bool.not_eq_true'] at hcond
        exact hfirst hcond.2
      · rcases h.linger hl' with hp | hna
        · exact hkeep hp
        · rw [hact] at hna
          exact absurd hna (by decide)
    have hrst' : r'.conn.isRst = false := by rw [hc]; exact h.rst
    refine ⟨⟨h.tracked.step hstep, hrst', by rw [helapsed, hc]; rfl, hfirst, fun hl => Or.inl (hlinger hl)⟩,
      fun _ hdone => Or.inl (hlinger ((active_eq_false hrst').mp hdone).2.2)⟩

theorem Inv.tick {r : ClosingRun} (h : Inv r) {ms : Nat}
    (hretx : r.conn.sender.consecutiveRetransmissions < TCPConfig.MAX_RETX_ATTEMPTS)
    (hok : timely r (.tick ms)) {r' : ClosingRun} (hconn : r'.conn = r.conn.tick ms)
    (hpassive : r.passive = true → r'.passive = true) (helapsed : r'.elapsed = r.elapsed + ms) :
    Inv r' ∧ Allowed r r' := by
  have hstep : r.conn.step (.tick ms) = .ok r'.conn := congrArg Except.ok hconn.symm
  have htracked := h.tracked.step hstep
  have hcleared := (r.conn.tick_linger ms).2
  rw [← hconn] at hcleared
  rw [TCPConnection.tick, if_neg (by omega)] at hconn
  have hrst' : r'.conn.isRst = false := by rw [hconn]; exact h.rst
  have htime : r'.elapsed = r'.conn.lastReceivedTime := by
    rw [helapsed, h.time, hconn]
    rfl
  have hfin : r'.conn.sender.isFinReceived = r.conn.sender.isFinReceived := by
    rw [hconn]
    exact (r.conn.sender.tick_ticked ms).fin
  have hinbound : r'.conn.inboundStream = r.conn.inboundStream := by rw [hconn]; rfl
  have hcfg : r'.conn.cfg = r.conn.cfg := by rw [hconn]; rfl
  -- the flag is cleared now only if the time is over, and then the connection stops
  have hlinger : r'.conn.lingerAfterStreamsFinish = false → r'.passive = true ∨
      (r'.conn.active = false ∧
        (r.conn.active = true → 10 * r'.conn.cfg.rtTimeout.toNat ≤ r'.elapsed)) := by
    intro hl
    by_cases hsecond : r.passive = true
    · exact Or.inl (hpassive hsecond)
    by_cases hbefore : r.conn.lingerAfterStreamsFinish = false
    · rcases h.linger hbefore with hp | hna
      · exact Or.inl (hpassive hp)
      · obtain ⟨h1, h2, h3⟩ := (active_eq_false h.rst).mp hna
        refine Or.inr ⟨(active_eq_false hrst').mpr ⟨hfin.trans h1, by rw [hinbound]; exact h2, hl⟩, ?_⟩
        intro hact
        rw [hact] at hna
        exact absurd hna (by decide)
    · rcases hcleared hl with hl' | ⟨hsyn, heof, hset, hover⟩
      · exact absurd hl' hbefore
      · have hdone := hok (eq_false_of_ne_true hsecond) hsyn heof hset hover
        refine Or.inr ⟨(active_eq_false hrst').mpr
          ⟨hfin.trans hdone, by rw [hinbound]; exact heof, hl⟩, fun _ => ?_⟩
        rw [hcfg, helapsed, h.time]
        exact hover
  refine ⟨⟨htracked, hrst', htime, fun hf => ?_, fun hl => (hlinger hl).imp_right And.left⟩,
    fun hact hdone => ?_⟩
  · exact hpassive (h.first (by rw [hconn] at hf; exact hf))
  · exact (hlinger ((active_eq_false hrst').mp hdone).2.2).imp_right fun hx => hx.2 hact

/-- **One call** keeps the invariant and stops the connection only when it may stop. -/
theorem Inv.step {r r' : ClosingRun} {call : Call} (h : Inv r) (hreset : noReset r call)
    (hok : timely r call) (hs : r.step call = .ok r') : Inv r' ∧ Allowed r r' := by
  obtain ⟨c', hc', rfl⟩ := map_ok.mp hs
  have hkeep : r.passive = true → (r.record c').passive = true := PassiveRun.record_passive_of_passive
  cases call with
  | segmentReceived seg => exact h.segmentReceived hreset hok hc' rfl rfl
  | tick ms => exact h.tick hreset hok (Except.ok.inj hc').symm hkeep rfl
  | connect | write _ | endInputStream | readInbound _ | pop =>
    exact h.quiet hc' (by simp) (by simp) rfl hkeep rfl

theorem Start.inv {r : ClosingRun} (h : Start r) : Inv r := by
  obtain ⟨cfg, random, rfl⟩ := h
  exact ⟨Tracked.new cfg random, rfl, rfl, fun h => absurd h (by simp [TCPConnection.new]),
    fun h => absurd h (by simp [TCPConnection.new])⟩

/-- **TIME_WAIT is respected** in every run without a reset whose calls are all `timely`: when the
connection stops, the inbound stream had ended with the outbound one not at its end, or `10 * rt_timeout`
milliseconds have passed since the last segment. -/
theorem time_wait_respected {r r' : ClosingRun} {call : Call}
    (hr : Reach Start step (fun r call => noReset r call ∧ timely r call) r)
    (hreset : noReset r call) (htimely : timely r call) (hs : r.step call = .ok r')
    (hactive : r.conn.active = true) (hdone : r'.conn.active = false) :
    r'.passive = true ∨ 10 * r'.conn.cfg.rtTimeout.toNat ≤ r'.elapsed := by
  have h : Inv r := Reach.invariant (fun _ => Start.inv) (fun _ _ _ h hok hs => (h.step hok.1 hok.2 hs).1) hr
  exact (h.step hreset htimely hs).2 hactive hdone

/-- The peer closes first, and the acknowledgment of the local FIN stops the connection. -/
theorem time_wait_respected_passive : ∃ r r' : ClosingRun,
    Reach Start step (fun r call => noReset r call ∧ timely r call) r ∧
    r.conn.active = true ∧ r'.conn.active = false ∧
    (r'.passive = true ∨ 10 * r'.conn.cfg.rtTimeout.toNat ≤ r'.elapsed) := by
  obtain ⟨call, hcall⟩ : ∃ call, call = Call.segmentReceived { header :=
      { seqno := ⟨102⟩, ackno := ⟨2⟩, ack := true, win := 100 } } := ⟨_, rfl⟩
  obtain ⟨r, hr, htest⟩ : ∃ r, Reach Start step (fun r call => noReset r call ∧ timely r call) r ∧
      (decide (noReset r call) && decide (timely r call) && r.conn.active
        && returns (r.step call) (fun r' => !r'.conn.active)) = true := by
    subst hcall
    exact Reach.exec_any _
      (s := { conn := TCPConnection.new { recvCapacity := 8, sendCapacity := 8 } ⟨0⟩ })
      (l := [.connect,
        .segmentReceived { header :=
          { seqno := ⟨100⟩, ackno := ⟨1⟩, syn := true, ack := true, win := 100 } },
        .segmentReceived { header :=
          { seqno := ⟨101⟩, ackno := ⟨1⟩, fin := true, ack := true, win := 100 } },
        .endInputStream])
      (.start ⟨_, _, rfl⟩) (by decide +kernel)
  simp only [Bool.and_eq_true, decide_eq_true_eq] at htest
  obtain ⟨⟨⟨hreset, htimely⟩, hactive⟩, hreturns⟩ := htest
  obtain ⟨r', hs, hdone⟩ := returns_iff.mp hreturns
  rw [Bool.not_eq_true'] at hdone
  exact ⟨r, r', hr, hactive, hdone, time_wait_respected hr hreset htimely hs hactive hdone⟩

/-- A run without a reset, and one call more that stops the connection too early. -/
theorem cut_short_of_exec (calls : List Call) (call : Call)
    (htest : (exec step noReset { conn := TCPConnection.new { recvCapacity := 8, sendCapacity := 8 } ⟨0⟩ } calls).any
      (fun r => decide (noReset r call) && r.conn.active
        && returns (r.step call) (fun r' => !r'.conn.active && !r'.passive
          && decide (r'.elapsed < 10 * r'.conn.cfg.rtTimeout.toNat))) = true) :
    ∃ (r r' : ClosingRun) (call : Call),
      Reach Start step (fun r call => noReset r call) r ∧ noReset r call ∧ r.step call = .ok r' ∧
      r.conn.active = true ∧ r'.conn.active = false ∧
      r'.passive = false ∧ r'.elapsed < 10 * r'.conn.cfg.rtTimeout.toNat := by
  have hnew : Reach Start step (fun r call => noReset r call)
      { conn := TCPConnection.new { recvCapacity := 8, sendCapacity := 8 } ⟨0⟩ } := .start ⟨_, _, rfl⟩
  obtain ⟨r, hr, hends⟩ := Reach.exec_any _ hnew htest
  simp only [Bool.and_eq_true, decide_eq_true_eq] at hends
  obtain ⟨⟨hreset, hactive⟩, hreturns⟩ := hends
  obtain ⟨r', hs, hdone⟩ := returns_iff.mp hreturns
  simp only [Bool.and_eq_true, Bool.not_eq_true', decide_eq_true_eq] at hdone
  exact ⟨r, r', call, hr, hreset, hs, hactive, hdone.1.1, hdone.1.2, hdone.2⟩

/-- **TIME_WAIT is cut short**: the local side closes first, the peer's FIN comes without acknowledging the
local one, and ten seconds pass.  The acknowledgment of the FIN then stops the connection 0 ms after the
last segment. -/
theorem time_wait_cut_short : ∃ (r r' : ClosingRun) (call : Call),
    Reach Start step (fun r call => noReset r call) r ∧ noReset r call ∧ r.step call = .ok r' ∧
    r.conn.active = true ∧ r'.conn.active = false ∧
    r'.passive = false ∧ r'.elapsed < 10 * r'.conn.cfg.rtTimeout.toNat :=
  cut_short_of_exec
    [.connect,
      .segmentReceived { header := { seqno := ⟨100⟩, ackno := ⟨1⟩, syn := true, ack := true, win := 100 } },
      .endInputStream,
      .segmentReceived { header := { seqno := ⟨101⟩, ackno := ⟨1⟩, fin := true, ack := true, win := 100 } },
      .tick 10000]
    (.segmentReceived { header := { seqno := ⟨102⟩, ackno := ⟨2⟩, ack := true, win := 100 } })
    (by decide +kernel)

/-- The other way: the peer's FIN overtakes its last byte, the local side closes, and the byte comes only
then.  The connection takes itself for the second closer. -/
theorem fin_gap_cuts_short : ∃ (r r' : ClosingRun) (call : Call),
    Reach Start step (fun r call => noReset r call) r ∧ noReset r call ∧ r.step call = .ok r' ∧
    r.conn.active = true ∧ r'.conn.active = false ∧
    r'.passive = false ∧ r'.elapsed < 10 * r'.conn.cfg.rtTimeout.toNat :=
  cut_short_of_exec
    [.connect,
      .segmentReceived { header := { seqno := ⟨100⟩, ackno := ⟨1⟩, syn := true, ack := true, win := 100 } },
      .segmentReceived { header := { seqno := ⟨102⟩, ackno := ⟨1⟩, fin := true, ack := true, win := 100 } },
      .endInputStream,
      .segmentReceived { payload := [97], header := { seqno := ⟨101⟩, ackno := ⟨2⟩, ack := true, win := 100 } },
      .readInbound 1]
    (.segmentReceived { header := { seqno := ⟨103⟩, ackno := ⟨2⟩, ack := true, win := 100 } })
    (by decide +kernel)

/-- A third way: the local side closes first, and after the peer's FIN has come its owner writes once more.  The
outbound stream is then not at its end, and the connection takes itself for the second closer. -/
theorem write_after_end_cuts_short : ∃ (r r' : ClosingRun) (call : Call),
    Reach Start step (fun r call => noReset r call) r ∧ noReset r call ∧ r.step call = .ok r' ∧
    r.conn.active = true ∧ r'.conn.active = false ∧
    r'.passive = false ∧ r'.elapsed < 10 * r'.conn.cfg.rtTimeout.toNat :=
  cut_short_of_exec
    [.connect,
      .segmentReceived { header := { seqno := ⟨100⟩, ackno := ⟨1⟩, syn := true, ack := true, win := 1 } },
      .endInputStream,
      .segmentReceived { header := { seqno := ⟨101⟩, ackno := ⟨1⟩, fin := true, ack := true, win := 1 } },
      .write [120]]
    (.segmentReceived { header := { seqno := ⟨102⟩, ackno := ⟨2⟩, ack := true, win := 1 } })
    (by decide +kernel)

end ClosingRun

end Sponge
