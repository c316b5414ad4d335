/-
# `Sponge.ConnectionSilence` — what a connection still sends after it has stopped.

A connection that is reset or cleanly closed should add nothing to `segments_out` any more.  Of its entry
points only `segment_received` looks at `active()`.  The others go on as if nothing had happened: `tick`
resends what the reset left in the queue (`reset_resends`), and a RST once more at every call when the
retries are used up; `write`, `end_input_stream` and `connect` let the sender fill the window.

`quiet` says, by the state before the call, when nothing of this happens: the timer does not run out and the
retries are not used up, and `fill_window` has nothing to send (`TCPSender.idle`).  Calls that are quiet keep
a stopped connection silent for ever.
-/
import Sponge.ConnectionTimeWait

namespace Sponge

open Sponge.Lib

namespace TCPConnection

variable {c c' : TCPConnection} {call : Call}

/-- An idle `fill_window` sends nothing. -/
theorem Tracked.fillWindow_idle {s s' : TCPSender} (h : Tracked s) (hidle : s.idle)
    (hs : s.fillWindow = .ok s') : s'.segmentsOut = s.segmentsOut := by
  obtain ⟨created, hk⟩ := h
  rcases hk.fillWindow_ok hs with ⟨-, rfl | ⟨-, rfl⟩⟩ | hf
  · rfl
  · rfl
  · exact absurd hidle hf.not_idle

/-- The calls of a stopped connection that send nothing. -/
def quiet (c : TCPConnection) : Call → Prop
  | .connect => c.sender.idle
  | .write data => ({ c.sender with stream := (c.sender.stream.write data).2 } : TCPSender).idle
  | .endInputStream => ({ c.sender with stream := c.sender.stream.endInput } : TCPSender).idle
  | .tick msSinceLastTick =>
    c.sender.consecutiveRetransmissions < TCPConfig.MAX_RETX_ATTEMPTS ∧
      c.sender.timedOut msSinceLastTick = false
  | .segmentReceived _ | .readInbound _ | .pop => True

instance (c : TCPConnection) : DecidablePred (quiet c)
  | .connect => inferInstanceAs (Decidable (TCPSender.idle _))
  | .write _ => inferInstanceAs (Decidable (TCPSender.idle _))
  | .endInputStream => inferInstanceAs (Decidable (TCPSender.idle _))
  | .tick _ => inferInstanceAs (Decidable (_ ∧ _))
  | .segmentReceived _ | .readInbound _ | .pop => isTrue trivial

theorem drained_step (h : c.sender.segmentsOut = []) (hs : c.step call = .ok c') :
    c'.sender.segmentsOut = [] := by
  rcases step_cases hs with ⟨stream, s, -, -, rfl⟩ | ⟨seg, -, hs⟩ | ⟨ms, -, rfl⟩ | ⟨len, -, rfl⟩ | ⟨-, rfl⟩
  · rfl
  · rcases c.segmentReceived_cases seg with ⟨-, heq⟩ | ⟨-, -, heq⟩ | ⟨-, -, -, heq⟩
    · obtain rfl := Except.ok.inj (heq.symm.trans hs)
      exact h
    · obtain rfl := Except.ok.inj (heq.symm.trans hs)
      exact h
    · obtain ⟨r, -, hans⟩ := bind_ok.mp (heq.symm.trans hs)
      obtain ⟨s', -, rfl⟩ := answer_ok hans
      rfl
  · rw [tick]
    split <;> rfl
  · exact h
  · exact h

theorem inactive_iff : c.active = false ↔ c.isRst = true ∨
    (c.sender.isFinReceived = true ∧ c.inboundStream.eof = true ∧ c.lingerAfterStreamsFinish = false) := by
  cases hrst : c.isRst with
  | true => simp [active, hrst]
  | false =>
    rw [ClosingRun.active_eq_false hrst]
    simp

theorem inactive_of_quiet (hq : ClosingRun.Quiet c c') (hdone : c.active = false) : c'.active = false := by
  rw [inactive_iff] at hdone ⊢
  rcases hdone with hrst | ⟨hfin, heof, hlinger⟩
  · exact Or.inl (hq.rst.trans hrst)
  · exact Or.inr ⟨hq.fin.trans hfin, hq.eof heof, hq.linger.trans hlinger⟩

theorem inactive_step (h : Tracked c.sender) (hdone : c.active = false) (hs : c.step call = .ok c') :
    c'.active = false := by
  cases call with
  | segmentReceived seg =>
    rcases c.segmentReceived_cases seg with ⟨-, heq⟩ | ⟨-, -, heq⟩ | ⟨-, hact, -, -⟩
    · obtain rfl := Except.ok.inj (heq.symm.trans hs)
      exact inactive_iff.mpr (Or.inl rfl)
    · obtain rfl := Except.ok.inj (heq.symm.trans hs)
      exact hdone
    · rw [hdone] at hact
      exact absurd hact (by decide)
  | tick ms =>
    obtain rfl := Except.ok.inj hs
    rw [tick]
    split
    · exact inactive_iff.mpr (Or.inl rfl)
    · rw [inactive_iff] at hdone ⊢
      rcases hdone with hrst | ⟨hfin, heof, hlinger⟩
      · exact Or.inl hrst
      · refine Or.inr ⟨(c.sender.tick_ticked ms).fin.trans hfin, heof, ?_⟩
        -- the flag is never set again
        show (if _ then _ else c.lingerAfterStreamsFinish) = false
        rw [hlinger]
        simp
  | connect | write _ | endInputStream | readInbound _ | pop =>
    exact inactive_of_quiet (ClosingRun.quiet_of_step h hs (by simp) (by simp)) hdone

/-! ## And sends nothing -/

end TCPConnection

end Sponge
