/-
# `Sponge.Lib.Retransmitter` — one retransmission timer over a list of outstanding items.

The abstract side of a retransmission queue: items are outstanding in the order in which they were sent, and
ONE timer runs while there are any.  It is restarted with the initial timeout when an item is sent while none
is outstanding and when an acknowledgment removes items and leaves others; it is restarted with the timeout
doubled, or kept while the peer advertises no room, each time it runs out, and then the oldest item is sent
again.  Nothing else touches it.

Time is what the ticks add up to.  A timer that was started in the future does not exist: the bound is a field,
so every operation proves it once and nothing downstream carries it around.
-/
import Mathlib.Tactic.Common

namespace Sponge.Lib

universe u

variable {α : Type u}

/-- Outstanding items and their timer. -/
structure Retransmitter (α : Type u) where
  /-- The timeout that a restarted timer begins with. -/
  initial : Nat
  outstanding : List α := []
  now : Nat := 0
  started : Nat := 0
  timeout : Nat := initial
  /-- Whether running out doubles the timeout. -/
  backoff : Bool := true
  started_le : started ≤ now := by decide

namespace Retransmitter

/-- Nothing outstanding yet. -/
def new (initial : Nat) : Retransmitter α := { initial := initial }

/-- The timer begins anew. -/
def restart (m : Retransmitter α) : Retransmitter α :=
  { m with started := m.now, timeout := m.initial, started_le := Nat.le_refl _ }

/-- New items: the first one of an empty list starts the timer. -/
def send (m : Retransmitter α) (items : List α) : Retransmitter α :=
  { (if m.outstanding.isEmpty && !items.isEmpty then m.restart else m) with
    outstanding := m.outstanding ++ items }

/-- The oldest `removed` items are acknowledged: the timer of those that are left begins anew. -/
def acknowledge (m : Retransmitter α) (removed : Nat) : Retransmitter α :=
  { (if decide (0 < removed) && !(m.outstanding.drop removed).isEmpty then m.restart else m) with
    outstanding := m.outstanding.drop removed }

/-- The peer's latest word about its window. -/
def advertise (m : Retransmitter α) (zero : Bool) : Retransmitter α := { m with backoff := !zero }

/-- The timer runs, and within the next `ms` the current timeout has passed since its start. -/
def due (m : Retransmitter α) (ms : Nat) : Bool :=
  !m.outstanding.isEmpty && decide (m.timeout ≤ m.now + ms - m.started)

/-- What is sent again within the next `ms`. -/
def resent (m : Retransmitter α) (ms : Nat) : List α := if m.due ms then m.outstanding.take 1 else []

/-- Time passes. -/
def tick (m : Retransmitter α) (ms : Nat) : Retransmitter α :=
  if m.due ms then
    { m with
      now := m.now + ms
      started := m.now + ms
      timeout := if m.backoff then m.timeout * 2 else m.timeout
      started_le := Nat.le_refl _ }
  else { m with now := m.now + ms, started_le := Nat.le_add_right_of_le m.started_le }

/-! ## The operations, case by case -/

theorem send_nil (m : Retransmitter α) : m.send [] = m := by
  rw [send, List.append_nil]
  simp

theorem send_first {m : Retransmitter α} (h : m.outstanding = []) {items : List α} (hne : items ≠ []) :
    m.send items = { m.restart with outstanding := items } := by
  have hitems : items.isEmpty = false := by simpa using hne
  simp [send, h, hitems]

theorem send_more {m : Retransmitter α} (h : m.outstanding ≠ []) (items : List α) :
    m.send items = { m with outstanding := m.outstanding ++ items } := by
  have hout : m.outstanding.isEmpty = false := by simpa using h
  simp [send, hout]

theorem acknowledge_zero (m : Retransmitter α) : m.acknowledge 0 = m := by
  simp [acknowledge]

theorem acknowledge_all {m : Retransmitter α} {removed : Nat} (h : m.outstanding.drop removed = []) :
    m.acknowledge removed = { m with outstanding := [] } := by
  simp [acknowledge, h]

theorem acknowledge_some {m : Retransmitter α} {removed : Nat} (hpos : 0 < removed)
    (h : m.outstanding.drop removed ≠ []) :
    m.acknowledge removed = { m.restart with outstanding := m.outstanding.drop removed } := by
  have hrest : (m.outstanding.drop removed).isEmpty = false := by simpa using h
  simp [acknowledge, hpos, hrest]

/-- Without the truncated subtraction: the deadline has been reached. -/
theorem due_cons {m : Retransmitter α} {front : α} {rest : List α} (h : m.outstanding = front :: rest)
    (ms : Nat) : m.due ms = decide (m.started + m.timeout ≤ m.now + ms) := by
  have hle := m.started_le
  have hiff : m.timeout ≤ m.now + ms - m.started ↔ m.started + m.timeout ≤ m.now + ms := by omega
  simp only [due, h, List.isEmpty_cons, Bool.not_false, Bool.true_and, hiff]

theorem due_nil {m : Retransmitter α} (h : m.outstanding = []) (ms : Nat) : m.due ms = false := by
  simp [due, h]

theorem resent_of_due {m : Retransmitter α} {ms : Nat} {front : α} {rest : List α} (hdue : m.due ms = true)
    (h : m.outstanding = front :: rest) : m.resent ms = [front] := by
  rw [resent, if_pos hdue, h, List.take_succ_cons, List.take_zero]

theorem resent_of_not_due {m : Retransmitter α} {ms : Nat} (hdue : m.due ms = false) : m.resent ms = [] := by
  rw [resent, hdue, if_neg (by decide)]

theorem tick_of_due {m : Retransmitter α} {ms : Nat} (hdue : m.due ms = true) :
    m.tick ms = { m with
      now := m.now + ms
      started := m.now + ms
      timeout := if m.backoff then m.timeout * 2 else m.timeout
      started_le := Nat.le_refl _ } := by
  rw [tick, if_pos hdue]

theorem tick_of_not_due {m : Retransmitter α} {ms : Nat} (hdue : m.due ms = false) :
    m.tick ms = { m with now := m.now + ms, started_le := Nat.le_add_right_of_le m.started_le } := by
  rw [tick, if_neg (by rw [hdue]; decide)]

end Retransmitter

end Sponge.Lib
