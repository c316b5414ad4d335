/-
# `Sponge.ReassemblerWindow` — capacity and window of the reassembler, for arbitrary pushes.

Here nothing is assumed about the bytes: pushes may contradict each other, overlap and end anywhere.  The
source compares only the FIRST index of a fragment with the window, and cuts the fragment to the free
capacity by its length.  That is the end of the window for a fragment that starts at `_top_pointer` or before
it.  But a fragment that starts further on inside the window and ends beyond it is stored beyond it, and when
the bytes before it arrive there is more in the reassembler than it has room for (`straddling_push_overflows`).
In runs without such fragments both bounds hold.
-/
import Sponge.ReassemblerStream
import Sponge.Lib.Indexed

namespace Sponge

open Sponge.Lib BufferStringList

namespace StreamReassembler

/-! ## Runs -/

/-- `push_substring(data, index, eof)`, or a read of `len` bytes from `stream_out()`. -/
inductive AnyCall where
  | push (data : Bytes) (index : Nat) (eof : Bool)
  | read (len : Nat)
  deriving DecidableEq, Repr

/-- What a read that throws has done to the stream stays done. -/
def anyStep (r : StreamReassembler) : AnyCall → Except Exception StreamReassembler
  | .push data index eof => r.pushSubstring data index eof
  | .read len => .ok { r with output := (r.output.read len).1 }

/-- The fragment lies beyond the window (and its distance from `_top_pointer` does not wrap), or is an old
duplicate, or ends in the 64-bit index space and does not cross the end of the window from behind
`_top_pointer`. -/
def Whole (r : StreamReassembler) (data : Bytes) (index : Nat) : Prop :=
  (r.output.bytesRead + r.capacity ≤ index ∧ index + 1 < 2 ^ 64 + r.topPointer) ∨
  index + data.length < r.topPointer ∨
  (index + data.length + 1 < 2 ^ 64 ∧
    (index ≤ r.topPointer ∨ index + data.length ≤ r.output.bytesRead + r.capacity))

def whole (r : StreamReassembler) : AnyCall → Prop
  | .push data index _ => r.Whole data index
  | .read _ => True

/-- Indices are `size_t`s. -/
def sized (_ : StreamReassembler) : AnyCall → Prop
  | .push data index _ => index < 2 ^ 64 ∧ data.length < 2 ^ 64
  | .read _ => True

instance (r : StreamReassembler) (data : Bytes) (index : Nat) : Decidable (r.Whole data index) :=
  inferInstanceAs (Decidable (_ ∨ _))

instance (r : StreamReassembler) (call : AnyCall) : Decidable (r.whole call) := by
  unfold whole
  split <;> infer_instance

instance (r : StreamReassembler) (call : AnyCall) : Decidable (r.sized call) := by
  unfold sized
  split <;> infer_instance

def Fresh (capacity : Nat) (r : StreamReassembler) : Prop := r = new capacity

/-! ## The window invariant -/

/-- Everything stored lies inside the window, and nothing is near the end of the index space. -/
structure Windowed (capacity : Nat) (r : StreamReassembler) : Prop where
  ordered : Ordered 0 r
  cap : r.capacity = capacity
  top : r.topPointer + 1 < 2 ^ 64
  stored : ∀ n, Stores r.bufferList n → n < r.output.bytesRead + capacity ∧ n + 2 < 2 ^ 64

variable {capacity : Nat} {r r' : StreamReassembler}

theorem Windowed.fresh (h : Fresh capacity r) : Windowed capacity r := by
  subst h
  exact ⟨Ordered.new capacity, rfl, by simp [StreamReassembler.new],
    by simp [Stores, StreamReassembler.new]⟩

/-- **A whole fragment** keeps everything inside the window. -/
theorem Windowed.push (h : Windowed capacity r) {data : Bytes} {index : Nat} (eof : Bool)
    (hwhole : r.Whole data index) :
    ∃ r', r.pushSubstring data index eof = .ok r' ∧ Windowed capacity r' := by
  have hcap := h.cap
  have hedge := h.ordered.edge
  have htop := h.top
  rcases hwhole with ⟨hbeyond, hlt⟩ | hbefore | ⟨hlt, hside⟩
  · exact ⟨r, pushSubstring_beyond (by omega) hlt, h⟩
  · exact ⟨r, pushSubstring_before hbefore (by omega), h⟩
  rcases h.ordered.push_cases eof hlt h.top with
    ⟨-, heq⟩ | ⟨hd, list, -, heq, hs, hne, habove, hwin, hst, -⟩
  · exact ⟨r, heq, h⟩
  · refine ⟨r.settle list, heq, ?_⟩
    have hread : (r.settle list).output.bytesRead = r.output.bytesRead := (pushSubstring_frame heq).2.read
    obtain ⟨hsettled, -⟩ := h.ordered.settle_stores hs habove hwin hne
    have hcut := r.cut_length_le data index
    have hroom := r.cut_length_le_room data index
    -- a fragment that is not dropped starts inside the window, and was cut to end there or ends there by itself
    rw [Dropped, not_or] at hd
    have hlist : ∀ n, Stores list n → n < r.output.bytesRead + capacity ∧ n + 2 < 2 ^ 64 := by
      intro n hn
      rcases (hst n).mp hn with hold | hnew
      · exact h.stored n hold
      · omega
    obtain ⟨htop, -⟩ := h.ordered.settle_confined hs habove hwin hne h.top fun n hn => (hlist n hn).2
    refine ⟨h.ordered.settle hs habove hwin hne, (pushSubstring_frame heq).1.trans hcap, htop, fun n hn => ?_⟩
    rw [hread]
    exact hlist n ((hsettled n).mpr (Or.inr hn))

theorem Windowed.read (h : Windowed capacity r) (len : Nat) :
    Windowed capacity { r with output := (r.output.read len).1 } := by
  refine ⟨h.ordered.read len, h.cap, h.top, fun n hn => ?_⟩
  have hn' := h.stored n hn
  have hread := (h.ordered.out.read len).2.2
  dsimp only
  rw [hread]
  omega

theorem windowed_of_reach (hr : Reach (Fresh capacity) anyStep whole r) : Windowed capacity r := by
  refine Reach.invariant (P := Windowed capacity) (fun _ hs => Windowed.fresh hs) ?_ hr
  intro r call r' h hok hs
  cases call with
  | push data index eof =>
    obtain ⟨r'', heq, h'⟩ := h.push eof hok
    obtain rfl : r'' = r' := Except.ok.inj (heq.symm.trans hs)
    exact h'
  | read len =>
    obtain rfl := Except.ok.inj hs
    exact h.read len

/-! ## The bounds -/

/-- **The reassembler stays within its capacity and its window**, in every state of every run whose
fragments do not cross the end of the window from behind `_top_pointer`; and each such push returns. -/
theorem window_respected (hr : Reach (Fresh capacity) anyStep whole r) :
    r.output.bufferSize + r.unassembledBytes ≤ capacity ∧
    (∀ n, Stores r.bufferList n → n < r.output.bytesRead + capacity) ∧
    r.output.bytesWritten ≤ r.output.bytesRead + capacity ∧
    (∀ data index eof, r.Whole data index → ∃ r', r.pushSubstring data index eof = .ok r') := by
  have h := windowed_of_reach hr
  have hedge := h.ordered.edge
  have htop := h.ordered.top
  have hroom := h.ordered.currentCapactiy
  have hfits := h.ordered.out.fits
  rw [h.ordered.cap] at hfits
  rw [h.cap] at hedge hroom hfits
  refine ⟨?_, fun n hn => (h.stored n hn).1, ?_, fun data index eof hw => ?_⟩
  · have hcount : r.unassembledBytes ≤ r.output.bytesRead + capacity - r.topPointer := by
      rw [unassembledBytes, h.ordered.sorted.size_eq]
      refine length_le_of_nodup h.ordered.sorted.nodup fun n hn => ?_
      have hn' := (mem_storedIndices h.ordered.sorted).mp hn
      refine ⟨?_, (h.stored n hn').1⟩
      obtain ⟨b, hb, hle, -⟩ := hn'
      exact Nat.le_trans (h.ordered.above b hb) hle
    rw [h.ordered.out.bufferSize]
    omega
  · rw [ByteStream.bytesWritten]
    omega
  · obtain ⟨r', heq, -⟩ := h.push eof hw
    exact ⟨r', heq⟩

/-- Contradicting fragments up to the edge of the window, one beyond it, and one that is cut there. -/
theorem window_respected_four : ∃ r : StreamReassembler, Reach (Fresh 4) anyStep whole r ∧
    r.output.bufferSize = 4 ∧ r.unassembledBytes = 0 ∧ r.output.bufferSize + r.unassembledBytes ≤ 4 := by
  obtain ⟨r, hr, htest⟩ : ∃ r, Reach (Fresh 4) anyStep whole r ∧
      (decide (r.output.bufferSize = 4) && decide (r.unassembledBytes = 0)) = true :=
    Reach.exec_any _ (s := new 4)
      (l := [.push [1, 2] 2 false, .push [7, 7, 7] 4 true, .push [9] 0 false, .read 1,
        .push [3, 3, 3, 3, 3, 3] 0 true])
      (.start rfl) (by decide +kernel)
  simp only [Bool.and_eq_true, decide_eq_true_eq] at htest
  exact ⟨r, hr, htest.1, htest.2, (window_respected hr).1⟩

/-- **A fragment across the end of the window**: two bytes at index 1 of a reassembler with room for two
are both stored, and when byte 0 comes there are three. -/
theorem straddling_push_overflows : ∃ r : StreamReassembler, Reach (Fresh 2) anyStep sized r ∧
    r.output.bufferSize + r.unassembledBytes = 3 ∧ r.output.bytesRead = 0 ∧ Stores r.bufferList 2 := by
  obtain ⟨r, hr, htest⟩ : ∃ r, Reach (Fresh 2) anyStep sized r ∧
      (decide (r.output.bufferSize + r.unassembledBytes = 3) && decide (r.output.bytesRead = 0)
        && r.bufferList.any (fun b => decide (b.first ≤ 2 ∧ 2 < b.second))) = true :=
    Reach.exec_any _ (s := new 2) (l := [.push [1, 2] 1 false, .push [0] 0 false]) (.start rfl)
      (by decide +kernel)
  simp only [Bool.and_eq_true, decide_eq_true_eq, List.any_eq_true] at htest
  exact ⟨r, hr, htest.1.1, htest.1.2, htest.2⟩

/-- **The last index**: its distance from a `_top_pointer` of 0 wraps, so its byte is stored as well. -/
theorem last_index_stored : ∃ r, (new 2).pushSubstring [7] (2 ^ 64 - 1) false = .ok r ∧
    r.bufferList.map (·.first) = [2 ^ 64 - 1] ∧ r.unassembledBytes = 1 :=
  ⟨_, rfl, by decide, by decide⟩

end StreamReassembler

end Sponge
