/-
# `Sponge.ReassemblerStream` — the reassembler refines a byte map.

`Sponge.StreamReassembler` says what a push does to the shape of the state.  Here the bytes come in.
The peer's stream is a partial map `f` from indices to bytes, with an end index `fin` once that is
known; a push is honest when its bytes agree with `f` and its end mark stands at `fin`.  `Honest` says
that everything the reassembler has ever written or still stores is a fragment of `f`; it survives
every honest push and every read, and it is monotone in `f`, so a sender that is still producing its
stream is covered too.

The last section closes this for a fixed byte string `S`: over every interleaving of pushes of slices of
`S` with reads, the output is a prefix of `S`, what is stored is the rest of what was received inside
the window, and the stream ends only at the end of `S`.
-/
import Sponge.StreamReassembler
import Sponge.Lib.Run
import Mathlib.Data.Finset.Card

namespace Sponge

open Sponge.Lib BufferStringList

namespace StreamReassembler

/-! ## Honest bytes -/

/-- All bytes written so far (those already `consumed` by the reader and those still in the output) and
all stored fragments belong to the map `f`; an ended output has reached `fin`. -/
structure Honest (f : Nat → Option UInt8) (fin : Option Nat) (base : Nat) (consumed : Bytes)
    (r : StreamReassembler) : Prop where
  ordered : Ordered base r
  content : Content f fin r.bufferList
  written : Agrees f base (consumed ++ r.output.contents)
  count : consumed.length = r.output.bytesRead
  ended : r.output.isInputEnd = true → fin = some r.topPointer

variable {f : Nat → Option UInt8} {fin : Option Nat} {base : Nat} {consumed : Bytes}
  {r : StreamReassembler}

theorem Honest.new (f : Nat → Option UInt8) (fin : Option Nat) (capacity : Nat) :
    Honest f fin 0 [] (new capacity) where
  ordered := Ordered.new capacity
  content := Content.nil f fin
  written := Agrees.nil f 0
  count := rfl
  ended := fun h => absurd h (by simp [StreamReassembler.new, ByteStream.new])

/-- A map that grows, and an end index that becomes known, keep everything honest. -/
theorem Honest.mono (h : Honest f fin base consumed r) {g : Nat → Option UInt8} {fin' : Option Nat}
    (hfg : ∀ i a, f i = some a → g i = some a) (hfin : ∀ e, fin = some e → fin' = some e) :
    Honest g fin' base consumed r where
  ordered := h.ordered
  content := ⟨fun b hb => (h.content.agrees b hb).mono hfg,
    fun b hb he => hfin _ (h.content.mark b hb he)⟩
  written := h.written.mono hfg
  count := h.count
  ended := fun he => hfin _ (h.ended he)

/-- The number of bytes ever written is the counter of the output. -/
theorem Honest.written_length (h : Honest f fin base consumed r) :
    (consumed ++ r.output.contents).length = r.output.bytesWirtten := by
  rw [List.length_append, h.count, h.ordered.out.balance]

/-- **`settle` keeps honest bytes.** An ended output cannot grow: at its end index the map is empty. -/
theorem Honest.settle (h : Honest f fin base consumed r) (hend : EndsAt f fin)
    {list : BufferStringList} (hc : Content f fin list) (hs : Sorted list)
    (habove : ∀ b ∈ list, r.topPointer ≤ b.first)
    (hwin : ∀ b ∈ list, b.first < base + r.output.bytesRead + r.capacity) (hne : list ≠ []) :
    Honest f fin base consumed (r.settle list) := by
  have hord := h.ordered.settle hs habove hwin hne
  have hnext : base + (consumed ++ r.output.contents).length = r.topPointer := by
    rw [h.written_length, h.ordered.top]
  rcases settle_cases h.ordered hs habove hwin hne with
    ⟨front, rest, rfl, _, hst, hbl, hin⟩ | ⟨front, rest, rfl, hfront, hst, hbl, hin⟩ |
    ⟨front, rfl, hfront, hlt, hst, hbl, hin⟩
  · refine ⟨hord, by rw [hbl]; exact hc, ?_, by rw [hst.read]; exact h.count, ?_⟩
    · rw [hst.contents, List.append_nil]
      exact h.written
    · intro he
      rw [hin] at he
      rw [h.ended he, hst.top]
      rfl
  · have hfa := hc.agrees front (by simp)
    rw [hfront] at hfa
    refine ⟨hord, ?_, ?_, by rw [hst.read]; exact h.count, ?_⟩
    · rw [hbl]
      exact ⟨fun b hb => hc.agrees b (by simp [hb]), fun b hb => hc.mark b (by simp [hb])⟩
    · rw [hst.contents, ← List.append_assoc, agrees_append, hnext]
      exact ⟨h.written, hfa⟩
    · intro he
      rw [hin, Bool.or_eq_true] at he
      have hsec := (hs.fits front (by simp)).second_eq
      rcases he with he | he
      · have hfin := h.ended he
        have hle := hfa.end_le (hend _ hfin _ (Nat.le_refl _)) (Nat.le_refl _)
        rw [hfin, hst.top, show front.target.length = 0 by omega, Nat.add_zero]
      · rw [hc.mark front (by simp) he, hst.top, hsec, hfront]
  · have hfa := hc.agrees front (by simp)
    rw [hfront] at hfa
    have hsec := (hs.fits front (by simp)).second_eq
    have hflt := (hs.fits front (by simp)).lt
    have hmk : Fits (BufferString.make (r.topPointer + r.currentCapactiy)
        (front.target.drop r.currentCapactiy) front.eof) :=
      fits_make (by rw [List.length_drop]; omega) _
    refine ⟨hord, ?_, ?_, by rw [hst.read]; exact h.count, ?_⟩
    · rw [hbl]
      refine ⟨fun b hb => ?_, fun b hb he => ?_⟩
      · rw [List.mem_singleton.mp hb]
        exact hfa.drop _
      · rw [List.mem_singleton.mp hb] at he ⊢
        rw [hmk.second_eq, hc.mark front (by simp) he, hsec, hfront]
        simp only [BufferString.make_first, BufferString.make_target, List.length_drop,
          Option.some.injEq]
        omega
    · rw [hst.contents, ← List.append_assoc, agrees_append, hnext]
      exact ⟨h.written, hfa.take _⟩
    · intro he
      rw [hin] at he
      have hle := hfa.end_le (hend _ (h.ended he) _ (Nat.le_refl _)) (Nat.le_refl _)
      omega

/-- **An honest push** returns, and leaves everything honest. -/
theorem Honest.push (h : Honest f fin base consumed r) (hend : EndsAt f fin)
    {data : Bytes} {index : Nat} {eof : Bool} (hf : Agrees f index data)
    (heof : eof = true → fin = some (index + data.length))
    (hlt : index + data.length + 1 < 2 ^ 64) (htop : r.topPointer + 1 < 2 ^ 64) :
    ∃ r', r.pushSubstring data index eof = .ok r' ∧ Honest f fin base consumed r' := by
  rcases h.ordered.push_cases eof hlt htop with
    ⟨_, heq⟩ | ⟨hd, list, hpb, heq, hs, hne, habove, hwin, _, _⟩
  · exact ⟨r, heq, h⟩
  · refine ⟨r.settle list, heq, ?_⟩
    have hcutle := r.cut_length_le data index
    have hcutAgrees : Agrees f (max index r.topPointer) (r.cut data index) := by
      have hdrop := hf.drop (r.topPointer - index)
      rw [show index + (r.topPointer - index) = max index r.topPointer by omega] at hdrop
      exact hdrop.take _
    have hcutEof : r.cutEof data index eof = true →
        fin = some (max index r.topPointer + (r.cut data index).length) := by
      intro he
      rw [cutEof, Bool.and_eq_true, decide_eq_true_eq] at he
      rw [Dropped, not_or] at hd
      rw [heof he.1, cut, List.length_take, List.length_drop, Option.some.injEq]
      omega
    have hkept : max index r.topPointer + (r.cut data index).length < 2 ^ 64 := by
      rw [Dropped, not_or] at hd
      omega
    exact h.settle hend (h.content.pushBack h.ordered.sorted hkept hend hcutAgrees hcutEof hpb)
      hs habove hwin hne

/-- Reading moves bytes from the output to the reader. -/
theorem Honest.read (h : Honest f fin base consumed r) (len : Nat) :
    Honest f fin base (consumed ++ r.output.removed len) { r with output := (r.output.read len).1 } := by
  obtain ⟨-, h2, h3⟩ := h.ordered.out.read len
  refine ⟨h.ordered.read len, h.content, ?_, ?_, ?_⟩
  · dsimp only
    rw [List.append_assoc, ← h2]
    exact h.written
  · dsimp only
    rw [h3, List.length_append, h.count]
  · simpa using h.ended

/-- A read of what is there returns it: no more of a string `S` is there than a string can hold. -/
theorem Honest.take {S : Bytes} (h : Honest (placed base S) fin base consumed r) (hS : S.length < 2 ^ 63) {len : Nat}
    (hle : len ≤ r.output.contents.length) :
    r.output.read len = ((r.output.read len).1, .ok (r.output.contents.take len)) ∧
    Honest (placed base S) fin base (consumed ++ r.output.contents.take len)
      { r with output := (r.output.read len).1 } := by
  have hall := h.written.eq_take.2
  rw [List.length_append] at hall
  have hlen : len ≤ maxSize := by
    rw [maxSize]
    omega
  have hread := h.read len
  rw [r.output.removed_of_le hlen, h.ordered.out.peeked] at hread
  exact ⟨h.ordered.out.read_of_le hlen hle, hread⟩

/-- The output may be ended at the end index. -/
theorem Honest.endInput (h : Honest f fin base consumed r) (hfin : fin = some r.topPointer) :
    Honest f fin base consumed { r with output := r.output.endInput } :=
  ⟨⟨h.ordered.out.endInput, h.ordered.cap, h.ordered.top, h.ordered.sorted, h.ordered.above,
    h.ordered.window⟩, h.content, h.written, h.count, fun _ => hfin⟩

theorem Honest.setError (h : Honest f fin base consumed r) :
    Honest f fin base consumed { r with output := r.output.setError } :=
  ⟨⟨h.ordered.out.setError, h.ordered.cap, h.ordered.top, h.ordered.sorted, h.ordered.above,
    h.ordered.window⟩, h.content, h.written, h.count, h.ended⟩

end StreamReassembler

/-! ## Runs over a fixed byte string -/

/-- A reassembler together with the bytes its reader has taken out of the output so far. -/
structure ObservedReassembler where
  reassembler : StreamReassembler
  consumed : Bytes := []

/-- The calls of a run over the byte string `S`: `push_substring(S[i..j), i, eof)`, or a read of `len`
bytes from `stream_out()`. -/
inductive ReassemblerCall where
  | push (i j : Nat) (eof : Bool)
  | read (len : Nat)

namespace ObservedReassembler

/-- The fragment `S[i..j)`. -/
def slice (S : Bytes) (i j : Nat) : Bytes := (S.drop i).take (j - i)

def step (S : Bytes) (o : ObservedReassembler) : ReassemblerCall → Except Exception ObservedReassembler
  | .push i j eof =>
    (o.reassembler.pushSubstring (slice S i j) i eof).map fun r => { o with reassembler := r }
  | .read len =>
    match o.reassembler.output.read len with
    | (output, .ok bytes) =>
      .ok { reassembler := { o.reassembler with output := output }, consumed := o.consumed ++ bytes }
    | (_, .error e) => .error e

/-- Slices of `S`, an end mark only on the last byte, and reads of what is there. -/
def ok (S : Bytes) (o : ObservedReassembler) : ReassemblerCall → Prop
  | .push i j eof => i ≤ j ∧ j ≤ S.length ∧ (eof = true → j = S.length)
  | .read len => len ≤ o.reassembler.output.bufferSize

instance (S : Bytes) (o : ObservedReassembler) (c : ReassemblerCall) : Decidable (ok S o c) :=
  match c with
  | .push i j eof => inferInstanceAs (Decidable (i ≤ j ∧ j ≤ S.length ∧ (eof = true → j = S.length)))
  | .read len => inferInstanceAs (Decidable (len ≤ o.reassembler.output.bufferSize))

/-- The states of all runs over `S` with a reassembler of the given capacity. -/
def Reachable (S : Bytes) (capacity : Nat) : ObservedReassembler → Prop :=
  Reach (fun o => o = { reassembler := StreamReassembler.new capacity }) (step S) (ok S)

/-- Every byte ever written to the output: those taken out, then those still in it. -/
def written (o : ObservedReassembler) : Bytes :=
  o.consumed ++ o.reassembler.output.peeked o.reassembler.output.bufferSize

theorem slice_length {S : Bytes} {i j : Nat} (hij : i ≤ j) (hj : j ≤ S.length) :
    (slice S i j).length = j - i := by
  rw [slice, List.length_take, List.length_drop]
  omega

theorem agrees_placed_slice (S : Bytes) (i j : Nat) : Agrees (placed 0 S) i (slice S i j) := by
  have h := agrees_slice 0 S i (j - i)
  rwa [Nat.zero_add] at h

theorem endsAt_placed (base : Nat) (S : Bytes) :
    EndsAt (placed base S) (some (base + S.length)) := by
  intro e he n hn
  obtain rfl : base + S.length = e := by simpa using he
  rw [placed, if_neg (by omega), List.getElem?_eq_none (by omega)]

theorem step_push {S : Bytes} {o o' : ObservedReassembler} {i j : Nat} {eof : Bool}
    (h : o.step S (.push i j eof) = .ok o') :
    ∃ r', o.reassembler.pushSubstring (slice S i j) i eof = .ok r' ∧
      { o with reassembler := r' } = o' :=
  map_ok.mp h

/-- The invariant of these runs. -/
def Inv (S : Bytes) (capacity : Nat) (o : ObservedReassembler) : Prop :=
  o.reassembler.capacity = capacity ∧
  StreamReassembler.Honest (placed 0 S) (some (0 + S.length)) 0 o.consumed o.reassembler

theorem Inv.top_le {S : Bytes} {capacity : Nat} {o : ObservedReassembler} (h : o.Inv S capacity) :
    o.reassembler.topPointer ≤ S.length := by
  have h1 := h.2.written.eq_take.2
  rw [h.2.written_length] at h1
  rw [h.2.ordered.top]
  omega

/-- Every honest call returns and keeps the invariant. -/
theorem Inv.step {S : Bytes} (hS : S.length < 2 ^ 63) {capacity : Nat} {o : ObservedReassembler}
    (h : o.Inv S capacity) {c : ReassemblerCall} (hok : ok S o c) :
    ∃ o', o.step S c = .ok o' ∧ o'.Inv S capacity := by
  cases c with
  | push i j eof =>
    obtain ⟨hij, hj, heof⟩ := hok
    have hlen := slice_length hij hj
    have htop := h.top_le
    have hmark : eof = true → some (0 + S.length) = some (i + (slice S i j).length) := by
      intro he
      rw [hlen, heof he, Nat.zero_add, Option.some.injEq]
      omega
    obtain ⟨r', heq, hr'⟩ := h.2.push (endsAt_placed 0 S) (agrees_placed_slice S i j) hmark (by omega)
      (by omega)
    refine ⟨{ o with reassembler := r' }, by rw [ObservedReassembler.step, heq]; rfl, ?_, hr'⟩
    exact (StreamReassembler.pushSubstring_frame heq).1.trans h.1
  | read len =>
    rw [ok, h.2.ordered.out.bufferSize] at hok
    obtain ⟨hread, hhonest⟩ := h.2.take hS hok
    refine ⟨_, by rw [ObservedReassembler.step, hread], ?_⟩
    exact ⟨h.1, hhonest⟩

theorem Reachable.inv {S : Bytes} (hS : S.length < 2 ^ 63) {capacity : Nat} {o : ObservedReassembler}
    (hr : Reachable S capacity o) : o.Inv S capacity := by
  refine Reach.invariant ?_ ?_ hr
  · rintro o rfl
    exact ⟨rfl, StreamReassembler.Honest.new _ _ capacity⟩
  · intro o c o' h hok hs
    obtain ⟨o'', hs', h'⟩ := h.step hS hok
    obtain rfl : o'' = o' := Except.ok.inj (hs'.symm.trans hs)
    exact h'

/-- The stored bytes are the bytes of `S` at their indices, at or above `_top_pointer`. -/
theorem Inv.stored {S : Bytes} {capacity : Nat} {o : ObservedReassembler} (h : o.Inv S capacity) :
    ∀ b ∈ o.reassembler.bufferList, ∀ t, t < b.target.length →
      o.reassembler.topPointer ≤ b.first + t ∧ b.target[t]? = S[b.first + t]? := by
  intro b hb t ht
  have habove := h.2.ordered.above b hb
  have hval := h.2.content.agrees b hb t ht
  rw [placed, if_neg (by omega), Nat.sub_zero] at hval
  exact ⟨by omega, hval.symm⟩

/-- **The reassembler refines a byte map.** In every reachable state each further call returns; what was
written is `S` up to `_top_pointer`; what is stored is the rest of what arrived inside the window, each
index once; and the output ends only at the end of `S`. -/
theorem reassembler_refines {S : Bytes} (hS : S.length < 2 ^ 63) {capacity : Nat}
    {o : ObservedReassembler} (hr : Reachable S capacity o) :
    (∀ c, ok S o c → ∃ o', o.step S c = .ok o') ∧
    o.written = S.take o.reassembler.topPointer ∧
    o.reassembler.topPointer ≤ S.length ∧
    o.reassembler.topPointer = o.reassembler.output.bytesWritten ∧
    (∀ b ∈ o.reassembler.bufferList, ∀ t, t < b.target.length →
      o.reassembler.topPointer ≤ b.first + t ∧ b.target[t]? = S[b.first + t]?) ∧
    (storedIndices o.reassembler.bufferList).Nodup ∧
    o.reassembler.unassembledBytes = (storedIndices o.reassembler.bufferList).toFinset.card ∧
    (∀ i j eof o', ok S o (.push i j eof) → o.step S (.push i j eof) = .ok o' →
      (∀ n, i ≤ n → n < j → o.reassembler.topPointer ≤ n →
        n < o.reassembler.output.bytesRead + capacity →
        n < o'.reassembler.topPointer ∨ n ∈ storedIndices o'.reassembler.bufferList) ∧
      (¬ o.reassembler.Dropped (j - i) i → o'.reassembler.output.bufferSize = capacity ∨
        o'.reassembler.topPointer ∉ storedIndices o'.reassembler.bufferList)) ∧
    (o.reassembler.output.inputEnded = true → o.reassembler.topPointer = S.length) := by
  have h := hr.inv hS
  have hord := h.2.ordered
  have htop := hord.top
  rw [Nat.zero_add] at htop
  refine ⟨fun c hok => ?_, ?_, h.top_le, htop, h.stored, hord.sorted.nodup, ?_, ?_, fun he => ?_⟩
  · obtain ⟨o', hs, _⟩ := h.step hS hok
    exact ⟨o', hs⟩
  · rw [written, hord.out.peeked_bufferSize, htop, ← h.2.written_length]
    exact h.2.written.eq_take.1
  · rw [List.toFinset_card_of_nodup hord.sorted.nodup]
    exact hord.sorted.size_eq
  · rintro i j eof o' hok hs
    have hinv : o'.Inv S capacity := Reachable.inv hS (Reach.step hr hok hs)
    obtain ⟨hij, hj, _⟩ := hok
    have hlen := slice_length hij hj
    have hle := h.top_le
    obtain ⟨r', hpush, rfl⟩ := step_push hs
    obtain ⟨_, hfrag, hhead⟩ := hord.push_retains (by omega) (by omega) hpush
    simp only [mem_storedIndices hinv.2.ordered.sorted, hinv.2.ordered.out.bufferSize]
    refine ⟨fun n h1 h2 h3 h4 => hfrag n h1 (by omega) h3 (by rw [h.1]; omega), fun hd => ?_⟩
    rw [← hlen] at hd
    have := hhead hd
    rwa [h.1] at this
  · have := h.2.ended he
    rw [Nat.zero_add, Option.some.injEq] at this
    exact this.symm

/-- Three bytes past a hole, then the hole, then a read, in a window of three bytes. -/
theorem reassembler_refines_hole : ∃ o : ObservedReassembler, Reachable [1, 2, 3, 4] 3 o ∧
    o.reassembler.topPointer = 3 ∧ o.written = [1, 2, 3] ∧ o.consumed = [1, 2] := by
  have hr : Reachable [1, 2, 3, 4] 3 _ := Reach.of_exec
    (s := { reassembler := StreamReassembler.new 3 })
    (l := [.push 1 4 true, .push 0 2 false, .read 2]) (.start rfl) rfl
  exact ⟨_, hr, rfl, (reassembler_refines (by decide) hr).2.1, rfl⟩

end ObservedReassembler

end Sponge
