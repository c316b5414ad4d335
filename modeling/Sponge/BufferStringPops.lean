/-
# `Sponge.BufferStringPops` — taking bytes off the front of a fragment list.

`pop_up_buffer` and `pop_up_buffer_string` should take bytes off the front: `frontBytes` says which ones, and
`splitFront` what is then left, with the rest of a split element in front, under its own index and with its own
end mark.  A list of fragments of one stream, popped like that, is again such a list, and every byte that was not
returned is found at the index it had (`Holds.popped`).

The source appends the rest of a split element at the BACK of the deque, and `pop_up_buffer` builds it without
the end mark.  With a single element in the list, and for `pop_up_buffer` no mark on it, back and front are the
same place (`popUpBuffer_eq`, `popUpBufferString_eq`); with two elements the list is out of order from then on
(`split_goes_behind`), and the binary searches of `push_back` rest on the order.
-/
import Sponge.BufferStringBytes
import Sponge.Lib.Run

namespace Sponge

open Sponge.Lib

namespace BufferStringList

/-! ## What a pop should do -/

/-- The first `n` bytes of the first element. -/
def frontBytes (list : BufferStringList) (n : Nat) : Bytes :=
  match list with
  | [] => []
  | front :: _ => front.target.take n

/-- What is left of an element behind its first `n` bytes. -/
def remainder (b : BufferString) (n : Nat) : BufferString :=
  { b with first := b.first + n, target := b.target.drop n }

/-- The list without those bytes. -/
def splitFront (list : BufferStringList) (n : Nat) : BufferStringList :=
  match list with
  | [] => []
  | front :: rest => if n < front.size then remainder front n :: rest else rest

/-- A pop of up to `n` bytes returned `out` and left `list'`: the bytes from the lowest index on, and the list
without them, in which every other byte is where it was. -/
structure Popped (list : BufferStringList) (n : Nat) (out : Bytes) (list' : BufferStringList) : Prop where
  returned : out = frontBytes list n
  left : list' = splitFront list n
  atMost : out.length ≤ n
  lowest : ∀ m, Stores list m → topIndex list ≤ m
  bytes : ∀ k < out.length, byteAt list (topIndex list + k) = out[k]?
  others : ∀ m, byteAt list' m = if m < topIndex list + out.length then none else byteAt list m

/-! ## Lists of fragments of one stream -/

/-- A sorted list of fragments of `stream`, each at its own index. -/
structure Holds (stream : Bytes) (list : BufferStringList) : Prop where
  sorted : Sorted list
  agrees : ∀ b ∈ list, Agrees (placed 0 stream) b.first b.target

variable {stream : Bytes} {list list' : BufferStringList} {front : BufferString} {rest : BufferStringList}
  {m n : Nat}

theorem Holds.nil (stream : Bytes) : Holds stream [] := ⟨Sorted.nil, by simp⟩

theorem Holds.byteAt_stored (h : Holds stream list) (hm : Stores list m) : byteAt list m = stream[m]? := by
  obtain ⟨b, hb, h1, h2⟩ := hm
  have hsecond := (h.sorted.fits b hb).second_eq
  have hagrees := h.agrees b hb (m - b.first) (by omega)
  rw [h.sorted.byteAt_eq hb h1 h2, ← hagrees, placed, if_neg (Nat.not_lt_zero _),
    show b.first + (m - b.first) - 0 = m by omega]

theorem byteAt_unstored (hm : ¬ Stores list m) : byteAt list m = none := by
  have hnone : (list.find? fun b => decide (b.first ≤ m) && decide (m < b.second)) = none := by
    rw [List.find?_eq_none]
    intro b hb hcov
    simp only [Bool.and_eq_true, decide_eq_true_eq] at hcov
    exact hm ⟨b, hb, hcov⟩
  rw [byteAt, hnone]
  rfl

/-- Two lists of the same stream hold the same byte wherever both hold one. -/
theorem Holds.byteAt_congr (h : Holds stream list) (h' : Holds stream list')
    (hm : Stores list' m ↔ Stores list m) : byteAt list' m = byteAt list m := by
  by_cases hst : Stores list m
  · rw [h.byteAt_stored hst, h'.byteAt_stored (hm.mpr hst)]
  · rw [byteAt_unstored hst, byteAt_unstored fun h => hst (hm.mp h)]

/-! ## One `push_back` -/

/-- **`push_back` of a slice of the stream** puts its bytes at their indices and leaves the others alone. -/
theorem Holds.pushBack (h : Holds stream list) (hstream : stream.length < 2 ^ 64) {i j : Nat} (hij : i ≤ j)
    (hj : j ≤ stream.length) (eof : Bool) :
    ∃ list', pushBack list ((stream.drop i).take (j - i)) i eof = .ok list' ∧ Holds stream list' ∧
      ∀ m, byteAt list' m = if i ≤ m ∧ m < j then stream[m]? else byteAt list m := by
  have hlen : i + ((stream.drop i).take (j - i)).length = j := by
    rw [List.length_take, List.length_drop]
    omega
  have hslice : Agrees (placed 0 stream) i ((stream.drop i).take (j - i)) := by
    have hagrees := agrees_slice 0 stream i (j - i)
    rwa [Nat.zero_add] at hagrees
  obtain ⟨list', heq, hsorted, hstores, -, -, -, hagrees⟩ :=
    pushBack_union h.sorted (show i + ((stream.drop i).take (j - i)).length < 2 ^ 64 by omega) eof
  have h' : Holds stream list' := ⟨hsorted, hagrees _ hslice h.agrees⟩
  refine ⟨list', heq, h', fun m => ?_⟩
  have hm := hstores m
  rw [hlen] at hm
  by_cases hin : i ≤ m ∧ m < j
  · rw [if_pos hin, h'.byteAt_stored (hm.mpr (Or.inr hin))]
  · rw [if_neg hin]
    exact h.byteAt_congr h' (hm.trans (or_iff_left hin))

/-! ## One pop -/

theorem Fits.remainder (h : Fits front) (hn : n ≤ front.size) : Fits (remainder front n) := by
  have hsecond := h.second_eq
  rw [BufferString.size] at hn
  refine ⟨?_, h.lt⟩
  show front.second = front.first + n + (front.target.drop n).length
  rw [List.length_drop]
  omega

/-- The rest of an element, built anew. -/
theorem Fits.make_remainder (h : Fits front) (hn : n ≤ front.size) :
    BufferString.make (front.first + n) (front.target.drop n) front.eof = BufferStringList.remainder front n := by
  have hsecond : front.second = front.first + n + (front.target.drop n).length := (h.remainder hn).second_eq
  rw [BufferString.make, add64_of_lt (by rw [← hsecond]; exact h.lt)]
  exact congrArg (BufferString.mk (front.first + n) · front.eof (front.target.drop n)) hsecond.symm

theorem Holds.splitFront (h : Holds stream list) (n : Nat) : Holds stream (splitFront list n) := by
  cases list with
  | nil => exact Holds.nil stream
  | cons front rest =>
    obtain ⟨hfits, hgap, hrest⟩ := sorted_cons.mp h.sorted
    have hagrees : ∀ b ∈ rest, Agrees (placed 0 stream) b.first b.target := fun b hb =>
      h.agrees b (List.mem_cons_of_mem _ hb)
    rw [BufferStringList.splitFront]
    split
    · rename_i hlt
      refine ⟨sorted_cons.mpr ⟨hfits.remainder (Nat.le_of_lt hlt), hgap, hrest⟩, fun b hb => ?_⟩
      rcases List.mem_cons.mp hb with rfl | hb
      · exact (h.agrees front List.mem_cons_self).drop n
      · exact hagrees b hb
    · exact ⟨hrest, hagrees⟩

/-- The first element comes first: nothing is stored before it, and what it does not hold lies behind it. -/
theorem Sorted.stores_bounds (h : Sorted (front :: rest)) :
    (Stores (front :: rest) m → front.first ≤ m) ∧ (Stores rest m → front.second < m) := by
  obtain ⟨hfits, hgap, -⟩ := sorted_cons.mp h
  have hsecond := hfits.second_eq
  have hrest : Stores rest m → front.second < m := by
    rintro ⟨b, hb, h1, -⟩
    have hlt := hgap b hb
    omega
  refine ⟨fun hm => ?_, hrest⟩
  rcases stores_cons.mp hm with ⟨h1, -⟩ | hm
  · exact h1
  · have hlt := hrest hm
    omega

/-- Exactly the indices of the popped bytes are gone. -/
theorem Sorted.stores_splitFront (h : Sorted (front :: rest)) :
    Stores (splitFront (front :: rest) n) m ↔
      Stores (front :: rest) m ∧ front.first + (front.target.take n).length ≤ m := by
  obtain ⟨hfits, -, -⟩ := sorted_cons.mp h
  have hsecond := hfits.second_eq
  have hbehind := (h.stores_bounds (m := m)).2
  rw [List.length_take, stores_cons, BufferStringList.splitFront, BufferString.size]
  split
  · rename_i hlt
    have hfirst : (remainder front n).first = front.first + n := rfl
    have hsame : (remainder front n).second = front.second := rfl
    rw [stores_cons, hfirst, hsame]
    constructor
    · rintro (hm | hm)
      · exact ⟨Or.inl (by omega), by omega⟩
      · have hlt' := hbehind hm
        exact ⟨Or.inr hm, by omega⟩
    · rintro ⟨hm | hm, hle⟩
      · exact Or.inl (by omega)
      · exact Or.inr hm
  · constructor
    · intro hm
      have hlt' := hbehind hm
      exact ⟨Or.inr hm, by omega⟩
    · rintro ⟨hm | hm, hle⟩
      · omega
      · exact hm

/-- **A pop that takes the front off** returns bytes of the stream from the lowest index on and moves no other. -/
theorem Holds.popped (h : Holds stream list) (n : Nat) :
    Popped list n (frontBytes list n) (BufferStringList.splitFront list n) := by
  cases list with
  | nil => exact ⟨rfl, rfl, Nat.zero_le n, by simp [Stores], by simp [frontBytes], fun m => (ite_self none).symm⟩
  | cons front rest =>
    have hfits := (sorted_cons.mp h.sorted).1
    have hsecond := hfits.second_eq
    refine ⟨rfl, rfl, List.length_take_le n front.target, fun m => (h.sorted.stores_bounds).1, fun k hk => ?_,
      fun m => ?_⟩
    · show byteAt (front :: rest) (front.first + k) = (front.target.take n)[k]?
      have hk' : k < (front.target.take n).length := hk
      rw [List.length_take] at hk'
      rw [h.sorted.byteAt_eq List.mem_cons_self (Nat.le_add_right _ _) (by omega), Nat.add_sub_cancel_left,
        List.getElem?_take_of_lt (by omega)]
    · show byteAt (BufferStringList.splitFront (front :: rest) n) m
        = if m < front.first + (front.target.take n).length then none else byteAt (front :: rest) m
      have hm := h.sorted.stores_splitFront (n := n) (m := m)
      split
      · rename_i hlt
        exact byteAt_unstored fun hst => absurd (hm.mp hst).2 (by omega)
      · rename_i hge
        exact h.byteAt_congr (h.splitFront n) (hm.trans (and_iff_left (by omega)))

/-! ## What the source does -/

/-- The pop does not split, or splits the only element, and that element has no mark. -/
def SplitsUnmarked (list : BufferStringList) (n : Nat) : Prop :=
  match list with
  | [] => True
  | front :: rest => n < front.size → rest = [] ∧ front.eof = false

/-- The pop does not split, or splits the only element. -/
def SplitsAlone (list : BufferStringList) (n : Nat) : Prop :=
  match list with
  | [] => True
  | front :: rest => n < front.size → rest = []

instance (list : BufferStringList) (n : Nat) : Decidable (SplitsUnmarked list n) :=
  match list with
  | [] => isTrue trivial
  | front :: rest => inferInstanceAs (Decidable (n < front.size → rest = [] ∧ front.eof = false))

instance (list : BufferStringList) (n : Nat) : Decidable (SplitsAlone list n) :=
  match list with
  | [] => isTrue trivial
  | front :: rest => inferInstanceAs (Decidable (n < front.size → rest = []))

theorem popUpBuffer_eq (h : Sorted list) (hok : SplitsUnmarked list n) :
    popUpBuffer list n = (frontBytes list n, splitFront list n) := by
  cases list with
  | nil => rfl
  | cons front rest =>
    rw [popUpBuffer, frontBytes, splitFront]
    split
    · rename_i hge
      rw [if_neg (Nat.not_lt.mpr hge), List.take_of_length_le hge]
    · rename_i hlt
      have hlt' : n < front.size := Nat.lt_of_not_le hlt
      obtain ⟨rfl, heof⟩ := hok hlt'
      rw [if_pos hlt', ← (h.fits front List.mem_cons_self).make_remainder (Nat.le_of_lt hlt'), heof]
      rfl

/-- The whole front element, or its first bytes without a mark. -/
theorem popUpBufferString_eq (h : Sorted list) (hok : SplitsAlone list n) :
    (popUpBufferString list n).1.target = frontBytes list n ∧
    (popUpBufferString list n).1.first = topIndex list ∧
    (popUpBufferString list n).2 = splitFront list n := by
  cases list with
  | nil => exact ⟨rfl, rfl, rfl⟩
  | cons front rest =>
    rw [popUpBufferString, frontBytes, splitFront]
    split
    · rename_i hge
      rw [if_neg (Nat.not_lt.mpr hge), List.take_of_length_le hge]
      exact ⟨rfl, rfl, rfl⟩
    · rename_i hlt
      have hlt' : n < front.size := Nat.lt_of_not_le hlt
      obtain rfl := hok hlt'
      rw [if_pos hlt', ← (h.fits front List.mem_cons_self).make_remainder (Nat.le_of_lt hlt')]
      exact ⟨rfl, rfl, rfl⟩

/-! ## Runs -/

/-- The calls of the owner of a list that collects a stream. -/
inductive Call where
  /-- `push_back(S[i..j), i, eof)`. -/
  | pushBack (i j : Nat) (eof : Bool)
  | popUpBuffer (size : Nat)
  | popUpBufferString (size : Nat)

def step (stream : Bytes) (list : BufferStringList) : Call → Except Exception BufferStringList
  | .pushBack i j eof => pushBack list ((stream.drop i).take (j - i)) i eof
  | .popUpBuffer size => .ok (popUpBuffer list size).2
  | .popUpBufferString size => .ok (popUpBufferString list size).2

/-- The slices are slices of the stream, and a pop that splits an element leaves it in front, with its mark. -/
def splitsInPlace (stream : Bytes) (list : BufferStringList) : Call → Prop
  | .pushBack i j _ => i ≤ j ∧ j ≤ stream.length
  | .popUpBuffer size => SplitsUnmarked list size
  | .popUpBufferString size => SplitsAlone list size

instance (stream : Bytes) (list : BufferStringList) : DecidablePred (splitsInPlace stream list)
  | .pushBack _ _ _ => inferInstanceAs (Decidable (_ ∧ _))
  | .popUpBuffer size => inferInstanceAs (Decidable (SplitsUnmarked list size))
  | .popUpBufferString size => inferInstanceAs (Decidable (SplitsAlone list size))

theorem Holds.step (h : Holds stream list) (hstream : stream.length < 2 ^ 64) {call : Call}
    (hok : splitsInPlace stream list call) (hs : step stream list call = .ok list') : Holds stream list' := by
  cases call with
  | pushBack i j eof =>
    obtain ⟨l, hl, hh, -⟩ := h.pushBack hstream hok.1 hok.2 eof
    obtain rfl : l = list' := Except.ok.inj (hl.symm.trans hs)
    exact hh
  | popUpBuffer size =>
    obtain rfl := Except.ok.inj hs
    rw [popUpBuffer_eq h.sorted hok]
    exact h.splitFront size
  | popUpBufferString size =>
    obtain rfl := Except.ok.inj hs
    rw [(popUpBufferString_eq h.sorted hok).2.2]
    exact h.splitFront size

/-- **The list stays ordered under pops that split in place.**  In every state of every run that pushes slices of
one stream and pops with any sizes, as long as each pop that splits an element finds no other element in the
list, and for `pop_up_buffer` no mark on it: the list is sorted and strictly separated, and what it holds for an
index is the byte of the stream; `push_back` returns and puts its bytes at their indices; and both pops return
the bytes from the lowest index on and leave every other byte, and the mark, where it was. -/
theorem pops_keep_order (hstream : stream.length < 2 ^ 64)
    (hr : Reach (· = []) (step stream) (splitsInPlace stream) list) :
    Sorted list ∧
    (∀ m x, byteAt list m = some x → stream[m]? = some x) ∧
    (∀ i j eof, i ≤ j → j ≤ stream.length → ∃ list',
      pushBack list ((stream.drop i).take (j - i)) i eof = .ok list' ∧ Sorted list' ∧
      ∀ m, byteAt list' m = if i ≤ m ∧ m < j then stream[m]? else byteAt list m) ∧
    (∀ n, SplitsUnmarked list n → Popped list n (popUpBuffer list n).1 (popUpBuffer list n).2) ∧
    (∀ n, SplitsAlone list n → (popUpBufferString list n).1.first = topIndex list ∧
      Popped list n (popUpBufferString list n).1.target (popUpBufferString list n).2) := by
  have h : Holds stream list := by
    refine Reach.invariant (P := Holds stream) ?_ (fun _ _ _ h hok hs => h.step hstream hok hs) hr
    rintro _ rfl
    exact Holds.nil stream
  refine ⟨h.sorted, fun m x hx => ?_, fun i j eof hij hj => ?_, fun n hok => ?_, fun n hok => ?_⟩
  · by_cases hst : Stores list m
    · rwa [h.byteAt_stored hst] at hx
    · rw [byteAt_unstored hst] at hx
      exact absurd hx (by simp)
  · obtain ⟨list', heq, h', hbytes⟩ := h.pushBack hstream hij hj eof
    exact ⟨list', heq, h'.sorted, hbytes⟩
  · rw [popUpBuffer_eq h.sorted hok]
    exact h.popped n
  · obtain ⟨htarget, hfirst, hleft⟩ := popUpBufferString_eq h.sorted hok
    rw [htarget, hleft]
    exact ⟨hfirst, h.popped n⟩

/-- Two slices of `[5, 6, 7, 8, 9]`, the first one popped whole, the second one split: its mark stays with the
bytes that are left. -/
theorem pops_keep_order_marked :
    ∃ list, Reach (· = []) (step [5, 6, 7, 8, 9]) (splitsInPlace [5, 6, 7, 8, 9]) list ∧
      list = [.make 3 [8, 9] true] ∧ (popUpBufferString list 1).1.target = [8] ∧
      splitFront list 1 = [.make 4 [9] true] ∧ (popUpBufferString list 1).2 = splitFront list 1 := by
  have hr : Reach (· = []) (step [5, 6, 7, 8, 9]) (splitsInPlace [5, 6, 7, 8, 9])
      [BufferString.make 3 [8, 9] true] :=
    Reach.of_exec (s := []) (l := [.pushBack 3 5 true, .pushBack 0 2 false, .popUpBuffer 9])
      (.start rfl) (by decide +kernel)
  have hpop := ((pops_keep_order (by decide) hr).2.2.2.2 1 (by decide)).2
  exact ⟨_, hr, rfl, hpop.returned.trans (by decide), by decide, hpop.left⟩

/-- **The rest of a split element goes behind**: `abc` at 0 and `ef` at 4, of which one byte is popped.  The list
that is left starts with index 4, and the bytes 1 and 2 come after it. -/
theorem split_goes_behind :
    ∃ list, Reach (· = []) (step [97, 98, 99, 100, 101, 102]) (fun _ _ => True) list ∧
      list = [.make 4 [101, 102] false, .make 1 [98, 99] false] ∧ ¬ Sorted list := by
  refine ⟨_, Reach.of_exec (s := []) (l := [.pushBack 0 3 false, .pushBack 4 6 false, .popUpBuffer 1])
    (.start rfl) (by decide +kernel), rfl, fun h => ?_⟩
  have hgap := (List.pairwise_cons.mp h.gap).1 (.make 1 [98, 99] false) (by simp)
  exact absurd hgap (by decide)

end BufferStringList

end Sponge
