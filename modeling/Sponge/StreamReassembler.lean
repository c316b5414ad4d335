/-
# `Sponge.StreamReassembler` — reassembly of out-of-order substrings.

Models `libsponge/stream_reassembler.{hh,cc}`.  A push is trimmed at `_top_pointer`, refused when it
starts beyond the window, cut to the current capacity, merged into the fragment list, and then the
front of the list is moved to the output stream if it starts at `_top_pointer`.

`_top_pointer` is public (`top_pointer()` returns a reference, and the TCP receiver moves it past the
SYN), so the invariant `Ordered base` allows the index space to start at any `base`: output byte `k`
has index `base + k`.  The window invariant is what keeps the list sorted: a capacity-limited pop
re-appends the remainder at the BACK of the list, which is harmless because it can only happen when
there is no other element (the last case of `settle_cases`).
-/
import Sponge.ByteStream
import Sponge.BufferStringUnion

namespace Sponge

open Sponge.Lib BufferStringList

/-! ## The source functions -/

/-- `StreamReassembler`. -/
structure StreamReassembler where
  topPointer : Nat := 0
  output : ByteStream
  capacity : Nat
  bufferList : BufferStringList := []
  deriving DecidableEq, Repr

namespace StreamReassembler

/-- `StreamReassembler(capacity)`. -/
def new (capacity : Nat) : StreamReassembler :=
  { output := ByteStream.new capacity, capacity := capacity }

/-- `current_capactiy`. -/
def currentCapactiy (r : StreamReassembler) : Nat := sub64 r.capacity r.output.bufferSize

def unassembledBytes (r : StreamReassembler) : Nat := BufferStringList.size r.bufferList

def empty (r : StreamReassembler) : Bool := r.bufferList.isEmpty

/-- The end of `push_substring`: the front of the list, as far as the output has room for it, is
written to the output, which ends if the popped string carries the end mark. -/
def assemble (r : StreamReassembler) : StreamReassembler :=
  let remainCapacity := r.output.remainingCapacity
  let (bufferString, bufferList) := popUpBufferString r.bufferList remainCapacity
  let output := (r.output.write bufferString.target).2
  { r with
    topPointer := add64 r.topPointer bufferString.size
    output := if bufferString.eof then output.endInput else output
    bufferList := bufferList }

/-- The middle of `push_substring`, from the window test on, for a fragment already trimmed at
`_top_pointer`. -/
def keep (r : StreamReassembler) (data : Bytes) (index : Nat) (eof : Bool) :
    Except Exception StreamReassembler :=
  if add64 (sub64 index r.topPointer) 1 > r.currentCapactiy then .ok r
  else
    let eofRef := if data.length > r.currentCapactiy then false else eof
    let dataRef := if data.length > r.currentCapactiy then data.take r.currentCapactiy else data
    (pushBack r.bufferList dataRef index eofRef).map fun bufferList =>
      let r := { r with bufferList := bufferList }
      if r.topPointer ≠ topIndex bufferList then r else r.assemble

/-- `push_substring`. -/
def pushSubstring (r : StreamReassembler) (data : Bytes) (index : Nat) (eof : Bool) :
    Except Exception StreamReassembler :=
  if index < r.topPointer then
    if add64 index data.length < r.topPointer then .ok r
    else
      (substr data (r.topPointer - index) (sub64 data.length (r.topPointer - index))).bind fun data =>
        r.keep data r.topPointer eof
  else
    r.keep data index eof

/-! ## What a push never changes -/

section Frame

variable {P : ByteStream → Prop} (hwrite : ∀ o data, P o → P (o.write data).2)
  (hend : ∀ o, P o → P o.endInput)
variable {r r' : StreamReassembler} {data : Bytes} {index : Nat} {eof : Bool}

include hwrite hend

theorem assemble_keeps (h : P r.output) : r.assemble.capacity = r.capacity ∧ P r.assemble.output := by
  have hw := hwrite r.output (popUpBufferString r.bufferList r.output.remainingCapacity).1.target h
  refine ⟨rfl, ?_⟩
  unfold assemble
  dsimp only
  split
  · exact hend _ hw
  · exact hw

theorem keep_keeps (h : P r.output) (hs : r.keep data index eof = .ok r') :
    r'.capacity = r.capacity ∧ P r'.output := by
  rw [keep] at hs
  split at hs
  · obtain rfl := Except.ok.inj hs
    exact ⟨rfl, h⟩
  · obtain ⟨list, _, rfl⟩ := map_ok.mp hs
    dsimp only
    split
    · exact ⟨rfl, h⟩
    · exact assemble_keeps hwrite hend h

/-- A push does nothing to the output but write to it and end it: what these two keep, it keeps. -/
theorem pushSubstring_keeps (h : P r.output) (hs : r.pushSubstring data index eof = .ok r') :
    r'.capacity = r.capacity ∧ P r'.output := by
  rw [pushSubstring] at hs
  split at hs
  · split at hs
    · obtain rfl := Except.ok.inj hs
      exact ⟨rfl, h⟩
    · obtain ⟨d, _, hk⟩ := bind_ok.mp hs
      exact keep_keeps hwrite hend h hk
  · exact keep_keeps hwrite hend h hs

end Frame

/-- The output has only been written to: nothing is unwritten, unread or reopened. -/
structure Grown (o o' : ByteStream) : Prop where
  read : o'.bytesRead = o.bytesRead
  written : o.bytesWirtten ≤ o'.bytesWirtten
  ended : o.isInputEnd = true → o'.isInputEnd = true

theorem Grown.refl (o : ByteStream) : Grown o o := ⟨rfl, Nat.le_refl _, id⟩

theorem Grown.write {o o' : ByteStream} (h : Grown o o') (data : Bytes) : Grown o (o'.write data).2 := by
  refine ⟨by simp [h.read], Nat.le_trans h.written ?_, by simpa using h.ended⟩
  unfold ByteStream.write
  split
  · exact Nat.le_refl _
  · exact Nat.le_add_right _ _

theorem Grown.endInput {o o' : ByteStream} (h : Grown o o') : Grown o o'.endInput :=
  ⟨h.read, h.written, fun _ => rfl⟩

/-- The capacity is not touched, and the output only grows. -/
theorem pushSubstring_frame {r r' : StreamReassembler} {data : Bytes} {index : Nat} {eof : Bool}
    (h : r.pushSubstring data index eof = .ok r') :
    r'.capacity = r.capacity ∧ Grown r.output r'.output :=
  pushSubstring_keeps (fun _ data hg => hg.write data) (fun _ hg => hg.endInput) (Grown.refl _) h

theorem keep_unmarked {r r' : StreamReassembler} {data : Bytes} {index : Nat}
    (h : ∀ b ∈ r.bufferList, b.eof = false) (hs : r.keep data index false = .ok r') :
    r'.output.isInputEnd = r.output.isInputEnd ∧ ∀ b ∈ r'.bufferList, b.eof = false := by
  rw [keep] at hs
  split at hs
  · obtain rfl := Except.ok.inj hs
    exact ⟨rfl, h⟩
  · rw [ite_self] at hs
    obtain ⟨list, hpush, rfl⟩ := map_ok.mp hs
    have hlist := pushBack_unmarked h hpush
    dsimp only
    split
    · exact ⟨rfl, hlist⟩
    · obtain ⟨hfront, hrest⟩ := popUpBufferString_unmarked hlist r.output.remainingCapacity
      refine ⟨?_, hrest⟩
      rw [assemble]
      dsimp only
      rw [hfront, if_neg (by decide), ByteStream.write_isInputEnd]

/-- A push without end mark does not end the output, unless a mark is stored already. -/
theorem pushSubstring_unmarked {r r' : StreamReassembler} {data : Bytes} {index : Nat}
    (h : ∀ b ∈ r.bufferList, b.eof = false) (hs : r.pushSubstring data index false = .ok r') :
    r'.output.isInputEnd = r.output.isInputEnd ∧ ∀ b ∈ r'.bufferList, b.eof = false := by
  rw [pushSubstring] at hs
  split at hs
  · split at hs
    · obtain rfl := Except.ok.inj hs
      exact ⟨rfl, h⟩
    · obtain ⟨d, -, hk⟩ := bind_ok.mp hs
      exact keep_unmarked h hk
  · exact keep_unmarked h hs

/-- **A push at `_top_pointer` with nothing stored** writes what the output has room for. -/
theorem pushSubstring_top {r : StreamReassembler} (hl : r.bufferList = [])
    (hcap : r.output.capacity = r.capacity) (data : Bytes) (hlt : r.topPointer + data.length < 2 ^ 64)
    (eof : Bool) :
    r.pushSubstring data r.topPointer eof = .ok (if r.currentCapactiy = 0 then r else { r with
      topPointer := r.topPointer + (data.take r.currentCapactiy).length
      output := if eof && decide (data.length ≤ r.currentCapactiy)
        then (r.output.write (data.take r.currentCapactiy)).2.endInput
        else (r.output.write (data.take r.currentCapactiy)).2 }) := by
  have hwin : add64 (sub64 r.topPointer r.topPointer) 1 = 1 := by
    rw [sub64_of_le (Nat.le_refl _), Nat.sub_self]
    rfl
  have hpush : ∀ (d : Bytes) (e : Bool), pushBack [] d r.topPointer e
      = .ok [BufferString.make r.topPointer d e] := fun _ _ => rfl
  rw [pushSubstring, if_neg (Nat.lt_irrefl _), keep, hwin]
  by_cases hroom : r.currentCapactiy = 0
  · rw [if_pos (by omega), if_pos hroom]
  · have hremain : r.output.remainingCapacity = r.currentCapactiy := by
      rw [ByteStream.remainingCapacity, hcap]
      rfl
    have hcut : (data.take r.currentCapactiy).length ≤ r.currentCapactiy := by
      rw [List.length_take]
      omega
    have hnext : add64 r.topPointer (data.take r.currentCapactiy).length
        = r.topPointer + (data.take r.currentCapactiy).length :=
      add64_of_lt (by rw [List.length_take]; omega)
    have hdata : (if data.length > r.currentCapactiy then data.take r.currentCapactiy else data)
        = data.take r.currentCapactiy := by
      split
      · rfl
      · rw [List.take_of_length_le (by omega)]
    have heof : (if data.length > r.currentCapactiy then false else eof)
        = (eof && decide (data.length ≤ r.currentCapactiy)) := by
      by_cases hlen : data.length > r.currentCapactiy
      · rw [if_pos hlen, decide_eq_false (by omega), Bool.and_false]
      · rw [if_neg hlen, decide_eq_true (by omega), Bool.and_true]
    rw [if_neg (by omega), if_neg hroom, hl]
    simp only [hdata, heof, hpush, Except.map, topIndex, BufferString.make_first, ne_eq, not_true,
      if_false, assemble, popUpBufferString, hremain, BufferString.size, BufferString.make_target,
      BufferString.make_eof, ge_iff_le, hcut, if_true, hnext]

theorem keep_beyond {r : StreamReassembler} {data : Bytes} {index : Nat} {eof : Bool}
    (hedge : r.topPointer + r.currentCapactiy ≤ index) (hlt : index + 1 < 2 ^ 64 + r.topPointer) :
    r.keep data index eof = .ok r := by
  rw [keep, sub64_of_le (by omega), add64_of_lt (by omega), if_pos (by omega)]

/-- A push from beyond the window is dropped; the distance from `_top_pointer` must not wrap. -/
theorem pushSubstring_beyond {r : StreamReassembler} {data : Bytes} {index : Nat} {eof : Bool}
    (hedge : r.topPointer + r.currentCapactiy ≤ index) (hlt : index + 1 < 2 ^ 64 + r.topPointer) :
    r.pushSubstring data index eof = .ok r := by
  rw [pushSubstring, if_neg (by omega)]
  exact keep_beyond hedge hlt

/-- A push that ends before `_top_pointer` is dropped. -/
theorem pushSubstring_before {r : StreamReassembler} {data : Bytes} {index : Nat} {eof : Bool}
    (h : index + data.length < r.topPointer) (htop : r.topPointer < 2 ^ 64) :
    r.pushSubstring data index eof = .ok r := by
  rw [pushSubstring, if_pos (by omega), add64_of_lt (by omega), if_pos h]

/-- With no room left every push is dropped. -/
theorem pushSubstring_full {r : StreamReassembler} (hfull : r.currentCapactiy = 0) {data : Bytes}
    {index : Nat} (hlt : index + 1 < 2 ^ 64 + r.topPointer) (eof : Bool) :
    r.pushSubstring data index eof = .ok r := by
  by_cases hbefore : index < r.topPointer
  · rw [pushSubstring, if_pos hbefore]
    by_cases hdup : add64 index data.length < r.topPointer
    · rw [if_pos hdup]
    · have hle : add64 index data.length ≤ index + data.length := Nat.mod_le _ _
      rw [if_neg hdup, substr_of_le (by omega)]
      exact keep_beyond (by omega) (by omega)
  · exact pushSubstring_beyond (by omega) hlt

/-! ## Structure: order, window, output -/

/-- What a reassembler whose index space starts at `base` keeps, whatever bytes arrive. -/
structure Ordered (base : Nat) (r : StreamReassembler) : Prop where
  out : r.output.WF
  cap : r.output.capacity = r.capacity
  top : r.topPointer = base + r.output.bytesWirtten
  sorted : Sorted r.bufferList
  above : ∀ b ∈ r.bufferList, r.topPointer ≤ b.first
  /-- Elements start inside the window, except the remainder of a pop that filled the output. -/
  window : (∀ b ∈ r.bufferList, b.first < base + r.output.bytesRead + r.capacity) ∨
    ∃ b, r.bufferList = [b] ∧ b.first = r.topPointer

theorem Ordered.new (capacity : Nat) : Ordered 0 (new capacity) where
  out := ByteStream.WF.new capacity
  cap := rfl
  top := rfl
  sorted := Sorted.nil
  above := by simp [StreamReassembler.new]
  window := Or.inl (by simp [StreamReassembler.new])

theorem Ordered.currentCapactiy {base : Nat} {r : StreamReassembler} (h : Ordered base r) :
    r.currentCapactiy = r.capacity - r.output.contents.length := by
  have hfits := h.out.fits
  rw [h.cap] at hfits
  rw [StreamReassembler.currentCapactiy, h.out.bufferSize, sub64_of_le hfits]

/-- The first index beyond the window is `top + current capacity`. -/
theorem Ordered.edge {base : Nat} {r : StreamReassembler} (h : Ordered base r) :
    r.topPointer + r.currentCapactiy = base + r.output.bytesRead + r.capacity := by
  have hfits := h.out.fits
  rw [h.cap] at hfits
  rw [h.currentCapactiy, h.top, h.out.balance]
  omega

/-- The fragment that a push leaves after trimming and cutting. -/
def cut (r : StreamReassembler) (data : Bytes) (index : Nat) : Bytes :=
  (data.drop (r.topPointer - index)).take r.currentCapactiy

theorem cut_length_le (r : StreamReassembler) (data : Bytes) (index : Nat) :
    (r.cut data index).length ≤ data.length - (r.topPointer - index) := by
  rw [cut, List.length_take, List.length_drop]
  omega

theorem cut_length_le_room (r : StreamReassembler) (data : Bytes) (index : Nat) :
    (r.cut data index).length ≤ r.currentCapactiy := by
  rw [cut, List.length_take]
  omega

/-- The end mark that a push leaves: cutting removes it. -/
def cutEof (r : StreamReassembler) (data : Bytes) (index : Nat) (eof : Bool) : Bool :=
  eof && decide (data.length - (r.topPointer - index) ≤ r.currentCapactiy)

/-- A push that the source drops: wholly before `_top_pointer`, or starting beyond the window. -/
def Dropped (r : StreamReassembler) (len index : Nat) : Prop :=
  index + len < r.topPointer ∨ r.topPointer + r.currentCapactiy ≤ max index r.topPointer

instance (r : StreamReassembler) (len index : Nat) : Decidable (r.Dropped len index) :=
  inferInstanceAs (Decidable (_ ∨ _))

/-- The state after `push_back`: the front is assembled if it starts at `_top_pointer`. -/
def settle (r : StreamReassembler) (bufferList : BufferStringList) : StreamReassembler :=
  if r.topPointer ≠ topIndex bufferList then { r with bufferList := bufferList }
  else { r with bufferList := bufferList }.assemble

/-- **`push_substring` in one equation**, for fragments inside the 64-bit index space. -/
theorem pushSubstring_eq {r : StreamReassembler} {data : Bytes} {index : Nat} {eof : Bool}
    (hlt : index + data.length + 1 < 2 ^ 64) (htop : r.topPointer + 1 < 2 ^ 64) :
    r.pushSubstring data index eof =
      if r.Dropped data.length index then .ok r
      else (pushBack r.bufferList (r.cut data index) (max index r.topPointer)
        (r.cutEof data index eof)).map r.settle := by
  have hkeep : ∀ (d : Bytes) (i : Nat), r.topPointer ≤ i → i + 1 < 2 ^ 64 →
      r.keep d i eof = if r.topPointer + r.currentCapactiy ≤ i then .ok r
        else (pushBack r.bufferList (d.take r.currentCapactiy) i
          (eof && decide (d.length ≤ r.currentCapactiy))).map r.settle := by
    intro d i hi hi64
    by_cases hout : r.topPointer + r.currentCapactiy ≤ i
    · rw [keep_beyond hout (by omega), if_pos hout]
    · rw [keep, sub64_of_le hi, add64_of_lt (by omega), if_neg (by omega), if_neg hout]
      by_cases hlen : d.length > r.currentCapactiy
      · simp only [hlen, if_true, show ¬ d.length ≤ r.currentCapactiy by omega, decide_false,
          Bool.and_false]
        rfl
      · simp only [hlen, if_false, show d.length ≤ r.currentCapactiy by omega, decide_true,
          Bool.and_true, List.take_of_length_le (show d.length ≤ r.currentCapactiy by omega)]
        rfl
  rw [pushSubstring]
  by_cases hbefore : index < r.topPointer
  · rw [if_pos hbefore, add64_of_lt (by omega)]
    by_cases hdup : index + data.length < r.topPointer
    · have hd : r.Dropped data.length index := Or.inl hdup
      rw [if_pos hdup, if_pos hd]
    · have hsub : substr data (r.topPointer - index) (sub64 data.length (r.topPointer - index))
          = .ok (data.drop (r.topPointer - index)) := by
        rw [substr_of_le (by omega), sub64_of_le (by omega), List.take_of_length_le]
        rw [List.length_drop]
      rw [if_neg hdup, hsub]
      show r.keep (data.drop (r.topPointer - index)) r.topPointer eof = _
      rw [hkeep _ _ (Nat.le_refl _) htop, List.length_drop]
      have hmax : max index r.topPointer = r.topPointer := by omega
      by_cases hout : r.topPointer + r.currentCapactiy ≤ r.topPointer
      · have hd : r.Dropped data.length index := Or.inr (by rw [hmax]; exact hout)
        rw [if_pos hout, if_pos hd]
      · have hd : ¬ r.Dropped data.length index := by
          rw [Dropped, hmax]
          omega
        rw [if_neg hout, if_neg hd, hmax]
        rfl
  · have hmax : max index r.topPointer = index := by omega
    have hz : r.topPointer - index = 0 := by omega
    rw [if_neg hbefore, hkeep _ _ (by omega) (by omega)]
    by_cases hout : r.topPointer + r.currentCapactiy ≤ index
    · have hd : r.Dropped data.length index := Or.inr (by rw [hmax]; exact hout)
      rw [if_pos hout, if_pos hd]
    · have hd : ¬ r.Dropped data.length index := by
        rw [Dropped, hmax]
        omega
      rw [if_neg hout, if_neg hd, hmax, cut, cutEof, hz, List.drop_zero, Nat.sub_zero]

/-! ## Assembling the front -/

/-- The output after a string that fits has been written, and ended if the string carried the mark. -/
theorem output_assembled {o : ByteStream} (h : o.WF) (data : Bytes)
    (hfit : data.length ≤ o.capacity - o.contents.length) (eof : Bool) :
    let o' := if eof then (o.write data).2.endInput else (o.write data).2
    o'.WF ∧ o'.contents = o.contents ++ data ∧ o'.bytesWirtten = o.bytesWirtten + data.length ∧
    o'.bytesRead = o.bytesRead ∧ o'.capacity = o.capacity ∧
    o'.isInputEnd = (o.isInputEnd || eof) := by
  obtain ⟨h1, h2, h3⟩ := h.write_all data hfit
  cases eof with
  | true => exact ⟨h1.endInput, h2, h3, by simp [ByteStream.endInput], by simp [ByteStream.endInput],
      by simp [ByteStream.endInput]⟩
  | false => exact ⟨h1, h2, h3, by simp, by simp, by simp⟩

/-- A state that differs from `r` by the bytes `out`, written to the output. -/
structure Settled (r : StreamReassembler) (out : Bytes) (r' : StreamReassembler) : Prop where
  capacity : r'.capacity = r.capacity
  top : r'.topPointer = r.topPointer + out.length
  outWF : r'.output.WF
  contents : r'.output.contents = r.output.contents ++ out
  written : r'.output.bytesWirtten = r.output.bytesWirtten + out.length
  read : r'.output.bytesRead = r.output.bytesRead
  outCapacity : r'.output.capacity = r.output.capacity

theorem Ordered.remainingCapacity {base : Nat} {r : StreamReassembler} (h : Ordered base r) :
    r.output.remainingCapacity = r.currentCapactiy := by
  rw [h.out.remainingCapacity, h.currentCapactiy, h.cap]

theorem settle_eq_assemble {r : StreamReassembler} {front : BufferString} {rest : BufferStringList}
    (hfront : front.first = r.topPointer) :
    r.settle (front :: rest) = { r with bufferList := front :: rest }.assemble := by
  rw [settle, if_neg (by simp [topIndex, hfront])]

/-- The front fits the output and is popped whole. -/
theorem settle_whole {base : Nat} {r : StreamReassembler} (h : Ordered base r) {front : BufferString}
    {rest : BufferStringList} (hf : Fits front) (hfront : front.first = r.topPointer)
    (hall : front.target.length ≤ r.currentCapactiy) :
    Settled r front.target (r.settle (front :: rest)) ∧ (r.settle (front :: rest)).bufferList = rest ∧
      (r.settle (front :: rest)).output.isInputEnd = (r.output.isInputEnd || front.eof) := by
  have hroom : r.currentCapactiy = r.output.capacity - r.output.contents.length := by
    rw [h.currentCapactiy, h.cap]
  obtain ⟨h1, h2, h3, h4, h5, h6⟩ := output_assembled h.out front.target (by omega) front.eof
  have hpop : popUpBufferString (front :: rest) r.currentCapactiy = (front, rest) := by
    rw [popUpBufferString, if_pos (show r.currentCapactiy ≥ front.size from hall)]
  have hnext : add64 r.topPointer front.size = r.topPointer + front.target.length :=
    add64_of_lt (by have := hf.second_eq; have := hf.lt; rw [BufferString.size]; omega)
  have hr : r.settle (front :: rest) = { r with
      topPointer := r.topPointer + front.target.length
      output := if front.eof then (r.output.write front.target).2.endInput
        else (r.output.write front.target).2
      bufferList := rest } := by
    rw [settle_eq_assemble hfront, assemble]
    simp only [h.remainingCapacity, hpop, hnext]
  rw [hr]
  exact ⟨⟨rfl, rfl, h1, h2, h3, h4, h5⟩, rfl, h6⟩

/-- The front is too long for the output; what is left of it, appended at the back of an empty list, is
the front again. -/
theorem settle_cut {base : Nat} {r : StreamReassembler} (h : Ordered base r) {front : BufferString}
    (hf : Fits front) (hfront : front.first = r.topPointer)
    (hlong : r.currentCapactiy < front.target.length) :
    Settled r (front.target.take r.currentCapactiy) (r.settle [front]) ∧
      (r.settle [front]).bufferList = [BufferString.make (r.topPointer + r.currentCapactiy)
        (front.target.drop r.currentCapactiy) front.eof] ∧
      (r.settle [front]).output.isInputEnd = r.output.isInputEnd := by
  have hroom : r.currentCapactiy = r.output.capacity - r.output.contents.length := by
    rw [h.currentCapactiy, h.cap]
  have htake : (front.target.take r.currentCapactiy).length = r.currentCapactiy := by
    rw [List.length_take]
    omega
  obtain ⟨h1, h2, h3, h4, h5, -⟩ :=
    output_assembled h.out (front.target.take r.currentCapactiy) (by omega) false
  have hpop : popUpBufferString [front] r.currentCapactiy
      = (BufferString.make front.first (front.target.take r.currentCapactiy) false,
        [BufferString.make (front.first + r.currentCapactiy)
          (front.target.drop r.currentCapactiy) front.eof]) := by
    rw [popUpBufferString, if_neg (by rw [BufferString.size]; omega)]
    rfl
  have hnext : add64 r.topPointer (front.target.take r.currentCapactiy).length
      = r.topPointer + (front.target.take r.currentCapactiy).length :=
    add64_of_lt (by have := hf.second_eq; have := hf.lt; omega)
  have hr : r.settle [front] = { r with
      topPointer := r.topPointer + (front.target.take r.currentCapactiy).length
      output := (r.output.write (front.target.take r.currentCapactiy)).2
      bufferList := [BufferString.make (front.first + r.currentCapactiy)
        (front.target.drop r.currentCapactiy) front.eof] } := by
    rw [settle_eq_assemble hfront, assemble]
    simp only [h.remainingCapacity, hpop, BufferString.size, BufferString.make_target,
      BufferString.make_eof, hnext]
    rfl
  rw [hr, hfront]
  exact ⟨⟨rfl, rfl, h1, h2, h3, h4, h5⟩, rfl, by simp⟩

/-- **The three outcomes of `settle`.** The front does not start at `_top_pointer` and stays; it is
popped whole; or it is popped up to the capacity of the output, which can only happen to the only
element of the list. -/
theorem settle_cases {base : Nat} {r : StreamReassembler} (h : Ordered base r)
    {list : BufferStringList} (hs : Sorted list) (habove : ∀ b ∈ list, r.topPointer ≤ b.first)
    (hwin : ∀ b ∈ list, b.first < base + r.output.bytesRead + r.capacity) (hne : list ≠ []) :
    (∃ front rest, list = front :: rest ∧ r.topPointer < front.first ∧
      Settled r [] (r.settle list) ∧ (r.settle list).bufferList = list ∧
      (r.settle list).output.isInputEnd = r.output.isInputEnd) ∨
    (∃ front rest, list = front :: rest ∧ front.first = r.topPointer ∧
      Settled r front.target (r.settle list) ∧ (r.settle list).bufferList = rest ∧
      (r.settle list).output.isInputEnd = (r.output.isInputEnd || front.eof)) ∨
    (∃ front, list = [front] ∧ front.first = r.topPointer ∧
      r.currentCapactiy < front.target.length ∧
      Settled r (front.target.take r.currentCapactiy) (r.settle list) ∧
      (r.settle list).bufferList = [BufferString.make (r.topPointer + r.currentCapactiy)
        (front.target.drop r.currentCapactiy) front.eof] ∧
      (r.settle list).output.isInputEnd = r.output.isInputEnd) := by
  obtain ⟨front, rest, rfl⟩ := List.exists_cons_of_ne_nil hne
  have hfa := habove front (by simp)
  have hf := hs.fits front (by simp)
  by_cases hfront : front.first = r.topPointer
  · by_cases hall : front.target.length ≤ r.currentCapactiy
    · exact Or.inr (Or.inl ⟨front, rest, rfl, hfront, settle_whole h hf hfront hall⟩)
    · -- a second element would start behind `front`, hence beyond the window
      have hrest : rest = [] := by
        rw [List.eq_nil_iff_forall_not_mem]
        intro c hc
        have h1 := (sorted_cons.mp hs).2.1 c hc
        have h2 := hf.second_eq
        have h3 := hwin c (by simp [hc])
        have h4 := h.edge
        have h5 := h.currentCapactiy
        omega
      subst hrest
      have hlong : r.currentCapactiy < front.target.length := Nat.lt_of_not_le hall
      exact Or.inr (Or.inr ⟨front, rfl, hfront, hlong, settle_cut h hf hfront hlong⟩)
  · refine Or.inl ⟨front, rest, rfl, by omega, ?_⟩
    have hr : r.settle (front :: rest) = { r with bufferList := front :: rest } := by
      rw [settle, if_pos (by simp only [topIndex]; omega)]
    rw [hr]
    exact ⟨⟨rfl, by simp, h.out, by simp, by simp, rfl, rfl⟩, rfl, rfl⟩

/-- `settle` keeps the invariant. -/
theorem Ordered.settle {base : Nat} {r : StreamReassembler} (h : Ordered base r)
    {list : BufferStringList} (hs : Sorted list) (habove : ∀ b ∈ list, r.topPointer ≤ b.first)
    (hwin : ∀ b ∈ list, b.first < base + r.output.bytesRead + r.capacity) (hne : list ≠ []) :
    Ordered base (r.settle list) := by
  have htop := h.top
  rcases settle_cases h hs habove hwin hne with
    ⟨front, rest, rfl, hlt, hst, hbl, _⟩ | ⟨front, rest, rfl, hfront, hst, hbl, _⟩ |
    ⟨front, rfl, hfront, hlt, hst, hbl, _⟩
  · refine ⟨hst.outWF, by rw [hst.outCapacity, hst.capacity, h.cap], ?_, by rw [hbl]; exact hs, ?_, ?_⟩
    · rw [hst.top, hst.written]
      simpa using htop
    · rw [hbl, hst.top]
      simpa using habove
    · rw [hbl, hst.read, hst.capacity]
      exact Or.inl hwin
  · obtain ⟨hf, hgap, hrest⟩ := sorted_cons.mp hs
    have hsec := hf.second_eq
    refine ⟨hst.outWF, by rw [hst.outCapacity, hst.capacity, h.cap], ?_, by rw [hbl]; exact hrest, ?_, ?_⟩
    · rw [hst.top, hst.written]
      omega
    · rw [hbl, hst.top]
      intro b hb
      have := hgap b hb
      omega
    · rw [hbl, hst.read, hst.capacity]
      exact Or.inl fun b hb => hwin b (by simp [hb])
  · have hf := hs.fits front (by simp)
    have hsec := hf.second_eq
    have hflt := hf.lt
    have htake : (front.target.take r.currentCapactiy).length = r.currentCapactiy := by
      rw [List.length_take]
      omega
    have hmk : Fits (BufferString.make (r.topPointer + r.currentCapactiy)
        (front.target.drop r.currentCapactiy) front.eof) :=
      fits_make (by rw [List.length_drop]; omega) _
    refine ⟨hst.outWF, by rw [hst.outCapacity, hst.capacity, h.cap], ?_, ?_, ?_, ?_⟩
    · rw [hst.top, hst.written]
      omega
    · rw [hbl]
      exact sorted_cons.mpr ⟨hmk, by simp, Sorted.nil⟩
    · rw [hbl, hst.top, htake]
      simp
    · rw [hbl, hst.top, htake]
      exact Or.inr ⟨_, rfl, rfl⟩

/-- **`settle` loses no index**: what was stored is now in the output or still stored.  And it leaves no
work: the output is full or every element starts beyond the next index. -/
theorem Ordered.settle_stores {base : Nat} {r : StreamReassembler} (h : Ordered base r)
    {list : BufferStringList} (hs : Sorted list) (habove : ∀ b ∈ list, r.topPointer ≤ b.first)
    (hwin : ∀ b ∈ list, b.first < base + r.output.bytesRead + r.capacity) (hne : list ≠ []) :
    (∀ n, Stores list n ↔ (r.topPointer ≤ n ∧ n < (r.settle list).topPointer) ∨
      Stores (r.settle list).bufferList n) ∧
    ((r.settle list).output.contents.length = r.capacity ∨
      ∀ b ∈ (r.settle list).bufferList, (r.settle list).topPointer < b.first) := by
  have hroom := h.currentCapactiy
  have hfits := h.out.fits
  rw [h.cap] at hfits
  rcases settle_cases h hs habove hwin hne with
    ⟨front, rest, rfl, hlt, hst, hbl, _⟩ | ⟨front, rest, rfl, hfront, hst, hbl, _⟩ |
    ⟨front, rfl, hfront, hlt, hst, hbl, _⟩
  · refine ⟨fun n => ?_, Or.inr ?_⟩
    · rw [hbl, hst.top, List.length_nil, Nat.add_zero]
      exact ⟨Or.inr, fun hn => hn.elim (fun hn => absurd hn (by omega)) id⟩
    · rw [hbl, hst.top, List.length_nil, Nat.add_zero]
      intro b hb
      have := hs.head_le b hb
      omega
  · obtain ⟨hf, hgap, _⟩ := sorted_cons.mp hs
    have hsec := hf.second_eq
    refine ⟨fun n => ?_, Or.inr ?_⟩
    · rw [hbl, hst.top, stores_cons, hsec, hfront]
    · rw [hbl, hst.top]
      intro b hb
      have := hgap b hb
      omega
  · have hf := hs.fits front (by simp)
    have hsec := hf.second_eq
    have hflt := hf.lt
    have hmk : Fits (BufferString.make (r.topPointer + r.currentCapactiy)
        (front.target.drop r.currentCapactiy) front.eof) :=
      fits_make (by rw [List.length_drop]; omega) _
    have htake : (front.target.take r.currentCapactiy).length = r.currentCapactiy := by
      rw [List.length_take]
      omega
    refine ⟨fun n => ?_, Or.inl ?_⟩
    · rw [hbl, hst.top, stores_cons, stores_cons, hmk.second_eq, htake]
      simp only [BufferString.make_first, BufferString.make_target, List.length_drop]
      constructor
      · rintro (hn | ⟨b, hb, _⟩)
        · by_cases hn' : n < r.topPointer + r.currentCapactiy
          · exact Or.inl ⟨by omega, hn'⟩
          · exact Or.inr (Or.inl ⟨by omega, by omega⟩)
        · exact absurd hb (by simp)
      · rintro (hn | hn | ⟨b, hb, _⟩)
        · exact Or.inl ⟨by omega, by omega⟩
        · exact Or.inl ⟨by omega, by omega⟩
        · exact absurd hb (by simp)
    · rw [hst.contents, List.length_append, htake]
      omega

/-- What is stored far enough from the end of the index space stays there, and so does `_top_pointer`. -/
theorem Ordered.settle_confined {base : Nat} {r : StreamReassembler} (h : Ordered base r)
    {list : BufferStringList} (hs : Sorted list) (habove : ∀ b ∈ list, r.topPointer ≤ b.first)
    (hwin : ∀ b ∈ list, b.first < base + r.output.bytesRead + r.capacity) (hne : list ≠ [])
    (htop : r.topPointer + 1 < 2 ^ 64) (hstored : ∀ n, Stores list n → n + 2 < 2 ^ 64) :
    (r.settle list).topPointer + 1 < 2 ^ 64 ∧
    ∀ n, Stores (r.settle list).bufferList n → n + 2 < 2 ^ 64 := by
  obtain ⟨hsettled, -⟩ := h.settle_stores hs habove hwin hne
  refine ⟨?_, fun n hn => hstored n ((hsettled n).mpr (Or.inr hn))⟩
  by_cases hmoved : (r.settle list).topPointer ≤ r.topPointer
  · omega
  · -- the last index written was stored
    have hlast := (hsettled ((r.settle list).topPointer - 1)).mpr (Or.inl ⟨by omega, by omega⟩)
    have hbound := hstored _ hlast
    omega

/-! ## One push -/

/-- **The outcomes of a push**: it is dropped and changes nothing, or `push_back` and `settle` run on a
list that is sorted, not below `_top_pointer` and inside the window. -/
theorem Ordered.push_cases {base : Nat} {r : StreamReassembler} (h : Ordered base r)
    {data : Bytes} {index : Nat} (eof : Bool) (hlt : index + data.length + 1 < 2 ^ 64)
    (htop : r.topPointer + 1 < 2 ^ 64) :
    (r.Dropped data.length index ∧ r.pushSubstring data index eof = .ok r) ∨
    (¬ r.Dropped data.length index ∧ ∃ list,
      pushBack r.bufferList (r.cut data index) (max index r.topPointer) (r.cutEof data index eof)
        = .ok list ∧
      r.pushSubstring data index eof = .ok (r.settle list) ∧
      Sorted list ∧ list ≠ [] ∧ (∀ b ∈ list, r.topPointer ≤ b.first) ∧
      (∀ b ∈ list, b.first < base + r.output.bytesRead + r.capacity) ∧
      (∀ n, Stores list n ↔ Stores r.bufferList n ∨
        (max index r.topPointer ≤ n ∧ n < max index r.topPointer + (r.cut data index).length)) ∧
      (∀ n, Reaches list n ↔ Reaches r.bufferList n ∨
        (max index r.topPointer ≤ n ∧ n ≤ max index r.topPointer + (r.cut data index).length))) := by
  rw [pushSubstring_eq hlt htop]
  by_cases hd : r.Dropped data.length index
  · exact Or.inl ⟨hd, if_pos hd⟩
  · refine Or.inr ⟨hd, ?_⟩
    have hcut := r.cut_length_le data index
    have hedge := h.edge
    rw [Dropped, not_or] at hd
    have hkept : max index r.topPointer + (r.cut data index).length < 2 ^ 64 := by omega
    obtain ⟨list, hpb, hs, hst, hre, hfirst, _, _⟩ :=
      pushBack_union h.sorted hkept (r.cutEof data index eof)
    refine ⟨list, hpb, ?_, hs, ?_, ?_, ?_, hst, hre⟩
    · rw [if_neg (by rw [Dropped, not_or]; exact hd), hpb]
      rfl
    · rintro rfl
      have := (hre (max index r.topPointer)).mpr (Or.inr ⟨by omega, by omega⟩)
      simp [Reaches] at this
    · intro b hb
      rcases hfirst b hb with he | ⟨c, hc, he⟩
      · omega
      · have := h.above c hc
        omega
    · intro b hb
      rcases hfirst b hb with he | ⟨c, hc, he⟩
      · omega
      · rcases h.window with hw | ⟨d, hd', hd1⟩
        · have := hw c hc
          omega
        · rw [hd'] at hc
          rw [List.mem_singleton.mp hc] at he
          omega

/-- **A push keeps what it is given.** Indices of the fragment inside the window, and indices stored
before, are afterwards in the output or stored; and a push that is not dropped leaves the output full
or the next index missing. -/
theorem Ordered.push_retains {base : Nat} {r r' : StreamReassembler} (h : Ordered base r)
    {data : Bytes} {index : Nat} {eof : Bool} (hlt : index + data.length + 1 < 2 ^ 64)
    (htop : r.topPointer + 1 < 2 ^ 64)
    (heq : r.pushSubstring data index eof = .ok r') :
    (∀ n, Stores r.bufferList n → n < r'.topPointer ∨ Stores r'.bufferList n) ∧
    (∀ n, index ≤ n → n < index + data.length → r.topPointer ≤ n →
      n < base + r.output.bytesRead + r.capacity → n < r'.topPointer ∨ Stores r'.bufferList n) ∧
    (¬ r.Dropped data.length index → r'.output.contents.length = r.capacity ∨
      ¬ Stores r'.bufferList r'.topPointer) := by
  have hedge := h.edge
  rcases h.push_cases eof hlt htop with
    ⟨hd, heq'⟩ | ⟨hd, list, _, heq', hs, hne, habove, hwin, hst, _⟩
  · obtain rfl : r = r' := Except.ok.inj (heq'.symm.trans heq)
    refine ⟨fun n hn => Or.inr hn, fun n h1 h2 h3 h4 => ?_, fun hnd => absurd hd hnd⟩
    rw [Dropped] at hd
    omega
  · obtain rfl : r.settle list = r' := Except.ok.inj (heq'.symm.trans heq)
    obtain ⟨hsettle, hhead⟩ := h.settle_stores hs habove hwin hne
    have hkeep : ∀ n, Stores list n →
        n < (r.settle list).topPointer ∨ Stores (r.settle list).bufferList n :=
      fun n hn => ((hsettle n).mp hn).imp (fun hn => hn.2) id
    refine ⟨fun n hn => hkeep n ((hst n).mpr (Or.inl hn)), fun n h1 h2 h3 h4 => ?_, fun _ => ?_⟩
    · refine hkeep n ((hst n).mpr (Or.inr ⟨by omega, ?_⟩))
      rw [cut, List.length_take, List.length_drop]
      omega
    · refine hhead.imp id fun hgap => ?_
      rintro ⟨b, hb, h1, _⟩
      have := hgap b hb
      omega

/-- Reading the output keeps the invariant: the window only moves up. -/
theorem Ordered.read {base : Nat} {r : StreamReassembler} (h : Ordered base r) (len : Nat) :
    Ordered base { r with output := (r.output.read len).1 } := by
  obtain ⟨h1, _, h3⟩ := h.out.read len
  refine ⟨h1, by simpa using h.cap, by simpa using h.top, h.sorted, h.above, ?_⟩
  rcases h.window with hw | hw
  · refine Or.inl fun b hb => ?_
    have := hw b hb
    dsimp only
    omega
  · exact Or.inr hw

end StreamReassembler

end Sponge
