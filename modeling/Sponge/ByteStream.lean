/-
# `Sponge.ByteStream` — the flow-controlled in-memory byte stream.

Models `libsponge/buffer.{hh,cc}` (`sponge::Buffer`, `sponge::BufferList`) and
`libsponge/byte_stream.{hh,cc}`.  The stream is a deque of string chunks, each with a pointer past
the bytes already removed from its front; the unread data is the concatenation of what the pointers
leave.  Every chunk is built from a string, so the null storage of a default-constructed `Buffer`
does not occur and is not modelled.

`read` and `pop_output` change the stream BEFORE the chunk loop finds that there is nothing left to
remove, so they return the new stream also when they throw.  `peek_output` reserves room for as many
bytes as it is asked for, however few there are, and throws when no string can be that long; `read`
then throws with it and leaves the stream as it is.

The second half is the API the other modules use: `contents` is the unread data, `WF` is what every
operation keeps, and one lemma for each operation says what it does to both.
-/
import Sponge.Cpp

namespace Sponge

/-! ## Chunks -/

/-- `sponge::Buffer`: a string and the number of bytes removed from its front. -/
structure Buffer where
  storage : Bytes
  prefixPointer : Nat := 0
  deriving DecidableEq, Repr

namespace Buffer

/-- `Buffer::remove_prefix`, with its clamp to the last byte. -/
def removePrefix (b : Buffer) (size : Nat) : Buffer :=
  if b.prefixPointer + size ≥ b.storage.length then
    { b with prefixPointer := sub64 b.storage.length 1 }
  else
    { b with prefixPointer := b.prefixPointer + size }

/-- `Buffer::get_string`. -/
def getString (b : Buffer) : Bytes := b.storage.drop b.prefixPointer

/-- `Buffer::size`. -/
def size (b : Buffer) : Nat := sub64 b.storage.length b.prefixPointer

/-- The pointer has not run past the string. -/
def Valid (b : Buffer) : Prop := b.prefixPointer ≤ b.storage.length

theorem size_eq {b : Buffer} (h : b.Valid) : b.size = b.getString.length := by
  rw [size, sub64_of_le h, getString, List.length_drop]

/-- Removing less than the whole chunk moves the pointer; the clamp is not reached. -/
theorem removePrefix_spec {b : Buffer} (h : b.Valid) {n : Nat} (hn : n < b.size) :
    (b.removePrefix n).Valid ∧ (b.removePrefix n).getString = b.getString.drop n := by
  rw [size, sub64_of_le h] at hn
  unfold Valid at h
  rw [removePrefix, if_neg (by omega)]
  refine ⟨?_, ?_⟩
  · unfold Valid
    dsimp only
    omega
  · simp only [getString, List.drop_drop]

end Buffer

/-- `sponge::BufferList`: a deque of chunks. -/
abbrev BufferList := List Buffer

namespace BufferList

/-- `BufferList::size`. -/
def size (bl : BufferList) : Nat := (bl.map Buffer.size).sum

/-- The loop of `BufferList::peek_output`: whole chunks while they are shorter than what remains, then
a prefix of one chunk. -/
def peekLoop : BufferList → Nat → Bytes
  | [], _ => []
  | b :: bs, remainSize =>
    if b.size < remainSize then b.getString ++ peekLoop bs (remainSize - b.size)
    else b.getString.take remainSize

/-- `BufferList::peek_output`.  The second `reserve`, behind the loop, asks for no more than the first. -/
def peekOutput (bl : BufferList) (size : Nat) : Except Exception Bytes :=
  (reserve size).map fun _ => peekLoop bl size

/-- What a removal loop that runs out of chunks throws. -/
def nothingToRemove : Exception := .outOfRange "BufferLIst::remove_prefix(Nothing to remove)"

/-- The loop of `BufferList::remove_prefix`: the remaining chunks, the bytes still to be removed, and
the exception of a loop that ran out of chunks. -/
def removePrefix : BufferList → Nat → BufferList × Nat × Option Exception
  | bl, 0 => (bl, 0, none)
  | [], size + 1 => ([], size + 1, some nothingToRemove)
  | b :: bs, size + 1 =>
    if b.size ≤ size + 1 then removePrefix bs (size + 1 - b.size)
    else (b.removePrefix (size + 1) :: bs, 0, none)

/-- The unread bytes of the chunks, in order. -/
def contents (bl : BufferList) : Bytes := bl.flatMap Buffer.getString

@[simp] theorem contents_nil : contents [] = [] := rfl

@[simp] theorem contents_cons (b : Buffer) (bs : BufferList) :
    contents (b :: bs) = b.getString ++ contents bs := rfl

theorem size_eq {bl : BufferList} (h : ∀ b ∈ bl, b.Valid) : size bl = (contents bl).length := by
  induction bl with
  | nil => rfl
  | cons b bs ih =>
    have hb : b.size = b.getString.length := Buffer.size_eq (h b (by simp))
    have hbs : size bs = (contents bs).length := ih fun c hc => h c (by simp [hc])
    simp only [size, List.map_cons, List.sum_cons, contents_cons, List.length_append] at hbs ⊢
    omega

theorem peekLoop_eq {bl : BufferList} (h : ∀ b ∈ bl, b.Valid) (n : Nat) :
    peekLoop bl n = (contents bl).take n := by
  induction bl generalizing n with
  | nil => simp [peekLoop]
  | cons b bs ih =>
    have hb : b.size = b.getString.length := Buffer.size_eq (h b (by simp))
    rw [peekLoop, contents_cons, List.take_append]
    split
    · rename_i hlt
      have hall : b.getString.take n = b.getString := List.take_of_length_le (by omega)
      rw [ih (fun c hc => h c (by simp [hc])), hb, hall]
    · rename_i hge
      rw [show n - b.getString.length = 0 by omega, List.take_zero, List.append_nil]

/-- **The removal loop.** It drops `n` bytes or all there are; it throws exactly when it is asked for
more than there are, and then has emptied the list. -/
theorem removePrefix_spec {bl : BufferList} (h : ∀ b ∈ bl, b.Valid) (n : Nat) :
    (∀ b ∈ (removePrefix bl n).1, b.Valid) ∧
    contents (removePrefix bl n).1 = (contents bl).drop n ∧
    (removePrefix bl n).2.1 = n - (contents bl).length ∧
    (removePrefix bl n).2.2 = if n ≤ (contents bl).length then none else some nothingToRemove := by
  induction bl generalizing n with
  | nil =>
    cases n with
    | zero => simp [removePrefix]
    | succ n => simp [removePrefix]
  | cons b bs ih =>
    have hbv : b.Valid := h b (by simp)
    have hbs : ∀ c ∈ bs, c.Valid := fun c hc => h c (by simp [hc])
    have hb : b.size = b.getString.length := Buffer.size_eq hbv
    cases n with
    | zero => simpa [removePrefix] using h
    | succ n =>
      rw [removePrefix]
      split
      · rename_i hle
        obtain ⟨h1, h2, h3, h4⟩ := ih hbs (n + 1 - b.size)
        refine ⟨h1, ?_, ?_, ?_⟩
        · have hnone : b.getString.drop (n + 1) = [] := List.drop_of_length_le (by omega)
          rw [h2, contents_cons, List.drop_append, hnone, hb, List.nil_append]
        · rw [h3, contents_cons, List.length_append]
          omega
        · have hiff : n + 1 - b.size ≤ (contents bs).length ↔ n + 1 ≤ (contents (b :: bs)).length := by
            rw [contents_cons, List.length_append]
            omega
          rw [h4]
          exact if_congr hiff rfl rfl
      · rename_i hgt
        obtain ⟨h1, h2⟩ := Buffer.removePrefix_spec hbv (n := n + 1) (by omega)
        refine ⟨?_, ?_, ?_, ?_⟩
        · intro c hc
          rcases List.mem_cons.mp hc with rfl | hc
          · exact h1
          · exact hbs c hc
        · rw [contents_cons, h2, contents_cons, List.drop_append,
            show n + 1 - b.getString.length = 0 by omega, List.drop_zero]
        · simp only [contents_cons, List.length_append]
          omega
        · rw [if_pos]
          rw [contents_cons, List.length_append]
          omega

end BufferList

/-! ## The stream -/

/-- `ByteStream`. -/
structure ByteStream where
  buffers : BufferList := []
  capacity : Nat
  bytesRead : Nat := 0
  bytesWirtten : Nat := 0
  isInputEnd : Bool := false
  error : Bool := false
  deriving DecidableEq, Repr

namespace ByteStream

/-- `ByteStream(capacity)`. -/
def new (capacity : Nat) : ByteStream := { capacity := capacity }

def bufferSize (s : ByteStream) : Nat := BufferList.size s.buffers

def bufferEmpty (s : ByteStream) : Bool := s.buffers.isEmpty

def bytesWritten (s : ByteStream) : Nat := s.bytesWirtten

def inputEnded (s : ByteStream) : Bool := s.isInputEnd

def eof (s : ByteStream) : Bool := s.isInputEnd && s.buffers.isEmpty

def remainingCapacity (s : ByteStream) : Nat := sub64 s.capacity (BufferList.size s.buffers)

def endInput (s : ByteStream) : ByteStream := { s with isInputEnd := true }

def setError (s : ByteStream) : ByteStream := { s with error := true }

/-- `ByteStream::write`: the number of accepted bytes and the new stream.  A full stream still gets an
empty chunk. -/
def write (s : ByteStream) (data : Bytes) : Nat × ByteStream :=
  if data.isEmpty then (0, s)
  else
    let capacity := s.remainingCapacity
    let writtenSize := if data.length > capacity then capacity else data.length
    (writtenSize, { s with
      bytesWirtten := s.bytesWirtten + writtenSize
      buffers := s.buffers ++ [{ storage := data.take writtenSize }] })

def peekOutput (s : ByteStream) (len : Nat) : Except Exception Bytes := BufferList.peekOutput s.buffers len

/-- `ByteStream::pop_output`: the counter is updated only if the removal loop returns. -/
def popOutput (s : ByteStream) (len : Nat) : ByteStream × Except Exception Unit :=
  match BufferList.removePrefix s.buffers len with
  | (buffers, lenLeft, none) =>
    ({ s with buffers := buffers, bytesRead := s.bytesRead + (len - lenLeft) }, .ok ())
  | (buffers, _, some e) => ({ s with buffers := buffers }, .error e)

/-- `ByteStream::read`: the counter is updated before the removal loop runs. -/
def read (s : ByteStream) (len : Nat) : ByteStream × Except Exception Bytes :=
  match BufferList.peekOutput s.buffers len with
  | .error e => (s, .error e)
  | .ok result =>
    let bytesRead := s.bytesRead + result.length
    match BufferList.removePrefix s.buffers len with
    | (buffers, _, none) => ({ s with buffers := buffers, bytesRead := bytesRead }, .ok result)
    | (buffers, _, some e) => ({ s with buffers := buffers, bytesRead := bytesRead }, .error e)

/-! ## The operations on the unread data -/

/-- The unread data. -/
def contents (s : ByteStream) : Bytes := BufferList.contents s.buffers

/-- What `peek_output(len)` copies once it has reserved the room. -/
def peeked (s : ByteStream) (len : Nat) : Bytes := BufferList.peekLoop s.buffers len

/-- What `read(len)` takes out of the stream, also when it throws behind it. -/
def removed (s : ByteStream) (len : Nat) : Bytes := if len ≤ maxSize then s.peeked len else []

/-- The stream behind a removal of `len` bytes, or of all there are, that has been counted. -/
def dropped (s : ByteStream) (len : Nat) : ByteStream :=
  { s with
    buffers := (BufferList.removePrefix s.buffers len).1
    bytesRead := s.bytesRead + min len s.contents.length }

/-- What every operation keeps: valid chunks, no more unread data than the capacity, and counters that
agree with the unread data. -/
structure WF (s : ByteStream) : Prop where
  valid : ∀ b ∈ s.buffers, b.Valid
  fits : s.contents.length ≤ s.capacity
  balance : s.bytesWirtten = s.bytesRead + s.contents.length

theorem WF.new (capacity : Nat) : (new capacity).WF :=
  ⟨by simp [ByteStream.new], by simp [ByteStream.new, contents], by simp [ByteStream.new, contents]⟩

@[simp] theorem contents_new (capacity : Nat) : (new capacity).contents = [] := rfl

@[simp] theorem contents_endInput (s : ByteStream) : s.endInput.contents = s.contents := rfl

@[simp] theorem contents_setError (s : ByteStream) : s.setError.contents = s.contents := rfl

theorem WF.endInput {s : ByteStream} (h : s.WF) : s.endInput.WF := ⟨h.valid, h.fits, h.balance⟩

theorem WF.setError {s : ByteStream} (h : s.WF) : s.setError.WF := ⟨h.valid, h.fits, h.balance⟩

theorem WF.bufferSize {s : ByteStream} (h : s.WF) : s.bufferSize = s.contents.length :=
  BufferList.size_eq h.valid

theorem WF.peeked {s : ByteStream} (h : s.WF) (n : Nat) : s.peeked n = s.contents.take n :=
  BufferList.peekLoop_eq h.valid n

/-- Peeking at everything shows the unread data. -/
theorem WF.peeked_bufferSize {s : ByteStream} (h : s.WF) : s.peeked s.bufferSize = s.contents := by
  rw [h.peeked, h.bufferSize, List.take_length]

theorem peekOutput_of_le (s : ByteStream) {n : Nat} (h : n ≤ maxSize) : s.peekOutput n = .ok (s.peeked n) := by
  rw [peekOutput, BufferList.peekOutput, reserve_of_le h]
  rfl

theorem peekOutput_min (s : ByteStream) {limit n : Nat} (h : limit ≤ maxSize) :
    s.peekOutput (min limit n) = .ok (s.peeked (min limit n)) :=
  s.peekOutput_of_le (Nat.le_trans (Nat.min_le_left limit n) h)

theorem peekOutput_of_lt (s : ByteStream) {n : Nat} (h : maxSize < n) :
    s.peekOutput n = .error (.lengthError "basic_string::_M_create") := by
  rw [peekOutput, BufferList.peekOutput, reserve_of_lt h]
  rfl

theorem removed_of_le (s : ByteStream) {n : Nat} (h : n ≤ maxSize) : s.removed n = s.peeked n := if_pos h

theorem removed_of_lt (s : ByteStream) {n : Nat} (h : maxSize < n) : s.removed n = [] := if_neg (Nat.not_le.mpr h)

theorem WF.remainingCapacity {s : ByteStream} (h : s.WF) :
    s.remainingCapacity = s.capacity - s.contents.length := by
  have hsz : BufferList.size s.buffers = s.contents.length := BufferList.size_eq h.valid
  rw [ByteStream.remainingCapacity, hsz, sub64_of_le h.fits]

/-- An ended stream with an empty deque has no unread data. -/
theorem contents_of_eof {s : ByteStream} (h : s.eof = true) : s.contents = [] := by
  simp only [eof, Bool.and_eq_true, List.isEmpty_iff] at h
  rw [contents, h.2, BufferList.contents_nil]

theorem inputEnded_of_eof {s : ByteStream} (h : s.eof = true) : s.isInputEnd = true := by
  simp only [eof, Bool.and_eq_true] at h
  exact h.1

theorem write_of_nonempty {s : ByteStream} (h : s.WF) {data : Bytes} (hne : data ≠ []) :
    s.write data = (min data.length (s.capacity - s.contents.length), { s with
      bytesWirtten := s.bytesWirtten + min data.length (s.capacity - s.contents.length)
      buffers := s.buffers ++
        [{ storage := data.take (min data.length (s.capacity - s.contents.length)) }] }) := by
  have hmin : (if data.length > s.capacity - s.contents.length
      then s.capacity - s.contents.length else data.length)
      = min data.length (s.capacity - s.contents.length) := by
    split <;> omega
  have hempty : data.isEmpty = false := by simpa using hne
  simp only [ByteStream.write, hempty, Bool.false_eq_true, if_false, h.remainingCapacity, hmin]

/-- **`write`** appends the prefix that fits and counts it. -/
theorem WF.write {s : ByteStream} (h : s.WF) (data : Bytes) :
    (s.write data).2.WF ∧
    (s.write data).1 = min data.length (s.capacity - s.contents.length) ∧
    (s.write data).2.contents = s.contents ++ data.take (s.write data).1 ∧
    (s.write data).2.bytesWirtten = s.bytesWirtten + (s.write data).1 := by
  have hfits := h.fits
  have hbal := h.balance
  by_cases hne : data.isEmpty = true
  · obtain rfl : data = [] := List.isEmpty_iff.mp hne
    exact ⟨h, by simp [ByteStream.write], by simp [ByteStream.write], rfl⟩
  · rw [write_of_nonempty h (by simpa using hne)]
    generalize hn : min data.length (s.capacity - s.contents.length) = n
    have hlen : (data.take n).length = n := by
      rw [List.length_take]
      omega
    have hcont : BufferList.contents (s.buffers ++ [{ storage := data.take n }])
        = s.contents ++ data.take n := by
      simp [BufferList.contents, Buffer.getString, ByteStream.contents]
    refine ⟨⟨?_, ?_, ?_⟩, rfl, hcont, rfl⟩
    · intro b hb
      rcases List.mem_append.mp hb with hb | hb
      · exact h.valid b hb
      · rw [List.mem_singleton.mp hb]
        exact Nat.zero_le _
    · show (BufferList.contents (s.buffers ++ [{ storage := data.take n }])).length ≤ s.capacity
      rw [hcont, List.length_append, hlen]
      omega
    · show s.bytesWirtten + n = s.bytesRead
        + (BufferList.contents (s.buffers ++ [{ storage := data.take n }])).length
      rw [hcont, List.length_append, hlen]
      omega

/-- Data that fits is appended whole. -/
theorem WF.write_all {s : ByteStream} (h : s.WF) (data : Bytes)
    (hfit : data.length ≤ s.capacity - s.contents.length) :
    (s.write data).2.WF ∧ (s.write data).2.contents = s.contents ++ data ∧
    (s.write data).2.bytesWirtten = s.bytesWirtten + data.length := by
  obtain ⟨h1, h2, h3, h4⟩ := h.write data
  have hn : (s.write data).1 = data.length := by omega
  rw [hn, List.take_length] at h3
  rw [hn] at h4
  exact ⟨h1, h3, h4⟩

@[simp] theorem write_capacity (s : ByteStream) (data : Bytes) :
    (s.write data).2.capacity = s.capacity := by
  unfold write; split <;> rfl

@[simp] theorem write_bytesRead (s : ByteStream) (data : Bytes) :
    (s.write data).2.bytesRead = s.bytesRead := by
  unfold write; split <;> rfl

@[simp] theorem write_isInputEnd (s : ByteStream) (data : Bytes) :
    (s.write data).2.isInputEnd = s.isInputEnd := by
  unfold write; split <;> rfl

theorem write_error (s : ByteStream) (data : Bytes) : (s.write data).2.error = s.error := by
  unfold write; split <;> rfl

theorem contents_dropped {s : ByteStream} (hv : ∀ b ∈ s.buffers, b.Valid) (len : Nat) :
    (s.dropped len).contents = s.contents.drop len :=
  (BufferList.removePrefix_spec hv len).2.1

theorem WF.dropped {s : ByteStream} (h : s.WF) (len : Nat) : (s.dropped len).WF := by
  have hcont := contents_dropped h.valid len
  have hfits := h.fits
  have hbal := h.balance
  refine ⟨(BufferList.removePrefix_spec h.valid len).1, ?_, ?_⟩
  · rw [hcont, List.length_drop]
    show _ ≤ s.capacity
    omega
  · rw [hcont, List.length_drop]
    show s.bytesWirtten = s.bytesRead + min len s.contents.length + _
    omega

/-- **`pop_output`** removes and counts; asked for more than there is, it throws with the stream drained and nothing
counted. -/
theorem popOutput_eq {s : ByteStream} (hv : ∀ b ∈ s.buffers, b.Valid) (len : Nat) :
    s.popOutput len = if len ≤ s.contents.length then (s.dropped len, .ok ())
      else ({ s.dropped len with bytesRead := s.bytesRead }, .error BufferList.nothingToRemove) := by
  obtain ⟨-, -, hleft, hthrows⟩ := BufferList.removePrefix_spec hv len
  have hlen : (BufferList.contents s.buffers).length = s.contents.length := rfl
  rw [hlen] at hleft hthrows
  unfold ByteStream.popOutput ByteStream.dropped
  generalize BufferList.removePrefix s.buffers len = res at hleft hthrows
  obtain ⟨buffers, left, err⟩ := res
  by_cases hle : len ≤ s.contents.length
  · rw [if_pos hle] at hthrows ⊢
    obtain rfl : err = none := hthrows
    have hcount : len - left = min len s.contents.length := by
      dsimp only at hleft
      omega
    dsimp only
    rw [hcount]
  · rw [if_neg hle] at hthrows ⊢
    obtain rfl : err = some BufferList.nothingToRemove := hthrows
    rfl

/-- **`read`** of a length that a string can have removes, counts and returns; asked for more than there is, it throws
with the stream drained and counted. -/
theorem read_eq {s : ByteStream} (hv : ∀ b ∈ s.buffers, b.Valid) {len : Nat} (hlen : len ≤ maxSize) :
    s.read len = (s.dropped len,
      if len ≤ s.contents.length then .ok (s.contents.take len) else .error BufferList.nothingToRemove) := by
  obtain ⟨-, -, -, hthrows⟩ := BufferList.removePrefix_spec hv len
  have hlength : (BufferList.contents s.buffers).length = s.contents.length := rfl
  have hpeek : BufferList.peekOutput s.buffers len = .ok (s.contents.take len) :=
    (s.peekOutput_of_le hlen).trans (congrArg Except.ok (BufferList.peekLoop_eq hv len))
  rw [hlength] at hthrows
  unfold ByteStream.read ByteStream.dropped
  rw [hpeek, ← List.length_take]
  generalize BufferList.removePrefix s.buffers len = res at hthrows
  obtain ⟨buffers, left, err⟩ := res
  by_cases hle : len ≤ s.contents.length
  · rw [if_pos hle] at hthrows ⊢
    obtain rfl : err = none := hthrows
    rfl
  · rw [if_neg hle] at hthrows ⊢
    obtain rfl : err = some BufferList.nothingToRemove := hthrows
    rfl

/-- A read of more than any string can hold throws and changes nothing. -/
theorem read_of_lt (s : ByteStream) {len : Nat} (h : maxSize < len) :
    s.read len = (s, .error (.lengthError "basic_string::_M_create")) := by
  have hpeek : BufferList.peekOutput s.buffers len = _ := s.peekOutput_of_lt h
  rw [read, hpeek]

/-- **`read`** of any length takes `removed` off the front. -/
theorem WF.read {s : ByteStream} (h : s.WF) (len : Nat) :
    (s.read len).1.WF ∧
    s.contents = s.removed len ++ (s.read len).1.contents ∧
    (s.read len).1.bytesRead = s.bytesRead + (s.removed len).length := by
  rcases Nat.lt_or_ge maxSize len with hlt | hle
  · rw [s.read_of_lt hlt, s.removed_of_lt hlt]
    exact ⟨h, rfl, rfl⟩
  · rw [read_eq h.valid hle, s.removed_of_le hle, h.peeked, contents_dropped h.valid, List.take_append_drop,
      List.length_take]
    exact ⟨h.dropped len, rfl, rfl⟩

/-- What is left is what comes behind. -/
theorem WF.read_contents {s : ByteStream} (h : s.WF) {len : Nat} (hlen : len ≤ maxSize) :
    (s.read len).1.contents = s.contents.drop len := by
  rw [read_eq h.valid hlen]
  exact contents_dropped h.valid len

/-- A read of at most what is there returns it. -/
theorem WF.read_of_le {s : ByteStream} (h : s.WF) {len : Nat} (hlen : len ≤ maxSize) (hle : len ≤ s.contents.length) :
    s.read len = ((s.read len).1, .ok (s.contents.take len)) := by
  rw [read_eq h.valid hlen, if_pos hle]

theorem read_zero (s : ByteStream) : s.read 0 = (s, .ok []) := by
  have hpeek : BufferList.peekOutput s.buffers 0 = .ok [] := by
    cases s.buffers with
    | nil => rfl
    | cons b bs => simp [BufferList.peekOutput, BufferList.peekLoop, reserve_of_le (Nat.zero_le _), Except.map]
  rw [read, hpeek, BufferList.removePrefix]
  rfl

/-- What a read can change. -/
theorem read_cases (s : ByteStream) (len : Nat) :
    (s.read len).1 = s ∨ ∃ bytesRead, (s.read len).1 =
      { s with buffers := (BufferList.removePrefix s.buffers len).1, bytesRead := bytesRead } := by
  unfold read
  split
  · exact Or.inl rfl
  · generalize BufferList.removePrefix s.buffers len = res
    obtain ⟨buffers, left, _ | e⟩ := res
    · exact Or.inr ⟨_, rfl⟩
    · exact Or.inr ⟨_, rfl⟩

@[simp] theorem read_capacity (s : ByteStream) (len : Nat) :
    (s.read len).1.capacity = s.capacity := by
  rcases s.read_cases len with h | ⟨_, h⟩ <;> rw [h]

@[simp] theorem read_bytesWirtten (s : ByteStream) (len : Nat) :
    (s.read len).1.bytesWirtten = s.bytesWirtten := by
  rcases s.read_cases len with h | ⟨_, h⟩ <;> rw [h]

@[simp] theorem read_isInputEnd (s : ByteStream) (len : Nat) :
    (s.read len).1.isInputEnd = s.isInputEnd := by
  rcases s.read_cases len with h | ⟨_, h⟩ <;> rw [h]

theorem read_error (s : ByteStream) (len : Nat) : (s.read len).1.error = s.error := by
  rcases s.read_cases len with h | ⟨_, h⟩ <;> rw [h]

/-- There is nothing to take out of a stream without chunks. -/
theorem read_of_nil {s : ByteStream} (h : s.buffers = []) (len : Nat) :
    s.removed len = [] ∧ (s.read len).1 = s := by
  have hcont : s.contents = [] := by rw [contents, h, BufferList.contents_nil]
  have hpeek : s.peeked len = [] := by
    rw [peeked, h]
    rfl
  rcases Nat.lt_or_ge maxSize len with hlt | hle
  · exact ⟨s.removed_of_lt hlt, by rw [s.read_of_lt hlt]⟩
  · refine ⟨(s.removed_of_le hle).trans hpeek, ?_⟩
    rw [read_eq (by simp [h]) hle, dropped, hcont, List.length_nil, Nat.min_zero, Nat.add_zero, h]
    obtain ⟨buffers, capacity, bytesRead, bytesWirtten, isInputEnd, error⟩ := s
    obtain rfl : buffers = [] := h
    cases len with
    | zero => rfl
    | succ n => rfl

/-- What has been read to its end stays so. -/
theorem eof_read {s : ByteStream} (h : s.eof = true) (len : Nat) : (s.read len).1.eof = true := by
  have hnil : s.buffers = [] := by
    simp only [eof, Bool.and_eq_true, List.isEmpty_iff] at h
    exact h.2
  rw [(read_of_nil hnil len).2]
  exact h

end ByteStream

end Sponge
