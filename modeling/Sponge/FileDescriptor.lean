/-
# `Sponge.FileDescriptor` — reads, and writes that the kernel may take in parts.

Models `read` and `write` of `util/file_descriptor.{hh,cc}`, `BufferViewList` of `util/buffer.{hh,cc}` and `SystemCall`
of `util/util.cc`.  The kernel is an argument: for a read, what it gives; for a write, how much it takes of what it is
offered in each `writev`.  Nothing is assumed of it.  It may refuse, take nothing, or claim to have taken more than
there was, and `read` and `write` have an exception for each.

What was written stays written when `write` throws, so `write` gives it in any case.  All of it is always a prefix of
what was to be written, and with `write_all` the rest follows in order, however the kernel divides it
(`write_in_order`).
-/
import Sponge.Cpp

namespace Sponge

/-- `FileDescriptor::FDWrapper`, the number apart. -/
structure FDWrapper where
  eof : Bool := false
  closed : Bool := false
  readCount : Nat := 0
  writeCount : Nat := 0
  deriving DecidableEq, Repr

/-- `SystemCall`: an error of the kernel becomes a `unix_error`, which names the attempt. -/
def systemCall {α : Type} (attempt : String) (answer : Except String α) : Except Exception α :=
  match answer with
  | .ok a => .ok a
  | .error what => .error (.runtimeError (attempt ++ ": " ++ what))

/-! ## Views of what is to be written -/

/-- `BufferViewList`: a deque of views. -/
abbrev BufferViewList := List Bytes

namespace BufferViewList

/-- `BufferViewList::size`. -/
def size (views : BufferViewList) : Nat := (views.map List.length).sum

/-- The loop of `BufferViewList::remove_prefix`. -/
def removePrefix : BufferViewList → Nat → Except Exception BufferViewList
  | views, 0 => .ok views
  | [], _ + 1 => .error (.outOfRange "BufferListView::remove_prefix")
  | view :: rest, n + 1 =>
    if n + 1 < view.length then .ok (view.drop (n + 1) :: rest) else removePrefix rest (n + 1 - view.length)

theorem size_eq (views : BufferViewList) : size views = views.flatten.length := List.length_flatten.symm

/-- **The removal loop** drops as many bytes as it is asked to. -/
theorem removePrefix_spec {views : BufferViewList} {n : Nat} (h : n ≤ size views) :
    ∃ rest, removePrefix views n = .ok rest ∧ rest.flatten = views.flatten.drop n := by
  induction views generalizing n with
  | nil =>
    obtain rfl : n = 0 := Nat.le_zero.mp h
    exact ⟨[], rfl, rfl⟩
  | cons view rest ih =>
    cases n with
    | zero => exact ⟨view :: rest, rfl, rfl⟩
    | succ n =>
      have hsize : size (view :: rest) = view.length + size rest := rfl
      rw [removePrefix, List.flatten_cons, List.drop_append]
      split
      · rename_i hlt
        refine ⟨_, rfl, ?_⟩
        rw [List.flatten_cons, Nat.sub_eq_zero_of_le (Nat.le_of_lt hlt), List.drop_zero]
      · rename_i hge
        obtain ⟨left, hleft, hflat⟩ := ih (n := n + 1 - view.length) (by omega)
        refine ⟨left, hleft, ?_⟩
        rw [hflat, List.drop_of_length_le (Nat.not_lt.mp hge), List.nil_append]

end BufferViewList

/-! ## Reading and writing -/

namespace FileDescriptor

/-- The maximum size of a read. -/
def BUFFER_SIZE : Nat := 1024 * 1024

/-- `FileDescriptor::read` of at most `limit` bytes, when the kernel gives `answer`. -/
def read (fd : FDWrapper) (limit : Nat) (answer : Except String Bytes) : Except Exception (Bytes × FDWrapper) :=
  let sizeToRead := min BUFFER_SIZE limit
  (systemCall "read" answer).bind fun bytes =>
    let fd := if decide (limit > 0) && decide (bytes.length = 0) then { fd with eof := true } else fd
    if bytes.length > sizeToRead then .error (.runtimeError "read() read more than requested")
    else .ok (bytes, { fd with readCount := fd.readCount + 1 })

/-- How much the kernel takes in a `writev`, given the number of the call and how much it is offered. -/
abbrev Kernel := Nat → Nat → Except String Nat

/-- One turn of the loop of `FileDescriptor::write`: how much was written, and what is left. -/
def writeOnce (buffer : BufferViewList) (answer : Except String Nat) : Except Exception (Nat × BufferViewList) :=
  (systemCall "writev" answer).bind fun bytesWritten =>
    if bytesWritten = 0 ∧ buffer.size ≠ 0 then
      .error (.runtimeError "write returned 0 given non-empty input buffer")
    else if bytesWritten > buffer.size then
      .error (.runtimeError "write wrote more than length of input buffer")
    else (buffer.removePrefix bytesWritten).map fun rest => (bytesWritten, rest)

/-- A turn that returns has written something, if there was something to write. -/
theorem writeOnce_ok {buffer rest : BufferViewList} {answer : Except String Nat} {n : Nat}
    (h : writeOnce buffer answer = .ok (n, rest)) :
    answer = .ok n ∧ n ≤ buffer.size ∧ (buffer.size ≠ 0 → 0 < n) ∧ rest.flatten = buffer.flatten.drop n := by
  unfold writeOnce at h
  obtain ⟨m, hanswer, hrest⟩ := bind_ok.mp h
  split at hrest
  · exact absurd hrest (by simp)
  rename_i hsome
  split at hrest
  · exact absurd hrest (by simp)
  rename_i hle
  obtain ⟨left, hremove, heq⟩ := map_ok.mp hrest
  obtain ⟨rfl, rfl⟩ := Prod.mk.inj heq
  obtain ⟨left', hremove', hflat⟩ := BufferViewList.removePrefix_spec (Nat.not_lt.mp hle)
  obtain rfl : left' = left := Except.ok.inj (hremove'.symm.trans hremove)
  refine ⟨?_, Nat.not_lt.mp hle, fun hne => Nat.pos_of_ne_zero fun hzero => hsome ⟨hzero, hne⟩, hflat⟩
  cases answer with
  | ok k => exact congrArg Except.ok (Except.ok.inj hanswer)
  | error what => exact absurd hanswer (by simp [systemCall])

theorem writeOnce_size {buffer rest : BufferViewList} {answer : Except String Nat} {n : Nat}
    (h : writeOnce buffer answer = .ok (n, rest)) : rest.size = buffer.size - n := by
  rw [BufferViewList.size_eq, (writeOnce_ok h).2.2.2, List.length_drop, ← BufferViewList.size_eq]

/-- The loop of `FileDescriptor::write`: the descriptor, what the kernel has taken, and what is returned or thrown. -/
def writeLoop (writeAll : Bool) (kernel : Kernel) (call : Nat) (fd : FDWrapper) (buffer : BufferViewList)
    (written : Bytes) (totalBytesWritten : Nat) : FDWrapper × Bytes × Except Exception Nat :=
  match h : writeOnce buffer (kernel call buffer.size) with
  | .error e => (fd, written, .error e)
  | .ok (bytesWritten, rest) =>
    let fd := { fd with writeCount := fd.writeCount + 1 }
    let written := written ++ buffer.flatten.take bytesWritten
    let totalBytesWritten := totalBytesWritten + bytesWritten
    if hmore : writeAll = true ∧ rest.size ≠ 0 then
      writeLoop writeAll kernel (call + 1) fd rest written totalBytesWritten
    else (fd, written, .ok totalBytesWritten)
termination_by buffer.size
decreasing_by
  have hsize := writeOnce_size h
  obtain ⟨-, hle, hpos, -⟩ := writeOnce_ok h
  have hrest := hmore.2
  omega

/-- `FileDescriptor::write`. -/
def write (fd : FDWrapper) (buffer : BufferViewList) (writeAll : Bool) (kernel : Kernel) :
    FDWrapper × Bytes × Except Exception Nat :=
  writeLoop writeAll kernel 0 fd buffer [] 0

/-! ## What was read, and what was written -/

variable {fd fd' : FDWrapper}

theorem read_ok {limit : Nat} {answer : Except String Bytes} {bytes : Bytes}
    (h : read fd limit answer = .ok (bytes, fd')) :
    answer = .ok bytes ∧ bytes.length ≤ limit ∧ fd'.closed = fd.closed ∧ fd'.readCount = fd.readCount + 1 ∧
      fd'.writeCount = fd.writeCount ∧ (fd'.eof = true ↔ fd.eof = true ∨ (0 < limit ∧ bytes = [])) := by
  unfold read at h
  obtain ⟨got, hanswer, hrest⟩ := bind_ok.mp h
  dsimp only at hrest
  split at hrest
  · exact absurd hrest (by simp)
  rename_i hle
  obtain ⟨rfl, rfl⟩ := Prod.mk.inj (Except.ok.inj hrest)
  have hgiven : answer = .ok got := by
    cases answer with
    | ok k => exact congrArg Except.ok (Except.ok.inj hanswer)
    | error what => exact absurd hanswer (by simp [systemCall])
  refine ⟨hgiven, by omega, ?_, ?_, ?_, ?_⟩
  all_goals by_cases hend : 0 < limit ∧ got = []
  all_goals simp [hend]

/-- What `read` throws comes from the kernel. -/
theorem read_error {limit : Nat} {answer : Except String Bytes} {e : Exception}
    (h : read fd limit answer = .error e) :
    (∃ what, answer = .error what ∧ e = .runtimeError ("read: " ++ what)) ∨
    ∃ bytes, answer = .ok bytes ∧ min BUFFER_SIZE limit < bytes.length ∧
      e = .runtimeError "read() read more than requested" := by
  cases answer with
  | error what => exact Or.inl ⟨what, rfl, (Except.error.inj h).symm⟩
  | ok bytes =>
    change (if bytes.length > min BUFFER_SIZE limit then _ else _) = _ at h
    split at h
    · rename_i hlong
      exact Or.inr ⟨bytes, rfl, hlong, (Except.error.inj h).symm⟩
    · exact absurd h (by simp)

variable {writeAll : Bool} {kernel : Kernel}

/-- **The loop writes in order.**  `written` is what it has written, `buffer` what is left. -/
theorem writeLoop_spec (call : Nat) (fd : FDWrapper) (buffer : BufferViewList) (written : Bytes)
    (totalBytesWritten : Nat) {fd' : FDWrapper} {written' : Bytes} {result : Except Exception Nat}
    (h : writeLoop writeAll kernel call fd buffer written totalBytesWritten = (fd', written', result)) :
    (∃ n, written' = written ++ buffer.flatten.take n ∧ n ≤ buffer.size ∧
      ∀ total, result = .ok total → total = totalBytesWritten + n ∧ fd.writeCount < fd'.writeCount ∧
        (writeAll = true → n = buffer.size)) ∧
    fd'.eof = fd.eof ∧ fd'.closed = fd.closed ∧ fd'.readCount = fd.readCount := by
  fun_induction writeLoop writeAll kernel call fd buffer written totalBytesWritten with
  | case1 call fd buffer written total e honce =>
    obtain ⟨rfl, rfl, rfl⟩ := by simpa only [Prod.mk.injEq] using h
    exact ⟨⟨0, by simp, Nat.zero_le _, by simp⟩, rfl, rfl, rfl⟩
  | case2 call fd buffer written total n rest honce fd₁ written₁ total₁ hmore ih =>
    have hsize := writeOnce_size honce
    obtain ⟨-, hle, -, hrest⟩ := writeOnce_ok honce
    obtain ⟨⟨m, hwritten, hm, hreturn⟩, heof, hclosed, hread⟩ := ih h
    refine ⟨⟨n + m, ?_, by omega, fun total htotal => ?_⟩, heof, hclosed, hread⟩
    · rw [hwritten, hrest, List.append_assoc, List.take_add]
    · obtain ⟨heq, hcount, hall⟩ := hreturn total htotal
      refine ⟨heq.trans (Nat.add_assoc _ _ _), Nat.lt_of_succ_lt hcount, fun hwrite => ?_⟩
      rw [hall hwrite]
      omega
  | case3 call fd buffer written total n rest honce fd₁ written₁ total₁ hmore =>
    have hsize := writeOnce_size honce
    obtain ⟨-, hle, -, hrest⟩ := writeOnce_ok honce
    obtain ⟨rfl, rfl, rfl⟩ := by simpa only [Prod.mk.injEq] using h
    refine ⟨⟨n, rfl, hle, fun total htotal => ?_⟩, rfl, rfl, rfl⟩
    refine ⟨(Except.ok.inj htotal).symm, Nat.lt_succ_self _, fun hwrite => ?_⟩
    -- the loop is over because nothing is left
    have hnone : rest.size = 0 := by
      by_contra hsome
      exact hmore ⟨hwrite, hsome⟩
    omega

/-- A kernel that takes something of whatever it is offered. -/
def Obliging (kernel : Kernel) : Prop :=
  ∀ call offered, ∃ n, kernel call offered = .ok n ∧ n ≤ offered ∧ (0 < offered → 0 < n)

theorem writeOnce_returns (hkernel : Obliging kernel) (call : Nat) (buffer : BufferViewList) :
    ∃ r, writeOnce buffer (kernel call buffer.size) = .ok r := by
  obtain ⟨n, hanswer, hle, hpos⟩ := hkernel call buffer.size
  obtain ⟨rest, hremove, -⟩ := BufferViewList.removePrefix_spec hle
  refine ⟨(n, rest), ?_⟩
  rw [hanswer]
  show (if n = 0 ∧ buffer.size ≠ 0 then _ else _) = _
  rw [if_neg (by omega), if_neg (Nat.not_lt.mpr hle), hremove]
  rfl

theorem writeLoop_returns (hkernel : Obliging kernel) (call : Nat) (fd : FDWrapper) (buffer : BufferViewList)
    (written : Bytes) (totalBytesWritten : Nat) :
    ∃ total, (writeLoop writeAll kernel call fd buffer written totalBytesWritten).2.2 = .ok total := by
  fun_induction writeLoop writeAll kernel call fd buffer written totalBytesWritten with
  | case1 call fd buffer written total e honce =>
    obtain ⟨r, hr⟩ := writeOnce_returns hkernel call buffer
    exact absurd (honce.symm.trans hr) (by simp)
  | case2 call fd buffer written total n rest honce fd₁ written₁ total₁ hmore ih => exact ih
  | case3 call fd buffer written total n rest honce fd₁ written₁ total₁ hmore => exact ⟨_, rfl⟩

/-- What `write` gives the kernel, returns, and leaves. -/
theorem write_spec {buffer : BufferViewList} {fd' : FDWrapper} {sent : Bytes} {result : Except Exception Nat}
    (h : write fd buffer writeAll kernel = (fd', sent, result)) :
    sent <+: buffer.flatten ∧ fd'.eof = fd.eof ∧ fd'.closed = fd.closed ∧ fd'.readCount = fd.readCount ∧
      ∀ total, result = .ok total → total = sent.length ∧ fd.writeCount < fd'.writeCount ∧
        (writeAll = true → sent = buffer.flatten) := by
  obtain ⟨⟨n, hsent, hle, hreturn⟩, heof, hclosed, hread⟩ := writeLoop_spec 0 fd buffer [] 0 h
  rw [List.nil_append] at hsent
  rw [BufferViewList.size_eq] at hle hreturn
  have hlen : sent.length = n := by
    rw [hsent, List.length_take]
    omega
  refine ⟨hsent ▸ List.take_prefix n buffer.flatten, heof, hclosed, hread, fun total htotal => ?_⟩
  obtain ⟨heq, hcount, hall⟩ := hreturn total htotal
  refine ⟨by omega, hcount, fun hwrite => ?_⟩
  rw [hsent, hall hwrite, List.take_length]

/-- What `write` throws comes from the kernel. -/
theorem writeOnce_error {buffer : BufferViewList} {answer : Except String Nat} {e : Exception}
    (h : writeOnce buffer answer = .error e) :
    (∃ what, e = .runtimeError ("writev: " ++ what)) ∨
    e = .runtimeError "write returned 0 given non-empty input buffer" ∨
    e = .runtimeError "write wrote more than length of input buffer" := by
  cases answer with
  | error what => exact Or.inl ⟨what, (Except.error.inj h).symm⟩
  | ok n =>
    change (if n = 0 ∧ buffer.size ≠ 0 then _ else if n > buffer.size then _ else _) = _ at h
    split at h
    · exact Or.inr (Or.inl (Except.error.inj h).symm)
    · split at h
      · exact Or.inr (Or.inr (Except.error.inj h).symm)
      · rename_i hle
        obtain ⟨rest, hrest, -⟩ := BufferViewList.removePrefix_spec (Nat.not_lt.mp hle)
        rw [hrest] at h
        exact absurd h (by simp [Except.map])

theorem writeLoop_error (call : Nat) (fd : FDWrapper) (buffer : BufferViewList) (written : Bytes)
    (totalBytesWritten : Nat) {e : Exception}
    (h : (writeLoop writeAll kernel call fd buffer written totalBytesWritten).2.2 = .error e) :
    (∃ what, e = .runtimeError ("writev: " ++ what)) ∨
    e = .runtimeError "write returned 0 given non-empty input buffer" ∨
    e = .runtimeError "write wrote more than length of input buffer" := by
  fun_induction writeLoop writeAll kernel call fd buffer written totalBytesWritten with
  | case1 call fd buffer written total e' honce =>
    obtain rfl : e' = e := Except.error.inj h
    exact writeOnce_error honce
  | case2 call fd buffer written total n rest honce fd₁ written₁ total₁ hmore ih => exact ih h
  | case3 call fd buffer written total n rest honce fd₁ written₁ total₁ hmore => exact absurd h (by simp)

/-- **Partial writes lose, repeat and reorder nothing.**  Whatever the kernel answers, what it has been given is a
prefix of the bytes of the views in order, also when `write` throws; the number that `write` returns is the length of
it; with `write_all` it is everything; and with a kernel that always takes something, `write` returns. -/
theorem write_in_order (fd : FDWrapper) (buffer : BufferViewList) (writeAll : Bool) (kernel : Kernel) :
    (write fd buffer writeAll kernel).2.1 <+: buffer.flatten ∧
    (∀ total, (write fd buffer writeAll kernel).2.2 = .ok total →
      total = (write fd buffer writeAll kernel).2.1.length ∧
      (writeAll = true → (write fd buffer writeAll kernel).2.1 = buffer.flatten)) ∧
    (Obliging kernel → ∃ total, (write fd buffer writeAll kernel).2.2 = .ok total) := by
  obtain ⟨hsent, -, -, -, hreturn⟩ := write_spec (Eq.refl (write fd buffer writeAll kernel))
  refine ⟨hsent, fun total htotal => ?_, fun hkernel => writeLoop_returns hkernel 0 fd buffer [] 0⟩
  obtain ⟨hlen, -, hall⟩ := hreturn total htotal
  exact ⟨hlen, hall⟩

/-- Seven bytes in three views, to a kernel that takes at most two at a time. -/
theorem write_in_order_two : ∃ kernel : Kernel, Obliging kernel ∧
    (∃ total, (write {} [[1, 2, 3], [], [4, 5, 6, 7]] true kernel).2.2 = .ok total) ∧
    (write {} [[1, 2, 3], [], [4, 5, 6, 7]] true kernel).2.1 = [1, 2, 3, 4, 5, 6, 7] := by
  have hobliging : Obliging fun _ offered => .ok (min 2 offered) :=
    fun _ offered => ⟨min 2 offered, rfl, Nat.min_le_right _ _, fun hsome => by omega⟩
  obtain ⟨-, hreturn, hreturns⟩ :=
    write_in_order {} [[1, 2, 3], [], [4, 5, 6, 7]] true fun _ offered => .ok (min 2 offered)
  obtain ⟨total, htotal⟩ := hreturns hobliging
  exact ⟨_, hobliging, ⟨total, htotal⟩, (hreturn total htotal).2 rfl⟩

end FileDescriptor

end Sponge
