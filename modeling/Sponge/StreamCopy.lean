/-
# `Sponge.StreamCopy` — the program that copies both ways.

Models `bidirectional_stream_copy` of `apps/bidirectional_stream_copy.{hh,cc}`: the loop of all the `tcp_*` programs,
which copies its input to a socket and the socket to its output.  The kernel is an argument, as in
`Sponge.FileDescriptor`: each turn is given what `poll` reports and what every system call answers.  Beside the
variables of the program stand what the kernel has given and taken, and which rules have been cancelled.  That the
descriptors become non-blocking is left out.

A rule that writes may be hung up.  Its cancel function ends the stream then, while the rule that reads may still write
to it.  The end of the stream says that all has been copied only as long as the writing rule is there.

Each way, `Pipeline` says how what has been read, what has been written and the stream between them belong together, and
each callback keeps it.  `Sponge.StreamCopyRuns` has the loop.
-/
import Sponge.EventLoop
import Sponge.ByteStreamRuns

namespace Sponge

open Sponge.Lib

/-! ## The source functions -/

inductive StreamCopy.Fd where
  | input
  | output
  | socket
  deriving DecidableEq, Repr

namespace StreamCopy

/-- `max_copy_length`. -/
def maxCopyLength : Nat := 65536

/-- `buffer_size`. -/
def bufferSize : Nat := 1048576

end StreamCopy

/-- The variables of `bidirectional_stream_copy`, and what has happened. -/
structure StreamCopy where
  input : FDWrapper := {}
  output : FDWrapper := {}
  socket : FDWrapper := {}
  outbound : ByteStream := .new StreamCopy.bufferSize
  inbound : ByteStream := .new StreamCopy.bufferSize
  outboundShutdown : Bool := false
  inboundShutdown : Bool := false
  /-- What has been read from the input, and written to the socket, and how often the socket has been shut down. -/
  fromInput : Bytes := []
  toSocket : Bytes := []
  shutdowns : Nat := 0
  /-- What has been read from the socket, and written to the output, and how often the output has been closed. -/
  fromSocket : Bytes := []
  toOutput : Bytes := []
  closes : Nat := 0
  /-- The rules that have been cancelled. -/
  cancelled : List (StreamCopy.Fd × Direction) := []
  deriving DecidableEq, Repr

/-- What a read gets, given the number of the call and how much it asks for. -/
abbrev StreamCopy.Source := Nat → Nat → Except String Bytes

/-- What the kernel answers in one turn of the loop. -/
structure CopyTurn where
  poll : PollResult
  readInput : StreamCopy.Source := fun _ _ => .ok []
  writeSocket : Except String Nat := .ok 0
  shutdown : Except String Unit := .ok ()
  readSocket : StreamCopy.Source := fun _ _ => .ok []
  writeOutput : Except String Nat := .ok 0
  close : Except String Unit := .ok ()

namespace StreamCopy

def fds (s : StreamCopy × CopyTurn) : Fd → FDWrapper
  | .input => s.1.input
  | .output => s.1.output
  | .socket => s.1.socket

/-- The callback of rules 1 and 3: read what there is room for; at the end of the file, end the stream. -/
def fill (fd : FDWrapper) (stream : ByteStream) (source : Source) : Except Exception (Bytes × FDWrapper × ByteStream) :=
  let limit := stream.remainingCapacity
  (FileDescriptor.read fd limit (source fd.readCount (min FileDescriptor.BUFFER_SIZE limit))).map fun (data, fd) =>
    let stream := (stream.write data).2
    (data, fd, if fd.eof then stream.endInput else stream)

/-- The callback of rules 2 and 4, but for the end: write a piece of the stream, and take it out as far as it went. -/
def drain (fd : FDWrapper) (stream : ByteStream) (answer : Except String Nat) :
    Except Exception (Bytes × FDWrapper × ByteStream) :=
  let bytesToWrite := min maxCopyLength stream.bufferSize
  (stream.peekOutput bytesToWrite).bind fun piece =>
    let (fd, taken, result) := FileDescriptor.write fd [piece] false fun _ _ => answer
    result.bind fun bytesWritten =>
      match stream.popOutput bytesWritten with
      | (_, .error e) => .error e
      | (stream, .ok ()) => .ok (taken, fd, stream)

/-- The interest of rules 1 and 3 in a stream; `other` is the one of the other way. -/
def wants (stream other : ByteStream) : Bool :=
  !stream.error && decide (stream.remainingCapacity > 0) && !other.error

/-- The interest of rules 2 and 4. -/
def has (stream : ByteStream) (shutdown : Bool) : Bool := !stream.bufferEmpty || (stream.eof && !shutdown)

def readInput (s : StreamCopy) (turn : CopyTurn) : Except Exception StreamCopy :=
  (fill s.input s.outbound turn.readInput).map fun (data, input, outbound) =>
    { s with input := input, outbound := outbound, fromInput := s.fromInput ++ data }

def writeSocket (s : StreamCopy) (turn : CopyTurn) : Except Exception StreamCopy :=
  (drain s.socket s.outbound turn.writeSocket).bind fun (taken, socket, outbound) =>
    let s := { s with socket := socket, outbound := outbound, toSocket := s.toSocket ++ taken }
    if outbound.eof then
      -- `shutdown(SHUT_WR)` counts as a write
      (systemCall "shutdown" turn.shutdown).map fun _ =>
        { s with
          socket := { socket with writeCount := socket.writeCount + 1 }
          outboundShutdown := true
          shutdowns := s.shutdowns + 1 }
    else .ok s

def readSocket (s : StreamCopy) (turn : CopyTurn) : Except Exception StreamCopy :=
  (fill s.socket s.inbound turn.readSocket).map fun (data, socket, inbound) =>
    { s with socket := socket, inbound := inbound, fromSocket := s.fromSocket ++ data }

def writeOutput (s : StreamCopy) (turn : CopyTurn) : Except Exception StreamCopy :=
  (drain s.output s.inbound turn.writeOutput).bind fun (taken, output, inbound) =>
    let s := { s with output := output, inbound := inbound, toOutput := s.toOutput ++ taken }
    if inbound.eof then
      (systemCall "close" turn.close).map fun _ =>
        { s with
          output := { output with eof := true, closed := true }
          inboundShutdown := true
          closes := s.closes + 1 }
    else .ok s

/-- The cancel function of rules 1 and 2. -/
def endOutbound (s : StreamCopy) (fd : Fd) (direction : Direction) : StreamCopy :=
  { s with outbound := s.outbound.endInput, cancelled := (fd, direction) :: s.cancelled }

/-- The cancel function of rules 3 and 4. -/
def endInbound (s : StreamCopy) (fd : Fd) (direction : Direction) : StreamCopy :=
  { s with inbound := s.inbound.endInput, cancelled := (fd, direction) :: s.cancelled }

/-- Rule 1: read from stdin into outbound byte stream. -/
def rule1 : Rule (StreamCopy × CopyTurn) Fd where
  fd := .input
  direction := .pollIn
  callback := fun (s, turn) => (s.readInput turn).map (·, turn)
  interest := fun (s, _) => wants s.outbound s.inbound
  cancel := fun (s, turn) => .ok (s.endOutbound .input .pollIn, turn)

/-- Rule 2: read from outbound byte stream into socket. -/
def rule2 : Rule (StreamCopy × CopyTurn) Fd where
  fd := .socket
  direction := .pollOut
  callback := fun (s, turn) => (s.writeSocket turn).map (·, turn)
  interest := fun (s, _) => has s.outbound s.outboundShutdown
  cancel := fun (s, turn) => .ok (s.endOutbound .socket .pollOut, turn)

/-- Rule 3: read from socket into inbound byte stream. -/
def rule3 : Rule (StreamCopy × CopyTurn) Fd where
  fd := .socket
  direction := .pollIn
  callback := fun (s, turn) => (s.readSocket turn).map (·, turn)
  interest := fun (s, _) => wants s.inbound s.outbound
  cancel := fun (s, turn) => .ok (s.endInbound .socket .pollIn, turn)

/-- Rule 4: read from inbound byte stream into stdout. -/
def rule4 : Rule (StreamCopy × CopyTurn) Fd where
  fd := .output
  direction := .pollOut
  callback := fun (s, turn) => (s.writeOutput turn).map (·, turn)
  interest := fun (s, _) => has s.inbound s.inboundShutdown
  cancel := fun (s, turn) => .ok (s.endInbound .output .pollOut, turn)

def rules : List (Rule (StreamCopy × CopyTurn) Fd) := [rule1, rule2, rule3, rule4]

/-- The program in its loop, or after it. -/
structure Running where
  copy : StreamCopy := {}
  rules : List (Rule (StreamCopy × CopyTurn) Fd) := rules
  returned : Bool := false

/-- One turn of the loop. -/
def turn (w : Running) (turn : CopyTurn) : Except Exception Running :=
  if w.returned then .ok w
  else (EventLoop.waitNextEvent fds w.rules turn.poll (w.copy, turn)).map fun (result, rules, copy, _) =>
    { copy := copy, rules := rules, returned := decide (result = .exit) }

/-! ## One way -/

/-- What the kernel makes the program throw. -/
inductive SystemError : Exception → Prop
  | poll : SystemError EventLoop.pollError
  | read (what : String) : SystemError (.runtimeError ("read: " ++ what))
  | readMore : SystemError (.runtimeError "read() read more than requested")
  | writev (what : String) : SystemError (.runtimeError ("writev: " ++ what))
  | tookNothing : SystemError (.runtimeError "write returned 0 given non-empty input buffer")
  | tookMore : SystemError (.runtimeError "write wrote more than length of input buffer")
  | shutdown (what : String) : SystemError (.runtimeError ("shutdown: " ++ what))
  | close (what : String) : SystemError (.runtimeError ("close: " ++ what))

/-- One way of the copy: what has been read and what has been written, with the stream between them.  `finished` says
that nothing more will be read, `lost` that nothing more can be written, and `shut` that the end has been passed on. -/
structure Pipeline (received sent : Bytes) (stream : ByteStream) (finished lost shut : Bool) : Prop where
  wf : stream.WF
  capacity : stream.capacity = bufferSize
  clean : stream.error = false
  dense : stream.Dense
  order : received = sent ++ stream.contents
  ended : stream.isInputEnd = true ↔ finished = true ∨ lost = true
  complete : shut = true → stream.contents = [] ∧ finished = true

section Pipeline

variable {received sent data taken : Bytes} {stream stream' : ByteStream} {finished lost shut : Bool}
  {fd fd' : FDWrapper}

theorem Pipeline.new : Pipeline [] [] (.new bufferSize) false false false :=
  ⟨.new _, rfl, rfl, .new _, rfl, by simp [ByteStream.new], by simp⟩

/-- There is interest in a stream that holds something, and in one that has ended, until the end has been passed on. -/
theorem Pipeline.has_iff (h : Pipeline received sent stream finished lost shut) :
    has stream shut = true ↔ stream.contents ≠ [] ∨ (stream.isInputEnd = true ∧ shut = false) := by
  have heof := h.dense.eof_iff h.wf
  have hempty := h.dense.bufferEmpty_iff h.wf
  rw [has, Bool.or_eq_true, Bool.and_eq_true, Bool.not_eq_true', Bool.not_eq_true', heof, ← Bool.not_eq_true, hempty]
  constructor
  · exact Or.imp_right fun hend => ⟨hend.1.1, hend.2⟩
  · intro hsome
    by_cases hnone : stream.contents = []
    · exact Or.inr (hsome.elim (fun hne => absurd hnone hne) fun hend => ⟨⟨hend.1, hnone⟩, hend.2⟩)
    · exact Or.inl hnone

/-- **The reading callback.**  All that is read is kept, since no more is asked for than there is room for. -/
theorem Pipeline.fill (h : Pipeline received sent stream finished lost shut) (hover : finished = false)
    (source : Source) :
    Ends (fill fd stream source) (fun (data, fd', stream') =>
      Pipeline (received ++ data) sent stream' fd'.eof lost shut ∧ fd'.closed = fd.closed ∧
        fd'.readCount = fd.readCount + 1 ∧ fd'.writeCount = fd.writeCount ∧
        stream'.contents = stream.contents ++ data ∧ (stream.isInputEnd = true → stream'.isInputEnd = true))
      SystemError := by
  unfold StreamCopy.fill
  refine Ends.map (p := fun r => FileDescriptor.read fd stream.remainingCapacity (source fd.readCount
    (min FileDescriptor.BUFFER_SIZE stream.remainingCapacity)) = .ok r) ?_ ?_
  · refine Ends.intro (fun r hr => hr) fun e he => ?_
    rcases FileDescriptor.read_error he with ⟨what, -, rfl⟩ | ⟨-, -, -, rfl⟩
    · exact .read what
    · exact .readMore
  · rintro ⟨data, fd'⟩ hread
    obtain ⟨-, hlimit, hclosed, hreads, hwrites, -⟩ := FileDescriptor.read_ok hread
    rw [h.wf.remainingCapacity] at hlimit
    obtain ⟨hwf, hcontents, -⟩ := h.wf.write_all data hlimit
    have hdense : (stream.write data).2.Dense := by
      apply h.dense.write h.wf
      intro hdata
      rw [h.wf.remainingCapacity]
      exact Nat.lt_of_lt_of_le (List.length_pos_iff.mpr hdata) hlimit
    have hshut : shut = false := by
      by_contra hshut
      exact absurd (hover.symm.trans (h.complete (eq_true_of_ne_false hshut)).2) Bool.false_ne_true
    have hended : (stream.write data).2.isInputEnd = true ↔ lost = true := by
      rw [ByteStream.write_isInputEnd, h.ended, hover]
      exact or_iff_right Bool.false_ne_true
    have horder : received ++ data = sent ++ (stream.write data).2.contents := by
      rw [hcontents, h.order, List.append_assoc]
    have hclean : (stream.write data).2.error = false := (ByteStream.write_error stream data).trans h.clean
    have hcapacity : (stream.write data).2.capacity = bufferSize :=
      (ByteStream.write_capacity stream data).trans h.capacity
    dsimp only
    cases heof : fd'.eof with
    | true =>
      rw [if_pos rfl]
      exact ⟨⟨hwf.endInput, hcapacity, hclean, hdense, horder, by simp [ByteStream.endInput], by simp [hshut]⟩, hclosed,
        hreads, hwrites, hcontents, fun _ => rfl⟩
    | false =>
      rw [if_neg Bool.false_ne_true]
      exact ⟨⟨hwf, hcapacity, hclean, hdense, horder,
          hended.trans (or_iff_right Bool.false_ne_true).symm, by simp [hshut]⟩,
        hclosed, hreads, hwrites, hcontents, fun hend => (ByteStream.write_isInputEnd stream data).trans hend⟩

/-- **The writing callback.**  What the kernel has taken leaves the stream. -/
theorem Pipeline.drain (h : Pipeline received sent stream finished lost shut) (answer : Except String Nat) :
    Ends (drain fd stream answer) (fun (taken, fd', stream') =>
      Pipeline received (sent ++ taken) stream' finished lost shut ∧ fd'.eof = fd.eof ∧ fd'.closed = fd.closed ∧
        fd'.readCount = fd.readCount ∧ fd.writeCount < fd'.writeCount) SystemError := by
  unfold StreamCopy.drain
  dsimp only
  rw [stream.peekOutput_min (by decide)]
  dsimp only [Except.bind]
  generalize hwrite : FileDescriptor.write fd [stream.peeked (min maxCopyLength stream.bufferSize)] false
    (fun _ _ => answer) = written
  obtain ⟨fd', taken, result⟩ := written
  obtain ⟨hsent, heof, hclosed, hreads, hreturn⟩ := FileDescriptor.write_spec hwrite
  cases result with
  | error e =>
    rcases FileDescriptor.writeLoop_error 0 fd _ [] 0 (congrArg (fun r => r.2.2) hwrite) with ⟨what, rfl⟩ | rfl | rfl
    · exact .writev what
    · exact .tookNothing
    · exact .tookMore
  | ok n =>
    obtain ⟨rfl, hcount, -⟩ := hreturn n rfl
    rw [List.flatten_singleton, h.wf.peeked, h.wf.bufferSize] at hsent
    have htaken : taken <+: stream.contents := hsent.trans <| List.take_prefix _ _
    obtain ⟨rest, hrest⟩ := htaken
    have hle : taken.length ≤ stream.contents.length := by
      rw [← hrest, List.length_append]
      exact Nat.le_add_right _ _
    have hleft : (stream.dropped taken.length).contents = rest := by
      rw [ByteStream.contents_dropped h.wf.valid, ← hrest, List.drop_left]
    show Ends (match stream.popOutput taken.length with
      | (_, .error e) => .error e
      | (stream, .ok ()) => .ok (taken, fd', stream)) _ _
    rw [ByteStream.popOutput_eq h.wf.valid, if_pos hle]
    refine ⟨⟨h.wf.dropped _, h.capacity, h.clean, h.dense.dropped h.wf _, ?_, h.ended, fun hshut => ?_⟩, heof, hclosed,
      hreads, hcount⟩
    · rw [hleft, List.append_assoc, hrest]
      exact h.order
    · obtain ⟨hnone, hover⟩ := h.complete hshut
      rw [hnone] at hrest
      rw [hleft]
      exact ⟨(List.append_eq_nil_iff.mp hrest).2, hover⟩

/-- The end of the stream is passed on: it says that all has been read, since the writing rule is there. -/
theorem Pipeline.finish (h : Pipeline received sent stream finished lost shut) (hlost : lost = false)
    (heof : stream.eof = true) : Pipeline received sent stream finished lost true := by
  obtain ⟨hend, hnone⟩ := (h.dense.eof_iff h.wf).mp heof
  refine ⟨h.wf, h.capacity, h.clean, h.dense, h.order, h.ended, fun _ => ⟨hnone, ?_⟩⟩
  exact (h.ended.mp hend).resolve_right (by rw [hlost]; exact Bool.false_ne_true)

theorem Pipeline.endReading (h : Pipeline received sent stream finished lost shut) :
    Pipeline received sent stream.endInput true lost shut :=
  ⟨h.wf.endInput, h.capacity, h.clean, h.dense, h.order, by simp [ByteStream.endInput],
    fun hshut => ⟨(h.complete hshut).1, rfl⟩⟩

theorem Pipeline.endWriting (h : Pipeline received sent stream finished lost shut) :
    Pipeline received sent stream.endInput finished true shut :=
  ⟨h.wf.endInput, h.capacity, h.clean, h.dense, h.order, by simp [ByteStream.endInput], h.complete⟩

end Pipeline

/-! ## Both ways -/

/-- The rule for `fd` has been cancelled. -/
def gone (s : StreamCopy) (fd : Fd) (direction : Direction) : Bool := decide ((fd, direction) ∈ s.cancelled)

structure Inv (s : StreamCopy) : Prop where
  outward : Pipeline s.fromInput s.toSocket s.outbound (s.input.eof || s.gone .input .pollIn) (s.gone .socket .pollOut)
    s.outboundShutdown
  inward : Pipeline s.fromSocket s.toOutput s.inbound (s.socket.eof || s.gone .socket .pollIn) (s.gone .output .pollOut)
    s.inboundShutdown
  shutdowns : s.shutdowns = s.outboundShutdown.toNat
  closes : s.closes = s.inboundShutdown.toNat
  inputOpen : s.input.closed = false
  socketOpen : s.socket.closed = false
  outputClosed : s.output.closed = s.inboundShutdown

section Callbacks

variable {s s' : StreamCopy} {t : CopyTurn}

theorem readInput_ok (h : s.readInput t = .ok s') :
    ∃ data input outbound, fill s.input s.outbound t.readInput = .ok (data, input, outbound) ∧
      s' = { s with input := input, outbound := outbound, fromInput := s.fromInput ++ data } := by
  obtain ⟨⟨data, input, outbound⟩, hfill, rfl⟩ := map_ok.mp h
  exact ⟨data, input, outbound, hfill, rfl⟩

theorem readSocket_ok (h : s.readSocket t = .ok s') :
    ∃ data socket inbound, fill s.socket s.inbound t.readSocket = .ok (data, socket, inbound) ∧
      s' = { s with socket := socket, inbound := inbound, fromSocket := s.fromSocket ++ data } := by
  obtain ⟨⟨data, socket, inbound⟩, hfill, rfl⟩ := map_ok.mp h
  exact ⟨data, socket, inbound, hfill, rfl⟩

theorem writeSocket_ok (h : s.writeSocket t = .ok s') :
    ∃ taken socket outbound, drain s.socket s.outbound t.writeSocket = .ok (taken, socket, outbound) ∧
      s' = { s with
        socket := { socket with writeCount := socket.writeCount + outbound.eof.toNat }
        outbound := outbound
        toSocket := s.toSocket ++ taken
        outboundShutdown := s.outboundShutdown || outbound.eof
        shutdowns := s.shutdowns + outbound.eof.toNat } := by
  obtain ⟨⟨taken, socket, outbound⟩, hdrain, hrest⟩ := bind_ok.mp h
  refine ⟨taken, socket, outbound, hdrain, ?_⟩
  dsimp only at hrest
  cases heof : outbound.eof with
  | true =>
    rw [heof, if_pos rfl] at hrest
    obtain ⟨-, -, rfl⟩ := map_ok.mp hrest
    rw [Bool.or_true]
    rfl
  | false =>
    rw [heof, if_neg Bool.false_ne_true] at hrest
    obtain rfl := Except.ok.inj hrest
    rw [Bool.or_false]
    rfl

theorem writeOutput_ok (h : s.writeOutput t = .ok s') :
    ∃ taken output inbound, drain s.output s.inbound t.writeOutput = .ok (taken, output, inbound) ∧
      s' = { s with
        output := { output with eof := output.eof || inbound.eof, closed := output.closed || inbound.eof }
        inbound := inbound
        toOutput := s.toOutput ++ taken
        inboundShutdown := s.inboundShutdown || inbound.eof
        closes := s.closes + inbound.eof.toNat } := by
  obtain ⟨⟨taken, output, inbound⟩, hdrain, hrest⟩ := bind_ok.mp h
  refine ⟨taken, output, inbound, hdrain, ?_⟩
  dsimp only at hrest
  cases heof : inbound.eof with
  | true =>
    rw [heof, if_pos rfl] at hrest
    obtain ⟨-, -, rfl⟩ := map_ok.mp hrest
    rw [Bool.or_true, Bool.or_true, Bool.or_true]
    rfl
  | false =>
    rw [heof, if_neg Bool.false_ne_true] at hrest
    obtain rfl := Except.ok.inj hrest
    rw [Bool.or_false, Bool.or_false, Bool.or_false]
    rfl

/-- **Rule 1.** -/
theorem Inv.readInput (h : Inv s) (heof : s.input.eof = false) (hlive : s.gone .input .pollIn = false) :
    Ends (s.readInput t) (fun s' => Inv s' ∧ s'.input.readCount = s.input.readCount + 1 ∧
      (has s.outbound s.outboundShutdown = true → has s'.outbound s'.outboundShutdown = true)) SystemError := by
  have hover : (s.input.eof || s.gone .input .pollIn) = false := by rw [heof, hlive]; rfl
  refine (h.outward.fill hover t.readInput).map ?_
  rintro ⟨data, input, outbound⟩ ⟨hout, hclosed, hreads, -, hcontents, hended⟩
  have hout' : Pipeline (s.fromInput ++ data) s.toSocket outbound (input.eof || s.gone .input .pollIn)
      (s.gone .socket .pollOut) s.outboundShutdown := by
    rw [hlive, Bool.or_false]
    exact hout
  refine ⟨⟨hout', h.inward, h.shutdowns, h.closes, hclosed.trans h.inputOpen, h.socketOpen, h.outputClosed⟩, hreads,
    fun hhas => ?_⟩
  apply hout'.has_iff.mpr
  refine (h.outward.has_iff.mp hhas).imp (fun hsome => ?_) fun hend => ⟨hended hend.1, hend.2⟩
  rw [hcontents]
  exact List.append_ne_nil_of_left_ne_nil hsome data

/-- **Rule 3.** -/
theorem Inv.readSocket (h : Inv s) (heof : s.socket.eof = false) (hlive : s.gone .socket .pollIn = false) :
    Ends (s.readSocket t) (fun s' => Inv s' ∧ s'.socket.readCount = s.socket.readCount + 1 ∧
      (has s.inbound s.inboundShutdown = true → has s'.inbound s'.inboundShutdown = true)) SystemError := by
  have hover : (s.socket.eof || s.gone .socket .pollIn) = false := by rw [heof, hlive]; rfl
  refine (h.inward.fill hover t.readSocket).map ?_
  rintro ⟨data, socket, inbound⟩ ⟨hin, hclosed, hreads, -, hcontents, hended⟩
  have hin' : Pipeline (s.fromSocket ++ data) s.toOutput inbound (socket.eof || s.gone .socket .pollIn)
      (s.gone .output .pollOut) s.inboundShutdown := by
    rw [hlive, Bool.or_false]
    exact hin
  refine ⟨⟨h.outward, hin', h.shutdowns, h.closes, h.inputOpen, hclosed.trans h.socketOpen, h.outputClosed⟩, hreads,
    fun hhas => ?_⟩
  apply hin'.has_iff.mpr
  refine (h.inward.has_iff.mp hhas).imp (fun hsome => ?_) fun hend => ⟨hended hend.1, hend.2⟩
  rw [hcontents]
  exact List.append_ne_nil_of_left_ne_nil hsome data

/-- A rule that writes is interested only until it has passed on the end. -/
theorem Pipeline.open_of_has {received sent : Bytes} {stream : ByteStream} {finished lost shut : Bool}
    (h : Pipeline received sent stream finished lost shut) (hhas : has stream shut = true) : shut = false := by
  cases hshut : shut with
  | false => rfl
  | true =>
    rw [hshut] at hhas h
    rcases h.has_iff.mp hhas with hsome | ⟨-, hno⟩
    · exact absurd (h.complete rfl).1 hsome
    · exact hno

/-- **Rule 2.** -/
theorem Inv.writeSocket (h : Inv s) (hhas : has s.outbound s.outboundShutdown = true)
    (hlive : s.gone .socket .pollOut = false) :
    Ends (s.writeSocket t) (fun s' => Inv s' ∧ s.socket.writeCount < s'.socket.writeCount) SystemError := by
  have hopen := h.outward.open_of_has hhas
  refine Ends.bind (h.outward.drain t.writeSocket) ?_
  rintro ⟨taken, socket, outbound⟩ ⟨hout, heof, hclosed, -, hwrites⟩
  have hin : Pipeline s.fromSocket s.toOutput s.inbound (socket.eof || s.gone .socket .pollIn)
      (s.gone .output .pollOut) s.inboundShutdown := by
    rw [heof]
    exact h.inward
  dsimp only
  apply Ends.ite
  · intro hend
    cases hanswer : t.shutdown with
    | error what => exact .shutdown what
    | ok u =>
      refine ⟨⟨hout.finish hlive hend, hin, ?_, h.closes, h.inputOpen, hclosed.trans h.socketOpen, h.outputClosed⟩,
        Nat.lt_succ_of_lt hwrites⟩
      show s.shutdowns + 1 = 1
      rw [h.shutdowns, hopen]
      rfl
  · intro _
    exact ⟨⟨hout, hin, h.shutdowns, h.closes, h.inputOpen, hclosed.trans h.socketOpen, h.outputClosed⟩, hwrites⟩

/-- **Rule 4.** -/
theorem Inv.writeOutput (h : Inv s) (hhas : has s.inbound s.inboundShutdown = true)
    (hlive : s.gone .output .pollOut = false) :
    Ends (s.writeOutput t) (fun s' => Inv s' ∧ s.output.writeCount < s'.output.writeCount) SystemError := by
  have hopen := h.inward.open_of_has hhas
  refine Ends.bind (h.inward.drain t.writeOutput) ?_
  rintro ⟨taken, output, inbound⟩ ⟨hin, -, hclosed, -, hwrites⟩
  dsimp only
  apply Ends.ite
  · intro hend
    cases hanswer : t.close with
    | error what => exact .close what
    | ok u =>
      refine ⟨⟨h.outward, hin.finish hlive hend, h.shutdowns, ?_, h.inputOpen, h.socketOpen, rfl⟩, hwrites⟩
      show s.closes + 1 = 1
      rw [h.closes, hopen]
      rfl
  · intro _
    exact ⟨⟨h.outward, hin, h.shutdowns, h.closes, h.inputOpen, h.socketOpen, hclosed.trans h.outputClosed⟩, hwrites⟩

end Callbacks

end StreamCopy

end Sponge
