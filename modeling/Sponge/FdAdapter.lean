/-
# `Sponge.FdAdapter` — what carries segments: the adapters of a socket.

Models `TCPOverUDPSocketAdapter` of `tcp_helpers/fd_adapter.{hh,cc}`, `LossyFdAdapter` of
`tcp_helpers/lossy_fd_adapter.hh`, and `recv` and `sendto` of `UDPSocket` (`util/socket.cc`) as the adapter uses them.
The class `FdAdapter` is what `TCPSpongeSocket` asks of the type that it is a template over: the adapters for a TUN
device and for Ethernet have it too.

The UDP adapter tells segments apart by the address they come from.  It never looks at the ports in the segment, so it
takes whatever its peer sends it for a segment of its own connection.  A listening one takes the sender of the first
SYN for its peer, and for the whole run: everything that it returns comes from there (`one_peer`).

A lossy adapter reads before it decides whether to drop.  So it is its adapter with some of the writes left out and
some of the returned segments missing, and nothing else (`lossy_refines`): also what it drops has had its effect on
the adapter inside, and a SYN that is dropped on the way in still chooses the peer (`read_adapter`).
-/
import Sponge.EthernetAdapter

namespace Sponge

/-! ## What a socket asks of its adapter -/

/-- The operations of the template parameter `AdaptT` of `TCPSpongeSocket`. -/
class FdAdapter (A : Type) where
  /-- What one read of the device gives. -/
  Datagram : Type
  /-- The system call that reads the device. -/
  attempt : String
  /-- A read that gives this is at the end of the device. -/
  atEof : Datagram → Bool
  read : A → Datagram → A × Except Exception (Option TCPSegment)
  write : A → TCPSegment → A × Except Exception TCPSegment
  tick : A → Nat → A
  /-- What has been written to the device. -/
  sent : A → List Datagram

instance : FdAdapter TCPOverIPv4OverTunFdAdapter where
  Datagram := Bytes
  attempt := "read"
  atEof := List.isEmpty
  read := TCPOverIPv4OverTunFdAdapter.read
  write a seg := match a.write seg with
    | .ok (a, seg) => (a, .ok seg)
    | .error e => (a, .error e)
  tick a _ := a
  sent := TCPOverIPv4OverTunFdAdapter.tun

instance : FdAdapter TCPOverIPv4OverEthernetAdapter where
  Datagram := Bytes
  attempt := "read"
  atEof := List.isEmpty
  read := TCPOverIPv4OverEthernetAdapter.read
  write := TCPOverIPv4OverEthernetAdapter.write
  tick := TCPOverIPv4OverEthernetAdapter.tick
  sent := TCPOverIPv4OverEthernetAdapter.tap

/-! ## Over UDP -/

/-- A UDP datagram; `recv` gives its source and its payload. -/
structure UDPDatagram where
  source : SocketAddress
  destination : SocketAddress
  payload : Bytes
  deriving DecidableEq, Repr

/-- `TCPOverUDPSocketAdapter`; of the socket, its address and what was sent from it. -/
structure TCPOverUDPSocketAdapter where
  config : FdAdapterConfig := {}
  listening : Bool := false
  address : SocketAddress := {}
  sent : List UDPDatagram := []
  deriving DecidableEq, Repr

namespace TCPOverUDPSocketAdapter

/-- The default `mtu` of `UDPSocket::recv`. -/
def MTU : Nat := 65536

/-- `TCPOverUDPSocketAdapter::read` of what `recv` gives. -/
def read (a : TCPOverUDPSocketAdapter) (datagram : UDPDatagram) :
    TCPOverUDPSocketAdapter × Except Exception (Option TCPSegment) :=
  if datagram.payload.length > MTU then (a, .error (.runtimeError "recvfrom (oversized datagram)"))
  -- is it for us?
  else if !a.listening && datagram.source != a.config.destination then (a, .ok none)
  else
    let (result, seg) := TCPSegment.parse datagram.payload 0
    if result ≠ .noError then (a, .ok none)
    -- should we target this source in all future replies?
    else if a.listening then
      if seg.header.syn && !seg.header.rst then
        ({ a with config := { a.config with destination := datagram.source }, listening := false }, .ok (some seg))
      else (a, .ok none)
    else (a, .ok (some seg))

/-- The segment with the port numbers that `write` sets. -/
def withPorts (a : TCPOverUDPSocketAdapter) (seg : TCPSegment) : TCPSegment :=
  { seg with header := { seg.header with sport := a.config.source.port, dport := a.config.destination.port } }

/-- `TCPOverUDPSocketAdapter::write`: the adapter afterwards, and the segment with its ports set. -/
def write (a : TCPOverUDPSocketAdapter) (seg : TCPSegment) :
    TCPOverUDPSocketAdapter × Except Exception TCPSegment :=
  match (a.withPorts seg).serialize 0 with
  | .error e => (a, .error e)
  | .ok buffers =>
    ({ a with sent := a.sent ++
        [{ source := a.address, destination := a.config.destination, payload := buffers.flatten }] },
      .ok (a.withPorts seg))

instance : FdAdapter TCPOverUDPSocketAdapter where
  Datagram := UDPDatagram
  attempt := "recvfrom"
  atEof _ := false
  read := read
  write := write
  tick a _ := a
  sent := sent

variable {a a' b : TCPOverUDPSocketAdapter} {datagram : UDPDatagram} {seg : TCPSegment}

/-- **What `read` does.**  It returns no segment and leaves the adapter as it is; or it returns the segment in the
payload, which comes from the adapter's peer, after a listening adapter has taken the sender of a SYN for its peer. -/
theorem read_cases (a : TCPOverUDPSocketAdapter) (datagram : UDPDatagram) :
    ((a.read datagram).1 = a ∧ ∀ seg, (a.read datagram).2 ≠ .ok (some seg)) ∨
    ∃ a' seg, a.read datagram = (a', .ok (some seg)) ∧ TCPSegment.parse datagram.payload 0 = (.noError, seg) ∧
      a'.listening = false ∧ a'.config.destination = datagram.source ∧ a'.sent = a.sent ∧
      (if a.listening then seg.header.syn = true ∧ seg.header.rst = false else a' = a) := by
  unfold read
  split
  · exact Or.inl ⟨rfl, by simp⟩
  split
  · exact Or.inl ⟨rfl, by simp⟩
  rename_i hours
  generalize hparse : TCPSegment.parse datagram.payload 0 = parsed
  obtain ⟨result, seg⟩ := parsed
  dsimp only
  split
  · exact Or.inl ⟨rfl, by simp⟩
  rename_i hresult
  obtain rfl : result = .noError := not_not.mp hresult
  cases hl : a.listening with
  | true =>
    rw [if_pos rfl]
    split
    · rename_i hopen
      simp only [Bool.and_eq_true, Bool.not_eq_true'] at hopen
      exact Or.inr ⟨_, seg, rfl, rfl, rfl, rfl, rfl, hopen⟩
    · exact Or.inl ⟨rfl, by simp⟩
  | false =>
    rw [if_neg (by decide)]
    refine Or.inr ⟨a, seg, rfl, rfl, hl, ?_, rfl, rfl⟩
    simp only [hl, Bool.not_false, Bool.true_and, bne_iff_ne, not_not] at hours
    exact hours.symm

/-! ## A sequence of datagrams -/

/-- The segments that an adapter returns for the datagrams fed to it, each with its datagram. -/
def receive : TCPOverUDPSocketAdapter → List UDPDatagram → List (UDPDatagram × TCPSegment)
  | _, [] => []
  | a, datagram :: rest =>
    match a.read datagram with
    | (a, .ok (some seg)) => (datagram, seg) :: receive a rest
    | (a, _) => receive a rest

theorem receive_cons (a : TCPOverUDPSocketAdapter) (datagram : UDPDatagram) (rest : List UDPDatagram) :
    a.receive (datagram :: rest) = a.receive rest ∨
    ∃ a' seg, a.receive (datagram :: rest) = (datagram, seg) :: a'.receive rest ∧ a'.listening = false ∧
      a'.config.destination = datagram.source ∧
      (if a.listening then seg.header.syn = true ∧ seg.header.rst = false else a' = a) := by
  rcases a.read_cases datagram with ⟨hsame, hnone⟩ | ⟨a', seg, heq, -, hl, hpeer, -, hrest⟩
  · refine Or.inl ?_
    rw [receive]
    split
    · rename_i heq
      exact absurd (congrArg Prod.snd heq) (hnone _)
    · rename_i heq
      rw [← hsame, heq]
  · refine Or.inr ⟨a', seg, ?_, hl, hpeer, hrest⟩
    rw [receive, heq]

/-- An adapter that does not listen returns its peer's segments only. -/
theorem receive_peer (hl : a.listening = false) (datagrams : List UDPDatagram) :
    ∀ x ∈ a.receive datagrams, x.1.source = a.config.destination := by
  induction datagrams with
  | nil => simp [receive]
  | cons datagram rest ih =>
    rcases receive_cons a datagram rest with heq | ⟨a', seg, heq, -, hpeer, hsame⟩
    · rw [heq]
      exact ih
    · obtain rfl : a' = a := by rwa [hl, if_neg (by decide)] at hsame
      rw [heq]
      exact List.forall_mem_cons.mpr ⟨hpeer.symm, ih⟩

/-- A listening adapter returns a SYN first, and from then on what its sender sends. -/
theorem receive_listening (hl : a.listening = true) {datagrams : List UDPDatagram}
    {first : UDPDatagram × TCPSegment} {rest : List (UDPDatagram × TCPSegment)}
    (h : a.receive datagrams = first :: rest) :
    first.2.header.syn = true ∧ first.2.header.rst = false ∧ ∀ x ∈ rest, x.1.source = first.1.source := by
  induction datagrams with
  | nil => simp [receive] at h
  | cons datagram datagrams ih =>
    rcases receive_cons a datagram datagrams with heq | ⟨a', seg, heq, hpinned, hpeer, hopen⟩
    · exact ih (heq.symm.trans h)
    · obtain ⟨rfl, rfl⟩ := List.cons.inj (heq.symm.trans h)
      rw [hl, if_pos rfl] at hopen
      refine ⟨hopen.1, hopen.2, fun x hx => ?_⟩
      rw [receive_peer hpinned datagrams x hx]
      exact hpeer

/-! ## One segment out, and in again -/

/-- A segment that is written is sent as one datagram, which is parsed back up to ports and checksum. -/
theorem write_sent (a : TCPOverUDPSocketAdapter) (hmin : 5 ≤ seg.header.doff) (hmax : seg.header.doff ≤ 15)
    (hsize : 4 * seg.header.doff.toNat + seg.payload.length ≤ MTU) :
    ∃ payload cksum, a.write seg
      = ({ a with sent := a.sent ++ [⟨a.address, a.config.destination, payload⟩] }, .ok (a.withPorts seg)) ∧
      payload.length ≤ MTU ∧ TCPSegment.parse payload 0
        = (.noError, { seg with header := { (a.withPorts seg).header with cksum := cksum } }) := by
  have hsum : (0 : UInt32).toNat + 65280 * (4 * seg.header.doff.toNat + seg.payload.length) < 2 ^ 32 := by
    rw [show (0 : UInt32).toNat = 0 from rfl]
    rw [MTU] at hsize
    omega
  obtain ⟨header, cksum, hser, hlen, hparse⟩ := (a.withPorts seg).parse_serialize 0 hmin hmax hsum
  have hflat : [header, (a.withPorts seg).payload].flatten = header ++ seg.payload := by simp [withPorts]
  refine ⟨header ++ seg.payload, cksum, ?_, ?_, hparse⟩
  · rw [write, hser]
    dsimp only
    rw [hflat]
  · rw [List.length_append, hlen]
    exact hsize

/-- **TCP over UDP.**  A segment that `a` writes is returned, up to ports and checksum, by every adapter that has `a`
for its peer, or listens and finds it to be a SYN without RST.  And for every sequence of datagrams, the first segment
that a listening adapter returns has SYN and not RST, and all that it returns come from the same address. -/
theorem one_peer :
    (∀ (a b : TCPOverUDPSocketAdapter) (seg : TCPSegment), 5 ≤ seg.header.doff.toNat → seg.header.doff.toNat ≤ 15 →
      4 * seg.header.doff.toNat + seg.payload.length ≤ MTU →
      (if b.listening then seg.header.syn = true ∧ seg.header.rst = false else b.config.destination = a.address) →
      ∃ datagram a' seg' b' recovered, a.write seg = (a', .ok seg') ∧ a'.sent = a.sent ++ [datagram] ∧
        b.read datagram = (b', .ok (some recovered)) ∧ b'.config.destination = a.address ∧
        recovered.payload = seg.payload ∧
        { recovered.header with
          sport := seg.header.sport, dport := seg.header.dport, cksum := seg.header.cksum } = seg.header) ∧
    ∀ (a : TCPOverUDPSocketAdapter) (datagrams : List UDPDatagram) (first : UDPDatagram × TCPSegment)
      (rest : List (UDPDatagram × TCPSegment)), a.listening = true → a.receive datagrams = first :: rest →
      first.2.header.syn = true ∧ first.2.header.rst = false ∧ ∀ x ∈ rest, x.1.source = first.1.source := by
  refine ⟨fun a b seg hmin hmax hsize hpeer => ?_, fun a datagrams first rest hl h => receive_listening hl h⟩
  obtain ⟨payload, cksum, hwrite, hlen, hparse⟩ := a.write_sent (UInt8.le_iff_toNat_le.mpr hmin)
    (UInt8.le_iff_toNat_le.mpr hmax) hsize
  have hread : b.read ⟨a.address, a.config.destination, payload⟩
      = ({ b with config := { b.config with destination := a.address }, listening := false },
        .ok (some { seg with header := { (a.withPorts seg).header with cksum := cksum } })) := by
    unfold read
    rw [if_neg (Nat.not_lt.mpr hlen)]
    dsimp only
    rw [hparse]
    cases hl : b.listening with
    | true =>
      rw [hl, if_pos rfl] at hpeer
      rw [if_neg (by simp), if_neg (by simp), if_pos rfl, if_pos]
      simp [withPorts, hpeer.1, hpeer.2]
    | false =>
      rw [hl, if_neg (by decide)] at hpeer
      rw [if_neg (by simp [hpeer]), if_neg (by simp), if_neg (by decide)]
      obtain ⟨⟨source, destination⟩, listening, address, sent⟩ := b
      obtain rfl : destination = a.address := hpeer
      obtain rfl : listening = false := hl
      rfl
  exact ⟨_, _, _, _, _, hwrite, rfl, hread, rfl, rfl, rfl⟩

/-- A SYN chooses the peer of a listening adapter. -/
theorem one_peer_syn : ∃ datagram b' recovered,
    read { listening := true } datagram = (b', .ok (some recovered)) ∧ b'.config.destination = ⟨7, 9090⟩ ∧
      recovered.header.syn = true := by
  obtain ⟨datagram, _, _, b', recovered, -, -, hread, hdest, -, hheader⟩ := one_peer.1
    { address := ⟨7, 9090⟩ } { listening := true } { header := { syn := true } } (by decide) (by decide) (by decide)
    ⟨rfl, rfl⟩
  exact ⟨datagram, b', recovered, hread, hdest, congrArg TCPHeader.syn hheader⟩

end TCPOverUDPSocketAdapter

/-! ## With losses -/

/-- `LossyFdAdapter`; `rand` is what `_rand` gives, and `drawn` how often it has been called. -/
structure LossyFdAdapter (A : Type) where
  adapter : A
  lossRateUp : UInt16 := 0
  lossRateDn : UInt16 := 0
  rand : Nat → UInt16
  drawn : Nat := 0

namespace LossyFdAdapter

variable {A : Type}

/-- `LossyFdAdapter::_should_drop`. -/
def shouldDrop (l : LossyFdAdapter A) (uplink : Bool) : LossyFdAdapter A × Bool :=
  let loss := if uplink then l.lossRateUp else l.lossRateDn
  -- no number is drawn at a rate of 0
  if loss ≠ 0 then ({ l with drawn := l.drawn + 1 }, decide (l.rand l.drawn < loss)) else (l, false)

theorem shouldDrop_adapter (l : LossyFdAdapter A) (uplink : Bool) : (l.shouldDrop uplink).1.adapter = l.adapter := by
  unfold shouldDrop
  generalize (if uplink then l.lossRateUp else l.lossRateDn) = loss
  dsimp only
  split <;> rfl

variable [FdAdapter A]

/-- `LossyFdAdapter::read`. -/
def read (l : LossyFdAdapter A) (datagram : FdAdapter.Datagram A) :
    LossyFdAdapter A × Except Exception (Option TCPSegment) :=
  match FdAdapter.read l.adapter datagram with
  | (adapter, .error e) => ({ l with adapter := adapter }, .error e)
  | (adapter, .ok ret) =>
    match shouldDrop { l with adapter := adapter } false with
    | (l, true) => (l, .ok none)
    | (l, false) => (l, .ok ret)

/-- `LossyFdAdapter::write`. -/
def write (l : LossyFdAdapter A) (seg : TCPSegment) : LossyFdAdapter A × Except Exception TCPSegment :=
  match l.shouldDrop true with
  | (l, true) => (l, .ok seg)
  | (l, false) =>
    let (adapter, result) := FdAdapter.write l.adapter seg
    ({ l with adapter := adapter }, result)

instance : FdAdapter (LossyFdAdapter A) where
  Datagram := FdAdapter.Datagram A
  attempt := FdAdapter.attempt A
  atEof := FdAdapter.atEof
  read := read
  write := write
  tick l ms := { l with adapter := FdAdapter.tick l.adapter ms }
  sent l := FdAdapter.sent l.adapter

end LossyFdAdapter

/-! ## Runs of an adapter -/

namespace FdAdapter

/-- A call of the owner of an adapter. -/
inductive Call (D : Type) where
  | read (datagram : D)
  | write (seg : TCPSegment)
  | tick (msSinceLastTick : Nat)

def Call.isWrite {D : Type} : Call D → Bool
  | .write _ => true
  | _ => false

variable {A : Type} [FdAdapter A]

/-- One call, and the segment that it returned, if any.  What is thrown is caught. -/
def perform (a : A) : Call (Datagram A) → A × Option TCPSegment
  | .read datagram => ((FdAdapter.read a datagram).1, (FdAdapter.read a datagram).2.toOption.join)
  | .write seg => ((FdAdapter.write a seg).1, none)
  | .tick ms => (FdAdapter.tick a ms, none)

/-- The adapter after some calls, and the segments that were returned. -/
def run (a : A) : List (Call (Datagram A)) → A × List TCPSegment
  | [] => (a, [])
  | call :: rest => ((run (perform a call).1 rest).1, (perform a call).2.toList ++ (run (perform a call).1 rest).2)

end FdAdapter

namespace LossyFdAdapter

open FdAdapter (Call perform run)

variable {A : Type} [FdAdapter A]

/-- **The adapter inside reads in any case.** -/
theorem read_adapter (l : LossyFdAdapter A) (datagram : FdAdapter.Datagram A) :
    (l.read datagram).1.adapter = (FdAdapter.read l.adapter datagram).1 := by
  unfold read
  obtain ⟨adapter, result⟩ := FdAdapter.read l.adapter datagram
  cases result with
  | error e => rfl
  | ok ret =>
    have hsame := shouldDrop_adapter { l with adapter := adapter } false
    dsimp only
    split
    · rename_i heq
      rw [heq] at hsame
      exact hsame
    · rename_i heq
      rw [heq] at hsame
      exact hsame

/-- It returns what the adapter inside returns, or nothing. -/
theorem read_returned (l : LossyFdAdapter A) (datagram : FdAdapter.Datagram A) :
    (l.read datagram).2 = (FdAdapter.read l.adapter datagram).2 ∨ (l.read datagram).2 = .ok none := by
  unfold read
  obtain ⟨adapter, result⟩ := FdAdapter.read l.adapter datagram
  cases result with
  | error e => exact Or.inl rfl
  | ok ret =>
    dsimp only
    split
    · exact Or.inr rfl
    · exact Or.inl rfl

/-- **A write goes through or has no effect.** -/
theorem write_cases (l : LossyFdAdapter A) (seg : TCPSegment) :
    (l.write seg).1.adapter = l.adapter ∧ (l.write seg).2 = .ok seg ∨
    (l.write seg).1.adapter = (FdAdapter.write l.adapter seg).1 ∧
      (l.write seg).2 = (FdAdapter.write l.adapter seg).2 := by
  have hsame := l.shouldDrop_adapter true
  unfold write
  split
  · rename_i heq
    rw [heq] at hsame
    exact Or.inl ⟨hsame, rfl⟩
  · rename_i heq
    rw [heq] at hsame
    refine Or.inr ⟨?_, ?_⟩
    · show (FdAdapter.write _ seg).1 = _
      rw [hsame]
    · show (FdAdapter.write _ seg).2 = _
      rw [hsame]

/-- **A lossy adapter only loses.**  Every run of it is one of the adapter inside with some of the writes left out:
the adapter inside ends in the same state, all reads and ticks are there, and of the segments that the adapter inside
returns some may be missing, but none is added, changed or moved. -/
theorem lossy_refines (l : LossyFdAdapter A) (calls : List (Call (FdAdapter.Datagram A))) :
    ∃ kept : List (Call (FdAdapter.Datagram A)), kept.Sublist calls ∧
      kept.filter (fun call => !call.isWrite) = calls.filter (fun call => !call.isWrite) ∧
      (run (A := LossyFdAdapter A) l calls).1.adapter = (run l.adapter kept).1 ∧
      (run (A := LossyFdAdapter A) l calls).2.Sublist (run l.adapter kept).2 := by
  induction calls generalizing l with
  | nil => exact ⟨[], List.Sublist.refl _, rfl, rfl, List.Sublist.refl _⟩
  | cons call rest ih =>
    cases call with
    | read datagram =>
      obtain ⟨kept, hsub, hall, hadapter, hout⟩ := ih (l.read datagram).1
      rw [read_adapter] at hadapter hout
      refine ⟨.read datagram :: kept, hsub.cons_cons _, congrArg (Call.read datagram :: ·) hall, hadapter, ?_⟩
      refine List.Sublist.append ?_ hout
      show ((l.read datagram).2.toOption.join).toList.Sublist _
      rcases l.read_returned datagram with hread | hread
      · rw [hread]
        exact List.Sublist.refl _
      · rw [hread]
        exact List.nil_sublist _
    | write seg =>
      obtain ⟨kept, hsub, hall, hadapter, hout⟩ := ih (l.write seg).1
      rcases l.write_cases seg with ⟨hdropped, -⟩ | ⟨hwritten, -⟩
      · rw [hdropped] at hadapter hout
        exact ⟨kept, hsub.cons _, hall, hadapter, hout⟩
      · rw [hwritten] at hadapter hout
        exact ⟨.write seg :: kept, hsub.cons_cons _, hall, hadapter, hout⟩
    | tick ms =>
      obtain ⟨kept, hsub, hall, hadapter, hout⟩ := ih { l with adapter := FdAdapter.tick l.adapter ms }
      exact ⟨.tick ms :: kept, hsub.cons_cons _, congrArg (Call.tick ms :: ·) hall, hadapter, hout⟩

end LossyFdAdapter

end Sponge
