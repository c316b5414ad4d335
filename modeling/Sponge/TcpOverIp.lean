/-
# `Sponge.TcpOverIp` — TCP segments in IPv4 datagrams.

Models `TCPOverIPv4Adapter` of `tcp_helpers/tcp_over_ip.{hh,cc}`, with `FdAdapterBase` of `fd_adapter.hh` and
`FdAdapterConfig` of `tcp_config.hh`.  An `Address` is the numbers `ipv4_numeric()` and `port()` give, and the
text that `inet_ntoa` makes of the number is read back as that number.  The loss rates belong to another
adapter.

`unwrap_tcp_in_ip` hands the payload to the TCP parser as one `Buffer`, and the conversion throws for a
`BufferList` of more than one: a parsed datagram has one, but the datagram that `wrap_tcp_in_ip` builds has two,
the TCP header and the payload, and reaches its peer only as bytes.  So a datagram is taken here with its buffers
apart.  Nothing is assigned before that conversion, so an adapter that throws is unchanged.

A listening adapter takes its addresses and ports from the first SYN it accepts, and assigns both before it
compares the source port, so this comparison always succeeds: whenever no segment is returned, the adapter is
as it was (`unwrapTcpInIp_cases`).
-/
import Mathlib.Data.List.Basic
import Sponge.InternetDatagram
import Sponge.TcpWire

namespace Sponge

/-! ## Datagrams with their buffers apart -/

/-- The conversion of a `BufferList` to a `Buffer`. -/
def asBuffer : List Bytes → Except Exception Bytes
  | [] => .ok []
  | [buffer] => .ok buffer
  | _ => .error (.runtimeError
    "BufferList: please use concatenate() to combine a multi-Buffer BufferList into one Buffer")

/-- `IPv4Datagram`, with the buffers of its payload apart. -/
structure IPv4Datagram where
  header : IPv4Header := {}
  payload : List Bytes := []
  deriving DecidableEq, Repr

namespace IPv4Datagram

/-- `IPv4Datagram::parse` into a fresh datagram: the payload is one buffer. -/
def parse (buffer : Bytes) : ParseResult × IPv4Datagram :=
  let (result, d) := InternetDatagram.parse buffer
  (result, { header := d.header, payload := [d.payload] })

/-- `IPv4Datagram::serialize`, concatenated. -/
def serialize (d : IPv4Datagram) : Except Exception Bytes :=
  InternetDatagram.serialize { header := d.header, payload := d.payload.flatten }

end IPv4Datagram

/-! ## The adapter -/

/-- `Address`, with its port. -/
structure SocketAddress where
  ipv4Numeric : UInt32 := 0
  port : UInt16 := 0
  deriving DecidableEq, Repr

/-- `FdAdapterConfig`. -/
structure FdAdapterConfig where
  source : SocketAddress := {}
  destination : SocketAddress := {}
  deriving DecidableEq, Repr

/-- `TCPOverIPv4Adapter`. -/
structure TCPOverIPv4Adapter where
  config : FdAdapterConfig := {}
  listening : Bool := false
  deriving DecidableEq, Repr

namespace TCPOverIPv4Adapter

/-- The adapter that has taken its peer from a segment, and its own address from the datagram. -/
def pinned (a : TCPOverIPv4Adapter) (ipDgram : IPv4Datagram) (tcpSeg : TCPSegment) : TCPOverIPv4Adapter :=
  { config :=
      { source := { ipv4Numeric := ipDgram.header.dst, port := a.config.source.port }
        destination := { ipv4Numeric := ipDgram.header.src, port := tcpSeg.header.sport } }
    listening := false }

/-- What `unwrap_tcp_in_ip` does with a segment that was parsed. -/
def deliver (a : TCPOverIPv4Adapter) (ipDgram : IPv4Datagram) (tcpSeg : TCPSegment) :
    TCPOverIPv4Adapter × Option TCPSegment :=
  if tcpSeg.header.dport ≠ a.config.source.port then (a, none)
  else if a.listening && !(tcpSeg.header.syn && !tcpSeg.header.rst) then (a, none)
  else
    let a := if a.listening then a.pinned ipDgram tcpSeg else a
    if tcpSeg.header.sport ≠ a.config.destination.port then (a, none) else (a, some tcpSeg)

/-- `TCPOverIPv4Adapter::unwrap_tcp_in_ip`: the adapter afterwards, and what is returned or thrown. -/
def unwrapTcpInIp (a : TCPOverIPv4Adapter) (ipDgram : IPv4Datagram) :
    TCPOverIPv4Adapter × Except Exception (Option TCPSegment) :=
  if !a.listening && ipDgram.header.dst != a.config.source.ipv4Numeric then (a, .ok none)
  else if !a.listening && ipDgram.header.src != a.config.destination.ipv4Numeric then (a, .ok none)
  else if ipDgram.header.proto != IPv4Header.PROTO_TCP then (a, .ok none)
  else
    match asBuffer ipDgram.payload with
    | .error e => (a, .error e)
    | .ok buffer =>
      let (result, tcpSeg) := TCPSegment.parse buffer ipDgram.header.pseudoCksum
      if result ≠ .noError then (a, .ok none)
      else
        let (a, returned) := a.deliver ipDgram tcpSeg
        (a, .ok returned)

/-- The segment with the port numbers that `wrap_tcp_in_ip` sets. -/
def withPorts (a : TCPOverIPv4Adapter) (seg : TCPSegment) : TCPSegment :=
  { seg with header := { seg.header with sport := a.config.source.port, dport := a.config.destination.port } }

/-- The header of the datagram that `wrap_tcp_in_ip` creates. -/
def headerFor (a : TCPOverIPv4Adapter) (seg : TCPSegment) : IPv4Header :=
  let header : IPv4Header :=
    { src := a.config.source.ipv4Numeric
      dst := a.config.destination.ipv4Numeric }
  { header with
    len := UInt16.ofNat (header.hlen.toNat * 4 + seg.header.doff.toNat * 4 + seg.payload.length) }

/-- `TCPOverIPv4Adapter::wrap_tcp_in_ip`: the segment with its ports set, and the datagram. -/
def wrapTcpInIp (a : TCPOverIPv4Adapter) (seg : TCPSegment) : Except Exception (TCPSegment × IPv4Datagram) :=
  let seg := a.withPorts seg
  let header := a.headerFor seg
  (seg.serialize header.pseudoCksum).map fun payload => (seg, { header := header, payload := payload })

/-! ## One datagram in -/

/-- The addresses and ports of a segment and the datagram it came in. -/
structure Flow where
  src : UInt32
  dst : UInt32
  sport : UInt16
  dport : UInt16
  deriving DecidableEq, Repr

def flowOf (ipDgram : IPv4Datagram) (tcpSeg : TCPSegment) : Flow :=
  { src := ipDgram.header.src
    dst := ipDgram.header.dst
    sport := tcpSeg.header.sport
    dport := tcpSeg.header.dport }

/-- The one flow that an adapter which does not listen lets in. -/
def peerFlow (a : TCPOverIPv4Adapter) : Flow :=
  { src := a.config.destination.ipv4Numeric
    dst := a.config.source.ipv4Numeric
    sport := a.config.destination.port
    dport := a.config.source.port }

variable {a a' : TCPOverIPv4Adapter} {ipDgram : IPv4Datagram} {tcpSeg : TCPSegment}

/-- The datagram passes the address filters: any passes those of a listening adapter. -/
def Concerns (a : TCPOverIPv4Adapter) (ipDgram : IPv4Datagram) : Prop :=
  a.listening = true ∨ (ipDgram.header.dst = a.config.source.ipv4Numeric ∧
    ipDgram.header.src = a.config.destination.ipv4Numeric)

instance (a : TCPOverIPv4Adapter) (ipDgram : IPv4Datagram) : Decidable (a.Concerns ipDgram) :=
  inferInstanceAs (Decidable (_ ∨ _))

theorem concerns_iff (a : TCPOverIPv4Adapter) (ipDgram : IPv4Datagram) :
    a.Concerns ipDgram ↔
      ¬ (!a.listening && ipDgram.header.dst != a.config.source.ipv4Numeric) = true ∧
      ¬ (!a.listening && ipDgram.header.src != a.config.destination.ipv4Numeric) = true := by
  rw [Concerns]
  cases a.listening with
  | true => simp
  | false => simp

/-- The three filters before the payload is touched, as one condition. -/
theorem unwrapTcpInIp_eq (a : TCPOverIPv4Adapter) (ipDgram : IPv4Datagram) :
    a.unwrapTcpInIp ipDgram =
      if a.Concerns ipDgram ∧ ipDgram.header.proto = IPv4Header.PROTO_TCP then
        match asBuffer ipDgram.payload with
        | .error e => (a, .error e)
        | .ok buffer =>
          if (TCPSegment.parse buffer ipDgram.header.pseudoCksum).1 ≠ .noError then (a, .ok none)
          else ((a.deliver ipDgram (TCPSegment.parse buffer ipDgram.header.pseudoCksum).2).1,
            .ok (a.deliver ipDgram (TCPSegment.parse buffer ipDgram.header.pseudoCksum).2).2)
      else (a, .ok none) := by
  have hc := a.concerns_iff ipDgram
  rw [unwrapTcpInIp]
  by_cases hdst : (!a.listening && ipDgram.header.dst != a.config.source.ipv4Numeric) = true
  · rw [if_pos hdst, if_neg (fun h => (hc.mp h.1).1 hdst)]
  · by_cases hsrc : (!a.listening && ipDgram.header.src != a.config.destination.ipv4Numeric) = true
    · rw [if_neg hdst, if_pos hsrc, if_neg (fun h => (hc.mp h.1).2 hsrc)]
    · by_cases hproto : ipDgram.header.proto = IPv4Header.PROTO_TCP
      · rw [if_neg hdst, if_neg hsrc, if_neg (by simpa using hproto), if_pos ⟨hc.mpr ⟨hdst, hsrc⟩, hproto⟩]
      · rw [if_neg hdst, if_neg hsrc, if_pos (by simpa using hproto), if_neg (fun h => hproto h.2)]

/-- A parsed datagram has one buffer, so `unwrap_tcp_in_ip` does not throw for it. -/
theorem unwrapTcpInIp_returns (a : TCPOverIPv4Adapter) (header : IPv4Header) (payload : Bytes) :
    ∃ r, (a.unwrapTcpInIp { header := header, payload := [payload] }).2 = .ok r := by
  rw [unwrapTcpInIp_eq, asBuffer]
  dsimp only
  split
  · split <;> exact ⟨_, rfl⟩
  · exact ⟨_, rfl⟩

/-- A listening adapter takes a SYN without RST for its peer's: the last comparison cannot fail. -/
theorem deliver_listening (hl : a.listening = true) (hdport : tcpSeg.header.dport = a.config.source.port) :
    a.deliver ipDgram tcpSeg = if tcpSeg.header.syn = true ∧ tcpSeg.header.rst = false
      then (a.pinned ipDgram tcpSeg, some tcpSeg) else (a, none) := by
  rw [deliver, if_neg (not_not.mpr hdport), hl]
  cases tcpSeg.header.syn <;> cases tcpSeg.header.rst <;> simp [pinned]

theorem deliver_connected (hl : a.listening = false) (hdport : tcpSeg.header.dport = a.config.source.port) :
    a.deliver ipDgram tcpSeg = if tcpSeg.header.sport = a.config.destination.port
      then (a, some tcpSeg) else (a, none) := by
  rw [deliver, if_neg (not_not.mpr hdport), hl]
  simp

/-- A parsed segment is dropped and the adapter is as it was, or it is of the adapter's flow, which a listening
adapter takes from it. -/
theorem deliver_cases (hc : a.Concerns ipDgram) (tcpSeg : TCPSegment) :
    a.deliver ipDgram tcpSeg = (a, none) ∨
    ∃ a', a.deliver ipDgram tcpSeg = (a', some tcpSeg) ∧ a'.listening = false ∧
      flowOf ipDgram tcpSeg = a'.peerFlow ∧
      (if a.listening then tcpSeg.header.syn = true ∧ tcpSeg.header.rst = false else a' = a) := by
  by_cases hdport : tcpSeg.header.dport = a.config.source.port
  · cases hl : a.listening with
    | true =>
      rw [deliver_listening hl hdport]
      by_cases hopen : tcpSeg.header.syn = true ∧ tcpSeg.header.rst = false
      · refine Or.inr ⟨_, if_pos hopen, rfl, ?_, hopen⟩
        rw [flowOf, peerFlow, pinned, hdport]
      · exact Or.inl (if_neg hopen)
    | false =>
      rw [deliver_connected hl hdport]
      by_cases hsport : tcpSeg.header.sport = a.config.destination.port
      · obtain ⟨hdst, hsrc⟩ := hc.resolve_left (by simp [hl])
        refine Or.inr ⟨a, if_pos hsport, hl, ?_, rfl⟩
        rw [flowOf, peerFlow, hdst, hsrc, hsport, hdport]
      · exact Or.inl (if_neg hsport)
  · exact Or.inl (if_pos hdport)

/-- **What `unwrap_tcp_in_ip` does.**  It returns no segment and leaves the adapter as it is; or it returns a
segment of the adapter's flow, after a listening adapter has taken that flow from a SYN. -/
theorem unwrapTcpInIp_cases (a : TCPOverIPv4Adapter) (ipDgram : IPv4Datagram) :
    ((a.unwrapTcpInIp ipDgram).1 = a ∧ ∀ tcpSeg, (a.unwrapTcpInIp ipDgram).2 ≠ .ok (some tcpSeg)) ∨
    ∃ a' tcpSeg, a.unwrapTcpInIp ipDgram = (a', .ok (some tcpSeg)) ∧ a'.listening = false ∧
      flowOf ipDgram tcpSeg = a'.peerFlow ∧
      (if a.listening then tcpSeg.header.syn = true ∧ tcpSeg.header.rst = false else a' = a) := by
  rw [unwrapTcpInIp_eq]
  by_cases hc : a.Concerns ipDgram ∧ ipDgram.header.proto = IPv4Header.PROTO_TCP
  · rw [if_pos hc]
    cases asBuffer ipDgram.payload with
    | error e => exact Or.inl ⟨rfl, by simp⟩
    | ok buffer =>
      dsimp only
      generalize TCPSegment.parse buffer ipDgram.header.pseudoCksum = parsed
      by_cases hresult : parsed.1 = .noError
      · rw [if_neg (not_not.mpr hresult)]
        rcases deliver_cases hc.1 parsed.2 with hdrop | ⟨a', hdeliver, hrest⟩
        · rw [hdrop]
          exact Or.inl ⟨rfl, by simp⟩
        · rw [hdeliver]
          exact Or.inr ⟨a', parsed.2, rfl, hrest⟩
      · rw [if_pos hresult]
        exact Or.inl ⟨rfl, by simp⟩
  · rw [if_neg hc]
    exact Or.inl ⟨rfl, by simp⟩

/-! ## A sequence of datagrams -/

/-- The segments that an adapter returns for the datagrams fed to it, each with its datagram. -/
def receive : TCPOverIPv4Adapter → List IPv4Datagram → List (IPv4Datagram × TCPSegment)
  | _, [] => []
  | a, ipDgram :: rest =>
    match a.unwrapTcpInIp ipDgram with
    | (a, .ok (some tcpSeg)) => (ipDgram, tcpSeg) :: receive a rest
    | (a, _) => receive a rest

/-- The first datagram of a sequence. -/
theorem receive_cons (a : TCPOverIPv4Adapter) (ipDgram : IPv4Datagram) (rest : List IPv4Datagram) :
    a.receive (ipDgram :: rest) = a.receive rest ∨
    ∃ a' tcpSeg, a.receive (ipDgram :: rest) = (ipDgram, tcpSeg) :: a'.receive rest ∧ a'.listening = false ∧
      flowOf ipDgram tcpSeg = a'.peerFlow ∧
      (if a.listening then tcpSeg.header.syn = true ∧ tcpSeg.header.rst = false else a' = a) := by
  rcases a.unwrapTcpInIp_cases ipDgram with ⟨hsame, hnone⟩ | ⟨a', tcpSeg, heq, hrest⟩
  · refine Or.inl ?_
    rw [receive]
    split
    · rename_i heq
      exact absurd (congrArg Prod.snd heq) (hnone _)
    · rename_i heq
      rw [← hsame, heq]
  · refine Or.inr ⟨a', tcpSeg, ?_, hrest⟩
    rw [receive, heq]

/-- An adapter that does not listen returns its peer's segments only. -/
theorem receive_peer (hl : a.listening = false) (ipDgrams : List IPv4Datagram) :
    ∀ x ∈ a.receive ipDgrams, flowOf x.1 x.2 = a.peerFlow := by
  induction ipDgrams with
  | nil => simp [receive]
  | cons ipDgram rest ih =>
    rcases receive_cons a ipDgram rest with heq | ⟨a', tcpSeg, heq, -, hflow, hsame⟩
    · rw [heq]
      exact ih
    · obtain rfl : a' = a := by rwa [hl, if_neg (by decide)] at hsame
      rw [heq]
      exact List.forall_mem_cons.mpr ⟨hflow, ih⟩

/-- A listening adapter returns a SYN first, and from then on its peer's segments only. -/
theorem receive_listening (hl : a.listening = true) {ipDgrams : List IPv4Datagram}
    {first : IPv4Datagram × TCPSegment} {rest : List (IPv4Datagram × TCPSegment)}
    (h : a.receive ipDgrams = first :: rest) :
    (first.2.header.syn = true ∧ first.2.header.rst = false) ∧
    ∀ x ∈ rest, flowOf x.1 x.2 = flowOf first.1 first.2 := by
  induction ipDgrams with
  | nil => simp [receive] at h
  | cons ipDgram ipDgrams ih =>
    rcases receive_cons a ipDgram ipDgrams with heq | ⟨a', tcpSeg, heq, hpinned, hflow, hopen⟩
    · exact ih (heq.symm.trans h)
    · obtain ⟨rfl, rfl⟩ := List.cons.inj (heq.symm.trans h)
      rw [hl, if_pos rfl] at hopen
      refine ⟨hopen, fun x hx => ?_⟩
      rw [hflow]
      exact receive_peer hpinned ipDgrams x hx

/-! ## One datagram out, and in again -/

/-- A parsed segment of the adapter's flow is delivered, to a listening adapter if it opens a connection. -/
theorem deliver_own (hflow : flowOf ipDgram tcpSeg = a.peerFlow)
    (hopen : a.listening = true → tcpSeg.header.syn = true ∧ tcpSeg.header.rst = false) :
    (a.deliver ipDgram tcpSeg).2 = some tcpSeg := by
  obtain ⟨hsrc, hdst, hsport, hdport⟩ := Flow.mk.inj hflow
  cases hl : a.listening with
  | true => rw [deliver_listening hl hdport, if_pos (hopen hl)]
  | false => rw [deliver_connected hl hdport, if_pos hsport]

theorem headerFor_len (a : TCPOverIPv4Adapter) {seg : TCPSegment}
    (hsize : 20 + 4 * seg.header.doff.toNat + seg.payload.length ≤ 65535) :
    (a.headerFor seg).len.toNat = 20 + (4 * seg.header.doff.toNat + seg.payload.length) := by
  show (5 * 4 + seg.header.doff.toNat * 4 + seg.payload.length) % 2 ^ 16 = _
  omega

theorem headerFor_fits (a : TCPOverIPv4Adapter) (seg : TCPSegment) : (a.headerFor seg).Fits :=
  ⟨rfl, UInt8.le_refl 5, show (5 : UInt8) ≤ 15 by decide, show (0 : UInt16) &&& 0x1fff = 0 by decide⟩

/-- **A segment that is wrapped and sent** arrives with the sender's ports, and with a checksum. -/
theorem unwrap_wrap {b : TCPOverIPv4Adapter} {seg : TCPSegment}
    (hsource : b.config.source = a.config.destination) (hdestination : b.config.destination = a.config.source)
    (hmin : 5 ≤ seg.header.doff) (hmax : seg.header.doff ≤ 15)
    (hsize : 20 + 4 * seg.header.doff.toNat + seg.payload.length ≤ 65535)
    (hopen : b.listening = true → seg.header.syn = true ∧ seg.header.rst = false) :
    ∃ sent bytes received cksum, a.wrapTcpInIp seg = .ok (a.withPorts seg, sent) ∧ sent.serialize = .ok bytes ∧
      IPv4Datagram.parse bytes = (.noError, received) ∧
      (b.unwrapTcpInIp received).2 = .ok (some { seg with header := { (a.withPorts seg).header with
        cksum := cksum } }) := by
  have hlen : (a.headerFor (a.withPorts seg)).len.toNat = 20 + (4 * seg.header.doff.toNat + seg.payload.length) :=
    a.headerFor_len hsize
  have hpseudo := (a.headerFor (a.withPorts seg)).pseudoCksum_le
  obtain ⟨header, cksum, hser, hheader, hparse⟩ := TCPSegment.parse_serialize (a.withPorts seg)
    (a.headerFor (a.withPorts seg)).pseudoCksum hmin hmax
    (by change _ + 65280 * (4 * seg.header.doff.toNat + seg.payload.length) < 2 ^ 32; omega)
  have hwrap : a.wrapTcpInIp seg = .ok (a.withPorts seg,
      { header := a.headerFor (a.withPorts seg), payload := [header, seg.payload] }) :=
    map_ok.mpr ⟨_, hser, rfl⟩
  -- on the wire the two buffers are one
  have hflat : [header, seg.payload].flatten = header ++ seg.payload := by simp
  obtain ⟨bytes, ipCksum, hbytes, hreceived⟩ := InternetDatagram.parse_serialize
    (d := { header := a.headerFor (a.withPorts seg), payload := header ++ seg.payload }) (a.headerFor_fits _)
    (by
      rw [hlen, List.length_append, hheader]
      rfl)
  refine ⟨_, bytes, ⟨{ a.headerFor (a.withPorts seg) with cksum := ipCksum }, [header ++ seg.payload]⟩, cksum,
    hwrap, ?_, ?_, ?_⟩
  · rw [IPv4Datagram.serialize, hflat, hbytes]
  · rw [IPv4Datagram.parse, hreceived]
  · -- the header's own checksum does not count for the pseudo-checksum
    have hread : TCPSegment.parse (header ++ seg.payload)
        ({ a.headerFor (a.withPorts seg) with cksum := ipCksum } : IPv4Header).pseudoCksum
        = (.noError, { seg with header := { (a.withPorts seg).header with cksum := cksum } }) := hparse
    rw [unwrapTcpInIp_eq, if_pos ⟨Or.inr ⟨by rw [hsource]; rfl, by rw [hdestination]; rfl⟩, rfl⟩, asBuffer]
    dsimp only
    rw [hread, if_neg (not_not.mpr rfl)]
    refine congrArg Except.ok (deliver_own ?_ hopen)
    rw [peerFlow, hsource, hdestination]
    rfl

/-- **TCP over IPv4.**  A segment wrapped by an adapter `a`, serialized and parsed, is recovered up to ports and
checksum by an adapter `b` with the two ends exchanged, which if it listens needs a SYN without RST.  And for
every sequence of datagrams, the first segment that a listening adapter returns has SYN and not RST, and all that
it returns have the same addresses and ports. -/
theorem encapsulation :
    (∀ (a b : TCPOverIPv4Adapter) (seg : TCPSegment), b.config.source = a.config.destination →
      b.config.destination = a.config.source → 5 ≤ seg.header.doff.toNat → seg.header.doff.toNat ≤ 15 →
      20 + 4 * seg.header.doff.toNat + seg.payload.length ≤ 65535 →
      (b.listening = true → seg.header.syn = true ∧ seg.header.rst = false) →
      ∃ seg' sent bytes received recovered, a.wrapTcpInIp seg = .ok (seg', sent) ∧
        sent.serialize = .ok bytes ∧ IPv4Datagram.parse bytes = (.noError, received) ∧
        (b.unwrapTcpInIp received).2 = .ok (some recovered) ∧ recovered.payload = seg.payload ∧
        { recovered.header with
          sport := seg.header.sport, dport := seg.header.dport, cksum := seg.header.cksum } = seg.header) ∧
    ∀ (a : TCPOverIPv4Adapter) (ipDgrams : List IPv4Datagram) (first : IPv4Datagram × TCPSegment)
      (rest : List (IPv4Datagram × TCPSegment)), a.listening = true → a.receive ipDgrams = first :: rest →
      first.2.header.syn = true ∧ first.2.header.rst = false ∧
      ∀ x ∈ rest, flowOf x.1 x.2 = flowOf first.1 first.2 := by
  refine ⟨fun a b seg hsource hdestination hmin hmax hsize hopen => ?_, fun a ipDgrams first rest hl h => ?_⟩
  · obtain ⟨sent, bytes, received, cksum, hwrap, hser, hparse, hunwrap⟩ := unwrap_wrap hsource hdestination
      (UInt8.le_iff_toNat_le.mpr hmin) (UInt8.le_iff_toNat_le.mpr hmax) hsize hopen
    exact ⟨_, sent, bytes, received, _, hwrap, hser, hparse, hunwrap, rfl, rfl⟩
  · obtain ⟨⟨hsyn, hrst⟩, hflow⟩ := receive_listening hl h
    exact ⟨hsyn, hrst, hflow⟩

/-- The datagram that arrives for a segment that is sent. -/
def arrival (a : TCPOverIPv4Adapter) (seg : TCPSegment) : Option IPv4Datagram :=
  match a.wrapTcpInIp seg with
  | .ok (_, sent) => sent.serialize.toOption.map fun bytes => (IPv4Datagram.parse bytes).2
  | .error _ => none

/-- A client, and what arrives of a stray segment, a SYN and a segment with three bytes. -/
def client : TCPOverIPv4Adapter :=
  { config := { source := ⟨0x0a000001, 1000⟩, destination := ⟨0x0a000002, 80⟩ } }

def clientSends : List IPv4Datagram :=
  [{ header := { ack := true } }, { header := { syn := true } },
    { header := { ack := true }, payload := [1, 2, 3] }].filterMap client.arrival

/-- A connected server recovers three bytes; a listening one drops the stray segment and takes the SYN. -/
theorem encapsulation_client :
    (∃ sent bytes received recovered, client.wrapTcpInIp { payload := [1, 2, 3] } = .ok sent ∧
      sent.2.serialize = .ok bytes ∧ IPv4Datagram.parse bytes = (.noError, received) ∧
      (unwrapTcpInIp { config := { source := ⟨0x0a000002, 80⟩, destination := ⟨0x0a000001, 1000⟩ } } received).2
        = .ok (some recovered) ∧ recovered.payload = [1, 2, 3]) ∧
    ∃ first second, receive { config := { source := ⟨0, 80⟩ }, listening := true } clientSends = [first, second] ∧
      first.2.header.syn = true ∧ flowOf second.1 second.2 = flowOf first.1 first.2 := by
  refine ⟨?_, ?_⟩
  · obtain ⟨seg', sent, bytes, received, recovered, hwrap, hser, hparse, hunwrap, hpayload, -⟩ :=
      encapsulation.1 client { config := { source := ⟨0x0a000002, 80⟩, destination := ⟨0x0a000001, 1000⟩ } }
        { payload := [1, 2, 3] } rfl rfl (by decide) (by decide) (by decide) (by decide)
    exact ⟨_, bytes, received, recovered, hwrap, hser, hparse, hunwrap, hpayload⟩
  · have hlen : (receive { config := { source := ⟨0, 80⟩ }, listening := true } clientSends).length = 2 := by
      decide +kernel
    obtain ⟨first, second, heq⟩ := List.length_eq_two.mp hlen
    obtain ⟨hsyn, -, hflow⟩ := encapsulation.2 _ _ first [second] rfl heq
    exact ⟨first, second, heq, hsyn, hflow second List.mem_cons_self⟩

end TCPOverIPv4Adapter

end Sponge
