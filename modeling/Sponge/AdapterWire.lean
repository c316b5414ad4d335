/-
# `Sponge.AdapterWire` — what one adapter writes and another reads.

A socket does not ask of its adapter that segments arrive.  It can count on this much (`Conveys`): a write of a compact
segment returns, and puts out one datagram or none; and whoever reads that datagram, wherever it went, gets the
segment, up to its ports and checksum, or nothing, and no exception.  It holds over UDP and over a TUN device, and if it
holds of an adapter then of the lossy one around it.  Over Ethernet it does not: a write may only ask for an address,
and what it has to say goes out when a later read brings the answer.
-/
import Sponge.ConnectionOut
import Sponge.FdAdapter

namespace Sponge

open TCPConfig (MAX_PAYLOAD_SIZE)

/-! ## The property -/

section Conveys

variable (A : Type) [FdAdapter A]

/-- Whoever reads the datagram gets `seg` or nothing, and writes nothing. -/
def FdAdapter.Encodes (datagram : FdAdapter.Datagram A) (seg : TCPSegment) : Prop :=
  ∀ a : A, ∃ a' result, FdAdapter.read a datagram = (a', .ok result) ∧ FdAdapter.sent a' = FdAdapter.sent a ∧
    ∀ seg' ∈ result, seg.Alike seg'

/-- The adapter conveys compact segments. -/
class Conveys : Prop where
  write : ∀ (a : A) {seg : TCPSegment}, seg.Compact → ∃ a' seg', FdAdapter.write a seg = (a', .ok seg') ∧
    (FdAdapter.sent a' = FdAdapter.sent a ∨
      ∃ datagram, FdAdapter.sent a' = FdAdapter.sent a ++ [datagram] ∧ FdAdapter.Encodes A datagram seg)
  tick : ∀ (a : A) (ms : Nat), FdAdapter.sent (FdAdapter.tick a ms) = FdAdapter.sent a

end Conveys

/-- A compact segment is as long as its header and its payload. -/
theorem TCPSegment.Compact.bounds {seg : TCPSegment} (h : seg.Compact) :
    5 ≤ seg.header.doff ∧ seg.header.doff ≤ 15 ∧ 4 * seg.header.doff.toNat + seg.payload.length ≤ 1020 := by
  have hpayload := h.payload
  rw [MAX_PAYLOAD_SIZE] at hpayload
  rw [h.doff]
  refine ⟨by decide, by decide, ?_⟩
  show 4 * 5 + seg.payload.length ≤ 1020
  omega

/-! ## UDP -/

namespace TCPOverUDPSocketAdapter

/-- A datagram of legal size is read without an exception, and nothing but the segment in it is returned. -/
theorem read_returns (a : TCPOverUDPSocketAdapter) (datagram : UDPDatagram) (hsize : datagram.payload.length ≤ MTU) :
    ∃ a' result, a.read datagram = (a', .ok result) ∧ a'.sent = a.sent ∧
      ∀ seg ∈ result, (TCPSegment.parse datagram.payload 0).2 = seg := by
  unfold read
  rw [if_neg (Nat.not_lt.mpr hsize)]
  split
  · exact ⟨a, none, rfl, rfl, by simp⟩
  dsimp only
  split
  · exact ⟨a, none, rfl, rfl, by simp⟩
  split
  · split
    · exact ⟨_, _, rfl, rfl, by simp⟩
    · exact ⟨a, none, rfl, rfl, by simp⟩
  · exact ⟨a, _, rfl, rfl, by simp⟩

instance : Conveys TCPOverUDPSocketAdapter where
  write a seg hseg := by
    obtain ⟨hmin, hmax, hsize⟩ := hseg.bounds
    obtain ⟨payload, cksum, hwrite, hlen, hparse⟩ := a.write_sent hmin hmax (Nat.le_trans hsize (by decide))
    refine ⟨_, _, hwrite, Or.inr ⟨_, rfl, fun b => ?_⟩⟩
    obtain ⟨b', result, hread, hsent, hresult⟩ :=
      b.read_returns ⟨a.address, a.config.destination, payload⟩ hlen
    refine ⟨b', result, hread, hsent, fun seg' hmem => ?_⟩
    rw [← hresult seg' hmem]
    show seg.Alike (TCPSegment.parse payload 0).2
    rw [hparse]
    exact ⟨_, _, _, rfl⟩
  tick _ _ := rfl

end TCPOverUDPSocketAdapter

/-! ## A TUN device -/

namespace TCPOverIPv4Adapter

variable {a b : TCPOverIPv4Adapter} {ipDgram : IPv4Datagram} {seg seg' : TCPSegment}

/-- What is returned is the segment in the datagram. -/
theorem unwrapTcpInIp_parsed (h : (a.unwrapTcpInIp ipDgram).2 = .ok (some seg)) :
    ∃ buffer, asBuffer ipDgram.payload = .ok buffer ∧
      (TCPSegment.parse buffer ipDgram.header.pseudoCksum).2 = seg := by
  rw [unwrapTcpInIp_eq] at h
  split at h
  · rename_i hours
    cases hbuffer : asBuffer ipDgram.payload with
    | error e =>
      rw [hbuffer] at h
      exact absurd h (by simp)
    | ok buffer =>
      rw [hbuffer] at h
      dsimp only at h
      split at h
      · exact absurd h (by simp)
      · refine ⟨buffer, rfl, ?_⟩
        have hreturned := Except.ok.inj h
        rcases deliver_cases hours.1 (TCPSegment.parse buffer ipDgram.header.pseudoCksum).2 with hdrop | ⟨a', hgot, -⟩
        · rw [hdrop] at hreturned
          exact absurd hreturned (by simp)
        · rw [hgot] at hreturned
          exact Option.some.inj hreturned
  · exact absurd h (by simp)

/-- Which segment a datagram has in it is not a matter of who unwraps it. -/
theorem unwrapTcpInIp_unique (h : (a.unwrapTcpInIp ipDgram).2 = .ok (some seg))
    (h' : (b.unwrapTcpInIp ipDgram).2 = .ok (some seg')) : seg = seg' := by
  obtain ⟨buffer, hbuffer, hseg⟩ := unwrapTcpInIp_parsed h
  obtain ⟨buffer', hbuffer', hseg'⟩ := unwrapTcpInIp_parsed h'
  obtain rfl : buffer = buffer' := Except.ok.inj (hbuffer.symm.trans hbuffer')
  exact hseg.symm.trans hseg'

end TCPOverIPv4Adapter

namespace TCPOverIPv4OverTunFdAdapter

instance : Conveys TCPOverIPv4OverTunFdAdapter where
  write a seg hseg := by
    obtain ⟨hmin, hmax, hsize⟩ := hseg.bounds
    -- the adapter at the other end shows which segment is in the datagram
    obtain ⟨sent, bytes, received, cksum, hwrap, hser, hparse, hunwrap⟩ := TCPOverIPv4Adapter.unwrap_wrap (a := a.base)
      (b := { config := { source := a.base.config.destination, destination := a.base.config.source } })
      rfl rfl hmin hmax (by omega) (by simp)
    have hwrite : a.write seg = .ok ({ a with tun := a.tun ++ [bytes] }, a.base.withPorts seg) := by
      rw [write, hwrap]
      exact map_ok.mpr ⟨bytes, hser, rfl⟩
    refine ⟨{ a with tun := a.tun ++ [bytes] }, a.base.withPorts seg, ?_, Or.inr ⟨bytes, rfl, fun b => ?_⟩⟩
    · dsimp only [FdAdapter.write]
      rw [hwrite]
    · obtain ⟨result, hresult⟩ := b.read_returns bytes
      refine ⟨(b.read bytes).1, result, Prod.ext rfl hresult, ?_, fun seg' hmem => ?_⟩
      · show (b.read bytes).1.tun = b.tun
        rw [read_eq hparse]
      · rw [read_eq hparse] at hresult
        obtain rfl : result = some seg' := hmem
        rw [← TCPOverIPv4Adapter.unwrapTcpInIp_unique hunwrap hresult]
        exact ⟨_, _, _, rfl⟩
  tick _ _ := rfl

end TCPOverIPv4OverTunFdAdapter

/-! ## With losses -/

namespace LossyFdAdapter

variable {A : Type} [FdAdapter A]

/-- What the adapter inside reads. -/
theorem encodes {datagram : FdAdapter.Datagram A} {seg : TCPSegment} (h : FdAdapter.Encodes A datagram seg) :
    FdAdapter.Encodes (LossyFdAdapter A) datagram seg := by
  intro l
  obtain ⟨adapter, result, hread, hsent, hresult⟩ := h l.adapter
  have hadapter := l.read_adapter datagram
  have hreturned := l.read_returned datagram
  rw [hread] at hadapter hreturned
  rcases hreturned with heq | heq
  · refine ⟨_, result, Prod.ext rfl heq, ?_, hresult⟩
    show FdAdapter.sent (l.read datagram).1.adapter = _
    rw [hadapter]
    exact hsent
  · refine ⟨_, none, Prod.ext rfl heq, ?_, by simp⟩
    show FdAdapter.sent (l.read datagram).1.adapter = _
    rw [hadapter]
    exact hsent

instance [Conveys A] : Conveys (LossyFdAdapter A) where
  write l seg hseg := by
    rcases l.write_cases seg with ⟨hadapter, hresult⟩ | ⟨hadapter, hresult⟩
    · refine ⟨_, seg, Prod.ext rfl hresult, Or.inl ?_⟩
      show FdAdapter.sent (l.write seg).1.adapter = FdAdapter.sent l.adapter
      rw [hadapter]
    · obtain ⟨adapter, seg', hwrite, hsent⟩ := Conveys.write l.adapter hseg
      rw [hwrite] at hadapter hresult
      refine ⟨_, seg', Prod.ext rfl hresult, ?_⟩
      show FdAdapter.sent (l.write seg).1.adapter = _ ∨ ∃ datagram, FdAdapter.sent (l.write seg).1.adapter = _ ∧ _
      rw [hadapter]
      rcases hsent with hsame | ⟨datagram, hmore, hencodes⟩
      · exact Or.inl hsame
      · exact Or.inr ⟨datagram, hmore, encodes hencodes⟩
  tick l ms := Conveys.tick l.adapter ms

end LossyFdAdapter

end Sponge
