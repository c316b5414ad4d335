/-
# `Sponge.InterfaceMalformed` — frames whose payload is not what their type says.

`recv_frame` turns every error of the IPv4 and ARP parsers into an exception, and hands up whatever the IPv4
parser lets through.  So a malformed payload is dropped without effect only where it is not looked at: in a
datagram for another host, and in a frame of another type.  Anyone on the link can therefore make `recv_frame`
throw (`bad_arp_throws`), and have a datagram with a wrong checksum handed up (`malformed_not_dropped`).

Besides, `recv_frame` throws when it releases a datagram that cannot be serialized; it throws for nothing else
(`recvFrame_returns_iff`).
-/
import Sponge.InterfacePending

namespace Sponge

open EthernetHeader (TYPE_IPv4 TYPE_ARP)
open IPv4Header (Framed Checked)

/-- The payload is what the type of the frame says: an IPv4 datagram with a header that is in order and has its
checksum, or a supported ARP message. -/
inductive EthernetFrame.WellFormed (frame : EthernetFrame) : Prop
  | ipv4 (htype : frame.header.type = TYPE_IPv4) (hframed : Framed frame.payload)
      (hsum : Checked frame.payload)
  | arp {m : ARPMessage} (htype : frame.header.type = TYPE_ARP) (hsupported : m.supported = true)
      (hwire : frame.payload = m.wire ++ frame.payload.drop ARPMessage.LENGTH)

namespace NetworkInterface

open EthernetFrame (WellFormed)

variable {n : NetworkInterface} {frame : EthernetFrame} {m : ARPMessage}

theorem wellFormed_ipv4_iff (htype : frame.header.type = TYPE_IPv4) :
    WellFormed frame ↔ Framed frame.payload ∧ Checked frame.payload := by
  refine ⟨fun h => ?_, fun h => .ipv4 htype h.1 h.2⟩
  cases h with
  | ipv4 _ hframed hsum => exact ⟨hframed, hsum⟩
  | arp harp _ _ => exact absurd (htype.symm.trans harp) (by decide)

/-- The ARP parser accepts exactly the supported messages. -/
theorem wellFormed_arp_iff (htype : frame.header.type = TYPE_ARP) :
    WellFormed frame ↔ ∃ m, arpOf frame = some m := by
  constructor
  · intro h
    cases h with
    | ipv4 hip _ _ => exact absurd (htype.symm.trans hip) (by decide)
    | @arp m _ hsupported hwire =>
      refine ⟨m, arpOf_parse htype ?_⟩
      rw [hwire]
      exact (m.parse_wire _).1 hsupported
  · rintro ⟨m, harp⟩
    obtain ⟨hsupported, hwire⟩ := ARPMessage.wire_of_parse (parse_of_arpOf harp).2
    exact .arp htype hsupported hwire

/-- **When `recv_frame` returns**: a datagram for the interface is accepted by the parser, a frame of the ARP type
has a message in it, and what that releases can be serialized. -/
theorem recvFrame_returns_iff (n : NetworkInterface) (frame : EthernetFrame) :
    (∃ r, n.recvFrame frame = .ok r) ↔
      (frame.header.type = TYPE_IPv4 → frame.header.dst = n.ethernetAddress →
        (InternetDatagram.parse frame.payload).1 = .noError) ∧
      (frame.header.type = TYPE_ARP → ∃ m, arpOf frame = some m ∧ n.Releases m) := by
  by_cases htype : frame.header.type = TYPE_ARP
  · have hip : frame.header.type ≠ TYPE_IPv4 := by
      rw [htype]
      decide
    rw [and_iff_right (fun h => absurd h hip), imp_iff_right htype]
    cases harp : arpOf frame with
    | none =>
      rw [recvFrame_not_arp htype harp]
      simp
    | some m =>
      rw [recvFrame_arp_returns_iff harp]
      simp
  · rw [and_iff_left (fun h => absurd h htype)]
    by_cases hown : frame.header.type = TYPE_IPv4 ∧ frame.header.dst = n.ethernetAddress
    · rw [recvFrame_ipv4 hown.1 hown.2, imp_iff_right hown.1, imp_iff_right hown.2]
      split
      · rename_i hno
        exact ⟨fun _ => hno, fun _ => ⟨_, rfl⟩⟩
      · rename_i hbad
        exact ⟨fun ⟨_, h⟩ => absurd h (by simp), fun h => absurd h hbad⟩
    · rw [recvFrame_other htype (fun hip hdst => hown ⟨hip, hdst⟩)]
      exact ⟨fun _ hip hdst => absurd ⟨hip, hdst⟩ hown, fun _ => ⟨_, rfl⟩⟩

/-! ## Malformed frames -/

/-- **Anything of the ARP type that is no supported message** makes `recv_frame` throw. -/
theorem bad_arp_throws (n : NetworkInterface) (htype : frame.header.type = TYPE_ARP) (h : ¬ WellFormed frame) :
    n.recvFrame frame = .error (.runtimeError "ARP Message parse error.") := by
  refine recvFrame_not_arp htype ?_
  rw [wellFormed_arp_iff htype] at h
  exact Option.eq_none_iff_forall_ne_some.mpr fun m harp => h ⟨m, harp⟩

/-- **Nothing that is of the IPv4 type and for the interface** is dropped: it is handed up, or makes `recv_frame`
throw. -/
theorem datagram_not_dropped (htype : frame.header.type = TYPE_IPv4)
    (hdst : frame.header.dst = n.ethernetAddress) : n.recvFrame frame ≠ .ok (none, n) := by
  rw [recvFrame_ipv4 htype hdst]
  split <;> simp

/-- **A malformed frame is dropped without effect**, and `recv_frame` does not throw, for every byte string that is
a frame, exactly if a datagram for the interface and a frame of the ARP type are well formed, and what an ARP reply
releases can be serialized. -/
theorem malformed_dropped (n : NetworkInterface) : ∀ (bytes : Bytes) (frame : EthernetFrame),
    EthernetFrame.parse bytes = (.noError, frame) →
    ((∃ dgram n', n.recvFrame frame = .ok (dgram, n') ∧ (¬ WellFormed frame → dgram = none ∧ n' = n)) ↔
      (frame.header.type = TYPE_IPv4 → frame.header.dst = n.ethernetAddress → WellFormed frame) ∧
      (frame.header.type = TYPE_ARP → WellFormed frame) ∧
      (∀ m, arpOf frame = some m → n.Releases m)) := by
  rintro bytes frame -
  constructor
  · rintro ⟨dgram, n', hr, hdropped⟩
    refine ⟨fun htype hdst => ?_, fun htype => ?_, fun m harp => (recvFrame_arp_returns_iff harp).mp ⟨_, hr⟩⟩
    · by_contra hbad
      obtain ⟨rfl, rfl⟩ := hdropped hbad
      exact datagram_not_dropped htype hdst hr
    · by_contra hbad
      rw [bad_arp_throws n htype hbad] at hr
      cases hr
  rintro ⟨hdatagram, harp, hkept⟩
  by_cases hwell : WellFormed frame
  · have hreturns : ∃ r, n.recvFrame frame = .ok r := by
      refine (recvFrame_returns_iff n frame).mpr ⟨fun htype _ => ?_, fun htype => ?_⟩
      · rw [InternetDatagram.parse_framed ((wellFormed_ipv4_iff htype).mp hwell).1]
      · obtain ⟨m, hm⟩ := (wellFormed_arp_iff htype).mp hwell
        exact ⟨m, hm, hkept m hm⟩
    obtain ⟨⟨dgram, n'⟩, hr⟩ := hreturns
    exact ⟨dgram, n', hr, fun hnot => absurd hwell hnot⟩
  · have hignored : n.recvFrame frame = .ok (none, n) :=
      recvFrame_other (fun htype => hwell (harp htype)) (fun htype hdst => hwell (hdatagram htype hdst))
    exact ⟨none, n, hignored, fun _ => ⟨rfl, rfl⟩⟩

/-- Three bytes for another host. -/
theorem malformed_dropped_elsewhere :
    ∃ dgram n', (new { b0 := 2, b5 := 9 } { ipv4Numeric := 9 }).recvFrame
        (ipv4Frame { b0 := 2, b5 := 1 } { b0 := 2, b5 := 7 } [1, 2, 3]) = .ok (dgram, n') ∧
      dgram = none ∧ n' = new { b0 := 2, b5 := 9 } { ipv4Numeric := 9 } := by
  have hbad : ¬ WellFormed (ipv4Frame { b0 := 2, b5 := 1 } { b0 := 2, b5 := 7 } [1, 2, 3]) := by
    rw [wellFormed_ipv4_iff rfl]
    decide +kernel
  obtain ⟨dgram, n', hr, hnone⟩ := (malformed_dropped (new { b0 := 2, b5 := 9 } { ipv4Numeric := 9 })
    (ipv4Frame { b0 := 2, b5 := 1 } { b0 := 2, b5 := 7 } [1, 2, 3]).serialize _ (EthernetFrame.parse_serialize _)).mpr
    ⟨fun _ hdst => absurd hdst (by decide), fun htype => absurd htype (by decide),
      fun m harp => absurd (parse_of_arpOf harp).1 (by decide)⟩
  exact ⟨dgram, n', hr, hnone hbad⟩

/-- **Malformed frames are not dropped.**  Three bytes of the ARP type, and of the IPv4 type for the interface,
make `recv_frame` throw; a datagram with a wrong checksum is handed up. -/
theorem malformed_not_dropped : ∃ n : NetworkInterface,
    (∃ bytes frame, EthernetFrame.parse bytes = (.noError, frame) ∧ frame.header.type = TYPE_ARP ∧
      ∃ e, n.recvFrame frame = .error e) ∧
    (∃ bytes frame, EthernetFrame.parse bytes = (.noError, frame) ∧ frame.header.type = TYPE_IPv4 ∧
      ∃ e, n.recvFrame frame = .error e) ∧
    ∃ bytes frame, EthernetFrame.parse bytes = (.noError, frame) ∧ ¬ WellFormed frame ∧
      ∃ dgram, n.recvFrame frame = .ok (some dgram, n) := by
  refine ⟨new { b0 := 2, b5 := 9 } { ipv4Numeric := 9 },
    ⟨_, { header := { type := TYPE_ARP }, payload := [1, 2, 3] }, EthernetFrame.parse_serialize _, rfl, _, rfl⟩,
    ⟨_, ipv4Frame {} { b0 := 2, b5 := 9 } [1, 2, 3], EthernetFrame.parse_serialize _, rfl, _, rfl⟩,
    ⟨_, ipv4Frame {} { b0 := 2, b5 := 9 }
        [0x45, 0, 0, 22, 0, 0, 0x40, 0, 128, 6, 0, 0, 0, 0, 0, 1, 0, 0, 0, 2, 7, 8],
      EthernetFrame.parse_serialize _, ?_, _, (recvFrame_ipv4 rfl rfl).trans (if_pos (by decide +kernel))⟩⟩
  rw [wellFormed_ipv4_iff rfl]
  decide +kernel

end NetworkInterface

end Sponge
