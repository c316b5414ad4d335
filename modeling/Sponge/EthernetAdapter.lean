/-
# `Sponge.EthernetAdapter` — TCP segments on an Ethernet link.

Models `TCPOverIPv4OverEthernetAdapter` of `tcp_helpers/tuntap_adapter.{hh,cc}`: a `TCPOverIPv4Adapter` over a
`NetworkInterface`, which reads frames from a device and writes the frames of the interface to it.  Of the device
the model has what was written; what is read is given to `read`.

The adapter is its interface with the frames on the wire instead of in the queue (`refines_interface`), so what
holds in every run of an interface holds in every run of an adapter.  It has no handler for what `recv_frame`
throws: `read` throws exactly when that does (`read_throws_iff`), and in every state anyone on the link can make it
(`bad_arp_read`).  The adapter for a TUN device, at the end, drops what does not parse (`read_returns`).

Between two adapters, the first segment to a next hop that is not known arrives after one exchange of ARP messages
(`first_segment_arrives`), from which both ends learn, and later ones arrive at once (`later_segment_arrives`).
-/
import Sponge.TcpOverIp
import Sponge.InterfaceRequests
import Sponge.InterfaceMalformed

namespace Sponge

open Sponge.Lib
open EthernetHeader (TYPE_IPv4 TYPE_ARP)

/-! ## The queue of an interface -/

namespace NetworkInterface

/-- The interface with some more frames in front of its queue. -/
def queued (n : NetworkInterface) (frames : List EthernetFrame) : NetworkInterface :=
  { n with framesOut := frames ++ n.framesOut }

variable (n : NetworkInterface) (frames : List EthernetFrame)

theorem foldl_learn_queued (lessons : List (UInt32 × EthernetAddress)) :
    lessons.foldl learn (n.queued frames) = (lessons.foldl learn n).queued frames := by
  induction lessons generalizing n with
  | nil => rfl
  | cons lesson rest ih => exact ih (n.learn lesson)

theorem foldl_learn_ethernetAddress (lessons : List (UInt32 × EthernetAddress)) :
    (lessons.foldl learn n).ethernetAddress = n.ethernetAddress := by
  obtain ⟨cache, hcache⟩ := foldl_learn_frame lessons n
  rw [hcache]

theorem getCache_learn (lesson : UInt32 × EthernetAddress) (ip : UInt32) :
    (n.learn lesson).ipMacMap.getCache ip = if ip = lesson.1 then some lesson.2 else n.ipMacMap.getCache ip := by
  rw [learn, IP2EthernetCache.getCache, IP2EthernetCache.setCache]
  by_cases hip : ip = lesson.1
  · rw [if_pos hip, hip]
    exact AList.lookup_insert _
  · rw [if_neg hip]
    exact AList.lookup_insert_ne hip

/-- A message makes its sender known, unless its target has the same address. -/
theorem getCache_sender {m : ARPMessage} (hsender : ARPMessage.learnable m.senderEthernetAddress = true)
    (htarget : ARPMessage.learnable m.targetEthernetAddress = true → m.senderIpAddress ≠ m.targetIpAddress) :
    (m.lessons.foldl learn n).ipMacMap.getCache m.senderIpAddress = some m.senderEthernetAddress := by
  by_cases hlearned : ARPMessage.learnable m.targetEthernetAddress = true
  · simp only [ARPMessage.lessons, List.filter_cons, hsender, hlearned, if_true, List.filter_nil, List.foldl_cons,
      List.foldl_nil]
    rw [getCache_learn, if_neg (htarget hlearned), getCache_learn, if_pos rfl]
  · simp only [ARPMessage.lessons, List.filter_cons, hsender, hlearned, if_true, Bool.false_eq_true, if_false,
      List.filter_nil, List.foldl_cons, List.foldl_nil]
    rw [getCache_learn, if_pos rfl]

theorem sendDatagram_queued (dgram : InternetDatagram) (nextHop : Address) :
    (n.queued frames).sendDatagram dgram nextHop
      = (n.sendDatagram dgram nextHop).map fun n' => n'.queued frames := by
  cases hcache : n.ipMacMap.getCache nextHop.ipv4Numeric with
  | some mac =>
    rw [sendDatagram_known dgram hcache, sendDatagram_known (n := n.queued frames) dgram hcache]
    cases dgram.serialize with
    | error e => rfl
    | ok payload => simp only [Except.map, queued, List.append_assoc]
  | none =>
    cases hout : n.requestOut with
    | true =>
      rw [sendDatagram_waits dgram hcache hout, sendDatagram_waits (n := n.queued frames) dgram hcache hout]
      rfl
    | false =>
      rw [sendDatagram_asks dgram hcache hout, sendDatagram_asks (n := n.queued frames) dgram hcache hout]
      simp only [Except.map, queued, List.append_assoc]
      rfl

theorem recvRequest_queued (m : ARPMessage) :
    (n.queued frames).recvRequest m = (n.recvRequest m).map fun n' => n'.queued frames := by
  rw [recvRequest_eq, recvRequest_eq, Except.map, ← foldl_learn_queued]
  simp only [queued, List.append_assoc]
  rfl

theorem recvReply_queued (m : ARPMessage) :
    (n.queued frames).recvReply m = (n.recvReply m).map fun n' => n'.queued frames := by
  cases hlookup : n.arpIpQueue.lookup m.targetIpAddress with
  | none =>
    rw [recvReply_unkept hlookup, recvReply_unkept (n := n.queued frames) hlookup, foldl_learn_queued]
    rfl
  | some kept =>
    rw [recvReply_kept hlookup, recvReply_kept (n := n.queued frames) hlookup]
    cases kept.2.serialize with
    | error e => rfl
    | ok payload =>
      simp only [Except.map, ← foldl_learn_queued]
      simp only [queued, List.append_assoc]

theorem recvFrame_queued (frame : EthernetFrame) :
    (n.queued frames).recvFrame frame = (n.recvFrame frame).map fun r => (r.1, r.2.queued frames) := by
  by_cases htype : frame.header.type = TYPE_ARP
  · cases harp : arpOf frame with
    | none =>
      rw [recvFrame_not_arp htype harp, recvFrame_not_arp htype harp]
      rfl
    | some m =>
      rw [recvFrame_arp harp, recvFrame_arp harp, recvRequest_queued, recvReply_queued]
      split
      · cases n.recvRequest m <;> rfl
      · cases n.recvReply m <;> rfl
  · by_cases hown : frame.header.type = TYPE_IPv4 ∧ frame.header.dst = n.ethernetAddress
    · rw [recvFrame_ipv4 hown.1 hown.2, recvFrame_ipv4 (n := n.queued frames) hown.1 hown.2]
      split <;> rfl
    · rw [recvFrame_other htype (fun hip hdst => hown ⟨hip, hdst⟩),
        recvFrame_other (n := n.queued frames) htype (fun hip hdst => hown ⟨hip, hdst⟩)]
      rfl

/-- **What is in the queue is no concern of any call.** -/
theorem step_queued (call : Call) :
    (n.queued frames).step call = (n.step call).map fun n' => n'.queued frames := by
  cases call with
  | sendDatagram dgram nextHop => exact n.sendDatagram_queued frames dgram nextHop
  | recvFrame frame =>
    rw [step, step, recvFrame_queued]
    cases n.recvFrame frame <;> rfl
  | tick ms => rfl

end NetworkInterface

/-! ## The adapter -/

/-- `TCPOverIPv4OverEthernetAdapter`; of the device, what was written to it. -/
structure TCPOverIPv4OverEthernetAdapter where
  base : TCPOverIPv4Adapter := {}
  tap : List Bytes
  interface : NetworkInterface
  nextHop : Address
  deriving DecidableEq

/-- The segment fits into a datagram, and one for a listening adapter opens a connection. -/
structure Sendable (seg : TCPSegment) (b : TCPOverIPv4Adapter) : Prop where
  min : 5 ≤ seg.header.doff
  max : seg.header.doff ≤ 15
  size : 20 + 4 * seg.header.doff.toNat + seg.payload.length ≤ 65535
  opens : b.listening = true → seg.header.syn = true ∧ seg.header.rst = false

namespace TCPOverIPv4OverEthernetAdapter

/-- The constructor writes a dummy frame to the device. -/
def new (ethAddress : EthernetAddress) (ipAddress nextHop : Address) : TCPOverIPv4OverEthernetAdapter :=
  { tap := [({} : EthernetFrame).serialize]
    interface := NetworkInterface.new ethAddress ipAddress
    nextHop := nextHop }

/-- The loop of `send_pending`: what is written when the queue is empty. -/
def sendLoop : List EthernetFrame → List Bytes → List Bytes
  | [], tap => tap
  | front :: rest, tap => sendLoop rest (tap ++ [front.serialize])

/-- `TCPOverIPv4OverEthernetAdapter::send_pending`. -/
def sendPending (a : TCPOverIPv4OverEthernetAdapter) : TCPOverIPv4OverEthernetAdapter :=
  { a with
    tap := sendLoop a.interface.framesOut a.tap
    interface := { a.interface with framesOut := [] } }

/-- `TCPOverIPv4OverEthernetAdapter::read` of what the device gives. -/
def read (a : TCPOverIPv4OverEthernetAdapter) (bytes : Bytes) :
    TCPOverIPv4OverEthernetAdapter × Except Exception (Option TCPSegment) :=
  match EthernetFrame.parse bytes with
  | (.noError, frame) =>
    match a.interface.recvFrame frame with
    -- `recv_frame` assigns nothing before it throws
    | .error e => (a, .error e)
    | .ok (ipDgram, interface) =>
      let a := sendPending { a with interface := interface }
      match ipDgram with
      | some d =>
        let (base, returned) := a.base.unwrapTcpInIp { header := d.header, payload := [d.payload] }
        ({ a with base := base }, returned)
      | none => (a, .ok none)
  | _ => (a, .ok none)

/-- `TCPOverIPv4OverEthernetAdapter::tick`. -/
def tick (a : TCPOverIPv4OverEthernetAdapter) (msSinceLastTick : Nat) : TCPOverIPv4OverEthernetAdapter :=
  sendPending { a with interface := a.interface.tick msSinceLastTick }

/-- `TCPOverIPv4OverEthernetAdapter::write`: the adapter afterwards, and the segment with its ports set. -/
def write (a : TCPOverIPv4OverEthernetAdapter) (seg : TCPSegment) :
    TCPOverIPv4OverEthernetAdapter × Except Exception TCPSegment :=
  match a.base.wrapTcpInIp seg with
  | .error e => (a, .error e)
  | .ok (seg, d) =>
    match a.interface.sendDatagram { header := d.header, payload := d.payload.flatten } a.nextHop with
    -- nor does `send_datagram`
    | .error e => (a, .error e)
    | .ok interface => (sendPending { a with interface := interface }, .ok seg)

theorem sendLoop_eq (frames : List EthernetFrame) (tap : List Bytes) :
    sendLoop frames tap = tap ++ frames.map EthernetFrame.serialize := by
  induction frames generalizing tap with
  | nil => rw [sendLoop, List.map_nil, List.append_nil]
  | cons front rest ih => rw [sendLoop, ih, List.map_cons, List.append_assoc, List.singleton_append]

/-! ## The adapter and its interface -/

/-- An adapter whose interface has done something and whose queue has been written to the device. -/
def after (a : TCPOverIPv4OverEthernetAdapter) (n : NetworkInterface) : TCPOverIPv4OverEthernetAdapter :=
  { a with
    tap := a.tap ++ n.framesOut.map EthernetFrame.serialize
    interface := { n with framesOut := [] } }

theorem sendPending_eq (a : TCPOverIPv4OverEthernetAdapter) (n : NetworkInterface) :
    sendPending { a with interface := n } = a.after n := by
  rw [sendPending, sendLoop_eq, after]

variable {a a' : TCPOverIPv4OverEthernetAdapter} {n : NetworkInterface} {bytes : Bytes} {frame : EthernetFrame}

theorem read_throws (hframe : EthernetFrame.parse bytes = (.noError, frame)) {e : Exception}
    (h : a.interface.recvFrame frame = .error e) : a.read bytes = (a, .error e) := by
  rw [read, hframe]
  dsimp only
  rw [h]

theorem read_nothing (hframe : EthernetFrame.parse bytes = (.noError, frame))
    (h : a.interface.recvFrame frame = .ok (none, n)) : a.read bytes = (a.after n, .ok none) := by
  rw [read, hframe]
  dsimp only
  rw [h, ← sendPending_eq]

theorem read_datagram (hframe : EthernetFrame.parse bytes = (.noError, frame)) {d : InternetDatagram}
    (h : a.interface.recvFrame frame = .ok (some d, n)) : a.read bytes =
      ({ a.after n with base := (a.base.unwrapTcpInIp { header := d.header, payload := [d.payload] }).1 },
        (a.base.unwrapTcpInIp { header := d.header, payload := [d.payload] }).2) := by
  rw [read, hframe]
  dsimp only
  rw [h, ← sendPending_eq]
  rfl

theorem read_not_frame (h : (EthernetFrame.parse bytes).1 ≠ .noError) : a.read bytes = (a, .ok none) := by
  rw [read]
  split
  · rename_i frame hframe
    rw [hframe] at h
    exact absurd rfl h
  · rfl

/-- **The outcomes of `read`**, each with its cause. -/
theorem read_cases (a : TCPOverIPv4OverEthernetAdapter) (bytes : Bytes) :
    ((EthernetFrame.parse bytes).1 ≠ .noError ∧ a.read bytes = (a, .ok none)) ∨
    ∃ frame, EthernetFrame.parse bytes = (.noError, frame) ∧
      ((∃ e, a.interface.recvFrame frame = .error e ∧ a.read bytes = (a, .error e)) ∨
        ∃ d n r base, a.interface.recvFrame frame = .ok (d, n) ∧
          a.read bytes = ({ a.after n with base := base }, .ok r)) := by
  by_cases hno : (EthernetFrame.parse bytes).1 = .noError
  · refine Or.inr ⟨_, Prod.ext hno rfl, ?_⟩
    cases hrecv : a.interface.recvFrame (EthernetFrame.parse bytes).2 with
    | error e => exact Or.inl ⟨e, rfl, read_throws (Prod.ext hno rfl) hrecv⟩
    | ok received =>
      refine Or.inr ?_
      obtain ⟨_ | d, n⟩ := received
      · exact ⟨none, n, none, a.base, rfl, read_nothing (Prod.ext hno rfl) hrecv⟩
      · obtain ⟨r, hr⟩ := a.base.unwrapTcpInIp_returns d.header d.payload
        have hread := read_datagram (a := a) (Prod.ext hno rfl) hrecv
        rw [hr] at hread
        exact ⟨some d, n, r, _, rfl, hread⟩
  · exact Or.inl ⟨hno, read_not_frame hno⟩

theorem tick_eq (a : TCPOverIPv4OverEthernetAdapter) (ms : Nat) : a.tick ms = a.after (a.interface.tick ms) :=
  sendPending_eq a _

/-- **What a call does to the interface**: nothing, or what one of the interface's own calls does, with the frames
that this sends written to the device. -/
inductive Called (a : TCPOverIPv4OverEthernetAdapter) : TCPOverIPv4OverEthernetAdapter → Prop
  | nothing {base : TCPOverIPv4Adapter} : Called a { a with base := base }
  | calls (call : NetworkInterface.Call) {n : NetworkInterface} {base : TCPOverIPv4Adapter}
      (h : a.interface.step call = .ok n) : Called a { a.after n with base := base }

theorem read_called (a : TCPOverIPv4OverEthernetAdapter) (bytes : Bytes) : Called a (a.read bytes).1 := by
  rcases a.read_cases bytes with ⟨-, hread⟩ | ⟨frame, -, ⟨e, -, hread⟩ | ⟨d, n, r, base, hrecv, hread⟩⟩
  · rw [hread]
    exact .nothing
  · rw [hread]
    exact .nothing
  · rw [hread]
    exact .calls (.recvFrame frame) (map_ok.mpr ⟨_, hrecv, rfl⟩)

theorem write_called (a : TCPOverIPv4OverEthernetAdapter) (seg : TCPSegment) : Called a (a.write seg).1 := by
  rw [write]
  split
  · exact .nothing
  · split
    · exact .nothing
    · rename_i seg d hwrap n hsend
      rw [sendPending_eq]
      exact .calls (.sendDatagram _ _) hsend

theorem tick_called (a : TCPOverIPv4OverEthernetAdapter) (ms : Nat) : Called a (a.tick ms) := by
  rw [tick_eq]
  exact .calls (.tick ms) rfl

/-- What the owner of an adapter can do. -/
inductive Call where
  | read (bytes : Bytes)
  | write (seg : TCPSegment)
  | tick (msSinceLastTick : Nat)
  /-- `config_mut()` and `set_listening()`. -/
  | configure (base : TCPOverIPv4Adapter)

/-- Every call returns here: what is thrown is caught. -/
def step (a : TCPOverIPv4OverEthernetAdapter) : Call → Except Exception TCPOverIPv4OverEthernetAdapter
  | .read bytes => .ok (a.read bytes).1
  | .write seg => .ok (a.write seg).1
  | .tick msSinceLastTick => .ok (a.tick msSinceLastTick)
  | .configure base => .ok { a with base := base }

def Start (a : TCPOverIPv4OverEthernetAdapter) : Prop :=
  ∃ ethAddress ipAddress nextHop, a = new ethAddress ipAddress nextHop

theorem step_called {call : Call} (h : a.step call = .ok a') : Called a a' := by
  cases call with
  | read bytes => exact Except.ok.inj h ▸ a.read_called bytes
  | write seg => exact Except.ok.inj h ▸ a.write_called seg
  | tick ms => exact Except.ok.inj h ▸ a.tick_called ms
  | configure base => exact Except.ok.inj h ▸ .nothing

/-- The adapter's interface is one whose frames are on the wire, after the dummy frame. -/
structure Refines (a : TCPOverIPv4OverEthernetAdapter) (n : NetworkInterface) : Prop where
  interface : a.interface = { n with framesOut := [] }
  tap : a.tap = ({} : EthernetFrame).serialize :: n.framesOut.map EthernetFrame.serialize

/-- **One call of the adapter** is none of the interface, or one. -/
theorem Refines.called (h : Refines a n) (hc : Called a a') :
    Refines a' n ∨ ∃ call n', n.step call = .ok n' ∧ Refines a' n' := by
  cases hc with
  | nothing => exact Or.inl ⟨h.interface, h.tap⟩
  | @calls call n₁ base hstep =>
    refine Or.inr ⟨call, n₁.queued n.framesOut, ?_, rfl, ?_⟩
    · -- the interface with its frames is that of the adapter with the frames put back
      have hn : n = a.interface.queued n.framesOut := by
        rw [h.interface, NetworkInterface.queued]
        simp only [List.append_nil]
      rw [hn, NetworkInterface.step_queued, hstep]
      simp only [Except.map, h.interface, NetworkInterface.queued, List.append_nil]
    · show a.tap ++ n₁.framesOut.map EthernetFrame.serialize = _
      rw [h.tap, NetworkInterface.queued, List.map_append, List.cons_append]

/-- **The adapter refines its interface**: in every state of every run, what is on the wire and what is in the
interface are those of a run of an interface alone. -/
theorem refines_interface (hr : Reach Start step (fun _ _ => True) a) :
    ∃ n, Reach (fun n => ∃ eth ip, n = NetworkInterface.new eth ip) NetworkInterface.step (fun _ _ => True) n ∧
      Refines a n := by
  refine Reach.invariant (P := fun a => ∃ n, Reach (fun n => ∃ eth ip, n = NetworkInterface.new eth ip)
    NetworkInterface.step (fun _ _ => True) n ∧ Refines a n) ?_ ?_ hr
  · rintro a ⟨eth, ip, hop, rfl⟩
    exact ⟨_, .start ⟨eth, ip, rfl⟩, rfl, rfl⟩
  · rintro a call a' ⟨n, hn, href⟩ - hs
    rcases href.called (step_called hs) with href' | ⟨call, n', hcall, href'⟩
    · exact ⟨n, hn, href'⟩
    · exact ⟨n', .step hn trivial hcall, href'⟩

/-- A segment for an unknown next hop, then one too early to ask again: the dummy frame and one request are on the
wire. -/
theorem refines_interface_asks : ∃ a n, Reach Start step (fun _ _ => True) a ∧ a.tap.length = 2 ∧
    Reach (fun n => ∃ eth ip, n = NetworkInterface.new eth ip) NetworkInterface.step (fun _ _ => True) n ∧
    Refines a n := by
  obtain ⟨a, hr, htest⟩ : ∃ a, Reach Start step (fun _ _ => True) a ∧ decide (a.tap.length = 2) = true :=
    Reach.exec_any _ (s := new ⟨2, 0, 0, 0, 0, 1⟩ ⟨0x0a000001⟩ ⟨0x0a000002⟩)
      (l := [.write { header := { syn := true } }, .tick 1000, .write { payload := [97] }])
      (.start ⟨_, _, _, rfl⟩) (by decide +kernel)
  obtain ⟨n, hn, href⟩ := refines_interface hr
  exact ⟨a, n, hr, of_decide_eq_true htest, hn, href⟩

/-- Between calls nothing is pending. -/
theorem framesOut_of_reach (hr : Reach Start step (fun _ _ => True) a) : a.interface.framesOut = [] := by
  refine Reach.invariant (P := fun a => a.interface.framesOut = []) ?_ ?_ hr
  · rintro a ⟨eth, ip, hop, rfl⟩
    rfl
  · intro a call a' h _ hs
    cases step_called hs with
    | nothing => exact h
    | calls call hstep => rfl

/-! ## What `read` throws -/

/-- **`read` throws exactly when `recv_frame` does.** -/
theorem read_throws_iff (a : TCPOverIPv4OverEthernetAdapter) (bytes : Bytes) :
    (∃ e, (a.read bytes).2 = .error e) ↔
      ∃ frame, EthernetFrame.parse bytes = (.noError, frame) ∧ ¬ ∃ r, a.interface.recvFrame frame = .ok r := by
  constructor
  · rintro ⟨e, he⟩
    rcases a.read_cases bytes with ⟨-, hread⟩ | ⟨frame, hframe, ⟨e', hrecv, -⟩ | ⟨d, n, r, base, -, hread⟩⟩
    · rw [hread] at he
      exact absurd he (by simp)
    · refine ⟨frame, hframe, ?_⟩
      rw [hrecv]
      simp
    · rw [hread] at he
      exact absurd he (by simp)
  · rintro ⟨frame, hframe, hnot⟩
    cases hrecv : a.interface.recvFrame frame with
    | error e => exact ⟨e, by rw [read_throws hframe hrecv]⟩
    | ok r => exact absurd ⟨r, hrecv⟩ hnot

/-- **Anyone on the link can make `read` throw**, in every state: a frame of the ARP type that is no supported
message does, whatever it is and to whomever it is addressed. -/
theorem bad_arp_read (a : TCPOverIPv4OverEthernetAdapter) (htype : frame.header.type = TYPE_ARP)
    (h : ¬ frame.WellFormed) :
    a.read frame.serialize = (a, .error (.runtimeError "ARP Message parse error.")) :=
  read_throws (EthernetFrame.parse_serialize frame) (NetworkInterface.bad_arp_throws a.interface htype h)

/-! ## Across the link -/

variable {b : TCPOverIPv4OverEthernetAdapter} {seg : TCPSegment} {m : ARPMessage}

theorem write_eq {seg' : TCPSegment} {sent : IPv4Datagram} (hwrap : a.base.wrapTcpInIp seg = .ok (seg', sent))
    (hsend : a.interface.sendDatagram { header := sent.header, payload := sent.payload.flatten } a.nextHop = .ok n) :
    a.write seg = (a.after n, .ok seg') := by
  rw [write, hwrap]
  dsimp only
  rw [hsend, ← sendPending_eq]

/-- A segment for a next hop that is not known: a request is written, and the datagram kept under the interface's
own address. -/
theorem write_asks (hqueue : a.interface.framesOut = [])
    (hunknown : a.interface.ipMacMap.getCache a.nextHop.ipv4Numeric = none) (hfree : a.interface.requestOut = false)
    {seg' : TCPSegment} {sent : IPv4Datagram} (hwrap : a.base.wrapTcpInIp seg = .ok (seg', sent)) :
    ∃ a' time, a.write seg = (a', .ok seg') ∧
      a'.tap = a.tap ++ [(a.interface.requestFrame a.nextHop).serialize] ∧ a'.interface.framesOut = [] ∧
      a'.interface.arpIpQueue.lookup a.interface.ipAddress.ipv4Numeric
        = some (time, { header := sent.header, payload := sent.payload.flatten }) := by
  refine ⟨_, _, write_eq hwrap (NetworkInterface.sendDatagram_asks _ hunknown hfree), ?_, rfl,
    AList.lookup_insert _⟩
  rw [after, hqueue]
  rfl

/-- A datagram for the adapter is unwrapped. -/
theorem read_ipv4 (src : EthernetAddress) {payload : Bytes} {received : IPv4Datagram}
    (hparse : IPv4Datagram.parse payload = (.noError, received)) :
    ∃ b', b.read (NetworkInterface.ipv4Frame src b.interface.ethernetAddress payload).serialize
      = (b', (b.base.unwrapTcpInIp received).2) ∧ b'.interface.ipMacMap = b.interface.ipMacMap := by
  have hrecv : b.interface.recvFrame (NetworkInterface.ipv4Frame src b.interface.ethernetAddress payload) = _ :=
    NetworkInterface.recvFrame_ipv4 rfl rfl
  rw [NetworkInterface.ipv4Frame] at hrecv ⊢
  dsimp only at hrecv
  rw [IPv4Datagram.parse] at hparse
  generalize InternetDatagram.parse payload = parsed at hparse hrecv
  obtain ⟨hno, rfl⟩ := Prod.mk.inj hparse
  rw [if_pos hno] at hrecv
  exact ⟨_, read_datagram (EthernetFrame.parse_serialize _) hrecv, rfl⟩

/-- A request for the adapter's address is answered, and learned from. -/
theorem read_request (hqueue : b.interface.framesOut = []) (harp : NetworkInterface.arpOf frame = some m)
    (hop : m.opcode = ARPMessage.OPCODE_REQUEST) (mac : EthernetAddress)
    (hanswer : b.interface.answer m.targetIpAddress = some mac) :
    ∃ b', b.read frame.serialize = (b', .ok none) ∧ b'.base = b.base ∧
      b'.interface.ethernetAddress = b.interface.ethernetAddress ∧
      b'.tap = b.tap ++ [(b.interface.replyFrame m mac).serialize] ∧
      (ARPMessage.learnable m.senderEthernetAddress = true →
        (ARPMessage.learnable m.targetEthernetAddress = true → m.senderIpAddress ≠ m.targetIpAddress) →
        b'.interface.ipMacMap.getCache m.senderIpAddress = some m.senderEthernetAddress) := by
  have hrecv := NetworkInterface.recvFrame_arp (n := b.interface) harp
  rw [if_pos hop, NetworkInterface.recvRequest_eq, hanswer, hqueue] at hrecv
  refine ⟨_, read_nothing (EthernetFrame.parse_serialize _) hrecv, rfl, ?_, ?_, ?_⟩
  · exact NetworkInterface.foldl_learn_ethernetAddress _ _
  · rw [after]
    dsimp only
    rw [(NetworkInterface.foldl_learn_keeps _ _).1]
    rfl
  · intro hsender htarget
    exact NetworkInterface.getCache_sender _ hsender htarget

/-- A reply to the adapter's address releases the datagram that is kept for it. -/
theorem read_reply (hqueue : a.interface.framesOut = []) (harp : NetworkInterface.arpOf frame = some m)
    (hop : m.opcode = ARPMessage.OPCODE_REPLY) {kept : Nat × InternetDatagram} {payload : Bytes}
    (hkept : a.interface.arpIpQueue.lookup m.targetIpAddress = some kept)
    (hpayload : kept.2.serialize = .ok payload) :
    ∃ a', a.read frame.serialize = (a', .ok none) ∧ a'.tap = a.tap ++
      [(NetworkInterface.ipv4Frame m.targetEthernetAddress m.senderEthernetAddress payload).serialize] ∧
      (ARPMessage.learnable m.senderEthernetAddress = true →
        (ARPMessage.learnable m.targetEthernetAddress = true → m.senderIpAddress ≠ m.targetIpAddress) →
        a'.interface.ipMacMap.getCache m.senderIpAddress = some m.senderEthernetAddress) := by
  have hrequest : m.opcode ≠ ARPMessage.OPCODE_REQUEST := by
    rw [hop]
    decide
  have hrecv := NetworkInterface.recvFrame_arp (n := a.interface) harp
  rw [if_neg hrequest, NetworkInterface.recvReply_kept hkept, hpayload, hqueue] at hrecv
  refine ⟨_, read_nothing (EthernetFrame.parse_serialize _) hrecv, ?_, ?_⟩
  · rw [after]
    dsimp only
    rw [(NetworkInterface.foldl_learn_keeps _ _).1]
    rfl
  · intro hsender htarget
    exact NetworkInterface.getCache_sender _ hsender htarget

/-- The two ends of a link: the next hop of one is the other, and the ends of the TCP connection are theirs. -/
structure Link (a b : TCPOverIPv4OverEthernetAdapter) : Prop where
  hop : a.nextHop = b.interface.ipAddress
  source : b.base.config.source = a.base.config.destination
  destination : b.base.config.destination = a.base.config.source

/-- **The first segment arrives.**  For a next hop that is not known, the segment is kept and a request written; the
other end answers it; the answer releases the datagram; and the other end gets the segment, up to its ports and
checksum.  Each end has then learned the other's address, if it is one that can be learned. -/
theorem first_segment_arrives (ha : Reach Start step (fun _ _ => True) a)
    (hb : Reach Start step (fun _ _ => True) b) (hlink : Link a b) (hseg : Sendable seg b.base)
    (hunknown : a.interface.ipMacMap.getCache a.nextHop.ipv4Numeric = none) (hfree : a.interface.requestOut = false)
    (hitself : b.interface.answer b.interface.ipAddress.ipv4Numeric = some b.interface.ethernetAddress) :
    ∃ a₁ b₁ a₂ b₂ request reply frame cksum,
      a.write seg = (a₁, .ok (a.base.withPorts seg)) ∧ a₁.tap = a.tap ++ [request] ∧
      b.read request = (b₁, .ok none) ∧ b₁.tap = b.tap ++ [reply] ∧
      a₁.read reply = (a₂, .ok none) ∧ a₂.tap = a₁.tap ++ [frame] ∧
      b₁.read frame
        = (b₂, .ok (some { seg with header := { (a.base.withPorts seg).header with cksum := cksum } })) ∧
      (ARPMessage.learnable a.interface.ethernetAddress = true →
        b₂.interface.ipMacMap.getCache a.interface.ipAddress.ipv4Numeric = some a.interface.ethernetAddress) ∧
      (ARPMessage.learnable b.interface.ethernetAddress = true →
        a.nextHop.ipv4Numeric ≠ a.interface.ipAddress.ipv4Numeric →
        a₂.interface.ipMacMap.getCache a.nextHop.ipv4Numeric = some b.interface.ethernetAddress) := by
  obtain ⟨sent, payload, received, cksum, hwrap, hpayload, hparse, hunwrap⟩ :=
    TCPOverIPv4Adapter.unwrap_wrap hlink.source hlink.destination hseg.min hseg.max hseg.size hseg.opens
  obtain ⟨a₁, time, hwrite, hasked, hqueue, hkept⟩ := write_asks (framesOut_of_reach ha) hunknown hfree hwrap
  obtain ⟨b₁, hrequest, hbase, heth, hreply, hasker⟩ := read_request (framesOut_of_reach hb)
    (NetworkInterface.arpOf_requestFrame a.interface a.nextHop) rfl b.interface.ethernetAddress
    (by rw [← hitself, ← hlink.hop]; rfl)
  -- the reply is to the address under which the datagram is kept
  obtain ⟨a₂, hreleased, hframe, hanswerer⟩ := read_reply hqueue
    (NetworkInterface.arpOf_replyFrame b.interface (a.interface.request a.nextHop) b.interface.ethernetAddress) rfl
    hkept hpayload
  have hsent : a₂.tap = a₁.tap ++ [(NetworkInterface.ipv4Frame a.interface.ethernetAddress
    b.interface.ethernetAddress payload).serialize] := hframe
  obtain ⟨b₂, harrives, hcache⟩ := read_ipv4 (b := b₁) a.interface.ethernetAddress hparse
  rw [heth, hbase, hunwrap] at harrives
  refine ⟨a₁, b₁, a₂, b₂, _, _, _, cksum, hwrite, hasked, hrequest, hreply, hreleased, hsent, harrives, ?_, ?_⟩
  · intro hlearnable
    rw [hcache]
    -- the target of a request has no address yet, so that nothing is learned of it
    have hblank : ¬ ARPMessage.learnable {} = true := by decide
    exact hasker hlearnable fun hlearned => absurd hlearned hblank
  · intro hlearnable hother
    exact hanswerer hlearnable fun _ => hother

/-- Two new adapters, each with the other for its next hop, are ready for it. -/
example (eth eth' : EthernetAddress) (ip ip' : Address) :
    Link (new eth ip ip') (new eth' ip' ip) ∧
    (new eth ip ip').interface.ipMacMap.getCache ip'.ipv4Numeric = none ∧
    (new eth ip ip').interface.requestOut = false ∧
    (new eth' ip' ip).interface.answer ip'.ipv4Numeric = some eth' :=
  ⟨⟨rfl, rfl, rfl⟩, rfl, rfl, if_pos rfl⟩

/-- A SYN between two new adapters whose owners have set the ends of the connection. -/
theorem first_segment_arrives_syn : ∃ (a b a₁ b₁ a₂ b₂ : TCPOverIPv4OverEthernetAdapter)
    (request reply frame : Bytes) (seg : TCPSegment),
    Reach Start step (fun _ _ => True) a ∧ Reach Start step (fun _ _ => True) b ∧
    (a.write { header := { syn := true } }).1 = a₁ ∧ a₁.tap = a.tap ++ [request] ∧
    b.read request = (b₁, .ok none) ∧ b₁.tap = b.tap ++ [reply] ∧
    a₁.read reply = (a₂, .ok none) ∧ a₂.tap = a₁.tap ++ [frame] ∧
    b₁.read frame = (b₂, .ok (some seg)) ∧ seg.header.syn = true ∧
    b₂.interface.ipMacMap.getCache 0x0a000001 = some ⟨2, 0, 0, 0, 0, 1⟩ ∧
    a₂.interface.ipMacMap.getCache 0x0a000002 = some ⟨2, 0, 0, 0, 0, 2⟩ := by
  have hconfigured : ∀ (eth : EthernetAddress) (ip hop : Address) (base : TCPOverIPv4Adapter),
      Reach Start step (fun _ _ => True) { new eth ip hop with base := base } := fun eth ip hop base =>
    .step (a := .configure base) (.start ⟨eth, ip, hop, rfl⟩) trivial rfl
  have ha := hconfigured ⟨2, 0, 0, 0, 0, 1⟩ ⟨0x0a000001⟩ ⟨0x0a000002⟩
    { config := { source := ⟨0x0a000001, 1000⟩, destination := ⟨0x0a000002, 80⟩ } }
  have hb := hconfigured ⟨2, 0, 0, 0, 0, 2⟩ ⟨0x0a000002⟩ ⟨0x0a000001⟩
    { config := { source := ⟨0x0a000002, 80⟩, destination := ⟨0x0a000001, 1000⟩ } }
  have hseg : Sendable { header := { syn := true } }
      { config := { source := ⟨0x0a000002, 80⟩, destination := ⟨0x0a000001, 1000⟩ } } :=
    ⟨by decide, by decide, by decide, by decide⟩
  obtain ⟨a₁, b₁, a₂, b₂, request, reply, frame, cksum, hwrite, hasked, hheard, hanswered, hreleased, hsent,
    harrives, hasker, hanswerer⟩ := first_segment_arrives ha hb ⟨rfl, rfl, rfl⟩ hseg rfl rfl (by decide)
  exact ⟨_, _, a₁, b₁, a₂, b₂, request, reply, frame, _, ha, hb, congrArg Prod.fst hwrite, hasked, hheard, hanswered,
    hreleased, hsent, harrives, rfl, hasker (by decide), hanswerer (by decide) (by decide)⟩

/-- **Later segments arrive at once**: for a known next hop the datagram is written, and the other end gets the
segment. -/
theorem later_segment_arrives (ha : Reach Start step (fun _ _ => True) a) (hlink : Link a b)
    (hseg : Sendable seg b.base)
    (hknown : a.interface.ipMacMap.getCache a.nextHop.ipv4Numeric = some b.interface.ethernetAddress) :
    ∃ a₁ b₁ frame cksum, a.write seg = (a₁, .ok (a.base.withPorts seg)) ∧ a₁.tap = a.tap ++ [frame] ∧
      b.read frame
        = (b₁, .ok (some { seg with header := { (a.base.withPorts seg).header with cksum := cksum } })) := by
  obtain ⟨sent, payload, received, cksum, hwrap, hpayload, hparse, hunwrap⟩ :=
    TCPOverIPv4Adapter.unwrap_wrap hlink.source hlink.destination hseg.min hseg.max hseg.size hseg.opens
  have hsend : a.interface.sendDatagram { header := sent.header, payload := sent.payload.flatten } a.nextHop = _ :=
    (NetworkInterface.sendDatagram_known _ hknown).trans (map_ok.mpr ⟨payload, hpayload, rfl⟩)
  obtain ⟨b₁, harrives, -⟩ := read_ipv4 (b := b) a.interface.ethernetAddress hparse
  rw [hunwrap] at harrives
  refine ⟨_, b₁, _, cksum, write_eq hwrap hsend, ?_, harrives⟩
  rw [after, framesOut_of_reach ha]
  rfl

end TCPOverIPv4OverEthernetAdapter

/-! ## Over a TUN device -/

/-- `TCPOverIPv4OverTunFdAdapter`; of the device, what was written to it. -/
structure TCPOverIPv4OverTunFdAdapter where
  base : TCPOverIPv4Adapter := {}
  tun : List Bytes := []
  deriving DecidableEq

namespace TCPOverIPv4OverTunFdAdapter

/-- `TCPOverIPv4OverTunFdAdapter::read` of what the device gives. -/
def read (a : TCPOverIPv4OverTunFdAdapter) (bytes : Bytes) :
    TCPOverIPv4OverTunFdAdapter × Except Exception (Option TCPSegment) :=
  match IPv4Datagram.parse bytes with
  | (.noError, ipDgram) =>
    let (base, returned) := a.base.unwrapTcpInIp ipDgram
    ({ a with base := base }, returned)
  | _ => (a, .ok none)

/-- `TCPOverIPv4OverTunFdAdapter::write`: the adapter afterwards, and the segment with its ports set. -/
def write (a : TCPOverIPv4OverTunFdAdapter) (seg : TCPSegment) :
    Except Exception (TCPOverIPv4OverTunFdAdapter × TCPSegment) :=
  (a.base.wrapTcpInIp seg).bind fun (seg, ipDgram) =>
    ipDgram.serialize.map fun bytes => ({ a with tun := a.tun ++ [bytes] }, seg)

variable {a b : TCPOverIPv4OverTunFdAdapter} {bytes : Bytes}

theorem read_eq {received : IPv4Datagram} (hparse : IPv4Datagram.parse bytes = (.noError, received)) :
    a.read bytes = ({ a with base := (a.base.unwrapTcpInIp received).1 }, (a.base.unwrapTcpInIp received).2) := by
  rw [read, hparse]

/-- **Nothing on a TUN device makes `read` throw**: what does not parse is dropped. -/
theorem read_returns (a : TCPOverIPv4OverTunFdAdapter) (bytes : Bytes) : ∃ r, (a.read bytes).2 = .ok r := by
  rw [read]
  split
  · rename_i received hparse
    rw [IPv4Datagram.parse] at hparse
    obtain ⟨-, rfl⟩ := Prod.mk.inj hparse
    exact a.base.unwrapTcpInIp_returns _ _
  · exact ⟨none, rfl⟩

/-- **A segment over a TUN device arrives** up to its ports and checksum. -/
theorem segment_arrives (hsource : b.base.config.source = a.base.config.destination)
    (hdestination : b.base.config.destination = a.base.config.source) {seg : TCPSegment}
    (hseg : Sendable seg b.base) : ∃ a' bytes cksum,
      a.write seg = .ok (a', a.base.withPorts seg) ∧ a'.tun = a.tun ++ [bytes] ∧
      (b.read bytes).2
        = .ok (some { seg with header := { (a.base.withPorts seg).header with cksum := cksum } }) := by
  obtain ⟨sent, payload, received, cksum, hwrap, hpayload, hparse, hunwrap⟩ :=
    TCPOverIPv4Adapter.unwrap_wrap hsource hdestination hseg.min hseg.max hseg.size hseg.opens
  refine ⟨{ a with tun := a.tun ++ [payload] }, payload, cksum, ?_, rfl, ?_⟩
  · rw [write, hwrap]
    exact map_ok.mpr ⟨payload, hpayload, rfl⟩
  · rw [read_eq hparse, hunwrap]

end TCPOverIPv4OverTunFdAdapter

end Sponge
