/-
# `Sponge.InterfacePending` — datagrams that wait for their next hop.

`Ledger` says what the interface is for: a datagram is due at once if its next hop is known, and waits
otherwise; a message that teaches next hops makes the datagrams that wait for them due, in the order of
their submission, and no others.

The interface keeps this ledger only in part.  It has room for ONE datagram: while a request is out it drops
what it is given for another next hop (`second_datagram_lost`), and afterwards a new one overwrites the old.
It releases the datagram for the next ARP reply to its own address, and for nothing else.  In the runs that
submit one datagram at a time to unknown next hops, and in which a message is such a reply exactly when it
teaches the next hop that is waited for, the interface refines the ledger.
-/
import Sponge.NetworkInterface

namespace Sponge

open Sponge.Lib
open EthernetHeader (TYPE_IPv4 TYPE_ARP)
open NetworkInterface (Call arpOf Keeps)

/-! ## The ledger -/

/-- What should wait, with its next hop, and what should have been sent; both in order of submission. -/
structure Ledger where
  waiting : List (InternetDatagram × Address) := []
  due : List InternetDatagram := []
  deriving DecidableEq

namespace Ledger

/-- A datagram is submitted for a next hop that is known or not. -/
def submit (l : Ledger) (known : Bool) (dgram : InternetDatagram) (nextHop : Address) : Ledger :=
  if known then { l with due := l.due ++ [dgram] }
  else { l with waiting := l.waiting ++ [(dgram, nextHop)] }

/-- Some next hops become known. -/
def teach (l : Ledger) (taught : UInt32 → Bool) : Ledger :=
  { waiting := l.waiting.filter fun p => !taught p.2.ipv4Numeric
    due := l.due ++ (l.waiting.filter fun p => taught p.2.ipv4Numeric).map Prod.fst }

/-- Nothing happens while no next hop that is waited for is taught. -/
theorem teach_none {l : Ledger} {taught : UInt32 → Bool}
    (h : ∀ p ∈ l.waiting, taught p.2.ipv4Numeric = false) : l.teach taught = l := by
  have hkeep : l.waiting.filter (fun p => !taught p.2.ipv4Numeric) = l.waiting :=
    List.filter_eq_self.mpr fun p hp => by rw [h p hp]; rfl
  have hsend : l.waiting.filter (fun p => taught p.2.ipv4Numeric) = [] :=
    List.filter_eq_nil_iff.mpr fun p hp => by rw [h p hp]; exact Bool.false_ne_true
  rw [teach, hkeep, hsend, List.map_nil, List.append_nil]

/-- Everything becomes due when all next hops that are waited for are taught. -/
theorem teach_all {l : Ledger} {taught : UInt32 → Bool}
    (h : ∀ p ∈ l.waiting, taught p.2.ipv4Numeric = true) :
    l.teach taught = { waiting := [], due := l.due ++ l.waiting.map Prod.fst } := by
  have hkeep : l.waiting.filter (fun p => !taught p.2.ipv4Numeric) = [] :=
    List.filter_eq_nil_iff.mpr fun p hp => by rw [h p hp]; exact Bool.false_ne_true
  rw [teach, hkeep, List.filter_eq_self.mpr h]

end Ledger

/-! ## When the calls return -/

namespace NetworkInterface

variable {n : NetworkInterface} {frame : EthernetFrame} {m : ARPMessage}

/-- The datagram that a message releases, if any, can be serialized. -/
def Releases (n : NetworkInterface) (m : ARPMessage) : Prop :=
  m.opcode = ARPMessage.OPCODE_REPLY → ∀ kept ∈ n.arpIpQueue.lookup m.targetIpAddress,
    ∃ bytes, kept.2.serialize = .ok bytes

theorem recvReply_returns_iff (n : NetworkInterface) (m : ARPMessage) : (∃ n', n.recvReply m = .ok n') ↔
    ∀ kept ∈ n.arpIpQueue.lookup m.targetIpAddress, ∃ bytes, kept.2.serialize = .ok bytes := by
  cases hlookup : n.arpIpQueue.lookup m.targetIpAddress with
  | none => exact iff_of_true ⟨_, recvReply_unkept hlookup⟩ (by simp)
  | some kept =>
    rw [recvReply_kept hlookup]
    constructor
    · rintro ⟨n', hn'⟩ _ ⟨⟩
      obtain ⟨bytes, hbytes, -⟩ := map_ok.mp hn'
      exact ⟨bytes, hbytes⟩
    · intro h
      obtain ⟨bytes, hbytes⟩ := h kept rfl
      exact ⟨_, map_ok.mpr ⟨bytes, hbytes, rfl⟩⟩

/-- An ARP message throws only when what it releases cannot be serialized. -/
theorem recvFrame_arp_returns_iff (harp : arpOf frame = some m) :
    (∃ r, n.recvFrame frame = .ok r) ↔ n.Releases m := by
  have hop := ARPMessage.opcode_of_parse (parse_of_arpOf harp).2
  rw [recvFrame_arp harp]
  by_cases hrequest : m.opcode = ARPMessage.OPCODE_REQUEST
  · rw [if_pos hrequest, recvRequest_eq]
    refine ⟨fun _ hreply => absurd (hrequest.symm.trans hreply) (by decide), fun _ => ⟨_, rfl⟩⟩
  · rw [if_neg hrequest, Releases]
    have hreply := hop.resolve_left hrequest
    constructor
    · rintro ⟨r, hr⟩ -
      obtain ⟨n', hn', -⟩ := map_ok.mp hr
      exact (recvReply_returns_iff n m).mp ⟨n', hn'⟩
    · intro h
      obtain ⟨n', hn'⟩ := (recvReply_returns_iff n m).mpr (h hreply)
      exact ⟨_, map_ok.mpr ⟨n', hn', rfl⟩⟩

end NetworkInterface

/-! ## Runs -/

/-- An interface and the ledger of what was submitted to it. -/
structure PendingRun where
  iface : NetworkInterface
  ledger : Ledger := {}
  deriving DecidableEq

namespace PendingRun

/-- What a call means for the ledger. -/
def account (w : PendingRun) : Call → Ledger
  | .sendDatagram dgram nextHop =>
    w.ledger.submit (w.iface.ipMacMap.getCache nextHop.ipv4Numeric).isSome dgram nextHop
  | .recvFrame frame => (arpOf frame).elim w.ledger fun m => w.ledger.teach m.teaches
  | .tick _ => w.ledger

def step (w : PendingRun) (call : Call) : Except Exception PendingRun :=
  (w.iface.step call).map fun iface => { iface := iface, ledger := w.account call }

def Start (w : PendingRun) : Prop := ∃ eth ip, w = { iface := NetworkInterface.new eth ip }

/-- The payload, version and header length are such that the datagram serializes. -/
def serializable (dgram : InternetDatagram) : Prop :=
  dgram.payload.length = dgram.header.payloadLength.toNat ∧ dgram.header.ver = 4 ∧
    IPv4Header.LENGTH ≤ 4 * dgram.header.hlen.toNat

instance : DecidablePred serializable := fun _ => inferInstanceAs (Decidable (_ ∧ _))

/-- A datagram for a known next hop serializes, and for an unknown one none is submitted while another waits.  While
one waits, a message is a reply to the interface's address exactly when it teaches the next hop waited for, and then
the datagram serializes. -/
def orderly (w : PendingRun) : Call → Prop
  | .sendDatagram dgram nextHop =>
    if (w.iface.ipMacMap.getCache nextHop.ipv4Numeric).isSome then serializable dgram else w.ledger.waiting = []
  | .recvFrame frame => ∀ m ∈ arpOf frame, ∀ p ∈ w.ledger.waiting,
      w.iface.resolves m = m.teaches p.2.ipv4Numeric ∧ (w.iface.resolves m = true → serializable p.1)
  | .tick _ => True

instance (w : PendingRun) : DecidablePred (orderly w)
  | .sendDatagram dgram nextHop => inferInstanceAs (Decidable
      (if (w.iface.ipMacMap.getCache nextHop.ipv4Numeric).isSome then serializable dgram else w.ledger.waiting = []))
  | .recvFrame frame => inferInstanceAs (Decidable (∀ m ∈ arpOf frame, ∀ p ∈ w.ledger.waiting,
      w.iface.resolves m = m.teaches p.2.ipv4Numeric ∧ (w.iface.resolves m = true → serializable p.1)))
  | .tick _ => isTrue trivial

/-! ## The interface refines the ledger -/

/-- The interface is in step with its ledger. -/
structure Inv (w : PendingRun) : Prop where
  frames : List.Forall₂ (fun frame dgram => dgram.serialize = .ok frame.payload)
    (w.iface.framesOut.filter fun frame => frame.header.type = TYPE_IPv4) w.ledger.due
  held : ∃ kept : Option (InternetDatagram × Address), w.ledger.waiting = kept.toList ∧
    Keeps w.iface.ipAddress.ipv4Numeric w.iface.arpIpQueue (kept.map Prod.fst)

variable {w w' : PendingRun} {call : Call}

theorem Inv.start (hs : Start w) : Inv w := by
  obtain ⟨eth, ip, rfl⟩ := hs
  exact ⟨List.Forall₂.nil, none, rfl, .nothing⟩

theorem Inv.retained (h : Inv w) : w.iface.retained = w.ledger.waiting.map Prod.fst := by
  obtain ⟨kept, hwaiting, hkeeps⟩ := h.held
  rw [NetworkInterface.retained, hkeeps.retained, hwaiting]
  cases kept <;> rfl

/-- Nothing is held while nothing waits. -/
theorem Inv.unheld (h : Inv w) (hwaiting : w.ledger.waiting = []) :
    Keeps w.iface.ipAddress.ipv4Numeric w.iface.arpIpQueue none := by
  obtain ⟨kept, hkept, hkeeps⟩ := h.held
  obtain rfl : kept = none := Option.toList_eq_nil_iff.mp (hkept.symm.trans hwaiting)
  exact hkeeps

theorem Inv.sendDatagram (h : Inv w) {dgram : InternetDatagram} {nextHop : Address}
    (hok : w.orderly (.sendDatagram dgram nextHop)) (hs : w.step (.sendDatagram dgram nextHop) = .ok w') :
    Inv w' := by
  obtain ⟨iface', hiface, rfl⟩ := map_ok.mp hs
  rw [orderly] at hok
  rw [account]
  rcases NetworkInterface.sendDatagram_cases hiface with
    ⟨mac, payload, hmac, hpayload, rfl⟩ | ⟨hnone, hout, rfl⟩ | ⟨hnone, hout, rfl⟩
  · rw [hmac, Option.isSome_some, Ledger.submit, if_pos rfl]
    refine ⟨?_, h.held⟩
    dsimp only
    rw [List.filter_append]
    exact List.rel_append h.frames (.cons hpayload .nil)
  · -- a request is out only while a datagram waits
    rw [hnone, Option.isSome_none, if_neg Bool.false_ne_true] at hok
    rw [NetworkInterface.requestOut, (h.unheld hok).empty, AList.lookup_empty] at hout
    exact absurd hout (by simp)
  · rw [hnone, Option.isSome_none, if_neg Bool.false_ne_true] at hok
    rw [hnone, Option.isSome_none, Ledger.submit, if_neg Bool.false_ne_true]
    refine ⟨?_, some (dgram, nextHop), ?_, (h.unheld hok).insert _ dgram⟩
    · dsimp only
      rw [NetworkInterface.filter_arp _ (by simp)]
      exact h.frames
    · dsimp only
      rw [hok]
      rfl

/-- A message that releases nothing teaches nothing that is waited for. -/
theorem account_unresolved {frame : EthernetFrame} {m : ARPMessage} (harp : arpOf frame = some m)
    (hok : w.orderly (.recvFrame frame)) (hres : w.ledger.waiting ≠ [] → w.iface.resolves m = false) :
    w.account (.recvFrame frame) = w.ledger := by
  rw [account, harp]
  refine Ledger.teach_none fun p hp => ?_
  rw [← (hok m harp p hp).1]
  exact hres (List.ne_nil_of_mem hp)

theorem Inv.recvFrame (h : Inv w) {frame : EthernetFrame} (hok : w.orderly (.recvFrame frame))
    (hs : w.step (.recvFrame frame) = .ok w') : Inv w' := by
  obtain ⟨iface', hiface, rfl⟩ := map_ok.mp hs
  cases NetworkInterface.recvFrame_step hiface with
  | other hother =>
    rw [account, NetworkInterface.arpOf_other hother]
    exact h
  | @request m harp hparse hop frames hnew =>
    have harp := NetworkInterface.arpOf_parse harp hparse
    rw [account_unresolved harp hok fun _ => w.iface.resolves_request hop]
    obtain ⟨c, hc⟩ := NetworkInterface.foldl_learn_frame m.lessons
      { w.iface with framesOut := w.iface.framesOut ++ frames }
    rw [hc]
    refine ⟨?_, h.held⟩
    dsimp only
    rw [NetworkInterface.filter_arp _ fun f hf => (hnew f hf).2]
    exact h.frames
  | @reply m harp hparse hop hnone =>
    have harp := NetworkInterface.arpOf_parse harp hparse
    have hunmatched : w.ledger.waiting ≠ [] → w.iface.resolves m = false := by
      intro hne
      refine decide_eq_false fun hres => hne ?_
      obtain ⟨kept, hkept, hkeeps⟩ := h.held
      rw [hres.2] at hnone
      rw [hkept, Option.map_eq_none_iff.mp (hkeeps.missing hnone), Option.toList_none]
    rw [account_unresolved harp hok hunmatched]
    obtain ⟨c, hc⟩ := NetworkInterface.foldl_learn_frame m.lessons w.iface
    rw [hc]
    exact ⟨h.frames, h.held⟩
  | @resolved m harp hparse hop time dgram payload hkept hpayload =>
    have harp := NetworkInterface.arpOf_parse harp hparse
    obtain ⟨kept, hwaiting, hkeeps⟩ := h.held
    obtain ⟨htarget, hpair, hrest⟩ := hkeeps.found hkept
    obtain ⟨p, rfl, rfl⟩ := Option.map_eq_some_iff.mp hpair
    have hres : w.iface.resolves m = true := decide_eq_true ⟨hop, htarget⟩
    have hall : w.account (.recvFrame frame) = { waiting := [], due := w.ledger.due ++ [p.1] } := by
      rw [account, harp, Option.elim_some,
        Ledger.teach_all fun p hp => (hok m harp p hp).1.symm.trans hres, hwaiting]
      rfl
    rw [hall]
    obtain ⟨c, hc⟩ := NetworkInterface.foldl_learn_frame m.lessons { w.iface with
      framesOut := w.iface.framesOut ++
        [NetworkInterface.ipv4Frame m.targetEthernetAddress m.senderEthernetAddress payload]
      arpIpQueue := w.iface.arpIpQueue.erase m.targetIpAddress }
    rw [hc]
    refine ⟨?_, none, rfl, hrest⟩
    dsimp only
    rw [List.filter_append]
    exact List.rel_append h.frames (.cons hpayload .nil)

theorem Inv.step (h : Inv w) (hok : w.orderly call) (hs : w.step call = .ok w') : Inv w' := by
  cases call with
  | sendDatagram dgram nextHop => exact h.sendDatagram hok hs
  | recvFrame frame => exact h.recvFrame hok hs
  | tick ms =>
    obtain ⟨iface', hiface, rfl⟩ := map_ok.mp hs
    obtain rfl := Except.ok.inj hiface
    exact ⟨h.frames, h.held⟩

/-- What a message releases is what waits, if it is a reply to the interface. -/
theorem Inv.releases_iff (h : Inv w) (m : ARPMessage) :
    w.iface.Releases m ↔ (w.iface.resolves m = true → ∀ p ∈ w.ledger.waiting, serializable p.1) := by
  obtain ⟨kept, hwaiting, hkeeps⟩ := h.held
  constructor
  · intro hreleases hresolves p hp
    obtain ⟨hop, htarget⟩ := of_decide_eq_true hresolves
    rw [hwaiting, Option.mem_toList] at hp
    obtain rfl : kept = some p := hp
    cases hlookup : w.iface.arpIpQueue.lookup m.targetIpAddress with
    | none => exact absurd (hkeeps.missing (htarget ▸ hlookup)) (by simp)
    | some found =>
      obtain ⟨-, hdgram, -⟩ := hkeeps.found hlookup
      have hbytes := hreleases hop found hlookup
      rw [← Option.some.inj hdgram] at hbytes
      exact (InternetDatagram.serialize_returns_iff p.1).mp hbytes
  · rintro hserial hop ⟨time, dgram⟩ hlookup
    obtain ⟨htarget, hpair, -⟩ := hkeeps.found hlookup
    obtain ⟨p, rfl, hp⟩ := Option.map_eq_some_iff.mp hpair
    rw [← hp]
    refine (InternetDatagram.serialize_returns_iff p.1).mpr (hserial (decide_eq_true ⟨hop, htarget⟩) p ?_)
    rw [hwaiting]
    exact List.mem_cons_self

/-- **No waiting datagram is lost or duplicated** in an orderly run: the IPv4 frames carry exactly the
datagrams that are due, in order; the interface holds exactly those that wait; an orderly submission does not
throw; and an ARP message does so exactly if it releases a datagram that does not serialize. -/
theorem pending_refines_ledger (hr : Reach Start step orderly w) :
    List.Forall₂ (fun frame dgram => dgram.serialize = .ok frame.payload)
      (w.iface.framesOut.filter fun frame => frame.header.type = TYPE_IPv4) w.ledger.due ∧
    w.iface.retained = w.ledger.waiting.map Prod.fst ∧
    (∀ dgram nextHop, w.orderly (.sendDatagram dgram nextHop) →
      ∃ w', w.step (.sendDatagram dgram nextHop) = .ok w') ∧
    (∀ frame m, arpOf frame = some m → ((∃ w', w.step (.recvFrame frame) = .ok w') ↔
      (w.iface.resolves m = true → ∀ p ∈ w.ledger.waiting, serializable p.1))) := by
  have h := Reach.invariant (P := Inv) (fun _ hs => Inv.start hs) (fun _ _ _ h hok hs => h.step hok hs) hr
  refine ⟨h.frames, h.retained, fun dgram nextHop hok => ?_, fun frame m harp => ?_⟩
  · obtain ⟨n', hn'⟩ := (NetworkInterface.sendDatagram_returns_iff w.iface dgram nextHop).mpr fun hknown => by
      rw [orderly, if_pos hknown] at hok
      exact (InternetDatagram.serialize_returns_iff dgram).mpr hok
    exact ⟨_, map_ok.mpr ⟨n', hn', rfl⟩⟩
  · rw [← h.releases_iff, ← NetworkInterface.recvFrame_arp_returns_iff harp]
    constructor
    · rintro ⟨w', hs⟩
      obtain ⟨iface', hiface, -⟩ := map_ok.mp hs
      obtain ⟨r, hrecv, -⟩ := map_ok.mp hiface
      exact ⟨r, hrecv⟩
    · rintro ⟨r, hrecv⟩
      exact ⟨_, map_ok.mpr ⟨_, map_ok.mpr ⟨r, hrecv, rfl⟩, rfl⟩⟩

/-- Two datagrams wait, one after the other, for two next hops; a third is sent at once. -/
theorem pending_refines_ledger_three : ∃ w : PendingRun, Reach Start step orderly w ∧
    w.ledger.due.length = 2 ∧ w.iface.retained = [{ header := { len := 22 }, payload := [7, 8] }] ∧
    w.iface.retained = w.ledger.waiting.map Prod.fst := by
  obtain ⟨w, hr, htest⟩ : ∃ w, Reach Start step orderly w ∧
      (decide (w.ledger.due.length = 2)
        && decide (w.iface.retained = [{ header := { len := 22 }, payload := [7, 8] }])) = true :=
    Reach.exec_any _ (s := { iface := NetworkInterface.new { b0 := 2, b5 := 9 } { ipv4Numeric := 9 } })
      (l := [
        .sendDatagram { header := { len := 21 }, payload := [5] } { ipv4Numeric := 1 },
        .recvFrame (NetworkInterface.arpFrame
          { opcode := ARPMessage.OPCODE_REQUEST
            senderIpAddress := 3, senderEthernetAddress := { b0 := 2, b5 := 3 }, targetIpAddress := 9 }),
        .recvFrame (NetworkInterface.arpFrame
          { opcode := ARPMessage.OPCODE_REPLY
            senderIpAddress := 1, senderEthernetAddress := { b0 := 2, b5 := 1 }
            targetIpAddress := 9, targetEthernetAddress := { b0 := 2, b5 := 9 } }),
        .sendDatagram { header := { len := 22 }, payload := [7, 8] } { ipv4Numeric := 2 },
        .sendDatagram { header := { len := 20 }, payload := [] } { ipv4Numeric := 1 }])
      (.start ⟨_, _, rfl⟩) (by decide +kernel)
  simp only [Bool.and_eq_true, decide_eq_true_eq] at htest
  exact ⟨w, hr, htest.1, htest.2, (pending_refines_ledger hr).2.1⟩

/-- **The second datagram is lost.** Two datagrams for two unknown next hops, and both next hops answer: the
second datagram is neither sent nor held. -/
theorem second_datagram_lost : ∃ w : PendingRun, Reach Start step (fun _ _ => True) w ∧
    w.ledger = { waiting := [], due := [{ header := { len := 21 }, payload := [5] },
      { header := { len := 22 }, payload := [7, 8] }] } ∧
    (w.iface.framesOut.filter fun frame => frame.header.type = TYPE_IPv4).length = 1 ∧
    w.iface.retained = [] := by
  obtain ⟨w, hr, htest⟩ : ∃ w, Reach Start step (fun _ _ => True) w ∧
      decide (w.ledger = { waiting := [], due := [{ header := { len := 21 }, payload := [5] },
        { header := { len := 22 }, payload := [7, 8] }] } ∧
      (w.iface.framesOut.filter fun frame => frame.header.type = TYPE_IPv4).length = 1 ∧
      w.iface.retained = []) = true :=
    Reach.exec_any _ (s := { iface := NetworkInterface.new { b0 := 2, b5 := 9 } { ipv4Numeric := 9 } })
      (l := [
        .sendDatagram { header := { len := 21 }, payload := [5] } { ipv4Numeric := 1 },
        .sendDatagram { header := { len := 22 }, payload := [7, 8] } { ipv4Numeric := 2 },
        .recvFrame (NetworkInterface.arpFrame
          { opcode := ARPMessage.OPCODE_REPLY
            senderIpAddress := 1, senderEthernetAddress := { b0 := 2, b5 := 1 }
            targetIpAddress := 9, targetEthernetAddress := { b0 := 2, b5 := 9 } }),
        .recvFrame (NetworkInterface.arpFrame
          { opcode := ARPMessage.OPCODE_REPLY
            senderIpAddress := 2, senderEthernetAddress := { b0 := 2, b5 := 2 }
            targetIpAddress := 9, targetEthernetAddress := { b0 := 2, b5 := 9 } })])
      (.start ⟨_, _, rfl⟩) (by decide +kernel)
  exact ⟨w, hr, of_decide_eq_true htest⟩

end PendingRun

end Sponge
