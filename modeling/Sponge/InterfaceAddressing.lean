/-
# `Sponge.InterfaceAddressing` — where the frames of an interface go.

A run records, beside the interface, the ARP messages it heard, the datagrams submitted to it with their
next hops, the one it keeps with the next hop it is for, and the datagrams its IPv4 frames carry, in order.

The interface forgets the next hop of the datagram it keeps: the datagram is stored under the interface's
OWN address and sent to the sender of the next ARP reply to that address, whoever that is, from the target
address that the reply names (`reply_misdirects`).  Where each such reply comes from the next hop and names
the interface's own Ethernet address, every frame is addressed right.
-/
import Sponge.ArpCache

namespace Sponge

open Sponge.Lib
open EthernetHeader (TYPE_IPv4 TYPE_ARP)
open NetworkInterface (Call arpOf Keeps)

/-! ## Runs -/

structure AddressedRun where
  cache : CacheRun
  heard : List ARPMessage := []
  submitted : List (InternetDatagram × Address) := []
  /-- The datagram kept for resolution, and the next hop it was submitted with. -/
  kept : Option (InternetDatagram × Address) := none
  /-- What the IPv4 frames in `frames_out` carry, in order. -/
  carried : List (InternetDatagram × Address) := []
  deriving DecidableEq

namespace AddressedRun

def iface (w : AddressedRun) : NetworkInterface := w.cache.iface

/-- The record of a call that returned. -/
def record (w : AddressedRun) : Call → AddressedRun
  | .sendDatagram dgram nextHop =>
    let w := { w with submitted := w.submitted ++ [(dgram, nextHop)] }
    if (w.iface.ipMacMap.getCache nextHop.ipv4Numeric).isSome then
      { w with carried := w.carried ++ [(dgram, nextHop)] }
    else if w.iface.requestOut then w
    else { w with kept := some (dgram, nextHop) }
  | .recvFrame frame =>
    match arpOf frame with
    | some m =>
      let w := { w with heard := w.heard ++ [m] }
      if w.iface.resolves m then { w with carried := w.carried ++ w.kept.toList, kept := none } else w
    | none => w
  | .tick _ => w

def step (w : AddressedRun) (call : Call) : Except Exception AddressedRun :=
  (w.cache.step call).map fun cache => { w.record call with cache := cache }

def Start (w : AddressedRun) : Prop :=
  ∃ eth ip, w = { cache := { iface := NetworkInterface.new eth ip } }

/-- While a datagram is kept for `nextHop`, an ARP reply to the interface's address comes from `nextHop` and
names the interface's own Ethernet address as its target. -/
def answered (w : AddressedRun) : Call → Prop
  | .recvFrame frame =>
    ∀ m ∈ arpOf frame, w.iface.resolves m → ∀ p ∈ w.kept,
      m.senderIpAddress = p.2.ipv4Numeric ∧ m.targetEthernetAddress = w.iface.ethernetAddress
  | _ => True

instance (w : AddressedRun) (call : Call) : Decidable (w.answered call) := by
  unfold answered
  split <;> infer_instance

/-! ## What a run keeps -/

/-- A frame carries a datagram to an address announced for its next hop. -/
def Carries (heard : List ARPMessage) (frame : EthernetFrame) (p : InternetDatagram × Address) : Prop :=
  p.1.serialize = .ok frame.payload ∧ ∃ m ∈ heard, m.announces p.2.ipv4Numeric frame.header.dst

theorem Carries.mono {heard : List ARPMessage} {frame : EthernetFrame} {p : InternetDatagram × Address}
    (h : Carries heard frame p) (m : ARPMessage) : Carries (heard ++ [m]) frame p := by
  obtain ⟨hpayload, m', hm', hann⟩ := h
  exact ⟨hpayload, m', List.mem_append_left _ hm', hann⟩

/-- The IPv4 frames that the interface has pushed. -/
def ipv4Frames (w : AddressedRun) : List EthernetFrame :=
  w.iface.framesOut.filter fun frame => frame.header.type = TYPE_IPv4

structure Inv (w : AddressedRun) : Prop where
  cache : w.cache.Remembers
  learned : ∀ lesson ∈ w.cache.history, ∃ m ∈ w.heard, m.announces lesson.1 lesson.2.1
  source : ∀ frame ∈ w.iface.framesOut, frame.header.src = w.iface.ethernetAddress
  table : Keeps w.iface.ipAddress.ipv4Numeric w.iface.arpIpQueue (w.kept.map Prod.fst)
  kept : ∀ p ∈ w.kept, p ∈ w.submitted
  carried : ∀ p ∈ w.carried, p ∈ w.submitted
  frames : List.Forall₂ (Carries w.heard) w.ipv4Frames w.carried

variable {w w' : AddressedRun} {call : Call}

theorem Inv.start (hs : Start w) : Inv w := by
  obtain ⟨eth, ip, rfl⟩ := hs
  refine ⟨CacheRun.Remembers.start ⟨eth, ip, rfl⟩, by simp, by simp [iface, NetworkInterface.new],
    .nothing, by simp, by simp, List.Forall₂.nil⟩

/-- What the cache knows was announced. -/
theorem Inv.announced (h : Inv w) {ip : UInt32} {eth : EthernetAddress}
    (hget : w.iface.ipMacMap.getCache ip = some eth) : ∃ m ∈ w.heard, m.announces ip eth := by
  obtain ⟨time, hlesson⟩ := h.cache ip eth hget
  exact h.learned _ hlesson

theorem unknown {ip : UInt32} (hnone : w.cache.iface.ipMacMap.getCache ip = none) :
    ¬ (w.iface.ipMacMap.getCache ip).isSome = true := by
  rw [iface, hnone]
  simp

theorem Inv.sendDatagram (h : Inv w) {dgram : InternetDatagram} {nextHop : Address}
    (hs : w.step (.sendDatagram dgram nextHop) = .ok w') : Inv w' := by
  obtain ⟨cache, hcache, rfl⟩ := map_ok.mp hs
  have hinv := h.cache.step hcache
  obtain ⟨iface', hiface, rfl⟩ := map_ok.mp hcache
  have hkept : ∀ p ∈ w.kept, p ∈ w.submitted ++ [(dgram, nextHop)] := fun p hp =>
    List.mem_append_left _ (h.kept p hp)
  have hcarried : ∀ p ∈ w.carried, p ∈ w.submitted ++ [(dgram, nextHop)] := fun p hp =>
    List.mem_append_left _ (h.carried p hp)
  rcases NetworkInterface.sendDatagram_cases hiface with
    ⟨mac, payload, hmac, hpayload, rfl⟩ | ⟨hnone, hout, rfl⟩ | ⟨hnone, hout, rfl⟩
  · -- sent at once, to an address from the cache
    have hrec : w.record (.sendDatagram dgram nextHop) = { w with
        submitted := w.submitted ++ [(dgram, nextHop)], carried := w.carried ++ [(dgram, nextHop)] } :=
      if_pos (Option.isSome_iff_exists.mpr ⟨mac, hmac⟩)
    rw [hrec]
    refine ⟨hinv, ?_, ?_, h.table, hkept, ?_, ?_⟩
    · simpa [NetworkInterface.lessonsOf] using h.learned
    · exact List.forall_mem_append.mpr ⟨h.source, by simp [NetworkInterface.ipv4Frame, iface]⟩
    · exact List.forall_mem_append.mpr ⟨hcarried, by simp⟩
    · obtain ⟨m, hm, hann⟩ := h.announced hmac
      show List.Forall₂ _ (List.filter _ (_ ++ _)) _
      rw [List.filter_append]
      exact List.rel_append h.frames (.cons ⟨hpayload, m, hm, hann⟩ .nil)
  · -- dropped: a request is out
    have hrec : w.record (.sendDatagram dgram nextHop) = { w with
        submitted := w.submitted ++ [(dgram, nextHop)] } :=
      (if_neg (unknown hnone)).trans (if_pos hout)
    rw [hrec]
    refine ⟨hinv, ?_, h.source, h.table, hkept, hcarried, h.frames⟩
    simpa [NetworkInterface.lessonsOf] using h.learned
  · -- kept: under the interface's own address
    have hrec : w.record (.sendDatagram dgram nextHop) = { w with
        submitted := w.submitted ++ [(dgram, nextHop)], kept := some (dgram, nextHop) } :=
      (if_neg (unknown hnone)).trans (if_neg (Bool.eq_false_iff.mp hout))
    rw [hrec]
    refine ⟨hinv, ?_, ?_, h.table.insert _ dgram, ?_, hcarried, ?_⟩
    · simpa [NetworkInterface.lessonsOf] using h.learned
    · exact List.forall_mem_append.mpr ⟨h.source, by simp [iface]⟩
    · simp
    · show List.Forall₂ _ (List.filter _ (_ ++ _)) _
      rw [NetworkInterface.filter_arp _ (by simp)]
      exact h.frames

/-- A message that is learned from: the lessons are announced by it. -/
theorem Inv.heard (h : Inv w) {m : ARPMessage} {time : Nat} :
    ∀ lesson ∈ w.cache.history ++ m.lessons.map (fun lesson => (lesson.1, lesson.2, time)),
      ∃ m' ∈ w.heard ++ [m], m'.announces lesson.1 lesson.2.1 := by
  refine List.forall_mem_append.mpr ⟨fun lesson hl => ?_, fun lesson hl => ?_⟩
  · obtain ⟨m', hm', hann⟩ := h.learned lesson hl
    exact ⟨m', List.mem_append_left _ hm', hann⟩
  · obtain ⟨pair, hpair, rfl⟩ := List.mem_map.mp hl
    exact ⟨m, by simp, ARPMessage.announces_of_lesson hpair⟩

theorem record_unresolved {frame : EthernetFrame} {m : ARPMessage} (harp : arpOf frame = some m)
    (hres : w.iface.resolves m = false) :
    w.record (.recvFrame frame) = { w with heard := w.heard ++ [m] } := by
  rw [record, harp]
  exact if_neg (Bool.eq_false_iff.mp hres)

theorem record_resolved {frame : EthernetFrame} {m : ARPMessage} (harp : arpOf frame = some m)
    (hres : w.iface.resolves m = true) :
    w.record (.recvFrame frame) = { w with
      heard := w.heard ++ [m], carried := w.carried ++ w.kept.toList, kept := none } := by
  rw [record, harp]
  exact if_pos hres

/-- A reply for which nothing is kept changes the record no more than another message. -/
theorem Inv.record_unmatched (h : Inv w) {frame : EthernetFrame} {m : ARPMessage} (harp : arpOf frame = some m)
    (hnone : w.iface.arpIpQueue.lookup m.targetIpAddress = none) :
    w.record (.recvFrame frame) = { w with heard := w.heard ++ [m] } := by
  cases hres : w.iface.resolves m with
  | false => exact record_unresolved harp hres
  | true =>
    have htarget : m.targetIpAddress = w.iface.ipAddress.ipv4Numeric := (of_decide_eq_true hres).2
    have hkept : w.kept = none := by
      refine Option.map_eq_none_iff.mp (h.table.missing ?_)
      rw [← htarget]
      exact hnone
    rw [record_resolved harp hres, hkept, Option.toList_none, List.append_nil]

theorem Inv.recvFrame (h : Inv w) {frame : EthernetFrame} (hok : w.answered (.recvFrame frame))
    (hs : w.step (.recvFrame frame) = .ok w') : Inv w' := by
  obtain ⟨cache, hcache, rfl⟩ := map_ok.mp hs
  have hinv := h.cache.step hcache
  obtain ⟨iface', hiface, rfl⟩ := map_ok.mp hcache
  have hframes (m : ARPMessage) : List.Forall₂ (Carries (w.heard ++ [m])) w.ipv4Frames w.carried :=
    h.frames.imp fun _ _ hc => hc.mono m
  cases NetworkInterface.recvFrame_step hiface with
  | other hother =>
    have harp := NetworkInterface.arpOf_other hother
    have hrec : w.record (.recvFrame frame) = w := by rw [record, harp]
    rw [hrec]
    refine ⟨hinv, ?_, h.source, h.table, h.kept, h.carried, h.frames⟩
    simpa [NetworkInterface.lessonsOf, harp] using h.learned
  | @request m harp hparse hop frames hnew =>
    have harp := NetworkInterface.arpOf_parse harp hparse
    rw [record_unresolved harp (w.iface.resolves_request hop)]
    obtain ⟨c, hc⟩ := NetworkInterface.foldl_learn_frame m.lessons
      { w.cache.iface with framesOut := w.cache.iface.framesOut ++ frames }
    rw [hc] at hinv ⊢
    refine ⟨hinv, ?_, ?_, h.table, h.kept, h.carried, ?_⟩
    · rw [NetworkInterface.lessonsOf, harp]
      exact h.heard
    · exact List.forall_mem_append.mpr ⟨h.source, fun f hf => (hnew f hf).1⟩
    · show List.Forall₂ _ (List.filter _ (_ ++ _)) _
      rw [NetworkInterface.filter_arp _ fun f hf => (hnew f hf).2]
      exact hframes m
  | @reply m harp hparse hop hnone =>
    have harp := NetworkInterface.arpOf_parse harp hparse
    rw [h.record_unmatched harp hnone]
    obtain ⟨c, hc⟩ := NetworkInterface.foldl_learn_frame m.lessons w.cache.iface
    rw [hc] at hinv ⊢
    refine ⟨hinv, ?_, h.source, h.table, h.kept, h.carried, hframes m⟩
    rw [NetworkInterface.lessonsOf, harp]
    exact h.heard
  | @resolved m harp hparse hop time dgram payload hkept hpayload =>
    have harp := NetworkInterface.arpOf_parse harp hparse
    obtain ⟨htarget, hk, hrest⟩ := h.table.found hkept
    have hres : w.iface.resolves m = true := decide_eq_true ⟨hop, htarget⟩
    obtain ⟨⟨d, hop'⟩, hpair, rfl⟩ := Option.map_eq_some_iff.mp hk
    obtain ⟨hsender, htargetEth⟩ := hok m harp hres _ hpair
    rw [record_resolved harp hres, hpair]
    obtain ⟨c, hc⟩ := NetworkInterface.foldl_learn_frame m.lessons { w.cache.iface with
      framesOut := w.cache.iface.framesOut ++
        [NetworkInterface.ipv4Frame m.targetEthernetAddress m.senderEthernetAddress payload]
      arpIpQueue := w.cache.iface.arpIpQueue.erase m.targetIpAddress }
    rw [hc] at hinv ⊢
    refine ⟨hinv, ?_, ?_, ?_, by simp, ?_, ?_⟩
    · rw [NetworkInterface.lessonsOf, harp]
      exact h.heard
    · refine List.forall_mem_append.mpr ⟨h.source, ?_⟩
      rintro f hf
      rw [List.mem_singleton.mp hf]
      exact htargetEth
    · exact hrest
    · exact List.forall_mem_append.mpr ⟨h.carried, by simpa using h.kept _ hpair⟩
    · show List.Forall₂ _ (List.filter _ (_ ++ _)) _
      rw [List.filter_append]
      exact List.rel_append (hframes m) (.cons ⟨hpayload, m, by simp, Or.inl ⟨hsender, rfl⟩⟩ .nil)

theorem Inv.step (h : Inv w) (hok : w.answered call) (hs : w.step call = .ok w') : Inv w' := by
  cases call with
  | sendDatagram dgram nextHop => exact h.sendDatagram hs
  | recvFrame frame => exact h.recvFrame hok hs
  | tick ms =>
    obtain ⟨cache, hcache, rfl⟩ := map_ok.mp hs
    have hinv := h.cache.step hcache
    obtain ⟨iface', hiface, rfl⟩ := map_ok.mp hcache
    obtain rfl := Except.ok.inj hiface
    refine ⟨hinv, ?_, h.source, h.table, h.kept, h.carried, h.frames⟩
    simpa [NetworkInterface.lessonsOf, record] using h.learned

/-- **No frame is misaddressed** in a run in which the replies that release a kept datagram come from its
next hop: every frame has the interface's address as its source, and the IPv4 frames carry, in order,
submitted datagrams, each to an address that a received message announced for the datagram's next hop. -/
theorem frames_addressed (hr : Reach Start step answered w) :
    (∀ frame ∈ w.iface.framesOut, frame.header.src = w.iface.ethernetAddress) ∧
    (∀ p ∈ w.carried, p ∈ w.submitted) ∧
    List.Forall₂ (fun frame p => p.1.serialize = .ok frame.payload ∧
        ∃ m ∈ w.heard, m.announces p.2.ipv4Numeric frame.header.dst)
      (w.iface.framesOut.filter fun frame => frame.header.type = TYPE_IPv4) w.carried := by
  have h := Reach.invariant (P := Inv) (fun _ hs => Inv.start hs) (fun _ _ _ h hok hs => h.step hok hs) hr
  exact ⟨h.source, h.carried, h.frames⟩

/-- A datagram that waits for its next hop, and one sent from the cache. -/
theorem frames_addressed_two : ∃ w : AddressedRun, Reach Start step answered w ∧
    w.carried = [({ header := { len := 21 }, payload := [5] }, { ipv4Numeric := 1 }),
      ({ header := { len := 20 }, payload := [] }, { ipv4Numeric := 1 })] ∧
    ∀ p ∈ w.carried, p ∈ w.submitted := by
  obtain ⟨w, hr, htest⟩ : ∃ w, Reach Start step answered w ∧
      decide (w.carried = [({ header := { len := 21 }, payload := [5] }, { ipv4Numeric := 1 }),
        ({ header := { len := 20 }, payload := [] }, { ipv4Numeric := 1 })]) = true :=
    Reach.exec_any _
      (s := { cache := { iface := NetworkInterface.new { b0 := 2, b5 := 9 } { ipv4Numeric := 9 } } })
      (l := [
        .sendDatagram { header := { len := 21 }, payload := [5] } { ipv4Numeric := 1 },
        .tick 100,
        .recvFrame (NetworkInterface.arpFrame
          { opcode := ARPMessage.OPCODE_REPLY
            senderIpAddress := 1, senderEthernetAddress := { b0 := 2, b5 := 1 }
            targetIpAddress := 9, targetEthernetAddress := { b0 := 2, b5 := 9 } }),
        .sendDatagram { header := { len := 20 }, payload := [] } { ipv4Numeric := 1 }])
      (.start ⟨_, _, rfl⟩) (by decide +kernel)
  exact ⟨w, hr, of_decide_eq_true htest, (frames_addressed hr).2.1⟩

/-- **A reply from another host takes the datagram.** The interface `9` keeps a datagram for `1`; a reply
from `2`, which names a third Ethernet address as its target, gets it, with that address as the source. -/
theorem reply_misdirects : ∃ w : AddressedRun, Reach Start step (fun _ _ => True) w ∧
    w.submitted = [({ header := { len := 20 }, payload := [] }, { ipv4Numeric := 1 })] ∧
    ∃ frame ∈ w.iface.framesOut, frame.header.type = TYPE_IPv4 ∧
      frame.header.src ≠ w.iface.ethernetAddress ∧
      ∀ m ∈ w.heard, ¬ m.announces 1 frame.header.dst := by
  obtain ⟨w, hr, htest⟩ : ∃ w, Reach Start step (fun _ _ => True) w ∧
      decide (w.submitted = [({ header := { len := 20 }, payload := [] }, { ipv4Numeric := 1 })] ∧
        ∃ frame ∈ w.iface.framesOut, frame.header.type = TYPE_IPv4 ∧
          frame.header.src ≠ w.iface.ethernetAddress ∧
          ∀ m ∈ w.heard, ¬ m.announces 1 frame.header.dst) = true :=
    Reach.exec_any _
      (s := { cache := { iface := NetworkInterface.new { b0 := 2, b5 := 9 } { ipv4Numeric := 9 } } })
      (l := [
        .sendDatagram { header := { len := 20 }, payload := [] } { ipv4Numeric := 1 },
        .recvFrame (NetworkInterface.arpFrame
          { opcode := ARPMessage.OPCODE_REPLY
            senderIpAddress := 2, senderEthernetAddress := { b0 := 2, b5 := 2 }
            targetIpAddress := 9, targetEthernetAddress := { b0 := 2, b5 := 7 } })])
      (.start ⟨_, _, rfl⟩) (by decide +kernel)
  exact ⟨w, hr, of_decide_eq_true htest⟩

end AddressedRun

end Sponge
