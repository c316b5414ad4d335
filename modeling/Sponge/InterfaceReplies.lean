/-
# `Sponge.InterfaceReplies` — what the interface answers to ARP requests.

The interface answers a request with the address it has LEARNED for what is asked, and with its own address only
if it is asked for itself and has learned nothing about that (`recvRequest_eq`).  It sends no other ARP replies
(`replies_eq`).

It learns from any ARP message, also about its own IP address.  So it announces its own Ethernet address as long
as what it last learned about its own IP address, in the last thirty seconds, is that (`announces_itself`); a
message that says otherwise makes it announce the other (`repeats_what_it_was_told`), for thirty seconds, or longer if
the clock starts again at zero in that time.
-/
import Sponge.InterfaceRequests

namespace Sponge

open Sponge.Lib
open EthernetHeader (TYPE_IPv4 TYPE_ARP)

/-! ## One call -/

namespace NetworkInterface

variable {n n' : NetworkInterface} {call : Call} {frame : EthernetFrame} {m : ARPMessage}

/-- The frames that are sent between two states, the second later than the first. -/
def emitted (n n' : NetworkInterface) : List EthernetFrame := n'.framesOut.drop n.framesOut.length

/-- The ARP reply in a frame. -/
def replyIn (frame : EthernetFrame) : Option ARPMessage :=
  (arpOf frame).filter fun m => m.opcode = ARPMessage.OPCODE_REPLY

/-- The ARP replies that are sent between two states. -/
def replies (n n' : NetworkInterface) : List ARPMessage := (emitted n n').filterMap replyIn

/-- The ARP request that a call brings. -/
def requestIn : Call → Option ARPMessage
  | .recvFrame frame => (arpOf frame).filter fun m => m.opcode = ARPMessage.OPCODE_REQUEST
  | _ => none

theorem emitted_append {frames : List EthernetFrame} (h : n'.framesOut = n.framesOut ++ frames) :
    emitted n n' = frames := by
  rw [emitted, h, List.drop_left]

theorem replies_append {frames : List EthernetFrame} (h : n'.framesOut = n.framesOut ++ frames) :
    replies n n' = frames.filterMap replyIn := by
  rw [replies, emitted_append h]

theorem replies_same (h : n'.framesOut = n.framesOut) : replies n n' = [] :=
  replies_append (show n'.framesOut = n.framesOut ++ [] by rw [h, List.append_nil])

theorem replyIn_ipv4 (h : frame.header.type = TYPE_IPv4) : replyIn frame = none := by
  rw [replyIn, arpOf_other (by rw [h]; decide)]
  rfl

theorem replyIn_requestFrame (n : NetworkInterface) (nextHop : Address) :
    replyIn (n.requestFrame nextHop) = none := by
  rw [replyIn, arpOf_requestFrame]
  rfl

theorem replyIn_replyFrame (n : NetworkInterface) (m : ARPMessage) (mac : EthernetAddress) :
    replyIn (n.replyFrame m mac) = some (reply m mac) := by
  rw [replyIn, arpOf_replyFrame]
  rfl

/-- A request is answered once, or not at all. -/
theorem recvRequest_emits (h : n.recvRequest m = .ok n') :
    emitted n n' = (n.answer m.targetIpAddress).toList.map (n.replyFrame m) := by
  rw [recvRequest_eq] at h
  obtain rfl := Except.ok.inj h
  exact emitted_append (foldl_learn_keeps _ _).1

theorem replies_recvFrame (h : n.step (.recvFrame frame) = .ok n') :
    replies n n' = (requestIn (.recvFrame frame)).elim [] fun m =>
      (n.answer m.targetIpAddress).toList.map (reply m) := by
  have hstep := h
  cases recvFrame_step h with
  | other hother =>
    rw [replies_same rfl, requestIn, arpOf_other hother]
    rfl
  | @request m harp hparse hop frames hframes =>
    rw [recvFrame_request (arpOf_parse harp hparse) hop] at hstep
    rw [replies, recvRequest_emits hstep, requestIn, arpOf_parse harp hparse, Option.filter_some,
      if_pos (decide_eq_true hop), Option.elim_some]
    cases n.answer m.targetIpAddress with
    | none => rfl
    | some mac => exact List.filterMap_cons_some (replyIn_replyFrame n m mac)
  | reply harp hparse hop hnone =>
    rw [replies_same (foldl_learn_keeps _ _).1, requestIn, arpOf_parse harp hparse, Option.filter_some, hop]
    rfl
  | resolved harp hparse hop hkept hpayload =>
    rw [replies_append (foldl_learn_keeps _ _).1, List.filterMap_cons_none (replyIn_ipv4 rfl), requestIn,
      arpOf_parse harp hparse, Option.filter_some, hop]
    rfl

/-- **Where ARP replies come from**: a call sends one for the request that it brings, if there is an answer, and
no other. -/
theorem replies_eq (h : n.step call = .ok n') :
    replies n n' = (requestIn call).elim [] fun m => (n.answer m.targetIpAddress).toList.map (reply m) := by
  cases call with
  | sendDatagram dgram nextHop =>
    rcases sendDatagram_cases h with ⟨mac, payload, -, -, rfl⟩ | ⟨-, -, rfl⟩ | ⟨-, -, rfl⟩
    · rw [replies_append rfl, List.filterMap_cons_none (replyIn_ipv4 rfl)]
      rfl
    · exact replies_same rfl
    · rw [replies_append rfl, List.filterMap_cons_none (replyIn_requestFrame n nextHop)]
      rfl
  | recvFrame frame => exact replies_recvFrame h
  | tick ms =>
    obtain rfl := Except.ok.inj h
    exact replies_same rfl

theorem recvFrame_requestIn (h : requestIn (.recvFrame frame) = some m) :
    n.step (.recvFrame frame) = n.recvRequest m := by
  obtain ⟨harp, hop⟩ := Option.filter_eq_some_iff.mp h
  exact recvFrame_request harp (of_decide_eq_true hop)

end NetworkInterface

/-! ## Runs -/

namespace CacheRun

open NetworkInterface (Call emitted replies requestIn answer reply replyFrame arpOf)

variable {w w' : CacheRun} {call : Call} {frame : EthernetFrame} {m : ARPMessage}

/-- What was last learned about the interface's own IP address, if that is no older than thirty seconds. -/
def learnedOfItself (w : CacheRun) : Option EthernetAddress :=
  current 30000 w.now w.history w.iface.ipAddress.ipv4Numeric

theorem Inv.answer_itself (h : Inv w) : w.iface.answer w.iface.ipAddress.ipv4Numeric
    = some (w.learnedOfItself.getD w.iface.ethernetAddress) := by
  rw [answer, h.holds.known, if_pos rfl, learnedOfItself]
  cases current 30000 w.now w.history w.iface.ipAddress.ipv4Numeric with
  | none => rfl
  | some mac => rfl

/-- **A request for the interface's own address is answered once**, to whoever sent it, in every state of every run:
with what was learned about that address, and with its own if nothing was. -/
theorem Inv.request_for_itself (h : Inv w) (hrequest : requestIn (.recvFrame frame) = some m)
    (htarget : m.targetIpAddress = w.iface.ipAddress.ipv4Numeric) :
    ∃ w', w.step (.recvFrame frame) = .ok w' ∧ emitted w.iface w'.iface
      = [w.iface.replyFrame m (w.learnedOfItself.getD w.iface.ethernetAddress)] := by
  have hstep := NetworkInterface.recvFrame_requestIn (n := w.iface) hrequest
  have hanswered := hstep.trans (NetworkInterface.recvRequest_eq w.iface m)
  refine ⟨_, map_ok.mpr ⟨_, hanswered, rfl⟩, ?_⟩
  rw [NetworkInterface.recvRequest_emits (NetworkInterface.recvRequest_eq w.iface m), htarget, h.answer_itself]
  rfl

/-- **The interface announces itself**, in every state of every run whose ticks stay below `2^64 - 30000` ms, as long
as what it last learned about its own IP address is its own Ethernet address, or is older than thirty seconds: every
reply that it sends for its own IP address has it, and every request for its own IP address is answered by one reply,
to whoever sent it. -/
theorem announces_itself (hr : Reach Start CacheRun.step inTime w)
    (hown : ∀ mac ∈ w.learnedOfItself, mac = w.iface.ethernetAddress) :
    (∀ call w', w.step call = .ok w' → ∀ r ∈ replies w.iface w'.iface,
      r.senderIpAddress = w.iface.ipAddress.ipv4Numeric → r.senderEthernetAddress = w.iface.ethernetAddress) ∧
    ∀ frame m, requestIn (.recvFrame frame) = some m → m.targetIpAddress = w.iface.ipAddress.ipv4Numeric →
      ∃ w' f, w.step (.recvFrame frame) = .ok w' ∧ emitted w.iface w'.iface = [f] ∧
        f.header.dst = m.senderEthernetAddress ∧ arpOf f = some
          { opcode := ARPMessage.OPCODE_REPLY
            senderEthernetAddress := w.iface.ethernetAddress
            senderIpAddress := w.iface.ipAddress.ipv4Numeric
            targetEthernetAddress := m.senderEthernetAddress
            targetIpAddress := m.senderIpAddress } := by
  have h := Inv.of_reach hr
  have hself : w.learnedOfItself.getD w.iface.ethernetAddress = w.iface.ethernetAddress := by
    cases hlearned : w.learnedOfItself with
    | none => rfl
    | some mac => exact hown mac hlearned
  refine ⟨?_, ?_⟩
  · intro call w' hs r hr hsender
    obtain ⟨iface, hiface, rfl⟩ := map_ok.mp hs
    rw [NetworkInterface.replies_eq hiface] at hr
    cases hrequest : requestIn call with
    | none =>
      rw [hrequest] at hr
      exact absurd hr List.not_mem_nil
    | some m =>
      rw [hrequest, Option.elim_some] at hr
      obtain ⟨mac, hmac, rfl⟩ := List.mem_map.mp hr
      have htarget : m.targetIpAddress = w.iface.ipAddress.ipv4Numeric := hsender
      rw [htarget, h.answer_itself, hself] at hmac
      exact List.mem_singleton.mp hmac
  · intro frame m hrequest htarget
    obtain ⟨w', hs, hemitted⟩ := h.request_for_itself hrequest htarget
    rw [hself] at hemitted
    refine ⟨w', _, hs, hemitted, rfl, ?_⟩
    rw [NetworkInterface.arpOf_replyFrame, reply, htarget]

/-- The host 1 asks for the address 9. -/
def asksForNine : EthernetFrame :=
  NetworkInterface.arpFrame
    { opcode := ARPMessage.OPCODE_REQUEST
      senderIpAddress := 1, senderEthernetAddress := { b0 := 2, b5 := 1 }
      targetIpAddress := 9 }

/-- The host 6 claims the address 9. -/
def claimsNine : EthernetFrame :=
  NetworkInterface.arpFrame
    { opcode := ARPMessage.OPCODE_REPLY
      senderIpAddress := 9, senderEthernetAddress := { b0 := 2, b5 := 6 }
      targetIpAddress := 1, targetEthernetAddress := { b0 := 2, b5 := 1 } }

/-- Another host claimed the address of the interface, but that is more than thirty seconds ago. -/
theorem announces_itself_again : ∃ w : CacheRun, Reach Start CacheRun.step inTime w ∧
    w.history ≠ [] ∧ w.iface.ethernetAddress = { b0 := 2, b5 := 9 } ∧
    ∃ w' f, w.step (.recvFrame asksForNine) = .ok w' ∧ emitted w.iface w'.iface = [f] ∧
      f.header.dst = { b0 := 2, b5 := 1 } ∧
      ∃ r, arpOf f = some r ∧ r.senderIpAddress = 9 ∧ r.senderEthernetAddress = { b0 := 2, b5 := 9 } := by
  obtain ⟨w, hr, htest⟩ : ∃ w, Reach Start CacheRun.step inTime w ∧
      (decide (w.history ≠ []) && decide (w.iface.ethernetAddress = { b0 := 2, b5 := 9 })
        && decide (w.iface.ipAddress.ipv4Numeric = 9) && decide (w.learnedOfItself = none)) = true :=
    Reach.exec_any _ (s := { iface := NetworkInterface.new { b0 := 2, b5 := 9 } { ipv4Numeric := 9 } })
      (l := [.recvFrame claimsNine, .recvFrame asksForNine, .tick 30001])
      (.start ⟨_, _, rfl⟩) (by decide +kernel)
  simp only [Bool.and_eq_true, decide_eq_true_eq] at htest
  obtain ⟨⟨⟨hpast, heth⟩, hip⟩, hnone⟩ := htest
  obtain ⟨-, hanswers⟩ := announces_itself hr (by rw [hnone]; simp)
  obtain ⟨w', f, hs, hemitted, hdst, harp⟩ := hanswers asksForNine
    { opcode := ARPMessage.OPCODE_REQUEST
      senderIpAddress := 1, senderEthernetAddress := { b0 := 2, b5 := 1 }
      targetIpAddress := 9 } (by decide +kernel) hip.symm
  exact ⟨w, hr, hpast, heth, w', f, hs, hemitted, hdst, _, harp, hip, heth⟩

/-- **The interface repeats what it was told about itself.**  After another host has claimed its IP address, the
interface answers a request for it with the other's Ethernet address. -/
theorem repeats_what_it_was_told : ∃ w w' : CacheRun, Reach Start CacheRun.step (fun _ _ => True) w ∧
    w.iface.ipAddress.ipv4Numeric = 9 ∧ w.iface.ethernetAddress = { b0 := 2, b5 := 9 } ∧
    w.step (.recvFrame asksForNine) = .ok w' ∧
    (replies w.iface w'.iface).map (fun r => (r.senderIpAddress, r.senderEthernetAddress))
      = [(9, { b0 := 2, b5 := 6 })] := by
  obtain ⟨w, hr, htest⟩ : ∃ w, Reach Start CacheRun.step (fun _ _ => True) w ∧
      (decide (w.iface.ipAddress.ipv4Numeric = 9) && decide (w.iface.ethernetAddress = { b0 := 2, b5 := 9 })
        && ((w.step (.recvFrame asksForNine)).toOption.any fun w' => decide ((replies w.iface w'.iface).map
          (fun r => (r.senderIpAddress, r.senderEthernetAddress)) = [(9, { b0 := 2, b5 := 6 })]))) = true :=
    Reach.exec_any _ (s := { iface := NetworkInterface.new { b0 := 2, b5 := 9 } { ipv4Numeric := 9 } })
      (l := [.recvFrame claimsNine]) (.start ⟨_, _, rfl⟩) (by decide +kernel)
  simp only [Bool.and_eq_true, decide_eq_true_eq] at htest
  obtain ⟨⟨hip, heth⟩, hanswered⟩ := htest
  cases hs : w.step (.recvFrame asksForNine) with
  | error e =>
    rw [hs] at hanswered
    exact absurd hanswered Bool.false_ne_true
  | ok w' =>
    rw [hs] at hanswered
    exact ⟨w, w', hr, hip, heth, hs, of_decide_eq_true hanswered⟩

end CacheRun

end Sponge
