/-
# `Sponge.InterfaceRequests` — how often the interface asks for a next hop.

A next hop that is not known is asked for with an ARP request, once in five seconds.  The interface notes the
request under its OWN address, so the note says when it last asked for anything, and the next ARP reply to it
removes the note, whoever replied (`requestOut_iff`).

As long as the note is right about a next hop, that one is asked for exactly when it was not in the last 5000 ms
(`asks_once_in_five_seconds`).  It is wrong while another next hop is asked for, and after a reply of another host
(`note_is_shared`); and it is wrong in the last five seconds before the clock starts again at zero.
-/
import Sponge.ArpCache

namespace Sponge

open Sponge.Lib
open EthernetHeader (TYPE_IPv4 TYPE_ARP)
open EthernetAddress (ETHERNET_BROADCAST)

/-! ## Requests among the frames -/

namespace NetworkInterface

variable {n n' : NetworkInterface} {frame : EthernetFrame} {m : ARPMessage}

/-- The address that a frame asks for, if it is an ARP request. -/
def asksFor (frame : EthernetFrame) : Option UInt32 :=
  (arpOf frame).bind fun m => if m.opcode = ARPMessage.OPCODE_REQUEST then some m.targetIpAddress else none

/-- What is asked for between two states, the second later than the first. -/
def asked (n n' : NetworkInterface) : List UInt32 :=
  (n'.framesOut.drop n.framesOut.length).filterMap asksFor

theorem asked_append {frames : List EthernetFrame} (h : n'.framesOut = n.framesOut ++ frames) :
    asked n n' = frames.filterMap asksFor := by
  rw [asked, h, List.drop_left]

theorem asked_same (h : n'.framesOut = n.framesOut) : asked n n' = [] :=
  asked_append (show n'.framesOut = n.framesOut ++ [] by rw [h, List.append_nil])

/-- A message that was put into a frame is found there. -/
theorem arpOf_wire (htype : frame.header.type = TYPE_ARP) (hsupported : m.supported = true)
    (hpayload : m.serialize = .ok frame.payload) : arpOf frame = some m := by
  refine arpOf_parse htype ?_
  rw [ARPMessage.serialize_eq hsupported] at hpayload
  have hparse := (m.parse_wire []).1 hsupported
  rwa [List.append_nil, Except.ok.inj hpayload] at hparse

theorem arpOf_requestFrame (n : NetworkInterface) (nextHop : Address) :
    arpOf (n.requestFrame nextHop) = some (n.request nextHop) :=
  arpOf_wire rfl rfl (ARPMessage.serialize_eq rfl)

theorem arpOf_replyFrame (n : NetworkInterface) (m : ARPMessage) (mac : EthernetAddress) :
    arpOf (n.replyFrame m mac) = some (reply m mac) :=
  arpOf_wire rfl rfl (ARPMessage.serialize_eq rfl)

theorem asksFor_ipv4 (h : frame.header.type = TYPE_IPv4) : asksFor frame = none := by
  rw [asksFor, arpOf_other (by rw [h]; decide)]
  rfl

theorem asksFor_requestFrame (n : NetworkInterface) (nextHop : Address) :
    asksFor (n.requestFrame nextHop) = some nextHop.ipv4Numeric := by
  rw [asksFor, arpOf_requestFrame]
  rfl

/-- The note: until when the request counts as out. -/
def note (n : NetworkInterface) : Option Nat := (n.arpIpQueue.lookup n.ipAddress.ipv4Numeric).map Prod.fst

/-- Learning is no concern of the frames, the note and the clock. -/
theorem foldl_learn_keeps (lessons : List (UInt32 × EthernetAddress)) (n : NetworkInterface) :
    (lessons.foldl learn n).framesOut = n.framesOut ∧ (lessons.foldl learn n).note = n.note ∧
    (lessons.foldl learn n).msSinceLastTick = n.msSinceLastTick := by
  obtain ⟨cache, hcache⟩ := foldl_learn_frame lessons n
  rw [hcache]
  exact ⟨rfl, rfl, rfl⟩

/-- Answering a request asks for nothing. -/
theorem recvRequest_asks (h : n.recvRequest m = .ok n') : asked n n' = [] := by
  rw [recvRequest_eq] at h
  obtain rfl := Except.ok.inj h
  rw [asked_append (foldl_learn_keeps _ _).1, List.filterMap_eq_nil_iff]
  intro frame hframe
  obtain ⟨mac, -, rfl⟩ := List.mem_map.mp hframe
  rw [asksFor, arpOf_replyFrame]
  rfl

theorem recvFrame_request (harp : arpOf frame = some m) (hop : m.opcode = ARPMessage.OPCODE_REQUEST) :
    n.step (.recvFrame frame) = n.recvRequest m := by
  rw [step, recvFrame_arp harp, if_pos hop]
  cases n.recvRequest m <;> rfl

/-! ## One call -/

/-- The call brings an ARP reply to the interface's address. -/
def answeredBy (n : NetworkInterface) : Call → Bool
  | .recvFrame frame => (arpOf frame).any n.resolves
  | _ => false

/-- What a call asks for, and what it does to the note. -/
inductive Noted (n : NetworkInterface) (call : Call) (n' : NetworkInterface) : Prop
  /-- Nothing is asked for; a reply removes the note. -/
  | silent (hasked : asked n n' = []) (hnote : n'.note = if n.answeredBy call then none else n.note)
  /-- A next hop is asked for and noted. -/
  | asks {dgram : InternetDatagram} {nextHop : Address} (hcall : call = .sendDatagram dgram nextHop)
      (hasked : asked n n' = [nextHop.ipv4Numeric]) (hnote : n'.note = some (add64 n.msSinceLastTick 5000))

theorem requestOut_eq (n : NetworkInterface) :
    n.requestOut = n.note.any fun time => decide (n.msSinceLastTick ≤ time) := by
  rw [requestOut, note, Option.any_map]

theorem noted_sendDatagram {dgram : InternetDatagram} {nextHop : Address}
    (h : n.step (.sendDatagram dgram nextHop) = .ok n') : Noted n (.sendDatagram dgram nextHop) n' := by
  rcases sendDatagram_cases h with ⟨mac, payload, -, -, rfl⟩ | ⟨-, -, rfl⟩ | ⟨-, -, rfl⟩
  · refine .silent ?_ rfl
    rw [asked_append rfl, List.filterMap_cons_none (asksFor_ipv4 rfl), List.filterMap_nil]
  · exact .silent (asked_same rfl) rfl
  · refine .asks rfl ?_ ?_
    · rw [asked_append rfl, List.filterMap_cons_some (asksFor_requestFrame n nextHop), List.filterMap_nil]
    · rw [note, AList.lookup_insert]
      rfl

theorem noted_recvFrame (h : n.step (.recvFrame frame) = .ok n') : Noted n (.recvFrame frame) n' := by
  have hstep := h
  cases recvFrame_step h with
  | other hother =>
    refine .silent (asked_same rfl) ?_
    rw [answeredBy, arpOf_other hother]
    rfl
  | request harp hparse hop frames hframes =>
    rw [recvFrame_request (arpOf_parse harp hparse) hop] at hstep
    refine .silent (recvRequest_asks hstep) ?_
    rw [answeredBy, arpOf_parse harp hparse, Option.any_some, resolves_request n hop, (foldl_learn_keeps _ _).2.1]
    rfl
  | @reply m harp hparse hop hnone =>
    refine .silent (asked_same (foldl_learn_keeps _ _).1) ?_
    rw [answeredBy, arpOf_parse harp hparse, Option.any_some, (foldl_learn_keeps _ _).2.1]
    by_cases hown : n.resolves m = true
    · have htarget : m.targetIpAddress = n.ipAddress.ipv4Numeric := (of_decide_eq_true hown).2
      rw [if_pos hown, note, ← htarget, hnone, Option.map_none]
    · rw [if_neg hown]
  | @resolved m harp hparse hop time dgram payload hkept hpayload =>
    refine .silent ?_ ?_
    · rw [asked_append (foldl_learn_keeps _ _).1, List.filterMap_cons_none (asksFor_ipv4 rfl), List.filterMap_nil]
    · rw [answeredBy, arpOf_parse harp hparse, Option.any_some, (foldl_learn_keeps _ _).2.1]
      by_cases hown : m.targetIpAddress = n.ipAddress.ipv4Numeric
      · have hres : n.resolves m = true := decide_eq_true ⟨hop, hown⟩
        rw [if_pos hres, note, hown, AList.lookup_erase, Option.map_none]
      · rw [if_neg (fun hres => hown (of_decide_eq_true hres).2), note, note,
          AList.lookup_erase_ne (fun heq => hown heq.symm)]

/-- **What one call does to the note.** -/
theorem noted_step {call : Call} (h : n.step call = .ok n') : Noted n call n' := by
  cases call with
  | sendDatagram dgram nextHop => exact noted_sendDatagram h
  | recvFrame frame => exact noted_recvFrame h
  | tick ms =>
    obtain rfl := Except.ok.inj h
    exact .silent (asked_same rfl) rfl

/-- Time passes only by ticks. -/
theorem step_clock {call : Call} (hlt : n.msSinceLastTick + elapsed call < 2 ^ 64) (h : n.step call = .ok n') :
    n'.msSinceLastTick = n.msSinceLastTick + elapsed call := by
  cases call with
  | sendDatagram dgram nextHop =>
    rcases sendDatagram_cases h with ⟨_, _, -, -, rfl⟩ | ⟨-, -, rfl⟩ | ⟨-, -, rfl⟩ <;> rfl
  | recvFrame frame =>
    cases recvFrame_step h with
    | other => rfl
    | request => exact (foldl_learn_keeps _ _).2.2
    | reply => exact (foldl_learn_keeps _ _).2.2
    | resolved => exact (foldl_learn_keeps _ _).2.2
  | tick ms =>
    obtain rfl := Except.ok.inj h
    exact add64_of_lt hlt

end NetworkInterface

/-! ## Runs -/

/-- An interface, the sum of its ticks, what it has asked for and when, and whether a reply has come since it
last did. -/
structure RequestRun where
  iface : NetworkInterface
  now : Nat := 0
  requests : List (UInt32 × Nat) := []
  answered : Bool := false
  deriving DecidableEq

namespace RequestRun

open NetworkInterface (Call asked asksFor answeredBy elapsed Noted)

def step (w : RequestRun) (call : Call) : Except Exception RequestRun :=
  (w.iface.step call).map fun iface =>
    { iface := iface
      now := w.now + elapsed call
      requests := w.requests ++ (asked w.iface iface).map fun ip => (ip, w.now)
      answered := if asked w.iface iface = [] then w.answered || w.iface.answeredBy call else false }

/-- A new interface. -/
def Start (w : RequestRun) : Prop := ∃ eth ip, w = { iface := NetworkInterface.new eth ip }

/-- The ticks add up to less than `2^64 - 5000`. -/
def inTime (w : RequestRun) (call : Call) : Prop := w.now + elapsed call + 5000 < 2 ^ 64

instance (w : RequestRun) : DecidablePred w.inTime := fun _ => inferInstanceAs (Decidable (_ < _))

/-- The address was asked for in the last 5000 ms. -/
def asksRecently (w : RequestRun) (ip : UInt32) : Prop := ∃ r ∈ w.requests, r.1 = ip ∧ w.now ≤ r.2 + 5000

instance (w : RequestRun) (ip : UInt32) : Decidable (w.asksRecently ip) :=
  inferInstanceAs (Decidable (∃ r ∈ w.requests, r.1 = ip ∧ w.now ≤ r.2 + 5000))

/-- The note is that of the last request, and gone if that was answered. -/
structure Inv (w : RequestRun) : Prop where
  clock : w.iface.msSinceLastTick = w.now
  early : w.now + 5000 < 2 ^ 64
  past : ∀ r ∈ w.requests, r.2 ≤ w.now
  last : ∀ r ∈ w.requests.getLast?, ∀ r' ∈ w.requests, r'.2 ≤ r.2
  note : w.iface.note = if w.answered then none else w.requests.getLast?.map fun r => r.2 + 5000

variable {w w' : RequestRun} {call : Call}

theorem Inv.start (hs : Start w) : Inv w := by
  obtain ⟨eth, ip, rfl⟩ := hs
  have hearly : 0 + 5000 < 2 ^ 64 := by decide
  exact ⟨rfl, hearly, by simp, by simp, rfl⟩

theorem Inv.step (h : Inv w) (hok : w.inTime call) (hs : w.step call = .ok w') : Inv w' := by
  obtain ⟨iface, hiface, rfl⟩ := map_ok.mp hs
  have hlate : w.now + elapsed call + 5000 < 2 ^ 64 := hok
  have hclock : iface.msSinceLastTick = w.now + elapsed call := by
    rw [NetworkInterface.step_clock (by rw [h.clock]; omega) hiface, h.clock]
  have hpast : ∀ r ∈ w.requests, r.2 ≤ w.now + elapsed call :=
    fun r hr => Nat.le_trans (h.past r hr) (Nat.le_add_right _ _)
  cases NetworkInterface.noted_step hiface with
  | silent hasked hnote =>
    rw [hasked, if_pos rfl, List.map_nil, List.append_nil]
    refine ⟨hclock, hlate, hpast, h.last, ?_⟩
    dsimp only
    rw [hnote, h.note]
    cases w.iface.answeredBy call with
    | true => rw [Bool.or_true]; rfl
    | false => rw [Bool.or_false]; rfl
  | @asks dgram nextHop hcall hasked hnote =>
    rw [hasked, if_neg (List.cons_ne_nil _ _), List.map_singleton]
    have hlast : (w.requests ++ [(nextHop.ipv4Numeric, w.now)]).getLast? = some (nextHop.ipv4Numeric, w.now) :=
      List.getLast?_concat
    refine ⟨hclock, hlate, ?_, ?_, ?_⟩
    · intro r hr
      rcases List.mem_append.mp hr with hr | hr
      · exact hpast r hr
      · rw [List.mem_singleton.mp hr]
        exact Nat.le_add_right _ _
    · intro r hr r' hr'
      rw [Option.mem_def, hlast] at hr
      obtain rfl := Option.some.inj hr
      rcases List.mem_append.mp hr' with hr' | hr'
      · exact h.past r' hr'
      · rw [List.mem_singleton.mp hr']
    · dsimp only
      rw [hnote, h.clock, add64_of_lt h.early, hlast]
      rfl

theorem Inv.of_reach (hr : Reach Start RequestRun.step inTime w) : Inv w :=
  Reach.invariant (P := Inv) (fun _ hs => Inv.start hs) (fun _ _ _ h hok hs => h.step hok hs) hr

/-- **When a request counts as out**: the last one, whatever it asked for, is no older than 5000 ms and was not
answered. -/
theorem requestOut_iff (h : Inv w) : w.iface.requestOut = true ↔
    w.answered = false ∧ ∃ r ∈ w.requests.getLast?, w.now ≤ r.2 + 5000 := by
  rw [NetworkInterface.requestOut_eq, h.note, h.clock]
  cases w.answered with
  | true => simp
  | false =>
    cases w.requests.getLast? with
    | none => simp
    | some r => simp

/-- **A next hop is asked for once in five seconds**, in every state of every run whose ticks stay below `2^64 - 5000`
ms, as long as the interface's one note is right about it: while a request is out the next hop was asked for, and it
was not if the last request is answered. -/
theorem asks_once_in_five_seconds {dgram : InternetDatagram} {nextHop : Address}
    (hr : Reach Start RequestRun.step inTime w)
    (hunknown : w.iface.ipMacMap.getCache nextHop.ipv4Numeric = none)
    (hout : w.answered = false → ∀ r ∈ w.requests.getLast?, w.now ≤ r.2 + 5000 →
      w.asksRecently nextHop.ipv4Numeric)
    (hanswered : w.answered = true → ¬ w.asksRecently nextHop.ipv4Numeric) :
    ∃ w', w.step (.sendDatagram dgram nextHop) = .ok w' ∧
      (nextHop.ipv4Numeric ∈ asked w.iface w'.iface ↔ ¬ w.asksRecently nextHop.ipv4Numeric) := by
  have h := Inv.of_reach hr
  have hnote : w.iface.requestOut = true ↔ w.asksRecently nextHop.ipv4Numeric := by
    rw [requestOut_iff h]
    constructor
    · rintro ⟨hfree, r, hlast, hrecent⟩
      exact hout hfree r hlast hrecent
    · intro hasks
      refine ⟨?_, ?_⟩
      · by_contra hans
        exact hanswered (eq_true_of_ne_false hans) hasks
      · -- the last request is no older than that for the next hop
        obtain ⟨r, hmem, -, hrecent⟩ := hasks
        obtain ⟨last, hlast⟩ := List.getLast?_isSome.mpr (List.ne_nil_of_mem hmem) |> Option.isSome_iff_exists.mp
        exact ⟨last, hlast, Nat.le_trans hrecent (Nat.add_le_add_right (h.last last hlast r hmem) _)⟩
  by_cases hbusy : w.iface.requestOut = true
  · have hsend := NetworkInterface.sendDatagram_waits dgram hunknown hbusy
    refine ⟨_, map_ok.mpr ⟨w.iface, hsend, rfl⟩, ?_⟩
    rw [NetworkInterface.asked_same rfl]
    exact ⟨fun hmem => absurd hmem List.not_mem_nil, fun hnot => absurd (hnote.mp hbusy) hnot⟩
  · have hsend := NetworkInterface.sendDatagram_asks dgram hunknown (eq_false_of_ne_true hbusy)
    refine ⟨_, map_ok.mpr ⟨_, hsend, rfl⟩, ?_⟩
    rw [NetworkInterface.asked_append rfl,
      List.filterMap_cons_some (NetworkInterface.asksFor_requestFrame w.iface nextHop)]
    exact ⟨fun _ hasks => hbusy (hnote.mpr hasks), fun _ => List.mem_cons_self⟩

/-- A next hop that was asked for six seconds ago is asked for again. -/
theorem asks_once_in_five_seconds_later : ∃ w w' : RequestRun, Reach Start RequestRun.step inTime w ∧
    w.requests = [(1, 0)] ∧ w.now = 6000 ∧
    w.step (.sendDatagram {} { ipv4Numeric := 1 }) = .ok w' ∧ 1 ∈ asked w.iface w'.iface := by
  obtain ⟨w, hr, htest⟩ : ∃ w, Reach Start RequestRun.step inTime w ∧
      (decide (w.requests = [(1, 0)]) && decide (w.now = 6000) && decide (w.answered = false)
        && decide (w.iface.ipMacMap.getCache 1 = none)) = true :=
    Reach.exec_any _ (s := { iface := NetworkInterface.new { b0 := 2, b5 := 9 } { ipv4Numeric := 9 } })
      (l := [.sendDatagram {} { ipv4Numeric := 1 }, .tick 6000]) (.start ⟨_, _, rfl⟩) (by decide +kernel)
  simp only [Bool.and_eq_true, decide_eq_true_eq] at htest
  obtain ⟨⟨⟨hrequests, hnow⟩, hfree⟩, hunknown⟩ := htest
  have hold : ¬ w.asksRecently 1 := by
    rw [asksRecently, hrequests, hnow]
    decide
  obtain ⟨w', hstep, hiff⟩ := asks_once_in_five_seconds hr hunknown
    (by rw [hrequests, hnow]; simp) (by rw [hfree]; simp)
  exact ⟨w, w', hr, hrequests, hnow, hstep, hiff.mpr hold⟩

/-- Two runs in which the note is wrong.  One next hop is asked for, and another, never asked for, is not; and a
next hop is asked for twice at one moment, because another host has replied in between. -/
theorem note_is_shared :
    (∃ w w' : RequestRun, Reach Start RequestRun.step (fun _ _ => True) w ∧
      w.iface.ipMacMap.getCache 2 = none ∧ w.step (.sendDatagram {} { ipv4Numeric := 2 }) = .ok w' ∧
      2 ∉ asked w.iface w'.iface ∧ ¬ w.asksRecently 2) ∧
    ∃ w w' : RequestRun, Reach Start RequestRun.step (fun _ _ => True) w ∧
      w.iface.ipMacMap.getCache 1 = none ∧ w.step (.sendDatagram {} { ipv4Numeric := 1 }) = .ok w' ∧
      1 ∈ asked w.iface w'.iface ∧ w.asksRecently 1 := by
  have hstart : Reach Start RequestRun.step (fun _ _ => True)
      { iface := NetworkInterface.new { b0 := 2, b5 := 9 } { ipv4Numeric := 9 } } := .start ⟨_, _, rfl⟩
  refine ⟨?_, ?_⟩
  · obtain ⟨w, hr, htest⟩ := hstart.exec_any (l := [.sendDatagram {} { ipv4Numeric := 1 }])
      (fun w : RequestRun => decide (w.iface.ipMacMap.getCache 2 = none) && decide (¬ w.asksRecently 2)
        && returns (w.step (.sendDatagram {} { ipv4Numeric := 2 })) fun w' => decide (2 ∉ asked w.iface w'.iface))
      (by decide +kernel)
    simp only [Bool.and_eq_true, decide_eq_true_eq, returns_iff] at htest
    obtain ⟨⟨hunknown, hnever⟩, w', hstep, hasked⟩ := htest
    exact ⟨w, w', hr, hunknown, hstep, hasked, hnever⟩
  · obtain ⟨w, hr, htest⟩ := hstart.exec_any
      (l := [.sendDatagram { header := { len := 20 } } { ipv4Numeric := 1 },
        .recvFrame (NetworkInterface.arpFrame
          { opcode := ARPMessage.OPCODE_REPLY, senderIpAddress := 2
            senderEthernetAddress := { b0 := 2, b5 := 2 }
            targetIpAddress := 9
            targetEthernetAddress := { b0 := 2, b5 := 9 } })])
      (fun w : RequestRun => decide (w.iface.ipMacMap.getCache 1 = none) && decide (w.asksRecently 1)
        && returns (w.step (.sendDatagram {} { ipv4Numeric := 1 })) fun w' => decide (1 ∈ asked w.iface w'.iface))
      (by decide +kernel)
    simp only [Bool.and_eq_true, decide_eq_true_eq, returns_iff] at htest
    obtain ⟨⟨hunknown, hrecent⟩, w', hstep, hasked⟩ := htest
    exact ⟨w, w', hr, hunknown, hstep, hasked, hrecent⟩

end RequestRun

end Sponge
