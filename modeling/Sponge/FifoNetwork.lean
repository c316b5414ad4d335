/-
# `Sponge.FifoNetwork` — two connections over channels that lose segments but keep their order.

An empty segment must not be answered by an empty segment, or two connections that have nothing to say
would go on acknowledging each other.  `segment_received` answers one in a single case: its keep-alive test
takes an empty segment whose sequence number is one below the acknowledgment number.  Over a network that
reorders, an acknowledgment that was sent before a byte and arrives after it passes that test.  Over
channels that keep the order none does, and that is the result of this module.

The argument needs to know how far the sender was when a segment left.  Each segment is `Fresh` for the
segments created until then, and `Lib.Reads` dates what is still in the channel: everything that has been
heard was sent with an earlier part of the history.  A blank segment stands at the end of its part
(`Fresh`), and what the receiver acknowledges lies within that part (`Heard.acknowledged_le_space`), so the
blank segment is never behind it.  The same dates show that a bare SYN comes before the first byte, which
`Network` has to assume.
-/
import Sponge.Lib.Fifo
import Sponge.Network

namespace Sponge

open Sponge.Lib
open SenderRun (Wired asOf)

/-! ## The channels -/

/-- Two endpoints and how much of what each has sent has left its channel, delivered or lost. -/
structure FifoNetwork where
  net : Network
  goneA : Nat := 0
  goneB : Nat := 0
  deriving DecidableEq, Repr

namespace FifoNetwork

inductive Call where
  /-- A call of the owner of `x`. -/
  | own (x : Side) (call : TCPConnection.Call)
  /-- The oldest segment on its way from `x` arrives. -/
  | deliver (x : Side)
  /-- The oldest segment on its way from `x` is lost. -/
  | lose (x : Side)

def gone (w : FifoNetwork) : Side → Nat
  | .A => w.goneA
  | .B => w.goneB

/-- The segments on their way from `x`, the oldest first. -/
def channel (w : FifoNetwork) (x : Side) : List TCPSegment :=
  (w.net.endpoint x).conn.segmentsOut.drop (w.gone x)

/-- The oldest segment leaves the channel. -/
def leave (w : FifoNetwork) : Side → FifoNetwork
  | .A => { w with goneA := w.goneA + 1 }
  | .B => { w with goneB := w.goneB + 1 }

def step (w : FifoNetwork) : Call → Except Exception FifoNetwork
  | .own x call => (w.net.step (x, call)).map fun net => { w with net := net }
  | .deliver x => match w.channel x with
    | [] => .ok w
    | seg :: _ => (w.net.step (x.peer, .segmentReceived seg)).map fun net => { w.leave x with net := net }
  | .lose x => match w.channel x with
    | [] => .ok w
    | _ :: _ => .ok (w.leave x)

def Start (w : FifoNetwork) : Prop := w.net.Start ∧ w.goneA = 0 ∧ w.goneB = 0

/-- No write after the end of the input; segments are taken and given by the channels only. -/
def allowed (w : FifoNetwork) : Call → Prop
  | .own x (.write _) => (w.net.endpoint x).conn.sender.stream.inputEnded = false
  | .own _ (.segmentReceived _) => False
  | .own _ .pop => False
  | _ => True

instance (w : FifoNetwork) (call : Call) : Decidable (w.allowed call) := by
  unfold allowed
  split <;> infer_instance

theorem gone_leave (w : FifoNetwork) (x : Side) : (w.leave x).gone x = w.gone x + 1 := by cases x <;> rfl

theorem gone_leave_peer (w : FifoNetwork) (x : Side) : (w.leave x).gone x.peer = w.gone x.peer := by
  cases x <;> rfl

theorem leave_net (w : FifoNetwork) (x : Side) : (w.leave x).net = w.net := by cases x <;> rfl

theorem mem_of_channel {w : FifoNetwork} {x : Side} {seg : TCPSegment} {rest : List TCPSegment}
    (h : w.channel x = seg :: rest) : seg ∈ (w.net.endpoint x).conn.segmentsOut := by
  apply List.mem_of_mem_drop (i := w.gone x)
  rw [← channel, h]
  exact List.mem_cons_self

/-- **What a step can do.** -/
theorem step_cases {w w' : FifoNetwork} {call : Call} (hs : w.step call = .ok w') :
    w' = w ∨ (∃ x, w' = w.leave x) ∨
    (∃ x own e, call = .own x own ∧ (w.net.endpoint x).step own = .ok e ∧
      w' = { w with net := w.net.update x e }) ∨
    (∃ x seg rest e, w.channel x = seg :: rest ∧
      (w.net.endpoint x.peer).step (.segmentReceived seg) = .ok e ∧
      w' = { w.leave x with net := w.net.update x.peer e }) := by
  cases call with
  | own x own =>
    obtain ⟨net, hnet, rfl⟩ := map_ok.mp hs
    obtain ⟨e, he, rfl⟩ := map_ok.mp hnet
    exact Or.inr (Or.inr (Or.inl ⟨x, own, e, rfl, he, rfl⟩))
  | deliver x =>
    rw [step] at hs
    split at hs
    · exact Or.inl (Except.ok.inj hs).symm
    · rename_i seg rest hch
      obtain ⟨net, hnet, rfl⟩ := map_ok.mp hs
      obtain ⟨e, he, rfl⟩ := map_ok.mp hnet
      exact Or.inr (Or.inr (Or.inr ⟨x, seg, rest, e, hch, he, rfl⟩))
  | lose x =>
    rw [step] at hs
    split at hs
    · exact Or.inl (Except.ok.inj hs).symm
    · exact Or.inr (Or.inl ⟨x, (Except.ok.inj hs).symm⟩)

end FifoNetwork

/-! ## What has been heard of the segments created so far -/

variable {a a' b b' : Endpoint} {created created' segs segs' : List TCPSegment} {s : TCPSender}
  {accepted : Bytes} {isn : WrappingInt32} {call : TCPConnection.Call}

/-- What `b` has heard, if anything, is in `segs`. -/
def Hears (isn : WrappingInt32) (segs : List TCPSegment) (b : Endpoint) : Prop :=
  Unheard b ∨ Heard isn (payloads segs) segs b.conn.receiver b.consumed

theorem Hears.mono (h : Hears s.isn segs b) (hw : Wired s accepted created) (hpre : segs <+: segs')
    (hpre' : segs' <+: created) : Hears s.isn segs' b := by
  have hlistens : Listens (asOf s segs) (payloads segs) segs b := h
  have hlater : Listens (asOf s segs') (payloads segs') segs' b :=
    hlistens.mono (hw.earlier (hpre.trans hpre')) (hw.earlier hpre') rfl hpre (hpre.flatMap _)
  exact hlater

/-- A bare SYN is sent before the first byte. -/
theorem Fresh.bare_syn {seg : TCPSegment} (h : Fresh isn segs seg) (hw : Wired s accepted segs)
    (hsyn : seg.header.syn = true) (hnil : seg.payload = []) : payloads segs = [] := by
  rcases h with ⟨-, hno⟩ | ⟨k, g, hg, hcopy, halone⟩ | ⟨hblank, -⟩
  · rw [hno] at hsyn
    exact absurd hsyn (by decide)
  · rcases Nat.eq_zero_or_pos k with rfl | hk
    · -- it is the only one yet
      obtain ⟨first, rfl⟩ := List.length_eq_one_iff.mp (halone rfl)
      obtain rfl : first = g := by simpa using hg
      rw [payloads_cons, ← hcopy.payload, hnil]
      rfl
    · rw [hcopy.syn, SenderRun.syn_later hw.lone hk hg] at hsyn
      exact absurd hsyn (by decide)
  · rw [hblank.syn] at hsyn
    exact absurd hsyn (by decide)

theorem Hears.bare_syn {seg : TCPSegment} (h : Hears s.isn segs b) (hw : Wired s accepted created)
    (hpre : segs <+: created) (hfresh : Fresh s.isn segs seg) (hsyn : seg.header.syn = true)
    (hnil : seg.payload = []) (hisn : b.conn.receiver.isn.isSome = true) :
    b.conn.inboundStream.bytesWritten = 0 := by
  rcases h with hun | hheard
  · rw [hun.isn] at hisn
    exact absurd hisn (by simp)
  · have hle := hheard.written.2
    rw [hfresh.bare_syn (hw.earlier hpre) hsyn hnil] at hle
    exact Nat.le_zero.mp hle

theorem payloads_lt (hw : Wired s accepted created) (hlen : accepted.length < 2 ^ 31)
    (hpre : segs <+: created) : (payloads segs).length < 2 ^ 31 := by
  have hsub : (payloads segs).length ≤ (payloads created).length := (hpre.flatMap _).length_le
  have hall := hw.payload_length
  omega

/-- **One call of the receiving endpoint**; a segment that it brings is fresh for what has been heard. -/
theorem Hears.step (h : Hears s.isn segs b) (hw : Wired s accepted created)
    (hlen : accepted.length < 2 ^ 31) (hpre : segs <+: created)
    (hfresh : ∀ seg, call = .segmentReceived seg → Fresh s.isn segs seg)
    (hs : b.step call = .ok b') : Hears s.isn segs b' :=
  Listens.step (s := asOf s segs) h (hw.earlier hpre) (payloads_lt hw hlen hpre)
    (fun seg hcall => (hfresh seg hcall).onWire)
    (fun seg hcall _ _ hsyn hnil hisn => h.bare_syn hw hpre (hfresh seg hcall) hsyn hnil hisn) hs

/-! ## One direction -/

/-- One direction of the connection: `b` has taken its part of what `a` has sent, in order. -/
structure Orderly (a : Endpoint) (created : List TCPSegment) (gone : Nat) (b : Endpoint) : Prop where
  speaks : Speaks a created
  heard : ∃ n, Reads (Fresh a.conn.sender.isn) created a.conn.segmentsOut gone n ∧
    Hears a.conn.sender.isn (created.take n) b

variable {gone : Nat}

/-- A call of the sending endpoint. -/
theorem Orderly.send (h : Orderly a created gone b) (hs : Spoke a created call a' created') :
    Orderly a' created' gone b := by
  obtain ⟨n, hreads, hears⟩ := h.heard
  obtain ⟨new, hout, hnew⟩ := hs.sends
  refine ⟨hs.speaks, n, ?_, ?_⟩
  · rw [hs.isn, hout]
    exact hreads.append hs.creates hnew
  · -- what is created now lies behind what has been heard of
    obtain ⟨more, rfl⟩ := hs.creates
    rw [hs.isn, List.take_append_of_le_length hreads.past]
    exact hears

/-- A call of the owner of the receiving endpoint. -/
theorem Orderly.receive (h : Orderly a created gone b) (hlen : a.accepted.length < 2 ^ 31)
    (hown : ∀ seg, call ≠ .segmentReceived seg) (hs : b.step call = .ok b') : Orderly a created gone b' := by
  obtain ⟨n, hreads, hears⟩ := h.heard
  have hpart : created.take n <+: created := List.take_prefix n created
  exact ⟨h.speaks, n, hreads, hears.step h.speaks.wired hlen hpart
    (fun seg hcall => absurd hcall (hown seg)) hs⟩

/-- **The next segment and what has been heard before it**, both for the same part of the history. -/
theorem Orderly.next (h : Orderly a created gone b) {seg : TCPSegment} {rest : List TCPSegment}
    (hseg : a.conn.segmentsOut.drop gone = seg :: rest) :
    ∃ m, Fresh a.conn.sender.isn (created.take m) seg ∧ Hears a.conn.sender.isn (created.take m) b ∧
      Reads (Fresh a.conn.sender.isn) created a.conn.segmentsOut (gone + 1) m := by
  obtain ⟨n, hreads, hears⟩ := h.heard
  obtain ⟨m, hle, hfresh, hreads'⟩ := hreads.next hseg
  have hpart : created.take m <+: created := List.take_prefix m created
  exact ⟨m, hfresh, hears.mono h.speaks.wired (List.take_prefix_take_left hle) hpart, hreads'⟩

theorem Orderly.deliver (h : Orderly a created gone b) (hlen : a.accepted.length < 2 ^ 31)
    {seg : TCPSegment} {rest : List TCPSegment} (hseg : a.conn.segmentsOut.drop gone = seg :: rest)
    (hs : b.step (.segmentReceived seg) = .ok b') : Orderly a created (gone + 1) b' := by
  obtain ⟨m, hfresh, hears, hreads⟩ := h.next hseg
  have hpart : created.take m <+: created := List.take_prefix m created
  refine ⟨h.speaks, m, hreads, hears.step h.speaks.wired hlen hpart ?_ hs⟩
  rintro _ ⟨⟩
  exact hfresh

theorem Orderly.lose (h : Orderly a created gone b) : Orderly a created (gone + 1) b := by
  obtain ⟨n, hreads, hears⟩ := h.heard
  exact ⟨h.speaks, n, hreads.skip, hears⟩

/-- An acknowledgment from the peer is of something that has been sent. -/
theorem Orderly.acknowledgment (h : Orderly a created gone b) (hb : Speaks b created') {seg : TCPSegment}
    (hseg : seg ∈ b.conn.segmentsOut) (hack : seg.header.ack = true) : created ≠ [] := by
  obtain ⟨isn, v, hisn, -⟩ := hb.stamped seg hseg hack
  obtain ⟨n, -, hun | hheard⟩ := h.heard
  · rw [hun.isn] at hisn
    exact absurd hisn (by simp)
  · rintro rfl
    exact hheard.sent List.take_nil

/-! ## An empty segment -/

/-- What the receiver acknowledges lies within the segments it has heard of. -/
theorem Heard.acknowledged_le_space {r : TCPReceiver} {consumed : Bytes}
    (h : Heard isn (payloads segs) segs r consumed) (hw : Wired s accepted segs) :
    r.acknowledged ≤ TCPSender.space segs := by
  have hle := h.written.2
  have hsyn := hw.countP_syn hw.lone (k := segs.length) (List.length_pos_of_ne_nil h.sent) h.sent
  rw [List.take_length] at hsyn
  rw [TCPReceiver.acknowledged, if_pos (by simp [h.isn]), space_eq_counts, hsyn]
  by_cases hend : r.streamOut.inputEnded = true
  · -- the stream has ended, so the FIN is among them
    have hfin := h.honest.ended hend
    rw [finIndex] at hfin
    have hlast : TCPSender.endsInFin segs = true := by
      by_contra hno
      rw [if_neg hno] at hfin
      exact absurd hfin (by simp)
    have hpos : 0 < segs.countP (fun seg => seg.header.fin) :=
      List.countP_pos_iff.mpr (TCPSender.exists_fin_of_endsInFin hlast)
    rw [if_pos hend]
    omega
  · rw [if_neg hend]
    omega

/-- **A blank segment is no keep-alive**: it stands at the end of what was created when it left, and the
receiver acknowledges at most that. -/
theorem Hears.not_keepAlive (h : Hears isn segs b) (hw : Wired s accepted segs)
    (hlen : (payloads segs).length < 2 ^ 31) {seg : TCPSegment}
    (hseq : seg.header.seqno = wrap (TCPSender.space segs) isn) : b.conn.keepAlive seg = false := by
  rcases h with hun | hheard
  · rw [TCPConnection.keepAlive, TCPReceiver.ackno_eq_none hun.isn]
  · have hle := hheard.acknowledged_le_space hw
    have hspace : TCPSender.space segs ≤ (payloads segs).length + 2 := (hw.earlier List.prefix_rfl).next_le
    have hfar : (-1 : UInt32).toNat = 4294967295 := by decide
    obtain ⟨hackno, hone⟩ := TCPReceiver.ackno_acknowledged hheard.isn
    rw [TCPConnection.keepAlive, hackno, Bool.and_eq_false_iff]
    refine Or.inr (decide_eq_false ?_)
    -- one back from what is acknowledged is behind the blank segment, by less than `2^32`
    rw [hseq, WrappingInt32.back, wrap_plus, hfar, wrap_eq_wrap_iff]
    omega

/-- **An empty segment that arrives in order is not answered by an empty one.** -/
theorem Orderly.empty_segment (h : Orderly a created gone b) (hb : Speaks b created')
    (hlen : a.accepted.length < 2 ^ 31) {seg : TCPSegment} {rest : List TCPSegment}
    (hseg : a.conn.segmentsOut.drop gone = seg :: rest) (hack : seg.header.ack = true → created' ≠ [])
    (hempty : seg.lengthInSequenceSpace = 0) :
    ∃ c, b.conn.segmentReceived seg = .ok c ∧
      ∃ new, c.segmentsOut = b.conn.segmentsOut ++ new ∧ ∀ out ∈ new, 0 < out.lengthInSequenceSpace := by
  obtain ⟨m, hfresh, hears, -⟩ := h.next hseg
  have hpre := List.take_prefix m created
  have hw := h.speaks.wired.earlier hpre
  have hshort := payloads_lt h.speaks.wired hlen hpre
  rcases b.conn.segmentReceived_cases seg with ⟨-, heq⟩ | ⟨-, -, heq⟩ | ⟨hrst, hact, -, heq⟩
  · exact ⟨_, heq, [], (List.append_nil _).symm, by simp⟩
  · exact ⟨_, heq, [], (List.append_nil _).symm, by simp⟩
  · obtain ⟨hblank, hseq⟩ : Blank seg ∧
        seg.header.seqno = wrap (TCPSender.space (created.take m)) a.conn.sender.isn := by
      rcases hfresh with ⟨hno, -⟩ | ⟨k, g, hg, hcopy, -⟩ | hblank
      · rw [hrst] at hno
        exact absurd hno (by decide)
      · -- the segments that are created are not empty
        have hpos := hw.occupied g (List.mem_of_getElem? hg)
        rw [← hcopy.length, hempty] at hpos
        exact absurd hpos (Nat.lt_irrefl 0)
      · exact hblank
    -- the receiver takes it, and what it has heard is still within the same part of the history
    obtain ⟨r, hr, hlistens⟩ := Listens.receiver (s := asOf a.conn.sender (created.take m)) hears hw hshort
      hact (Or.inr hblank) (fun hsyn => absurd (hblank.syn.symm.trans hsyn) (by decide))
    obtain ⟨hwb, hout⟩ := acked_wired hb.wired hack
    rw [hr] at heq
    generalize b.conn.acked seg = s₁ at heq hwb hout
    have hears' : Hears a.conn.sender.isn (created.take m) { b with conn := b.conn.noted s₁ r } :=
      hlistens _ rfl
    have hka := hears'.not_keepAlive hw hshort hseq
    obtain ⟨c, hc⟩ := TCPConnection.answer_returns (c := b.conn.noted s₁ r) seg
      (TCPConnection.Tracked.fillWindow_returns ⟨_, hwb.toKept⟩)
    obtain ⟨t, ht, rfl⟩ := TCPConnection.answer_empty hka hempty hc
    refine ⟨_, heq.trans hc, _, rfl, fun out hmem => ?_⟩
    obtain ⟨g, hg, rfl⟩ := List.mem_map.mp hmem
    rw [(Copies.stampAck _ g).length]
    -- so only `fill_window` answers
    have hnone : s₁.segmentsOut = [] := hout.trans hb.drained
    rcases ht with hsame | ⟨-, ht⟩
    · have hmem' : g ∈ t.segmentsOut := hg
      rw [show t.segmentsOut = [] from hsame ▸ hnone] at hmem'
      exact absurd hmem' (by simp)
    · exact hwb.fillWindow_occupied hnone ht g hg

/-! ## Both directions -/

namespace FifoNetwork

/-- What holds of two endpoints when `gone x` segments have left the channel from `x`. -/
def Inv (net : Network) (gone : Side → Nat) : Prop :=
  ∀ x, ∃ created, Orderly (net.endpoint x) created (gone x) (net.endpoint x.peer)

theorem Start.inv {w : FifoNetwork} (h : Start w) : Inv w.net w.gone := by
  obtain ⟨⟨cfg, random, cfg', random', heq⟩, hA, hB⟩ := h
  rw [heq]
  rintro (_ | _)
  · show ∃ created, Orderly _ created w.goneA _
    rw [hA]
    exact ⟨[], Speaks.new cfg random, 0, Reads.new, Or.inl (Unheard.new cfg' random')⟩
  · show ∃ created, Orderly _ created w.goneB _
    rw [hB]
    exact ⟨[], Speaks.new cfg' random', 0, Reads.new, Or.inl (Unheard.new cfg random)⟩

/-- **A call of `x`** keeps the direction from `x`; the other direction is a matter of what is called. -/
theorem Inv.update {net : Network} {gone gone' : Side → Nat} (h : Inv net gone) (hshort : net.Short)
    {x : Side} {e : Endpoint} (hopen : ∀ data, call = .write data →
      (net.endpoint x).conn.sender.stream.isInputEnd = false)
    (hseg : ∀ seg, call = .segmentReceived seg → seg ∈ (net.endpoint x.peer).conn.segmentsOut)
    (hpop : call ≠ .pop) (hs : (net.endpoint x).step call = .ok e) (hgone : gone' x = gone x)
    (hpeer : ∀ created, Orderly (net.endpoint x.peer) created (gone x.peer) (net.endpoint x) →
      Orderly (net.endpoint x.peer) created (gone' x.peer) e) : Inv (net.update x e) gone' := by
  obtain ⟨created, hsend⟩ := h x
  obtain ⟨created', hrecv⟩ := h x.peer
  rw [Side.peer_peer] at hrecv
  have hnext := hsend.speaks.wired.next_le
  have hlen := hshort x
  obtain ⟨after, hspoke⟩ := hsend.speaks.step (by omega) hopen
    (fun seg hcall hack => hsend.acknowledgment hrecv.speaks (hseg seg hcall) hack) hpop hs
  intro y
  rcases x.eq_or_peer y with rfl | rfl
  · rw [Network.endpoint_update, Network.endpoint_update_peer, hgone]
    exact ⟨after, hsend.send hspoke⟩
  · rw [Side.peer_peer, Network.endpoint_update, Network.endpoint_update_peer]
    exact ⟨created', hpeer created' hrecv⟩

/-- **One step keeps both directions.** -/
theorem Inv.step {w w' : FifoNetwork} {call : Call} (h : Inv w.net w.gone) (hshort : w.net.Short)
    (hok : w.allowed call) (hs : w.step call = .ok w') : Inv w'.net w'.gone := by
  rcases step_cases hs with rfl | ⟨x, rfl⟩ | ⟨x, own, e, rfl, he, rfl⟩ | ⟨x, seg, rest, e, hch, he, rfl⟩
  · exact h
  · rw [leave_net]
    intro y
    obtain ⟨created, hy⟩ := h y
    rcases x.eq_or_peer y with rfl | rfl
    · rw [gone_leave]
      exact ⟨created, hy.lose⟩
    · rw [gone_leave_peer]
      exact ⟨created, hy⟩
  · refine h.update hshort ?_ ?_ ?_ he rfl fun created hrecv => hrecv.receive (hshort x.peer) ?_ he
    · rintro data rfl
      exact hok
    · rintro seg rfl
      exact hok.elim
    · rintro rfl
      exact hok
    · rintro seg rfl
      exact hok
  · refine h.update hshort (by simp) ?_ (by simp) he (w.gone_leave_peer x) ?_
    · rintro _ ⟨⟩
      rw [Side.peer_peer]
      exact mem_of_channel hch
    · rw [Side.peer_peer]
      intro created hrecv
      show Orderly _ created ((w.leave x).gone x) e
      rw [gone_leave]
      exact hrecv.deliver (hshort x) hch he

theorem short_before {w w' : FifoNetwork} {call : Call} (hs : w.step call = .ok w') (h : w'.net.Short) :
    w.net.Short := by
  rcases step_cases hs with rfl | ⟨x, rfl⟩ | ⟨x, own, e, -, he, rfl⟩ | ⟨x, seg, rest, e, -, he, rfl⟩
  · exact h
  · rwa [leave_net] at h
  · exact h.before he
  · exact h.before he

theorem inv_of_reach {w : FifoNetwork} (hr : Reach Start step allowed w) (hshort : w.net.Short) :
    Inv w.net w.gone := by
  refine Reach.invariant (P := fun w : FifoNetwork => w.net.Short → Inv w.net w.gone)
    (fun _ hstart _ => hstart.inv) ?_ hr hshort
  intro w call w' ih hok hs hshort
  have hbefore := short_before hs hshort
  exact (ih hbefore).step hbefore hok hs

/-- **No acknowledgment storms.**  In every state of every run, when a segment that occupies no sequence
space is delivered, all that the receiving connection adds to `segments_out()` occupies some. -/
theorem no_ack_storm {w : FifoNetwork} (hr : Reach Start step allowed w) (hshort : w.net.Short) (x : Side)
    {seg : TCPSegment} {rest : List TCPSegment} (hseg : w.channel x = seg :: rest)
    (hempty : seg.lengthInSequenceSpace = 0) :
    ∃ w', w.step (.deliver x) = .ok w' ∧
      ∃ new, (w'.net.endpoint x.peer).conn.segmentsOut
          = (w.net.endpoint x.peer).conn.segmentsOut ++ new ∧
        ∀ out ∈ new, 0 < out.lengthInSequenceSpace := by
  obtain ⟨created, hx⟩ := inv_of_reach hr hshort x
  obtain ⟨created', hy⟩ := inv_of_reach hr hshort x.peer
  rw [Side.peer_peer] at hy
  obtain ⟨c, hc, hnew⟩ := hx.empty_segment hy.speaks (hshort x) hseg
    (hy.acknowledgment hx.speaks (mem_of_channel hseg)) hempty
  refine ⟨{ w.leave x with net := w.net.update x.peer { w.net.endpoint x.peer with conn := c } }, ?_, ?_⟩
  · rw [step, hseg]
    show ((((w.net.endpoint x.peer).conn.segmentReceived seg).map _).map _).map _ = _
    rw [hc]
    rfl
  · rw [Network.endpoint_update]
    exact hnew

/-- The acknowledgment that ends the handshake is on its way to `B`, which has a byte to send. -/
theorem no_ack_storm_handshake : ∃ w : FifoNetwork, Reach Start step allowed w ∧ w.net.Short ∧
    ∃ seg rest w', w.channel .A = seg :: rest ∧ seg.lengthInSequenceSpace = 0 ∧
      w.step (.deliver .A) = .ok w' ∧
      ∃ new, w'.net.b.conn.segmentsOut = w.net.b.conn.segmentsOut ++ new ∧
        ∀ out ∈ new, 0 < out.lengthInSequenceSpace := by
  obtain ⟨w, hr, htest⟩ : ∃ w, Reach Start step allowed w ∧
      (decide w.net.Short &&
        (w.channel .A).head?.any fun seg => decide (seg.lengthInSequenceSpace = 0)) = true :=
    Reach.exec_any _ (s := { net := Network.small })
      (l := [.own .A .connect, .deliver .A, .deliver .B, .own .B (.write [97])])
      (.start ⟨⟨_, _, _, _, rfl⟩, rfl, rfl⟩) (by decide +kernel)
  rw [Bool.and_eq_true, decide_eq_true_eq] at htest
  obtain ⟨hshort, hhead⟩ := htest
  cases hseg : w.channel .A with
  | nil =>
    rw [hseg] at hhead
    exact absurd hhead (by simp)
  | cons seg rest =>
    rw [hseg] at hhead
    have hempty : seg.lengthInSequenceSpace = 0 := by simpa using hhead
    obtain ⟨w', hs, hnew⟩ := no_ack_storm hr hshort .A hseg hempty
    exact ⟨w, hr, hshort, seg, rest, w', hseg, hempty, hs, hnew⟩

end FifoNetwork

end Sponge
