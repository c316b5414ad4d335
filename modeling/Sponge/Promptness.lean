/-
# `Sponge.Promptness` — with nothing in flight there is nothing left to send.

A sender sends only when `fill_window` is called, so a stream could be left behind: bytes in the buffer, room in the
window, and nobody who calls.  Over channels that keep the order this does not happen (`Prompt`).  Every call of the
owner ends in `fill_window`, and so does every acknowledgment, since the one exit of `segment_received` that answers
without it, the keep-alive, is never taken there.

Two things the owner must do for it, and `TCPSpongeSocket` does them.  It opens the connection before it writes: a SYN
with the first byte in it would leave a gap at the receiver that nothing fills.  And it writes only while there is
room: a write on a full stream leaves an empty chunk, behind which `eof()` is never seen and the FIN is never sent.
-/
import Sponge.ReceiverProgress
import Sponge.SenderFill
import Sponge.NetworkRuns

namespace Sponge

open Sponge.Lib
open SenderRun (Wired)
open TCPConnection (Call)

/-! ## The sender -/

variable {s s' : TCPSender} {accepted : Bytes} {created created' : List TCPSegment}

/-- The window is open, and no chunk of the stream is empty. -/
structure TCPSender.Armed (s : TCPSender) : Prop where
  window : 1 ≤ s.windowSize
  dense : s.stream.Dense

/-- Once the connection is open, nothing in flight means nothing left to send, the FIN included. -/
structure TCPSender.Prompt (s : TCPSender) : Prop extends Armed s where
  spent : s.nextSeqno ≠ 0 → s.queued = [] →
    s.stream.contents = [] ∧ (s.stream.isInputEnd = true → s.isFinReceived = true)

namespace TCPSender

theorem Prompt.new (capacity : Nat) (retxTimeout : UInt16) (fixedIsn : Option WrappingInt32)
    (random : WrappingInt32) : Prompt (new capacity retxTimeout fixedIsn random) :=
  ⟨⟨Nat.le_refl 1, .new capacity⟩, fun hsent => absurd rfl hsent⟩

theorem Armed.fillWindow (h : Armed s) (hw : Wired s accepted created) (hs : s.fillWindow = .ok s') : Armed s' := by
  rcases hw.toSegmented.fillWindow_ok hs with ⟨-, rfl⟩ | hf
  · exact h
  · rw [hf.result]
    exact ⟨h.window, h.dense.read hw.wf _⟩

theorem Armed.ackReceived (h : Armed s) (ackno : WrappingInt32) (windowSize : UInt16) :
    Armed (s.ackReceived ackno windowSize) := by
  rcases s.ackReceived_cases ackno windowSize with ⟨-, heq⟩ | ⟨-, j, hp, hwin, -⟩
  · rw [heq]
    exact h
  · refine ⟨?_, by rw [hp.stream]; exact h.dense⟩
    rw [hwin]
    split
    · exact Nat.le_refl 1
    · rename_i hne
      exact Nat.pos_of_ne_zero fun hzero => hne (UInt16.toNat_inj.mp hzero)

theorem opened_iff (hw : Wired s accepted created) : s.nextSeqno ≠ 0 ↔ created ≠ [] := by
  rw [hw.next]
  constructor
  · rintro hne rfl
    exact hne rfl
  · intro hne hzero
    obtain ⟨g, rest, rfl⟩ := List.exists_cons_of_ne_nil hne
    have hpos := hw.occupied g List.mem_cons_self
    have hsum : space (g :: rest) = g.lengthInSequenceSpace + space rest := span_cons g rest
    omega

/-- Until the SYN is acknowledged it is in flight. -/
theorem Armed.waiting (h : Armed s) (hw : Wired s accepted created) (hsyn : s.isSynReceived = false) : Prompt s := by
  refine ⟨h, fun hsent hnone => absurd ?_ ((opened_iff hw).mp hsent)⟩
  rw [← hw.toKept.all_queued hsyn, hnone]

/-- An idle sender whose window is open and whose queue is empty has sent all of its stream. -/
theorem Armed.prompt (h : Armed s) (hw : Wired s accepted created) (hidle : s.idle) : Prompt s := by
  by_cases hsyn : s.isSynReceived = true
  · refine ⟨h, fun _ hnone => ?_⟩
    have hwindow := h.window
    have hflight : s.bytedInFlight = 0 := by
      rw [hw.inFlight, hnone]
      rfl
    rcases hw.toSegmented.idle_spent hidle hsyn with hfull | ⟨hempty, hfin⟩
    · omega
    · refine ⟨hempty, fun hend => ?_⟩
      have heof := (h.dense.eof_iff hw.wf).mpr ⟨hend, hempty⟩
      exact hw.finFlag.mpr ⟨hnone, hfin heof⟩
  · exact h.waiting hw (eq_false_of_ne_true hsyn)

theorem Armed.filled (h : Armed s) (hw : Wired s accepted created) (hs : s.fillWindow = .ok s') : Prompt s' :=
  (h.fillWindow hw hs).prompt (hw.fillWindow hs) (hw.toSegmented.fillWindow_idle hs)

theorem Prompt.ticked (h : Prompt s) (ht : Ticked s s') : Prompt s' := by
  refine ⟨⟨?_, ?_⟩, ?_⟩
  · rw [ht.window]
    exact h.window
  · rw [ht.stream]
    exact h.dense
  · rw [ht.nextSeqno, ht.queue, ht.stream, ht.fin]
    exact h.spent

end TCPSender

/-! ## One call -/

namespace TCPConnection

variable {c c' : TCPConnection} {seg : TCPSegment}

/-- What the sender does when the segment is no keep-alive. -/
theorem answer_filled (hka : c.keepAlive seg = false) (h : c.answer seg = .ok c') :
    ∃ t s', (c.sender.fillWindow = .ok t ∨ (c.sender.isSynReceived = false ∧ t = c.sender)) ∧
      (s' = t ∨ s' = t.sendEmptySegment) ∧ c' = { c with sender := s' }.sendAckIfNeed := by
  rw [answer, hka, if_neg Bool.false_ne_true] at h
  obtain ⟨t, ht, rfl⟩ := map_ok.mp h
  refine ⟨t, _, ?_, ?_, rfl⟩
  · split at ht
    · exact Or.inl ht
    · rename_i hsilent
      rw [Bool.or_eq_true, not_or] at hsilent
      exact Or.inr ⟨eq_false_of_ne_true hsilent.1, (Except.ok.inj ht).symm⟩
  · split
    · exact Or.inr rfl
    · exact Or.inl rfl

/-- **A segment** that is no keep-alive leaves a prompt sender. -/
theorem prompt_answered (h : c.sender.Armed) (hw : Wired c.sender accepted created)
    (hka : c.keepAlive seg = false) (hs : c.answer seg = .ok c') : c'.sender.Prompt := by
  obtain ⟨t, s', ht, hs', rfl⟩ := answer_filled hka hs
  have hprompt : t.Prompt := by
    rcases ht with ht | ⟨hsyn, rfl⟩
    · exact h.filled hw ht
    · exact h.waiting hw hsyn
  rcases hs' with rfl | rfl
  · exact ⟨⟨hprompt.window, hprompt.dense⟩, hprompt.spent⟩
  · exact ⟨⟨hprompt.window, hprompt.dense⟩, hprompt.spent⟩

theorem armed_acked (h : c.sender.Armed) (seg : TCPSegment) : (c.acked seg).Armed := by
  rw [acked]
  split
  · exact h.ackReceived _ _
  · exact h

/-- An error mark on the stream changes nothing of it. -/
theorem prompt_setRst (h : c.sender.Prompt) : c.setRst.sender.Prompt :=
  ⟨⟨h.window, h.dense⟩, h.spent⟩

theorem prompt_tick (h : c.sender.Prompt) (ms : Nat) : (c.tick ms).sender.Prompt := by
  rw [tick]
  split
  · exact prompt_setRst (c := { c with sender := { c.sender with segmentsOut := [] }, segmentsOut := _ })
      ⟨⟨h.window, h.dense⟩, h.spent⟩
  · have hticked := h.ticked (c.sender.tick_ticked ms)
    exact ⟨⟨hticked.window, hticked.dense⟩, hticked.spent⟩

end TCPConnection

variable {e e' : Endpoint} {call : Call}

/-- **One call keeps the sender prompt**, if a write has room and a segment is no keep-alive. -/
theorem Speaks.prompt (h : Speaks e created) (hprompt : e.conn.sender.Prompt)
    (hopen : ∀ data, call = .write data → e.conn.sender.stream.isInputEnd = false)
    (hroom : ∀ data, call = .write data → data ≠ [] → 0 < e.conn.remainingOutboundCapacity)
    (hack : ∀ seg, call = .segmentReceived seg → seg.header.ack = true → created ≠ [])
    (hka : ∀ seg r, call = .segmentReceived seg → e.conn.active = true → seg.header.rst = false →
      e.conn.receiver.segmentReceived seg = .ok r → ({ e.conn with receiver := r }).keepAlive seg = false)
    (hpop : call ≠ .pop) (hs : e.step call = .ok e') : e'.conn.sender.Prompt := by
  have hfilled : ∀ {stream : ByteStream} {accepted : Bytes} {t : TCPSender},
      Wired { e.conn.sender with stream := stream } accepted created → stream.Dense →
      ({ e.conn.sender with stream := stream }).fillWindow = .ok t →
      ({ e.conn with sender := t } : TCPConnection).sendAckIfNeed.sender.Prompt := by
    intro stream accepted t hw hdense ht
    have harmed : ({ e.conn.sender with stream := stream }).Armed := ⟨hprompt.window, hdense⟩
    have ht' := harmed.filled hw ht
    exact ⟨⟨ht'.window, ht'.dense⟩, ht'.spent⟩
  cases call with
  | connect =>
    obtain ⟨c, hc, rfl⟩ := map_ok.mp hs
    obtain ⟨t, ht, rfl⟩ := map_ok.mp hc
    exact hfilled h.wired hprompt.dense ht
  | write data =>
    obtain ⟨⟨n, c⟩, hc, rfl⟩ := map_ok.mp hs
    obtain ⟨t, ht, heq⟩ := map_ok.mp hc
    obtain ⟨rfl, rfl⟩ := Prod.mk.inj heq
    exact hfilled (h.wired.write (hopen data rfl) data) (hprompt.dense.write h.wired.wf (hroom data rfl)) ht
  | endInputStream =>
    obtain ⟨c, hc, rfl⟩ := map_ok.mp hs
    obtain ⟨t, ht, rfl⟩ := map_ok.mp hc
    exact hfilled h.wired.endInput hprompt.dense ht
  | segmentReceived seg =>
    obtain ⟨c, hc, rfl⟩ := map_ok.mp hs
    rcases e.conn.segmentReceived_cases seg with ⟨-, heq⟩ | ⟨-, -, heq⟩ | ⟨hrst, hact, -, heq⟩
    · obtain rfl := Except.ok.inj (heq.symm.trans hc)
      exact TCPConnection.prompt_setRst hprompt
    · obtain rfl := Except.ok.inj (heq.symm.trans hc)
      exact hprompt
    · obtain ⟨r, hr, hans⟩ := bind_ok.mp (heq.symm.trans hc)
      have hw := (acked_wired h.wired (hack seg rfl)).1
      have harmed := TCPConnection.armed_acked hprompt.toArmed seg
      have hno := hka seg r rfl hact hrst hr
      generalize e.conn.acked seg = s₁ at hans hw harmed
      exact TCPConnection.prompt_answered (c := e.conn.noted s₁ r) harmed hw hno hans
  | tick ms =>
    obtain rfl := Except.ok.inj hs
    exact TCPConnection.prompt_tick hprompt ms
  | readInbound len =>
    obtain rfl := Except.ok.inj hs
    exact hprompt
  | pop => exact absurd rfl hpop

/-! ## The opening -/

/-- The connection is opened before the stream is touched, and so by a bare SYN. -/
structure Opens (e : Endpoint) (created : List TCPSegment) : Prop where
  bare : OpenedBare created
  untouched : created = [] → e.accepted = [] ∧ e.conn.sender.stream.inputEnded = false

/-- The first segment that is created while the stream is untouched is a bare SYN. -/
theorem openedBare_of_untouched (hw : Wired s [] created) (hopen : s.stream.inputEnded = false) :
    OpenedBare created := by
  intro g hg
  have hnone := List.append_eq_nil_iff.mp hw.payload
  refine ⟨List.flatMap_eq_nil_iff.mp hnone.1 g (List.mem_of_getElem? hg), ?_⟩
  obtain ⟨rest, rfl⟩ : ∃ rest, created = g :: rest := by
    cases created with
    | nil => exact absurd hg (by simp)
    | cons first rest => exact ⟨rest, by rw [Option.some.inj hg]⟩
  cases rest with
  | cons second rest => exact hw.finLast g (by simp)
  | nil =>
    -- a FIN would say that the input has ended
    by_contra hfin
    have heof := hw.finDone (eq_true_of_ne_false hfin)
    exact absurd ((ByteStream.inputEnded_of_eof heof).symm.trans hopen) (by decide)

theorem Opens.step (h : Opens e created) (htracked : TCPConnection.Tracked e.conn.sender)
    (hspoke : Spoke e created call e' created')
    (hfirst : created = [] → (∀ data, call ≠ .write data) ∧ call ≠ .endInputStream)
    (hs : e.step call = .ok e') : Opens e' created' := by
  by_cases hnil : created = []
  · obtain ⟨haccepted, hopen⟩ := h.untouched hnil
    obtain ⟨hwrite, hend⟩ := hfirst hnil
    have haccepted' : e'.accepted = [] := (Endpoint.step_accepted hs hwrite).trans haccepted
    have hopen' : e'.conn.sender.stream.inputEnded = false :=
      (TCPConnection.step_inputEnded htracked (Endpoint.step_conn hs) hend).trans hopen
    have hw := hspoke.speaks.wired
    rw [haccepted'] at hw
    exact ⟨openedBare_of_untouched hw hopen', fun _ => ⟨haccepted', hopen'⟩⟩
  · obtain ⟨more, rfl⟩ := hspoke.creates
    refine ⟨fun g hg => h.bare g ?_, fun hnone => absurd (List.append_eq_nil_iff.mp hnone).1 hnil⟩
    rwa [List.getElem?_append_left (List.length_pos_of_ne_nil hnil)] at hg

/-! ## Both endpoints -/

/-- A segment that arrives in order is no keep-alive. -/
theorem Orderly.no_keepAlive {a b : Endpoint} {gone : Nat} (h : Orderly a created gone b)
    (hlen : a.accepted.length < 2 ^ 31) {seg : TCPSegment} {rest : List TCPSegment}
    (hseg : a.conn.segmentsOut.drop gone = seg :: rest) (hact : b.conn.active = true)
    (hrst : seg.header.rst = false) {r : TCPReceiver} (hr : b.conn.receiver.segmentReceived seg = .ok r) :
    ({ b.conn with receiver := r }).keepAlive seg = false := by
  obtain ⟨m, hfresh, hears, -⟩ := h.next hseg
  have hpre := List.take_prefix m created
  have hw := h.speaks.wired.earlier hpre
  have hshort := payloads_lt h.speaks.wired hlen hpre
  rcases hfresh with ⟨hno, -⟩ | ⟨k, g, hg, hcopy, -⟩ | ⟨hblank, hseq⟩
  · rw [hrst] at hno
    exact absurd hno (by decide)
  · -- the segments that are created are not empty
    have hpos := hw.occupied g (List.mem_of_getElem? hg)
    rw [← hcopy.length] at hpos
    rw [TCPConnection.keepAlive]
    split
    · rw [decide_eq_false (Nat.pos_iff_ne_zero.mp hpos), Bool.false_and]
    · rfl
  · obtain ⟨r', hr', hlistens⟩ := Listens.receiver (s := SenderRun.asOf a.conn.sender (created.take m)) hears hw hshort
      hact (Or.inr hblank) (fun hsyn => absurd (hblank.syn.symm.trans hsyn) (by decide))
    obtain rfl : r' = r := Except.ok.inj (hr'.symm.trans hr)
    have hears' : Hears a.conn.sender.isn (created.take m) { b with conn := { b.conn with receiver := r' } } :=
      hlistens _ rfl
    exact hears'.not_keepAlive hw hshort hseq

namespace FifoNetwork

/-- The owner opens the connection before it touches the stream, and writes only while there is room. -/
def prudent (w : FifoNetwork) : Call → Prop
  | .own x (.write data) => (w.net.endpoint x).conn.sender.nextSeqno ≠ 0 ∧
      (data ≠ [] → 0 < (w.net.endpoint x).conn.remainingOutboundCapacity)
  | .own x .endInputStream => (w.net.endpoint x).conn.sender.nextSeqno ≠ 0
  | _ => True

instance (w : FifoNetwork) : (call : Call) → Decidable (w.prudent call)
  | .own x (.write data) =>
    have hopened : Decidable ((w.net.endpoint x).conn.sender.nextSeqno = 0) := Nat.decEq _ _
    have hempty : Decidable (data = []) := instDecidableEqList data []
    have hroom : Decidable (0 < (w.net.endpoint x).conn.remainingOutboundCapacity) := Nat.decLt _ _
    @instDecidableAnd _ _ (@instDecidableNot _ hopened) (@instDecidableForall _ _ (@instDecidableNot _ hempty) hroom)
  | .own x .endInputStream =>
    have hopened : Decidable ((w.net.endpoint x).conn.sender.nextSeqno = 0) := Nat.decEq _ _
    @instDecidableNot _ hopened
  | .own _ .connect | .own _ (.segmentReceived _) | .own _ (.tick _) | .own _ (.readInbound _) | .own _ .pop
  | .deliver _ | .lose _ => isTrue trivial

/-- What holds of the endpoint `x` and of the channel from it. -/
structure Ready (w : FifoNetwork) (x : Side) (created : List TCPSegment) : Prop where
  orderly : Orderly (w.net.endpoint x) created (w.gone x) (w.net.endpoint x.peer)
  opens : Opens (w.net.endpoint x) created
  prompt : (w.net.endpoint x).conn.sender.Prompt
  within : w.gone x ≤ (w.net.endpoint x).conn.segmentsOut.length

theorem Start.ready {w : FifoNetwork} (h : Start w) (x : Side) : ∃ created, Ready w x created := by
  have hnew : ∀ (cfg cfg' : TCPConfig) (random random' : WrappingInt32),
      Orderly { conn := .new cfg random } [] 0 { conn := .new cfg' random' } ∧
      Opens { conn := .new cfg random } [] ∧ (TCPConnection.new cfg random).sender.Prompt := fun cfg cfg' random _ =>
    ⟨⟨Speaks.new cfg random, 0, Reads.new, Or.inl (Unheard.new cfg' _)⟩, ⟨by simp [OpenedBare], fun _ => ⟨rfl, rfl⟩⟩,
      TCPSender.Prompt.new _ _ _ _⟩
  obtain ⟨net, goneA, goneB⟩ := w
  obtain ⟨⟨cfg, random, cfg', random', rfl⟩, rfl, rfl⟩ := h
  cases x with
  | A =>
    obtain ⟨horderly, hopens, hprompt⟩ := hnew cfg cfg' random random'
    exact ⟨[], horderly, hopens, hprompt, Nat.zero_le _⟩
  | B =>
    obtain ⟨horderly, hopens, hprompt⟩ := hnew cfg' cfg random' random
    exact ⟨[], horderly, hopens, hprompt, Nat.zero_le _⟩

/-- What `x` may be called with: what its owner may do, and what the channel delivers. -/
structure Permitted (w : FifoNetwork) (x : Side) (own : TCPConnection.Call) : Prop where
  segment : ∀ seg, own = .segmentReceived seg → ∃ rest, w.channel x.peer = seg :: rest
  unended : ∀ data, own = .write data → (w.net.endpoint x).conn.sender.stream.isInputEnd = false
  room : ∀ data, own = .write data → data ≠ [] → 0 < (w.net.endpoint x).conn.remainingOutboundCapacity
  connected : (w.net.endpoint x).conn.sender.nextSeqno = 0 → (∀ data, own ≠ .write data) ∧ own ≠ .endInputStream
  keeps : own ≠ .pop

theorem Permitted.owner {w : FifoNetwork} {x : Side} {own : TCPConnection.Call}
    (hok : w.allowed (.own x own) ∧ w.prudent (.own x own)) : Permitted w x own where
  segment := by
    rintro seg rfl
    exact hok.1.elim
  unended := by
    rintro data rfl
    exact hok.1
  room := by
    rintro data rfl
    exact hok.2.2
  connected := by
    intro hclosed
    refine ⟨?_, ?_⟩
    · rintro data rfl
      exact hok.2.1 hclosed
    · rintro rfl
      exact hok.2 hclosed
  keeps := by
    rintro rfl
    exact hok.1

theorem Permitted.delivery {w : FifoNetwork} {x : Side} {seg : TCPSegment} {rest : List TCPSegment}
    (hch : w.channel x.peer = seg :: rest) : Permitted w x (.segmentReceived seg) where
  segment := by
    rintro seg' heq
    obtain rfl := TCPConnection.Call.segmentReceived.inj heq
    exact ⟨rest, hch⟩
  unended := by simp
  room := by simp
  connected := by simp
  keeps := by simp

/-- **A call of `x`**, its owner's or a delivery. -/
theorem Ready.update {w w' : FifoNetwork} {x : Side} {e : Endpoint} {own : TCPConnection.Call}
    (hx : Ready w x created) (hy : Ready w x.peer created') (hshort : w.net.Short)
    (hs : (w.net.endpoint x).step own = .ok e) (hnet : w'.net = w.net.update x e) (hgone : w'.gone x = w.gone x)
    (hcall : Permitted w x own) (hpeer : Orderly (w.net.endpoint x.peer) created' (w'.gone x.peer) e)
    (hwithin : w'.gone x.peer ≤ (w.net.endpoint x.peer).conn.segmentsOut.length) :
    ∀ z, ∃ created, Ready w' z created := by
  have hspeaks := hx.orderly.speaks
  have hnext := hspeaks.wired.next_le
  have hlen := hshort x
  have hfirst : created = [] → (∀ data, own ≠ .write data) ∧ own ≠ .endInputStream := by
    intro hnil
    apply hcall.connected
    by_contra hsent
    exact (TCPSender.opened_iff hspeaks.wired).mp hsent hnil
  have hrecv := hy.orderly
  rw [Side.peer_peer] at hrecv
  have hack : ∀ seg, own = .segmentReceived seg → seg.header.ack = true → created ≠ [] := by
    intro seg hseg
    obtain ⟨rest, hch⟩ := hcall.segment seg hseg
    exact hx.orderly.acknowledgment hrecv.speaks (mem_of_channel hch)
  obtain ⟨after, hspoke⟩ := hspeaks.step (by omega) hcall.unended hack hcall.keeps hs
  intro z
  rcases x.eq_or_peer z with rfl | rfl
  · refine ⟨after, ?_, ?_, ?_, ?_⟩
    · rw [hnet, Network.endpoint_update, Network.endpoint_update_peer, hgone]
      exact hx.orderly.send hspoke
    · rw [hnet, Network.endpoint_update]
      exact hx.opens.step ⟨_, hspeaks.wired.toKept⟩ hspoke hfirst hs
    · rw [hnet, Network.endpoint_update]
      refine hspeaks.prompt hx.prompt hcall.unended hcall.room hack ?_ hcall.keeps hs
      intro seg r hseg hact hrst hr
      obtain ⟨rest, hch⟩ := hcall.segment seg hseg
      exact hrecv.no_keepAlive (hshort z.peer) hch hact hrst hr
    · obtain ⟨new, hout, -⟩ := hspoke.sends
      rw [hnet, Network.endpoint_update, hgone, hout, List.length_append]
      exact Nat.le_trans hx.within (Nat.le_add_right _ _)
  · refine ⟨created', ?_, ?_, ?_, ?_⟩
    · rw [hnet, Network.endpoint_update_peer, Side.peer_peer, Network.endpoint_update]
      exact hpeer
    · rw [hnet, Network.endpoint_update_peer]
      exact hy.opens
    · rw [hnet, Network.endpoint_update_peer]
      exact hy.prompt
    · rw [hnet, Network.endpoint_update_peer]
      exact hwithin

/-- The oldest segment leaves the channel, and there is one. -/
theorem gone_lt_of_channel {w : FifoNetwork} {x : Side} {seg : TCPSegment} {rest : List TCPSegment}
    (h : w.channel x = seg :: rest) : w.gone x + 1 ≤ (w.net.endpoint x).conn.segmentsOut.length := by
  have hne : (w.net.endpoint x).conn.segmentsOut.drop (w.gone x) ≠ [] := by
    rw [← channel, h]
    exact List.cons_ne_nil _ _
  exact Nat.lt_of_not_le fun hle => hne (List.drop_eq_nil_of_le hle)

/-- A segment is lost. -/
theorem Ready.leave {w : FifoNetwork} {x z : Side} {seg : TCPSegment} {rest : List TCPSegment}
    (h : Ready w z created) (hch : w.channel x = seg :: rest) : Ready (w.leave x) z created := by
  rcases x.eq_or_peer z with rfl | rfl
  · refine ⟨?_, ?_, ?_, ?_⟩
    · rw [leave_net, gone_leave]
      exact h.orderly.lose
    · rw [leave_net]
      exact h.opens
    · rw [leave_net]
      exact h.prompt
    · rw [leave_net, gone_leave]
      exact gone_lt_of_channel hch
  · refine ⟨?_, ?_, ?_, ?_⟩
    · rw [leave_net, gone_leave_peer]
      exact h.orderly
    · rw [leave_net]
      exact h.opens
    · rw [leave_net]
      exact h.prompt
    · rw [leave_net, gone_leave_peer]
      exact h.within

theorem gone_withNet (w : FifoNetwork) (net : Network) (x : Side) : ({ w with net := net }).gone x = w.gone x := by
  cases x <;> rfl

/-- **One step keeps both endpoints ready.** -/
theorem ready_step {w w' : FifoNetwork} {call : Call} (h : ∀ z, ∃ created, Ready w z created)
    (hshort : w.net.Short) (hok : w.allowed call ∧ w.prudent call) (hs : w.step call = .ok w') :
    ∀ z, ∃ created, Ready w' z created := by
  cases call with
  | own x own =>
    obtain ⟨net, hnet, rfl⟩ := map_ok.mp hs
    obtain ⟨e, he, rfl⟩ := map_ok.mp hnet
    obtain ⟨created, hx⟩ := h x
    obtain ⟨created', hy⟩ := h x.peer
    have hrecv := hy.orderly
    rw [Side.peer_peer] at hrecv
    refine hx.update hy hshort he rfl (gone_withNet w _ x) (.owner hok) ?_ ?_
    · rw [gone_withNet]
      refine hrecv.receive (hshort x.peer) ?_ he
      rintro seg rfl
      exact hok.1
    · rw [gone_withNet]
      exact hy.within
  | deliver x =>
    rw [step] at hs
    split at hs
    · obtain rfl := Except.ok.inj hs
      exact h
    · rename_i seg rest hch
      obtain ⟨net, hnet, rfl⟩ := map_ok.mp hs
      obtain ⟨e, he, rfl⟩ := map_ok.mp hnet
      obtain ⟨created, hx⟩ := h x
      obtain ⟨created', hy⟩ := h x.peer
      have hback : Ready w x.peer.peer created := by
        rw [Side.peer_peer]
        exact hx
      have harrives : w.channel x.peer.peer = seg :: rest := by
        rw [Side.peer_peer]
        exact hch
      refine hy.update hback hshort he rfl ?_ (.delivery harrives) ?_ ?_
      · rw [gone_withNet, gone_leave_peer]
      · rw [Side.peer_peer, gone_withNet, gone_leave]
        exact hx.orderly.deliver (hshort x) hch he
      · rw [Side.peer_peer, gone_withNet, gone_leave]
        exact gone_lt_of_channel hch
  | lose x =>
    rw [step] at hs
    split at hs
    · obtain rfl := Except.ok.inj hs
      exact h
    · rename_i seg rest hch
      obtain rfl := Except.ok.inj hs
      intro z
      obtain ⟨created, hz⟩ := h z
      exact ⟨created, hz.leave hch⟩

theorem ready_of_reach {w : FifoNetwork}
    (hr : Reach Start step (fun w call => w.allowed call ∧ w.prudent call) w) (hshort : w.net.Short) (x : Side) :
    ∃ created, Ready w x created := by
  refine Reach.invariant (P := fun w : FifoNetwork => w.net.Short → ∀ x, ∃ created, Ready w x created)
    (fun _ hstart _ => hstart.ready) ?_ hr hshort x
  intro w call w' ih hok hs hshort
  have hbefore := short_before hs hshort
  exact ready_step (ih hbefore) hbefore hok hs

end FifoNetwork

end Sponge
