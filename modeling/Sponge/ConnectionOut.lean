/-
# `Sponge.ConnectionOut` — what a connection puts into `segments_out()`.

Whoever runs a connection takes its segments away and carries them to the peer.  Three facts make this harmless:

* the connection never looks at what is in `segments_out()`, so it does the same if nobody takes anything away
  (`step_queued`);
* what it puts there is small and has no options (`Compact`), so it can be written to any wire;
* the peer does not look at the ports and the checksum, which whoever carries the segments may write there
  (`segmentReceived_alike`).
-/
import Sponge.TcpState

namespace Sponge

open Sponge.Lib
open TCPConfig (MAX_PAYLOAD_SIZE)

/-! ## Ports and checksum -/

/-- `seg'` is `seg` but for the ports and the checksum. -/
def TCPSegment.Alike (seg seg' : TCPSegment) : Prop :=
  ∃ sport dport cksum, seg' = { seg with header := { seg.header with sport := sport, dport := dport, cksum := cksum } }

/-! ## Small segments -/

/-- No options, and a payload of at most `MAX_PAYLOAD_SIZE` bytes. -/
structure TCPSegment.Compact (seg : TCPSegment) : Prop where
  doff : seg.header.doff = 5
  payload : seg.payload.length ≤ MAX_PAYLOAD_SIZE

/-- All that the sender has put out, or would put out again, is compact. -/
def TCPSender.Compact (s : TCPSender) : Prop := ∀ seg, seg ∈ s.segmentsOut ∨ seg ∈ s.queued → seg.Compact

namespace TCPSender

variable {s s' : TCPSender}

theorem Compact.sendEmptySegment (h : Compact s) : Compact s.sendEmptySegment := by
  rintro seg (hseg | hseg)
  · rcases List.mem_append.mp hseg with hseg | hseg
    · exact h seg (Or.inl hseg)
    · rw [List.mem_singleton.mp hseg]
      exact ⟨rfl, Nat.zero_le _⟩
  · exact h seg (Or.inr hseg)

theorem Compact.fillWindow (h : Compact s) (ht : TCPConnection.Tracked s) (hs : s.fillWindow = .ok s') :
    Compact s' := by
  obtain ⟨created, hkept⟩ := ht
  rcases hkept.fillWindow_ok hs with ⟨-, rfl | ⟨-, rfl⟩⟩ | hf
  · exact h
  · exact h
  · have hnew : ∀ seg ∈ SenderRun.newSegments s s', seg.Compact := by
      intro seg hseg
      obtain ⟨k, f, p, rfl, hp⟩ := hf.batch.stamped seg hseg
      exact ⟨rfl, hp⟩
    generalize SenderRun.newSegments s s' = segs at hf hnew
    rw [hf.result]
    rintro seg (hseg | hseg)
    · rcases List.mem_append.mp hseg with hseg | hseg
      · exact h seg (Or.inl hseg)
      · exact hnew seg hseg
    · rw [enqueue_queued] at hseg
      rcases List.mem_append.mp hseg with hseg | hseg
      · exact h seg (Or.inr hseg)
      · exact hnew seg hseg

theorem Compact.popped {j : Nat} (h : Compact s) (hp : Popped s j s') : Compact s' := by
  rintro seg (hseg | hseg)
  · rw [hp.segmentsOut] at hseg
    exact h seg (Or.inl hseg)
  · rw [hp.queue] at hseg
    exact h seg (Or.inr (List.mem_of_mem_drop hseg))

theorem Compact.ticked (h : Compact s) (ht : Ticked s s') : Compact s' := by
  rintro seg (hseg | hseg)
  · rcases ht.segmentsOut with heq | ⟨front, hfront, heq⟩
    · rw [heq] at hseg
      exact h seg (Or.inl hseg)
    · rw [heq] at hseg
      rcases List.mem_append.mp hseg with hseg | hseg
      · exact h seg (Or.inl hseg)
      · rw [List.mem_singleton.mp hseg]
        exact h front (Or.inr hfront)
  · rw [ht.queue] at hseg
    exact h seg (Or.inr hseg)

end TCPSender

namespace TCPConnection

variable {c c' : TCPConnection} {seg seg' : TCPSegment} {segs : List TCPSegment} {call : Call}

/-- **Neither the ports nor the checksum of a segment matter.** -/
theorem segmentReceived_alike (h : seg.Alike seg') : c.segmentReceived seg' = c.segmentReceived seg := by
  obtain ⟨sport, dport, cksum, rfl⟩ := h
  rfl

/-- All that the connection has put out, or would put out again, is compact. -/
structure Compact (c : TCPConnection) : Prop where
  out : ∀ seg ∈ c.segmentsOut, seg.Compact
  sender : c.sender.Compact

theorem Compact.new (cfg : TCPConfig) (random : WrappingInt32) : Compact (new cfg random) :=
  ⟨List.forall_mem_nil _, fun _ h => h.elim (fun h => absurd h (List.not_mem_nil)) fun h => absurd h List.not_mem_nil⟩

/-- What the sender puts out is stamped and goes out. -/
theorem Compact.sendAckIfNeed (h : Compact c) : Compact c.sendAckIfNeed := by
  refine ⟨fun seg hseg => ?_, fun seg hseg => ?_⟩
  · rcases List.mem_append.mp hseg with hseg | hseg
    · exact h.out seg hseg
    · obtain ⟨g, hg, rfl⟩ := List.mem_map.mp hseg
      obtain ⟨hdoff, hpayload⟩ := h.sender g (Or.inl hg)
      refine ⟨?_, hpayload⟩
      unfold stampAck
      cases c.receiver.ackno with
      | some ackno => exact hdoff
      | none => exact hdoff
  · exact h.sender seg (Or.inr (hseg.resolve_left List.not_mem_nil))

/-- **All that a connection puts out is compact.** -/
theorem Compact.step (h : Compact c) (ht : Tracked c.sender) (hs : c.step call = .ok c') : Compact c' := by
  rcases step_cases hs with ⟨stream, s, href, hf, rfl⟩ | ⟨seg, -, hs⟩ | ⟨ms, -, rfl⟩ | ⟨len, -, rfl⟩ | ⟨-, rfl⟩
  · have hsender : ({ c.sender with stream := stream } : TCPSender).Compact := h.sender
    have hfilled := hsender.fillWindow (ht.withStream (refill_wf ht.wf href)) hf
    exact Compact.sendAckIfNeed ⟨h.out, hfilled⟩
  · rcases c.segmentReceived_cases seg with ⟨-, heq⟩ | ⟨-, -, heq⟩ | ⟨-, -, -, heq⟩
    · obtain rfl := Except.ok.inj (heq.symm.trans hs)
      exact ⟨h.out, h.sender⟩
    · obtain rfl := Except.ok.inj (heq.symm.trans hs)
      exact ⟨h.out, h.sender⟩
    · obtain ⟨r, -, hans⟩ := bind_ok.mp (heq.symm.trans hs)
      obtain ⟨s', ha, rfl⟩ := answer_ok hans
      obtain ⟨j, hp⟩ := c.acked_popped seg
      have hsender : s'.Compact := ha.keeps (h.sender.popped hp)
        (fun t ht' => (h.sender.popped hp).fillWindow (ht.acked seg) ht') fun t ht' => ht'.sendEmptySegment
      generalize c.acked seg = s₁
      exact Compact.sendAckIfNeed ⟨h.out, hsender⟩
  · rw [tick]
    split
    · refine ⟨fun seg hseg => ?_, fun seg hseg => h.sender seg (Or.inr (hseg.resolve_left List.not_mem_nil))⟩
      rcases List.mem_append.mp hseg with hseg | hseg
      · exact h.out seg hseg
      · rw [List.mem_singleton.mp hseg]
        exact ⟨rfl, Nat.zero_le _⟩
    · exact Compact.sendAckIfNeed ⟨h.out, h.sender.ticked (c.sender.tick_ticked ms)⟩
  · exact ⟨h.out, h.sender⟩
  · exact ⟨fun seg hseg => h.out seg (List.mem_of_mem_tail hseg), h.sender⟩

/-! ## The segments that nobody has taken -/

/-- A connection with more segments in front of its `segments_out()`. -/
def queued (c : TCPConnection) (segs : List TCPSegment) : TCPConnection :=
  { c with segmentsOut := segs ++ c.segmentsOut }

theorem sendAckIfNeed_queued (c : TCPConnection) (segs : List TCPSegment) :
    (c.queued segs).sendAckIfNeed = c.sendAckIfNeed.queued segs := by
  show ({ c with sender := _, segmentsOut := _ } : TCPConnection) = { c with sender := _, segmentsOut := _ }
  rw [queued, List.append_assoc]
  rfl

theorem answer_queued (c : TCPConnection) (seg : TCPSegment) (segs : List TCPSegment) :
    (c.queued segs).answer seg = (c.answer seg).map (queued · segs) := by
  unfold answer
  show (if c.keepAlive seg then _ else _) = _
  split
  · exact congrArg Except.ok (sendAckIfNeed_queued { c with sender := c.sender.sendEmptySegment } segs)
  · show Except.map _ (if c.sender.isSynReceived || seg.header.syn then c.sender.fillWindow else .ok c.sender) = _
    generalize (if c.sender.isSynReceived || seg.header.syn then c.sender.fillWindow else .ok c.sender) = filled
    cases filled with
    | error e => rfl
    | ok s => exact congrArg Except.ok (sendAckIfNeed_queued { c with sender := _ } segs)

theorem segmentReceived_queued (c : TCPConnection) (seg : TCPSegment) (segs : List TCPSegment) :
    (c.queued segs).segmentReceived seg = (c.segmentReceived seg).map (queued · segs) := by
  have hactive : (c.queued segs).active = c.active := rfl
  have hignored : (c.queued segs).ignored seg = c.ignored seg := rfl
  -- both take the same exit
  rcases c.segmentReceived_cases seg with ⟨hrst, heq⟩ | ⟨hrst, hout, heq⟩ | ⟨hrst, hact, hign, heq⟩
  · rcases (c.queued segs).segmentReceived_cases seg with ⟨-, heq'⟩ | ⟨hno, -⟩ | ⟨hno, -⟩
    · rw [heq, heq']
      rfl
    all_goals exact absurd (hrst.symm.trans hno) (by decide)
  · rcases (c.queued segs).segmentReceived_cases seg with ⟨hyes, -⟩ | ⟨-, -, heq'⟩ | ⟨-, hact, hign, -⟩
    · exact absurd (hyes.symm.trans hrst) (by decide)
    · rw [heq, heq']
      rfl
    · rw [hactive] at hact
      rw [hignored] at hign
      rw [hact, hign] at hout
      exact absurd hout (by simp)
  · rcases (c.queued segs).segmentReceived_cases seg with ⟨hyes, -⟩ | ⟨-, hout, -⟩ | ⟨-, -, -, heq'⟩
    · exact absurd (hyes.symm.trans hrst) (by decide)
    · rw [hactive, hignored, hact, hign] at hout
      exact absurd hout (by simp)
    · rw [heq, heq']
      show Except.bind (c.receiver.segmentReceived seg) _ = _
      cases c.receiver.segmentReceived seg with
      | error e => rfl
      | ok r => exact answer_queued (c.noted (c.acked seg) r) seg segs

theorem tick_queued (c : TCPConnection) (ms : Nat) (segs : List TCPSegment) :
    (c.queued segs).tick ms = (c.tick ms).queued segs := by
  unfold tick
  show (if c.sender.consecutiveRetransmissions ≥ TCPConfig.MAX_RETX_ATTEMPTS then _ else _) = _
  split
  · simp only [sendRstToPeer, setRst, queued, List.append_assoc]
  · rw [← sendAckIfNeed_queued]
    rfl

theorem write_queued {data : Bytes} {n : Nat} (hs : c.write data = .ok (n, c')) (segs : List TCPSegment) :
    (c.queued segs).write data = .ok (n, c'.queued segs) := by
  obtain ⟨s, hf, heq⟩ := map_ok.mp hs
  obtain ⟨rfl, rfl⟩ := Prod.mk.inj heq
  refine map_ok.mpr ⟨s, hf, ?_⟩
  rw [← sendAckIfNeed_queued]
  rfl

/-- **The connection does not look at `segments_out()`.** -/
theorem step_queued (hs : c.step call = .ok c') (hpop : call ≠ .pop) (segs : List TCPSegment) :
    (c.queued segs).step call = .ok (c'.queued segs) := by
  cases call with
  | connect =>
    obtain ⟨s, hf, rfl⟩ := map_ok.mp hs
    exact map_ok.mpr ⟨s, hf, sendAckIfNeed_queued { c with sender := s } segs⟩
  | write data =>
    obtain ⟨⟨n, c''⟩, hw, rfl⟩ := map_ok.mp hs
    exact map_ok.mpr ⟨_, write_queued hw segs, rfl⟩
  | endInputStream =>
    obtain ⟨s, hf, rfl⟩ := map_ok.mp hs
    exact map_ok.mpr ⟨s, hf, sendAckIfNeed_queued { c with sender := s } segs⟩
  | segmentReceived seg =>
    show (c.queued segs).segmentReceived seg = _
    rw [segmentReceived_queued, show c.segmentReceived seg = .ok c' from hs]
    rfl
  | tick ms =>
    obtain rfl := Except.ok.inj hs
    exact congrArg Except.ok (tick_queued c ms segs)
  | readInbound len =>
    obtain rfl := Except.ok.inj hs
    rfl
  | pop => exact absurd rfl hpop

/-! ## The outbound stream -/

theorem Tracked.fillWindow_inputEnded {s s' : TCPSender} (h : Tracked s) (hs : s.fillWindow = .ok s') :
    s'.stream.inputEnded = s.stream.inputEnded := by
  obtain ⟨created, hk⟩ := h
  rcases hk.fillWindow_ok hs with ⟨-, rfl | ⟨-, rfl⟩⟩ | hf
  · rfl
  · exact ByteStream.read_isInputEnd _ _
  · rw [hf.result]
    exact ByteStream.read_isInputEnd _ _

/-- Only `end_input_stream` ends the outbound stream. -/
theorem step_inputEnded (ht : Tracked c.sender) (hs : c.step call = .ok c') (hend : call ≠ .endInputStream) :
    c'.sender.stream.inputEnded = c.sender.stream.inputEnded := by
  rcases step_cases hs with ⟨stream, s, href, hf, rfl⟩ | ⟨seg, -, hs⟩ | ⟨ms, -, rfl⟩ | ⟨len, -, rfl⟩ | ⟨-, rfl⟩
  · refine ((ht.withStream (refill_wf ht.wf href)).fillWindow_inputEnded hf).trans ?_
    cases call with
    | connect => exact congrArg ByteStream.inputEnded (Option.some.inj href).symm
    | write data => exact Option.some.inj href ▸ ByteStream.write_isInputEnd _ _
    | endInputStream => exact absurd rfl hend
    | segmentReceived _ | tick _ | readInbound _ | pop => exact absurd href (by simp [refill])
  · rcases c.segmentReceived_cases seg with ⟨-, heq⟩ | ⟨-, -, heq⟩ | ⟨-, -, -, heq⟩
    · obtain rfl := Except.ok.inj (heq.symm.trans hs)
      rfl
    · obtain rfl := Except.ok.inj (heq.symm.trans hs)
      rfl
    · obtain ⟨r, -, hans⟩ := bind_ok.mp (heq.symm.trans hs)
      obtain ⟨s', ha, rfl⟩ := answer_ok hans
      obtain ⟨j, hp⟩ := c.acked_popped seg
      have hacked : (c.acked seg).stream.inputEnded = c.sender.stream.inputEnded := by rw [hp.stream]
      exact ha.keeps (P := fun s => s.stream.inputEnded = c.sender.stream.inputEnded) hacked
        (fun t ht' => ((ht.acked seg).fillWindow_inputEnded ht').trans hacked) fun _ ht' => ht'
  · rw [tick]
    split
    · rfl
    · exact congrArg ByteStream.inputEnded (c.sender.tick_ticked ms).stream
  · rfl
  · rfl

/-- What reads, the end of the input and a reset keep, every call but a write keeps of the outbound stream. -/
theorem step_outbound {P : ByteStream → Prop}
    (hread : ∀ o len, o.WF → len ≤ o.contents.length → P o → P (o.read len).1) (hend : ∀ o, P o → P o.endInput)
    (hreset : ∀ o, P o → P o.setError) (ht : Tracked c.sender) (hs : c.step call = .ok c')
    (hwrite : ∀ data, call ≠ .write data) (h : P c.sender.stream) : P c'.sender.stream := by
  have hfill : ∀ {s s' : TCPSender}, Tracked s → s.fillWindow = .ok s' → P s.stream → P s'.stream := by
    intro s s' ht hf hp
    obtain ⟨created, hk⟩ := ht
    have hle : s.readable ≤ s.stream.contents.length := Nat.min_le_right _ _
    rcases hk.fillWindow_ok hf with ⟨-, rfl | ⟨-, rfl⟩⟩ | hf
    · exact hp
    · exact hread _ _ hk.wf hle hp
    · rw [hf.result]
      exact hread _ _ hk.wf hle hp
  rcases step_cases hs with ⟨stream, s, href, hf, rfl⟩ | ⟨seg, -, hs⟩ | ⟨ms, -, rfl⟩ | ⟨len, -, rfl⟩ | ⟨-, rfl⟩
  · have hstream : P stream := by
      cases call with
      | connect => exact Option.some.inj href ▸ h
      | write data => exact absurd rfl (hwrite data)
      | endInputStream => exact Option.some.inj href ▸ hend _ h
      | segmentReceived _ | tick _ | readInbound _ | pop => exact absurd href (by simp [refill])
    show P s.stream
    exact hfill (ht.withStream (refill_wf ht.wf href)) hf hstream
  · rcases c.segmentReceived_cases seg with ⟨-, heq⟩ | ⟨-, -, heq⟩ | ⟨-, -, -, heq⟩
    · obtain rfl := Except.ok.inj (heq.symm.trans hs)
      exact hreset _ h
    · obtain rfl := Except.ok.inj (heq.symm.trans hs)
      exact h
    · obtain ⟨r, -, hans⟩ := bind_ok.mp (heq.symm.trans hs)
      obtain ⟨s', ha, rfl⟩ := answer_ok hans
      obtain ⟨j, hp⟩ := c.acked_popped seg
      have hacked : P (c.acked seg).stream := by
        rw [hp.stream]
        exact h
      exact ha.keeps (P := fun s => P s.stream) hacked (fun t ht' => hfill (ht.acked seg) ht' hacked) fun _ ht' => ht'
  · rw [tick]
    split
    · exact hreset _ h
    · show P (c.sender.tick ms).stream
      rw [(c.sender.tick_ticked ms).stream]
      exact h
  · exact h
  · exact h

/-! ## The inbound stream -/

/-- What the operations of a stream keep, a call keeps of the inbound stream. -/
theorem step_inbound {P : ByteStream → Prop} (hwrite : ∀ o data, P o → P (o.write data).2)
    (hend : ∀ o, P o → P o.endInput) (hread : ∀ o len, P o → P (o.read len).1) (hreset : ∀ o, P o → P o.setError)
    (hs : c.step call = .ok c') (h : P c.inboundStream) : P c'.inboundStream := by
  rcases step_cases hs with ⟨stream, s, href, hf, rfl⟩ | ⟨seg, -, hs⟩ | ⟨ms, -, rfl⟩ | ⟨len, -, rfl⟩ | ⟨-, rfl⟩
  · exact h
  · rcases c.segmentReceived_cases seg with ⟨-, heq⟩ | ⟨-, -, heq⟩ | ⟨-, -, -, heq⟩
    · obtain rfl := Except.ok.inj (heq.symm.trans hs)
      exact hreset _ h
    · obtain rfl := Except.ok.inj (heq.symm.trans hs)
      exact h
    · obtain ⟨r, hr, hans⟩ := bind_ok.mp (heq.symm.trans hs)
      obtain ⟨s', -, rfl⟩ := answer_ok hans
      exact (TCPReceiver.segmentReceived_keeps hwrite hend h hr).2
  · rw [tick]
    split
    · exact hreset _ h
    · exact h
  · exact hread _ len h
  · exact h

/-- Only segments and reads change the inbound stream, and a reset marks it. -/
theorem step_inbound_same (hs : c.step call = .ok c') (hseg : ∀ seg, call ≠ .segmentReceived seg)
    (hread : ∀ len, call ≠ .readInbound len) :
    c'.inboundStream = c.inboundStream ∨ c'.inboundStream = c.inboundStream.setError := by
  rcases step_cases hs with ⟨stream, s, href, hf, rfl⟩ | ⟨seg, hcall, -⟩ | ⟨ms, -, rfl⟩ | ⟨len, hcall, -⟩ | ⟨-, rfl⟩
  · exact Or.inl rfl
  · exact absurd hcall (hseg seg)
  · rw [tick]
    split
    · exact Or.inr rfl
    · exact Or.inl rfl
  · exact absurd hcall (hread len)
  · exact Or.inl rfl

theorem step_inbound_wf (hs : c.step call = .ok c') (h : c.inboundStream.WF) : c'.inboundStream.WF :=
  step_inbound (fun _ data ho => (ho.write data).1) (fun _ ho => ho.endInput) (fun _ len ho => (ho.read len).1)
    (fun _ ho => ho.setError) hs h

/-- A reset is for good. -/
theorem step_inbound_error (hs : c.step call = .ok c') (h : c.inboundStream.error = true) :
    c'.inboundStream.error = true :=
  step_inbound (P := fun o => o.error = true) (fun o data ho => (o.write_error data).trans ho) (fun _ ho => ho)
    (fun o len ho => (o.read_error len).trans ho) (fun _ _ => rfl) hs h

/-- A connection that has been reset has marked its inbound stream. -/
theorem step_reset (hs : c.step call = .ok c') (h : c.isRst = true → c.inboundStream.error = true)
    (hrst : c'.isRst = true) : c'.inboundStream.error = true := by
  by_cases hbefore : c.isRst = true
  · exact step_inbound_error hs (h hbefore)
  rcases step_cases hs with ⟨stream, s, -, -, rfl⟩ | ⟨seg, -, hs⟩ | ⟨ms, -, rfl⟩ | ⟨len, -, rfl⟩ | ⟨-, rfl⟩
  · exact absurd hrst hbefore
  · rcases c.segmentReceived_cases seg with ⟨-, heq⟩ | ⟨-, -, heq⟩ | ⟨-, -, -, heq⟩
    · obtain rfl := Except.ok.inj (heq.symm.trans hs)
      rfl
    · obtain rfl := Except.ok.inj (heq.symm.trans hs)
      exact absurd hrst hbefore
    · obtain ⟨r, -, hans⟩ := bind_ok.mp (heq.symm.trans hs)
      obtain ⟨s', -, rfl⟩ := answer_ok hans
      exact absurd hrst hbefore
  · rw [tick] at hrst ⊢
    split at hrst
    · rename_i hretries
      rw [if_pos hretries]
      rfl
    · exact absurd hrst hbefore
  · exact absurd hrst hbefore
  · exact absurd hrst hbefore

/-- The end of the stream is for good. -/
theorem step_inbound_ended (hs : c.step call = .ok c') (h : c.inboundStream.inputEnded = true) :
    c'.inboundStream.inputEnded = true :=
  step_inbound (P := fun o => o.inputEnded = true) (fun o data ho => (o.write_isInputEnd data).trans ho)
    (fun _ _ => rfl) (fun o len ho => (o.read_isInputEnd len).trans ho) (fun _ ho => ho) hs h

end TCPConnection

end Sponge
