/-
# `Sponge.StreamCopyRuns` — the loop of the program that copies both ways.

The four rules of `bidirectional_stream_copy` are sound in the sense of `Sponge.EventLoop`, whatever the kernel does and
whoever hangs up: that a rule has been cancelled is a mark on the state, and what a rule has noted of its interest is
still true when its callback runs.

Each way, what has been written is a prefix of what has been read, the rest is in the buffer, and the end of the one is
told to the other once, after everything, with nothing to follow (`copies_in_order`).  A loop that stops by itself has
copied everything (`copies_everything`).
-/
import Sponge.StreamCopy

namespace Sponge

open Sponge.Lib

namespace StreamCopy

/-! ## The rules are sound -/

section Sound

variable {s s' : StreamCopy} {t : CopyTurn}

/-- **The reading rule of a way goes**, and nothing more will be read. -/
theorem Inv.endReading (h : Inv s) :
    Inv (s.endOutbound .input .pollIn) ∧ Inv (s.endInbound .socket .pollIn) := by
  have hout := h.outward.endReading
  have hin := h.inward.endReading
  refine ⟨⟨?_, ?_, h.shutdowns, h.closes, h.inputOpen, h.socketOpen, h.outputClosed⟩,
    ⟨?_, ?_, h.shutdowns, h.closes, h.inputOpen, h.socketOpen, h.outputClosed⟩⟩
  · simpa [gone, endOutbound] using hout
  · simpa [gone, endOutbound] using h.inward
  · simpa [gone, endInbound] using h.outward
  · simpa [gone, endInbound] using hin

/-- **The writing rule of a way goes**, and the end of its stream says nothing any more. -/
theorem Inv.endWriting (h : Inv s) :
    Inv (s.endOutbound .socket .pollOut) ∧ Inv (s.endInbound .output .pollOut) := by
  have hout := h.outward.endWriting
  have hin := h.inward.endWriting
  refine ⟨⟨?_, ?_, h.shutdowns, h.closes, h.inputOpen, h.socketOpen, h.outputClosed⟩,
    ⟨?_, ?_, h.shutdowns, h.closes, h.inputOpen, h.socketOpen, h.outputClosed⟩⟩
  · simpa [gone, endOutbound] using hout
  · simpa [gone, endOutbound] using h.inward
  · simpa [gone, endInbound] using h.outward
  · simpa [gone, endInbound] using hin

/-- Whether a rule is there. -/
def Marked (rule : Rule (StreamCopy × CopyTurn) Fd) (live : Bool) (s : StreamCopy × CopyTurn) : Prop :=
  s.1.gone rule.fd rule.direction = !live

/-- What a rule notes: its interest, and that its file has not ended. -/
def Noted (rule : Rule (StreamCopy × CopyTurn) Fd) (interested : Bool) (s : StreamCopy × CopyTurn) : Prop :=
  rule.interest s = interested ∧ (rule.direction = .pollIn → (fds s rule.fd).eof = false)

theorem forall_rules {p : Rule (StreamCopy × CopyTurn) Fd → Prop} (h1 : p rule1) (h2 : p rule2) (h3 : p rule3)
    (h4 : p rule4) : ∀ rule ∈ rules, p rule := by
  intro rule hrule
  simp only [rules, List.mem_cons, List.not_mem_nil, or_false] at hrule
  rcases hrule with rfl | rfl | rfl | rfl
  · exact h1
  · exact h2
  · exact h3
  · exact h4

/-- **A callback that a rule has been waiting for** keeps the invariant, and uses its descriptor. -/
theorem callback_ends : ∀ rule ∈ rules, ∀ s : StreamCopy × CopyTurn, Inv s.1 → Marked rule true s →
    Noted rule true s → Ends (rule.callback s) (fun s' => Inv s'.1 ∧
      EventLoop.serviceCount fds rule s < EventLoop.serviceCount fds rule s') SystemError := by
  apply forall_rules
  · intro s h hlive hnoted
    exact (h.readInput (hnoted.2 rfl) hlive).map fun s' hs' => ⟨hs'.1, Nat.lt_of_succ_le (Nat.le_of_eq hs'.2.1.symm)⟩
  · intro s h hlive hnoted
    exact (h.writeSocket hnoted.1 hlive).map fun s' hs' => hs'
  · intro s h hlive hnoted
    exact (h.readSocket (hnoted.2 rfl) hlive).map fun s' hs' => ⟨hs'.1, Nat.lt_of_succ_le (Nat.le_of_eq hs'.2.1.symm)⟩
  · intro s h hlive hnoted
    exact (h.writeOutput hnoted.1 hlive).map fun s' hs' => hs'

theorem cancel_ends : ∀ rule ∈ rules, ∀ s : StreamCopy × CopyTurn, Inv s.1 → ∃ s', rule.cancel s = .ok s' ∧
    Inv s'.1 ∧ s'.1.cancelled = (rule.fd, rule.direction) :: s.1.cancelled := by
  apply forall_rules
  · exact fun s h => ⟨_, rfl, h.endReading.1, rfl⟩
  · exact fun s h => ⟨_, rfl, h.endWriting.1, rfl⟩
  · exact fun s h => ⟨_, rfl, h.endReading.2, rfl⟩
  · exact fun s h => ⟨_, rfl, h.endWriting.2, rfl⟩

theorem callback_cancelled : ∀ rule ∈ rules, ∀ s s' : StreamCopy × CopyTurn, rule.callback s = .ok s' →
    s'.1.cancelled = s.1.cancelled := by
  apply forall_rules
  · intro s s' hs
    obtain ⟨s₁, hread, rfl⟩ := map_ok.mp hs
    obtain ⟨_, _, _, -, rfl⟩ := readInput_ok hread
    rfl
  · intro s s' hs
    obtain ⟨s₁, hwrite, rfl⟩ := map_ok.mp hs
    obtain ⟨_, _, _, -, rfl⟩ := writeSocket_ok hwrite
    rfl
  · intro s s' hs
    obtain ⟨s₁, hread, rfl⟩ := map_ok.mp hs
    obtain ⟨_, _, _, -, rfl⟩ := readSocket_ok hread
    rfl
  · intro s s' hs
    obtain ⟨s₁, hwrite, rfl⟩ := map_ok.mp hs
    obtain ⟨_, _, _, -, rfl⟩ := writeOutput_ok hwrite
    rfl

/-- Every rule leaves the marks of the others alone. -/
theorem leaves {r r' : Rule (StreamCopy × CopyTurn) Fd} (hr : r ∈ rules)
    (hne : (r'.fd, r'.direction) ≠ (r.fd, r.direction)) :
    EventLoop.Leaves (fun s => Inv s.1) Marked Noted r r' := by
  rintro s s' b ⟨h, -, hran⟩ hmark
  have hsame : s'.1.gone r'.fd r'.direction = s.1.gone r'.fd r'.direction := by
    rcases hran with ⟨-, hs⟩ | hs
    · rw [gone, gone, callback_cancelled r hr s s' hs]
    · obtain ⟨s₁, hs₁, -, hcancelled⟩ := cancel_ends r hr s h
      obtain rfl := Except.ok.inj (hs₁.symm.trans hs)
      rw [gone, gone, hcancelled]
      exact decide_eq_decide.mpr ⟨fun hmem => (List.mem_cons.mp hmem).resolve_left hne, List.mem_cons_of_mem _⟩
  exact hsame.trans hmark

/-- Every rule keeps the invariant, whichever of its functions it runs. -/
theorem does_inv {rule : Rule (StreamCopy × CopyTurn) Fd} (hrule : rule ∈ rules) {s s' : StreamCopy × CopyTurn}
    (hdoes : EventLoop.Does (fun s => Inv s.1) Marked Noted rule s s') : Inv s'.1 := by
  obtain ⟨h, hlive, ⟨hnoted, hs⟩ | hs⟩ := hdoes
  · exact ((callback_ends rule hrule s h hlive hnoted).ok hs).1
  · obtain ⟨s₁, hs₁, hinv, -⟩ := cancel_ends rule hrule s h
    obtain rfl := Except.ok.inj (hs₁.symm.trans hs)
    exact hinv

/-- As no stream has an error, a reading rule is interested as long as there is room. -/
theorem Inv.wants_iff (h : Inv s) :
    (wants s.outbound s.inbound = true ↔ s.outbound.remainingCapacity > 0) ∧
    (wants s.inbound s.outbound = true ↔ s.inbound.remainingCapacity > 0) := by
  rw [wants, wants, h.outward.clean, h.inward.clean]
  simp

theorem apart {r r' : Rule (StreamCopy × CopyTurn) Fd} (hr : r ∈ rules) (hr' : r' ∈ rules)
    (hne : (r'.fd, r'.direction) ≠ (r.fd, r.direction))
    (hnoted : ∀ s s', EventLoop.Does (fun s => Inv s.1) Marked Noted r s s' → Noted r' true s → Noted r' true s')
    (hcancel : ∀ s s', r'.cancel s = .ok s' →
      r.interest s' = r.interest s ∧ (fds s' r.fd).eof = (fds s r.fd).eof) :
    EventLoop.Apart (fun s => Inv s.1) Marked Noted r r' := by
  refine ⟨hnoted, fun s s' b _ hs hb => ?_, leaves hr hne, leaves hr' hne.symm⟩
  obtain ⟨hinterest, heof⟩ := hcancel s s' hs
  exact ⟨hinterest.trans hb.1, fun hin => heof.trans (hb.2 hin)⟩

theorem mem_rules : rule1 ∈ rules ∧ rule2 ∈ rules ∧ rule3 ∈ rules ∧ rule4 ∈ rules := by
  simp [rules]

/-- What rule 1 does leaves something to do for rule 2. -/
theorem apart_rule1_rule2 : EventLoop.Apart (fun s => Inv s.1) Marked Noted rule1 rule2 := by
  apply apart mem_rules.1 mem_rules.2.1 (by decide)
  · rintro s s' ⟨h, hlive, ⟨hnoted, hs⟩ | hs⟩ hhas
    · obtain ⟨s₁, hread, rfl⟩ := map_ok.mp hs
      obtain ⟨-, -, hstill⟩ := (h.readInput (hnoted.2 rfl) hlive).ok hread
      exact ⟨hstill hhas.1, fun hin => absurd hin (by decide)⟩
    · obtain rfl := Except.ok.inj hs
      refine ⟨h.endReading.1.outward.has_iff.mpr ?_, fun hin => absurd hin (by decide)⟩
      exact (h.outward.has_iff.mp hhas.1).imp_right fun hend => ⟨rfl, hend.2⟩
  · rintro s s' hs
    obtain rfl := Except.ok.inj hs
    exact ⟨rfl, rfl⟩

/-- What rule 3 does leaves something to do for rule 4. -/
theorem apart_rule3_rule4 : EventLoop.Apart (fun s => Inv s.1) Marked Noted rule3 rule4 := by
  apply apart mem_rules.2.2.1 mem_rules.2.2.2 (by decide)
  · rintro s s' ⟨h, hlive, ⟨hnoted, hs⟩ | hs⟩ hhas
    · obtain ⟨s₁, hread, rfl⟩ := map_ok.mp hs
      obtain ⟨-, -, hstill⟩ := (h.readSocket (hnoted.2 rfl) hlive).ok hread
      exact ⟨hstill hhas.1, fun hin => absurd hin (by decide)⟩
    · obtain rfl := Except.ok.inj hs
      refine ⟨h.endReading.2.inward.has_iff.mpr ?_, fun hin => absurd hin (by decide)⟩
      exact (h.inward.has_iff.mp hhas.1).imp_right fun hend => ⟨rfl, hend.2⟩
  · rintro s s' hs
    obtain rfl := Except.ok.inj hs
    exact ⟨rfl, rfl⟩

/-- What belongs to the way out. -/
def outwardState (s : StreamCopy) : ByteStream × Bool × Bytes × Bytes × Nat :=
  (s.outbound, s.outboundShutdown, s.fromInput, s.toSocket, s.shutdowns)

/-- What belongs to the way in. -/
def inwardState (s : StreamCopy) : ByteStream × Bool × Bytes × Bytes × Nat :=
  (s.inbound, s.inboundShutdown, s.fromSocket, s.toOutput, s.closes)

/-- **Frame of the way out.** -/
theorem does_outward {rule : Rule (StreamCopy × CopyTurn) Fd} (hrule : rule = rule1 ∨ rule = rule2)
    {s s' : StreamCopy × CopyTurn} (hdoes : EventLoop.Does (fun s => Inv s.1) Marked Noted rule s s') :
    s'.1.inwardState = s.1.inwardState ∧ s'.1.socket.eof = s.1.socket.eof ∧
      s'.1.socket.readCount = s.1.socket.readCount := by
  obtain ⟨h, -, hran⟩ := hdoes
  rcases hrule with rfl | rfl
  · rcases hran with ⟨-, hs⟩ | hs
    · obtain ⟨s₁, hread, rfl⟩ := map_ok.mp hs
      obtain ⟨_, _, _, -, rfl⟩ := readInput_ok hread
      exact ⟨rfl, rfl, rfl⟩
    · obtain rfl := Except.ok.inj hs
      exact ⟨rfl, rfl, rfl⟩
  · rcases hran with ⟨-, hs⟩ | hs
    · obtain ⟨s₁, hwrite, rfl⟩ := map_ok.mp hs
      obtain ⟨_, _, _, hdrain, rfl⟩ := writeSocket_ok hwrite
      obtain ⟨-, heof, -, hreads, -⟩ := (h.outward.drain _).ok hdrain
      exact ⟨rfl, heof, hreads⟩
    · obtain rfl := Except.ok.inj hs
      exact ⟨rfl, rfl, rfl⟩

/-- **Frame of the way in.** -/
theorem does_inward {rule : Rule (StreamCopy × CopyTurn) Fd} (hrule : rule = rule3 ∨ rule = rule4)
    {s s' : StreamCopy × CopyTurn} (hdoes : EventLoop.Does (fun s => Inv s.1) Marked Noted rule s s') :
    s'.1.outwardState = s.1.outwardState := by
  obtain ⟨-, -, hran⟩ := hdoes
  rcases hrule with rfl | rfl
  · rcases hran with ⟨-, hs⟩ | hs
    · obtain ⟨s₁, hread, rfl⟩ := map_ok.mp hs
      obtain ⟨_, _, _, -, rfl⟩ := readSocket_ok hread
      rfl
    · obtain rfl := Except.ok.inj hs
      rfl
  · rcases hran with ⟨-, hs⟩ | hs
    · obtain ⟨s₁, hwrite, rfl⟩ := map_ok.mp hs
      obtain ⟨_, _, _, -, rfl⟩ := writeOutput_ok hwrite
      rfl
    · obtain rfl := Except.ok.inj hs
      rfl

/-- The rules of the way out do not disturb those of the way in. -/
theorem apart_ways {r r' : Rule (StreamCopy × CopyTurn) Fd} (hr : r = rule1 ∨ r = rule2)
    (hr' : r' = rule3 ∨ r' = rule4) :
    EventLoop.Apart (fun s => Inv s.1) Marked Noted r r' := by
  have hmem : r ∈ rules := by
    rcases hr with rfl | rfl
    · exact mem_rules.1
    · exact mem_rules.2.1
  have hmem' : r' ∈ rules := by
    rcases hr' with rfl | rfl
    · exact mem_rules.2.2.1
    · exact mem_rules.2.2.2
  apply apart hmem hmem'
  · rcases hr with rfl | rfl <;> rcases hr' with rfl | rfl <;> decide
  · intro s s' hdoes hnoted
    obtain ⟨hstate, heof, -⟩ := does_outward hr hdoes
    have hin : s'.1.inbound = s.1.inbound := congrArg Prod.fst hstate
    have hshut : s'.1.inboundShutdown = s.1.inboundShutdown := congrArg (fun p => p.2.1) hstate
    rcases hr' with rfl | rfl
    · -- rule 3 looks at the other stream for an error only
      refine ⟨(does_inv hmem hdoes).wants_iff.2.mpr ?_, fun hpoll => heof.trans (hnoted.2 hpoll)⟩
      rw [hin]
      exact hdoes.inv.wants_iff.2.mp hnoted.1
    · refine ⟨?_, fun hpoll => absurd hpoll (by decide)⟩
      show has s'.1.inbound s'.1.inboundShutdown = true
      rw [hin, hshut]
      exact hnoted.1
  · intro s s' hs
    rcases hr' with rfl | rfl
    · obtain rfl := Except.ok.inj hs
      rcases hr with rfl | rfl
      · exact ⟨rfl, rfl⟩
      · exact ⟨rfl, rfl⟩
    · obtain rfl := Except.ok.inj hs
      rcases hr with rfl | rfl
      · exact ⟨rfl, rfl⟩
      · exact ⟨rfl, rfl⟩

/-- **The rules of the copy are sound**, whatever the kernel does and whoever hangs up. -/
theorem sound : EventLoop.Sound fds (fun s => Inv s.1) Marked Noted (fun _ => True) SystemError rules := by
  refine ⟨?_, ?_, ?_, ?_⟩
  · intro rule hrule s h hlive hover
    refine ⟨rfl, fun hin => ?_⟩
    by_contra heof
    exact hover (Or.inl ⟨hin, eq_true_of_ne_false heof⟩)
  · intro rule hrule s h hlive hnoted
    have hends := callback_ends rule hrule s h hlive hnoted
    refine Ends.intro (fun s' hs => ?_) fun e he => hends.error he
    obtain ⟨hinv, hused⟩ := hends.ok hs
    refine ⟨hinv, ?_, fun hsame => absurd hsame (Nat.ne_of_lt hused)⟩
    show s'.1.gone rule.fd rule.direction = false
    rw [gone, callback_cancelled rule hrule s s' hs]
    exact hlive
  · intro rule hrule s h hlive _
    obtain ⟨s', hs, hinv, hcancelled⟩ := cancel_ends rule hrule s h
    rw [hs]
    refine ⟨hinv, ?_⟩
    show s'.1.gone rule.fd rule.direction = true
    rw [gone, hcancelled]
    exact decide_eq_true List.mem_cons_self
  · simp only [rules, List.pairwise_cons, List.mem_cons, List.not_mem_nil, or_false, forall_eq_or_imp, forall_eq,
      List.Pairwise.nil, and_true]
    exact ⟨⟨apart_rule1_rule2, apart_ways (Or.inl rfl) (Or.inl rfl), apart_ways (Or.inl rfl) (Or.inr rfl)⟩,
      ⟨apart_ways (Or.inr rfl) (Or.inl rfl), apart_ways (Or.inr rfl) (Or.inr rfl)⟩, apart_rule3_rule4,
      fun _ hnone => hnone.elim⟩

end Sound

/-! ## Every run -/

section Runs

variable {w w' : Running} {t : CopyTurn}

def Start (w : Running) : Prop := w = {}

theorem start_new : Start {} := rfl

/-- What holds between two turns. -/
structure Working (w : Running) : Prop where
  inv : Inv w.copy
  sub : w.rules.Sublist rules
  live : ∀ rule ∈ w.rules, w.copy.gone rule.fd rule.direction = false
  gone : ∀ rule ∈ rules, rule ∈ w.rules ∨ w.copy.gone rule.fd rule.direction = true

theorem Working.start (h : Start w) : Working w := by
  obtain rfl := h
  exact ⟨⟨.new, .new, rfl, rfl, rfl, rfl, rfl⟩, List.Sublist.refl _, fun _ _ => rfl, fun _ => Or.inl⟩

/-- Once the end of the input has been passed on, nothing happens any more on the way out. -/
theorem outward_over : ∀ rule ∈ rules, ∀ s s' : StreamCopy × CopyTurn,
    EventLoop.Does (fun s => Inv s.1) Marked Noted rule s s' → s.1.outboundShutdown = true →
    s'.1.outboundShutdown = true ∧ s'.1.fromInput = s.1.fromInput ∧ s'.1.toSocket = s.1.toSocket := by
  have hframe : ∀ s s' : StreamCopy × CopyTurn, s.1.outboundShutdown = true →
      s'.1.outwardState = s.1.outwardState →
      s'.1.outboundShutdown = true ∧ s'.1.fromInput = s.1.fromInput ∧ s'.1.toSocket = s.1.toSocket := by
    intro s s' hshut hstate
    simp only [outwardState, Prod.mk.injEq] at hstate
    exact ⟨hstate.2.1.trans hshut, hstate.2.2.1, hstate.2.2.2.1⟩
  apply forall_rules
  · rintro s s' ⟨h, hlive, ⟨hnoted, hs⟩ | hs⟩ hshut
    · have hover := (h.outward.complete hshut).2
      rw [show s.1.input.eof = false from hnoted.2 rfl, show s.1.gone .input .pollIn = false from hlive] at hover
      exact absurd hover (by decide)
    · obtain rfl := Except.ok.inj hs
      exact ⟨hshut, rfl, rfl⟩
  · rintro s s' ⟨h, hlive, ⟨hnoted, hs⟩ | hs⟩ hshut
    · exact absurd (hshut.symm.trans (h.outward.open_of_has hnoted.1)) (by decide)
    · obtain rfl := Except.ok.inj hs
      exact ⟨hshut, rfl, rfl⟩
  · exact fun s s' hdoes hshut => hframe s s' hshut (does_inward (Or.inl rfl) hdoes)
  · exact fun s s' hdoes hshut => hframe s s' hshut (does_inward (Or.inr rfl) hdoes)

/-- Once the output has been closed, nothing happens any more on the way in. -/
theorem inward_over : ∀ rule ∈ rules, ∀ s s' : StreamCopy × CopyTurn,
    EventLoop.Does (fun s => Inv s.1) Marked Noted rule s s' → s.1.inboundShutdown = true →
    s'.1.inboundShutdown = true ∧ s'.1.fromSocket = s.1.fromSocket ∧ s'.1.toOutput = s.1.toOutput := by
  have hframe : ∀ s s' : StreamCopy × CopyTurn, s.1.inboundShutdown = true → s'.1.inwardState = s.1.inwardState →
      s'.1.inboundShutdown = true ∧ s'.1.fromSocket = s.1.fromSocket ∧ s'.1.toOutput = s.1.toOutput := by
    intro s s' hshut hstate
    simp only [inwardState, Prod.mk.injEq] at hstate
    exact ⟨hstate.2.1.trans hshut, hstate.2.2.1, hstate.2.2.2.1⟩
  apply forall_rules
  · exact fun s s' hdoes hshut => hframe s s' hshut (does_outward (Or.inl rfl) hdoes).1
  · exact fun s s' hdoes hshut => hframe s s' hshut (does_outward (Or.inr rfl) hdoes).1
  · rintro s s' ⟨h, hlive, ⟨hnoted, hs⟩ | hs⟩ hshut
    · have hover := (h.inward.complete hshut).2
      rw [show s.1.socket.eof = false from hnoted.2 rfl, show s.1.gone .socket .pollIn = false from hlive] at hover
      exact absurd hover (by decide)
    · obtain rfl := Except.ok.inj hs
      exact ⟨hshut, rfl, rfl⟩
  · rintro s s' ⟨h, hlive, ⟨hnoted, hs⟩ | hs⟩ hshut
    · exact absurd (hshut.symm.trans (h.inward.open_of_has hnoted.1)) (by decide)
    · obtain rfl := Except.ok.inj hs
      exact ⟨hshut, rfl, rfl⟩

/-- The interest of a rule is a matter of the variables of the program. -/
theorem interest_copy : ∀ rule ∈ rules, ∀ (s : StreamCopy) (t t' : CopyTurn),
    rule.interest (s, t) = rule.interest (s, t') :=
  forall_rules (fun _ _ _ => rfl) (fun _ _ _ => rfl) (fun _ _ _ => rfl) (fun _ _ _ => rfl)

/-- No rule that is left is interested. -/
def Idle (w : Running) : Prop := ∀ rule ∈ w.rules, ∀ t, rule.interest (w.copy, t) = false

/-- The functions of a rule leave the answers of the kernel alone. -/
theorem does_turn : ∀ rule ∈ rules, ∀ s s' : StreamCopy × CopyTurn,
    EventLoop.Does (fun s => Inv s.1) Marked Noted rule s s' → s'.2 = s.2 := by
  apply forall_rules
  all_goals
    rintro s s' ⟨-, -, ⟨-, hs⟩ | hs⟩
    · obtain ⟨_, -, rfl⟩ := map_ok.mp hs
      rfl
    · obtain rfl := Except.ok.inj hs
      rfl

/-- **One turn.**  What the functions of all rules keep, it keeps; and when it ends the loop, no rule is interested. -/
theorem Working.turn (h : Working w) (t : CopyTurn) :
    Ends (turn w t) (fun w' => Working w' ∧
      (∀ R : StreamCopy → Prop,
        (∀ rule ∈ rules, ∀ s s', EventLoop.Does (fun s => Inv s.1) Marked Noted rule (s, t) (s', t) → R s → R s') →
        R w.copy → R w'.copy) ∧
      ((w.returned = true ∧ w' = w) ∨ (w'.returned = true → t.poll ≠ .interrupted → Idle w'))) SystemError := by
  have hlive : ∀ rule ∈ w.rules, Marked rule true (w.copy, t) := h.live
  have hhung : ∀ rule ∈ EventLoop.hungUp fds w.rules t.poll (w.copy, t), True := fun _ _ => trivial
  have hends := EventLoop.waitNextEvent_ends (sound.sublist h.sub) (s := (w.copy, t)) h.inv hlive hhung
  unfold StreamCopy.turn
  apply Ends.ite
  · intro hret
    exact ⟨h, fun _ _ hR => hR, Or.inl ⟨hret, rfl⟩⟩
  · intro _
    refine (hends.mono (fun _ h => h) ?_).map ?_
    · rintro e (hthrown | rfl)
      · exact hthrown
      · exact .poll
    · rintro ⟨result, rules', s', t'⟩ ⟨⟨hinv, hsub, hlive', hgone, hkeeps⟩, hexit⟩
      have hkept : ∀ R : StreamCopy → Prop, (∀ rule ∈ rules, ∀ s s',
          EventLoop.Does (fun s => Inv s.1) Marked Noted rule (s, t) (s', t) → R s → R s') → R w.copy → R s' := by
        intro R hR hRw
        apply (hkeeps (fun s => s.2 = t ∧ R s.1) ?_ ⟨rfl, hRw⟩).2
        rintro r hr ⟨s, u⟩ ⟨s₁, u₁⟩ hdoes ⟨hu, hRs⟩
        have hu₁ := does_turn r (h.sub.subset hr) _ _ hdoes
        dsimp only at hu hu₁
        subst hu hu₁
        exact ⟨rfl, hR r (h.sub.subset hr) s s₁ hdoes hRs⟩
      refine ⟨⟨hinv, hsub.trans h.sub, hlive', fun rule hrule => ?_⟩, hkept, Or.inr fun hret hpoll rule hrule u => ?_⟩
      · rcases h.gone rule hrule with hthere | hcancelled
        · exact hgone rule hthere
        · right
          apply hkept (fun s => s.gone rule.fd rule.direction = true) ?_ hcancelled
          rintro r hr s s₁ ⟨hs, -, ⟨-, hran⟩ | hran⟩ hmark
          · have hsame := callback_cancelled r hr _ _ hran
            rw [StreamCopy.gone, hsame]
            exact hmark
          · obtain ⟨s₂, hs₂, -, hcancelled⟩ := cancel_ends r hr (s, t) hs
            obtain rfl := Except.ok.inj (hs₂.symm.trans hran)
            rw [StreamCopy.gone, hcancelled]
            exact decide_eq_true (List.mem_cons_of_mem _ (of_decide_eq_true hmark))
      · rw [interest_copy rule (h.sub.subset (hsub.subset hrule)) s' u t']
        exact (hexit (of_decide_eq_true hret) hpoll rule hrule).1

/-- Once the end has been passed on, a turn reads and writes nothing more that way. -/
theorem Working.onward (h : Working w) (hs : StreamCopy.turn w t = .ok w') :
    (w.copy.outboundShutdown = true → w'.copy.outboundShutdown = true ∧ w'.copy.fromInput = w.copy.fromInput ∧
      w'.copy.toSocket = w.copy.toSocket) ∧
    (w.copy.inboundShutdown = true → w'.copy.inboundShutdown = true ∧ w'.copy.fromSocket = w.copy.fromSocket ∧
      w'.copy.toOutput = w.copy.toOutput) := by
  obtain ⟨-, hkeeps, -⟩ := (h.turn t).ok hs
  constructor
  · intro hshut
    apply hkeeps (fun s => s.outboundShutdown = true ∧ s.fromInput = w.copy.fromInput ∧ s.toSocket = w.copy.toSocket) ?_
      ⟨hshut, rfl, rfl⟩
    rintro r hr s s₁ hdoes ⟨hshut, hfrom, hto⟩
    obtain ⟨hshut', hfrom', hto'⟩ := outward_over r hr _ _ hdoes hshut
    exact ⟨hshut', hfrom'.trans hfrom, hto'.trans hto⟩
  · intro hshut
    apply hkeeps
      (fun s => s.inboundShutdown = true ∧ s.fromSocket = w.copy.fromSocket ∧ s.toOutput = w.copy.toOutput) ?_
      ⟨hshut, rfl, rfl⟩
    rintro r hr s s₁ hdoes ⟨hshut, hfrom, hto⟩
    obtain ⟨hshut', hfrom', hto'⟩ := inward_over r hr _ _ hdoes hshut
    exact ⟨hshut', hfrom'.trans hfrom, hto'.trans hto⟩

/-- What has been written to the socket stays written. -/
theorem Working.sends (h : Working w) (hs : StreamCopy.turn w t = .ok w') : w.copy.toSocket <+: w'.copy.toSocket := by
  obtain ⟨-, hkeeps, -⟩ := (h.turn t).ok hs
  apply hkeeps (fun s => w.copy.toSocket <+: s.toSocket) ?_ List.prefix_rfl
  have hframe : ∀ s s' : StreamCopy, s'.outwardState = s.outwardState → w.copy.toSocket <+: s.toSocket →
      w.copy.toSocket <+: s'.toSocket := by
    intro s s' hstate hpre
    simp only [outwardState, Prod.mk.injEq] at hstate
    rw [hstate.2.2.2.1]
    exact hpre
  apply forall_rules
  · rintro s s' ⟨-, -, ⟨-, hran⟩ | hran⟩ hpre
    · obtain ⟨s₁, hread, heq⟩ := map_ok.mp hran
      obtain ⟨_, _, _, -, rfl⟩ := readInput_ok hread
      obtain ⟨rfl, -⟩ := Prod.mk.inj heq
      exact hpre
    · obtain ⟨rfl, -⟩ := Prod.mk.inj (Except.ok.inj hran)
      exact hpre
  · rintro s s' ⟨-, -, ⟨-, hran⟩ | hran⟩ hpre
    · obtain ⟨s₁, hwrite, heq⟩ := map_ok.mp hran
      obtain ⟨taken, _, _, -, rfl⟩ := writeSocket_ok hwrite
      obtain ⟨rfl, -⟩ := Prod.mk.inj heq
      exact hpre.trans (List.prefix_append _ _)
    · obtain ⟨rfl, -⟩ := Prod.mk.inj (Except.ok.inj hran)
      exact hpre
  · exact fun s s' hdoes => hframe s s' (does_inward (Or.inl rfl) hdoes)
  · exact fun s s' hdoes => hframe s s' (does_inward (Or.inr rfl) hdoes)

theorem fill_ok {fd fd' : FDWrapper} {stream stream' : ByteStream} {source : Source} {data : Bytes}
    (h : fill fd stream source = .ok (data, fd', stream')) :
    ∃ size, source fd.readCount size = .ok data ∧ fd'.readCount = fd.readCount + 1 ∧
      (fd'.eof = true → fd.eof = true ∨ (0 < size ∧ data = [])) := by
  obtain ⟨⟨got, fd''⟩, hread, heq⟩ := map_ok.mp h
  obtain ⟨rfl, rfl, -⟩ := by simpa only [Prod.mk.injEq] using heq
  obtain ⟨hanswer, -, -, hreads, -, heof⟩ := FileDescriptor.read_ok hread
  refine ⟨_, hanswer, hreads, fun hend => ?_⟩
  rcases heof.mp hend with hbefore | ⟨hlimit, hnone⟩
  · exact Or.inl hbefore
  · exact Or.inr ⟨Nat.lt_min.mpr ⟨by decide, hlimit⟩, hnone⟩

/-- Since `before` the socket has not been read, or once, with this answer. -/
def ReadOnce (before : StreamCopy) (source : Source) (s : StreamCopy) : Prop :=
  (s.socket.readCount = before.socket.readCount ∧ s.fromSocket = before.fromSocket ∧
    s.socket.eof = before.socket.eof) ∨
  (s.socket.readCount = before.socket.readCount + 1 ∧ ∃ size data, source before.socket.readCount size = .ok data ∧
    s.fromSocket = before.fromSocket ++ data ∧
    (s.socket.eof = true → before.socket.eof = true ∨ (0 < size ∧ data = [])))

theorem ReadOnce.frame {before s s' : StreamCopy} {source : Source} (h : ReadOnce before source s)
    (hfrom : s'.fromSocket = s.fromSocket) (heof : s'.socket.eof = s.socket.eof)
    (hreads : s'.socket.readCount = s.socket.readCount) : ReadOnce before source s' := by
  unfold ReadOnce
  rw [hfrom, heof, hreads]
  exact h

/-- **A turn reads the socket at most once**, when the kernel has an answer for one read only. -/
theorem Working.receives (h : Working w) (hs : StreamCopy.turn w t = .ok w')
    (hsource : ∀ n size data, t.readSocket n size = .ok data → n = w.copy.socket.readCount) :
    ReadOnce w.copy t.readSocket w'.copy := by
  obtain ⟨-, hkeeps, -⟩ := (h.turn t).ok hs
  apply hkeeps (ReadOnce w.copy t.readSocket) ?_ (Or.inl ⟨rfl, rfl, rfl⟩)
  have hframe : ∀ rule, rule = rule1 ∨ rule = rule2 → ∀ s s',
      EventLoop.Does (fun s => Inv s.1) Marked Noted rule (s, t) (s', t) → ReadOnce w.copy t.readSocket s →
      ReadOnce w.copy t.readSocket s' := by
    intro rule hrule s s' hdoes honce
    obtain ⟨hstate, heof, hreads⟩ := does_outward hrule hdoes
    simp only [inwardState, Prod.mk.injEq] at hstate
    exact honce.frame hstate.2.2.1 heof hreads
  apply forall_rules
  · exact hframe rule1 (Or.inl rfl)
  · exact hframe rule2 (Or.inr rfl)
  · rintro s s' ⟨-, -, ⟨-, hran⟩ | hran⟩ honce
    · obtain ⟨s₁, hread, heq⟩ := map_ok.mp hran
      obtain ⟨rfl, -⟩ := Prod.mk.inj heq
      obtain ⟨data, socket, inbound, hfill, rfl⟩ := readSocket_ok hread
      obtain ⟨size, hanswer, hreads, heof⟩ := fill_ok hfill
      have hfirst := hsource _ _ _ hanswer
      rcases honce with ⟨hcount, hfrom, hend⟩ | ⟨hcount, -⟩
      · refine Or.inr ⟨by rw [← hcount]; exact hreads, size, data, hfirst ▸ hanswer, ?_, fun hend' => ?_⟩
        · show s.fromSocket ++ data = _
          rw [hfrom]
        · rw [← hend]
          exact heof hend'
      · omega
    · obtain ⟨rfl, -⟩ := Prod.mk.inj (Except.ok.inj hran)
      exact honce
  · rintro s s' ⟨-, -, ⟨-, hran⟩ | hran⟩ honce
    · obtain ⟨s₁, hwrite, heq⟩ := map_ok.mp hran
      obtain ⟨_, _, _, -, rfl⟩ := writeOutput_ok hwrite
      obtain ⟨rfl, -⟩ := Prod.mk.inj heq
      exact honce
    · obtain ⟨rfl, -⟩ := Prod.mk.inj (Except.ok.inj hran)
      exact honce

theorem working_of_reach {ok : Running → CopyTurn → Prop} (hr : Reach Start turn ok w) : Working w :=
  Reach.invariant (fun _ h => .start h) (fun _ t _ h _ hs => ((h.turn t).ok hs).1) hr

/-- **Both ways are copied in order.**  In every state of every run, whatever the kernel gives, takes and reports: what
has been read from the input is what has been written to the socket and what is in the buffer, which does not overflow;
the socket is shut down at most once, when everything has been written, and from then on nothing is read from the input
or written to the socket.  The same holds from the socket to the output, which is closed.  And what a turn throws
comes from a system call. -/
theorem copies_in_order (hr : Reach Start turn (fun _ _ => True) w) (t : CopyTurn) :
    (w.copy.fromInput = w.copy.toSocket ++ w.copy.outbound.contents ∧ w.copy.outbound.contents.length ≤ bufferSize ∧
      w.copy.shutdowns ≤ 1 ∧ (w.copy.shutdowns = 1 → w.copy.toSocket = w.copy.fromInput)) ∧
    (w.copy.fromSocket = w.copy.toOutput ++ w.copy.inbound.contents ∧ w.copy.inbound.contents.length ≤ bufferSize ∧
      w.copy.closes ≤ 1 ∧ (w.copy.closes = 1 → w.copy.toOutput = w.copy.fromSocket)) ∧
    Ends (turn w t) (fun w' =>
      (w.copy.shutdowns = 1 → w'.copy.fromInput = w.copy.fromInput ∧ w'.copy.toSocket = w.copy.toSocket) ∧
      (w.copy.closes = 1 → w'.copy.fromSocket = w.copy.fromSocket ∧ w'.copy.toOutput = w.copy.toOutput))
      SystemError := by
  have h := working_of_reach hr
  obtain ⟨hout, hin, hshutdowns, hcloses, -, -, -⟩ := h.inv
  have hshut : w.copy.shutdowns = 1 → w.copy.outboundShutdown = true := by
    intro hone
    rw [hshutdowns] at hone
    exact Bool.toNat_eq_one.mp hone
  have hclosed : w.copy.closes = 1 → w.copy.inboundShutdown = true := by
    intro hone
    rw [hcloses] at hone
    exact Bool.toNat_eq_one.mp hone
  refine ⟨⟨hout.order, hout.capacity ▸ hout.wf.fits, ?_, fun hone => ?_⟩,
    ⟨hin.order, hin.capacity ▸ hin.wf.fits, ?_, fun hone => ?_⟩, Ends.intro (fun w' hs => ?_) fun e he => ?_⟩
  · rw [hshutdowns]
    exact Bool.toNat_le _
  · rw [hout.order, (hout.complete (hshut hone)).1, List.append_nil]
  · rw [hcloses]
    exact Bool.toNat_le _
  · rw [hin.order, (hin.complete (hclosed hone)).1, List.append_nil]
  · obtain ⟨houtward, hinward⟩ := h.onward hs
    exact ⟨fun hone => (houtward (hshut hone)).2, fun hone => (hinward (hclosed hone)).2⟩
  · exact (h.turn t).error he

/-- The socket has been shut down, and what else there is to read from the input is not read. -/
theorem copies_in_order_shut : ∃ w : Running, Reach Start turn (fun _ _ => True) w ∧ w.copy.toSocket = [1] ∧
    w.copy.shutdowns = 1 ∧ ∀ t w', turn w t = .ok w' → w'.copy.fromInput = [1] ∧ w'.copy.toSocket = [1] := by
  obtain ⟨w, hr, htest⟩ : ∃ w : Running, Reach Start turn (fun _ _ => True) w ∧
      (decide (w.copy.fromInput = [1]) && decide (w.copy.shutdowns = 1)) = true :=
    Reach.exec_any _ (s := {})
      (l := [{ poll := .ready [{ pollIn := true }], readInput := fun _ _ => .ok [1] },
        { poll := .ready [{ pollHup := true }, { pollOut := true }], writeSocket := .ok 1 }])
      (.start start_new) (by decide +kernel)
  rw [Bool.and_eq_true, decide_eq_true_eq, decide_eq_true_eq] at htest
  obtain ⟨hfrom, hshut⟩ := htest
  obtain ⟨⟨-, -, -, hall⟩, -, -⟩ := copies_in_order hr { poll := .timeout }
  have hto : w.copy.toSocket = [1] := (hall hshut).trans hfrom
  refine ⟨w, hr, hto, hshut, fun t w' hs => ?_⟩
  obtain ⟨hfrom', hto'⟩ := ((copies_in_order hr t).2.2.ok hs).1 hshut
  exact ⟨hfrom'.trans hfrom, hto'.trans hto⟩

/-- A way that has lost no writer, and of which no rule is interested, is done. -/
theorem Pipeline.done {received sent : Bytes} {stream : ByteStream} {finished lost shut : Bool}
    (h : Pipeline received sent stream finished lost shut) (hhas : has stream shut = false)
    (hread : stream.remainingCapacity = 0 ∨ finished = true) : shut = true ∧ sent = received := by
  have hidle : ¬ (stream.contents ≠ [] ∨ (stream.isInputEnd = true ∧ shut = false)) := by
    rw [← h.has_iff, hhas]
    exact Bool.false_ne_true
  have hnone : stream.contents = [] := by
    by_contra hsome
    exact hidle (Or.inl hsome)
  have hover : finished = true := by
    apply hread.resolve_left
    rw [h.wf.remainingCapacity, hnone, h.capacity]
    decide
  refine ⟨?_, ?_⟩
  · by_contra hopen
    exact hidle (Or.inr ⟨h.ended.mpr (Or.inl hover), eq_false_of_ne_true hopen⟩)
  · rw [h.order, hnone, List.append_nil]

/-- **A loop that stops by itself has copied everything.**  Take any run in which the wait is not interrupted.  When the
program has returned, and no descriptor that it writes to was hung up, everything that it has read from its input has
been written to the socket, which has been shut down, and everything from the socket to the output, which has been
closed. -/
theorem copies_everything (hr : Reach Start turn (fun _ t => t.poll ≠ .interrupted) w) (hret : w.returned = true)
    (hsocket : (Fd.socket, Direction.pollOut) ∉ w.copy.cancelled)
    (houtput : (Fd.output, Direction.pollOut) ∈ w.copy.cancelled → w.copy.output.closed = true) :
    w.copy.toSocket = w.copy.fromInput ∧ w.copy.shutdowns = 1 ∧ w.copy.toOutput = w.copy.fromSocket ∧
      w.copy.closes = 1 := by
  have h := working_of_reach hr
  have hidle : w.returned = true → Idle w := by
    refine Reach.invariant (P := fun w => Working w ∧ (w.returned = true → Idle w)) ?_ ?_ hr |>.2
    · intro w hs
      refine ⟨.start hs, fun hret => ?_⟩
      rw [hs] at hret
      exact absurd hret Bool.false_ne_true
    · rintro w t w' ⟨h, hdone⟩ hpoll hs
      obtain ⟨h', -, ⟨hret, rfl⟩ | hexit⟩ := (h.turn t).ok hs
      · exact ⟨h', hdone⟩
      · exact ⟨h', fun hret => hexit hret hpoll⟩
  have hidle := hidle hret
  obtain ⟨hout, hin, hshutdowns, hcloses, -, -, hclosed⟩ := h.inv
  obtain ⟨hwantsOut, hwantsIn⟩ := h.inv.wants_iff
  -- a reading rule that is still there finds no room, one that is gone finds nothing more to read
  have hreadOut : w.copy.outbound.remainingCapacity = 0 ∨ (w.copy.input.eof || w.copy.gone .input .pollIn) = true := by
    rcases h.gone rule1 mem_rules.1 with hthere | hgone
    · refine Or.inl (Nat.eq_zero_of_not_pos fun hroom => ?_)
      exact absurd ((hwantsOut.mpr hroom).symm.trans (hidle rule1 hthere { poll := .timeout })) (by decide)
    · exact Or.inr (by rw [show w.copy.gone .input .pollIn = true from hgone, Bool.or_true])
  have hreadIn : w.copy.inbound.remainingCapacity = 0 ∨ (w.copy.socket.eof || w.copy.gone .socket .pollIn) = true := by
    rcases h.gone rule3 mem_rules.2.2.1 with hthere | hgone
    · refine Or.inl (Nat.eq_zero_of_not_pos fun hroom => ?_)
      exact absurd ((hwantsIn.mpr hroom).symm.trans (hidle rule3 hthere { poll := .timeout })) (by decide)
    · exact Or.inr (by rw [show w.copy.gone .socket .pollIn = true from hgone, Bool.or_true])
  have houtward : w.copy.outboundShutdown = true ∧ w.copy.toSocket = w.copy.fromInput := by
    rcases h.gone rule2 mem_rules.2.1 with hthere | hgone
    · exact hout.done (hidle rule2 hthere { poll := .timeout }) hreadOut
    · exact absurd (of_decide_eq_true hgone) hsocket
  have hinward : w.copy.inboundShutdown = true ∧ w.copy.toOutput = w.copy.fromSocket := by
    rcases h.gone rule4 mem_rules.2.2.2 with hthere | hgone
    · exact hin.done (hidle rule4 hthere { poll := .timeout }) hreadIn
    · have hshut : w.copy.inboundShutdown = true := hclosed.symm.trans (houtput (of_decide_eq_true hgone))
      refine ⟨hshut, ?_⟩
      rw [hin.order, (hin.complete hshut).1, List.append_nil]
  refine ⟨houtward.2, ?_, hinward.2, ?_⟩
  · rw [hshutdowns, houtward.1]
    rfl
  · rw [hcloses, hinward.1]
    rfl

/-- Two bytes one way and one byte the other, of which the socket takes one at a time. -/
theorem copies_everything_three : ∃ w : Running, Reach Start turn (fun _ t => t.poll ≠ .interrupted) w ∧
    w.returned = true ∧ w.copy.toSocket = [1, 2] ∧ w.copy.shutdowns = 1 ∧ w.copy.toOutput = [7] ∧
    w.copy.closes = 1 := by
  obtain ⟨w, hr, htest⟩ : ∃ w : Running, Reach Start turn (fun _ t => t.poll ≠ .interrupted) w ∧
      (w.returned && decide (w.copy.fromInput = [1, 2]) && decide (w.copy.fromSocket = [7])
        && decide ((Fd.socket, Direction.pollOut) ∉ w.copy.cancelled) && w.copy.output.closed) = true :=
    Reach.exec_any _ (s := {})
      (l := [{ poll := .ready [{ pollIn := true }, {}, { pollIn := true }, {}]
               readInput := fun _ _ => .ok [1, 2]
               readSocket := fun _ _ => .ok [7] },
        { poll := .ready [{ pollIn := true }, { pollOut := true }, { pollIn := true }, { pollOut := true }]
          writeSocket := .ok 1
          writeOutput := .ok 1 },
        { poll := .ready [{ pollOut := true }, { pollOut := true }], writeSocket := .ok 1 },
        { poll := .timeout }])
      (.start start_new) (by decide +kernel)
  simp only [Bool.and_eq_true, decide_eq_true_eq] at htest
  obtain ⟨⟨⟨⟨hret, hinput⟩, hfrom⟩, hsocket⟩, hclosed⟩ := htest
  obtain ⟨hout, hshut, hin, hclose⟩ := copies_everything hr hret hsocket fun _ => hclosed
  exact ⟨w, hr, hret, hout.trans hinput, hshut, hin.trans hfrom, hclose⟩

end Runs

end StreamCopy

end Sponge
