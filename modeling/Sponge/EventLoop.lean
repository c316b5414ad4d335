/-
# `Sponge.EventLoop` — rules on file descriptors, and the callbacks they run.

Models `util/eventloop.{hh,cc}`.  A rule's callbacks are functions on the state `σ` of the program around the loop;
the file descriptors are named by `φ`, and `fds` finds them in the state.  `poll` is an argument: each wait is given
what it reports.

`wait_next_event` goes over the rules twice.  It asks all of them for their interest before it polls, and runs the
callbacks of the ready ones afterwards, so a callback runs in a state that the callbacks before it have changed, and
its rule may have lost interest by then.  Nothing here assumes that it has not.

What a program has to show of its rules is `Sound`, and what it gets for it is `waitNextEvent_ends`: the wait keeps
the program's invariant, throws only what the callbacks throw and the one error of `poll`, never finds a busy wait,
and exits for want of interest only.

A cancelled rule is never heard of again, whatever the program does (`cancel_is_final`).
-/
import Sponge.FileDescriptor
import Sponge.Lib.Run
import Sponge.Lib.Outcome
import Mathlib.Data.List.Nodup
import Mathlib.Data.List.Pairwise

namespace Sponge

open Sponge.Lib

/-! ## The source functions -/

/-- `EventLoop::Direction`. -/
inductive Direction where
  | pollIn
  | pollOut
  deriving DecidableEq, Repr

/-- `EventLoop::Rule`. -/
structure Rule (σ φ : Type) where
  fd : φ
  direction : Direction
  callback : σ → Except Exception σ
  interest : σ → Bool := fun _ => true
  cancel : σ → Except Exception σ := .ok

/-- What `poll` reports of one file descriptor; `pollErr` is `POLLERR | POLLNVAL`. -/
structure Revents where
  pollIn : Bool := false
  pollOut : Bool := false
  pollHup : Bool := false
  pollErr : Bool := false
  deriving DecidableEq, Repr

/-- What becomes of the call of `poll`: nothing within the time, a signal, another error, or reports for the file
descriptors in order. -/
inductive PollResult where
  | timeout
  | interrupted
  | failed
  | ready (revents : List Revents)
  deriving DecidableEq, Repr

namespace EventLoop

/-- `EventLoop::Result`. -/
inductive Result where
  | success
  | timeout
  | exit
  deriving DecidableEq, Repr

variable {σ φ : Type} (fds : σ → φ → FDWrapper)

/-- `EventLoop::Rule::service_count`. -/
def serviceCount (rule : Rule σ φ) (s : σ) : Nat :=
  match rule.direction with
  | .pollIn => (fds s rule.fd).readCount
  | .pollOut => (fds s rule.fd).writeCount

/-- The report says what the rule asked for. -/
def isReady (rule : Rule σ φ) (interested : Bool) (revents : Revents) : Bool :=
  interested && match rule.direction with
    | .pollIn => revents.pollIn
    | .pollOut => revents.pollOut

/-- The first loop of `wait_next_event`: rules at the end of their file or closed are cancelled; of the others it is
noted whether they are interested. -/
def setUp : List (Rule σ φ) → σ → Except Exception (List (Rule σ φ × Bool) × σ)
  | [], s => .ok ([], s)
  | rule :: rest, s =>
    if (decide (rule.direction = .pollIn) && (fds s rule.fd).eof) || (fds s rule.fd).closed then
      (rule.cancel s).bind fun s => setUp rest s
    else
      (setUp rest s).map fun (polled, s') => ((rule, rule.interest s) :: polled, s')

/-- The second loop: a rule whose descriptor reports a hangup and nothing else is cancelled; the callback of a ready
one is run. -/
def dispatch : List (Rule σ φ × Bool) → List Revents → σ → Except Exception (List (Rule σ φ) × σ)
  | [], _, s => .ok ([], s)
  | (rule, interested) :: rest, reports, s =>
    let revents := reports.headD {}
    if revents.pollErr then .error (.runtimeError "EventLoop: error on polled file descriptor")
    else if revents.pollHup && interested && !isReady rule interested revents then
      (rule.cancel s).bind fun s => dispatch rest reports.tail s
    else if isReady rule interested revents then
      (rule.callback s).bind fun s' =>
        if decide (serviceCount fds rule s = serviceCount fds rule s') && rule.interest s' then
          .error (.runtimeError
            "EventLoop: busy wait detected: callback did not read/write fd and is still interested")
        else (dispatch rest reports.tail s').map fun (rules, s) => (rule :: rules, s)
    else (dispatch rest reports.tail s).map fun (rules, s) => (rule :: rules, s)

/-- `EventLoop::wait_next_event`: the result, the rules that are left, and the state. -/
def waitNextEvent (rules : List (Rule σ φ)) (poll : PollResult) (s : σ) :
    Except Exception (Result × List (Rule σ φ) × σ) :=
  (setUp fds rules s).bind fun (polled, s) =>
    -- quit if there is nothing left to poll
    if !polled.any Prod.snd then .ok (.exit, polled.map Prod.fst, s)
    else match poll with
      | .timeout => .ok (.timeout, polled.map Prod.fst, s)
      | .interrupted => .ok (.exit, polled.map Prod.fst, s)
      -- every other error of `poll` is caught and dropped: no descriptor has a report then
      | .failed => (dispatch fds polled [] s).map fun (rules, s) => (.success, rules, s)
      | .ready revents => (dispatch fds polled revents s).map fun (rules, s) => (.success, rules, s)

/-! ## What a program shows of its rules, and what a wait then does -/

/-- `poll` has reported an error. -/
def pollError : Exception := .runtimeError "EventLoop: error on polled file descriptor"

/-- A rule that is there runs one of its functions: the callback when it is interested.  `M rule true` is what holds as
long as `rule` is there, and `M rule false` what holds once it has been cancelled; `Q rule b` is what it knows from the
moment when its `interest` said `b`. -/
structure Does (P : σ → Prop) (M Q : Rule σ φ → Bool → σ → Prop) (rule : Rule σ φ) (s s' : σ) : Prop where
  inv : P s
  live : M rule true s
  ran : (Q rule true s ∧ rule.callback s = .ok s') ∨ rule.cancel s = .ok s'

/-- Nothing that `r` does disturbs what holds of `r'`. -/
def Leaves (P : σ → Prop) (M Q : Rule σ φ → Bool → σ → Prop) (r r' : Rule σ φ) : Prop :=
  ∀ s s' b, Does P M Q r s s' → M r' b s → M r' b s'

/-- The rules leave each other alone, and what one has noted of its interest is not disturbed by the other: that of the
second not by what the first runs before it, and that of the first not by a cancellation of the second, which may come
before the wait. -/
structure Apart (P : σ → Prop) (M Q : Rule σ φ → Bool → σ → Prop) (r r' : Rule σ φ) : Prop where
  noted : ∀ s s', Does P M Q r s s' → Q r' true s → Q r' true s'
  noted' : ∀ s s' b, P s → r'.cancel s = .ok s' → Q r b s → Q r b s'
  leaves : Leaves P M Q r r'
  leaves' : Leaves P M Q r' r

/-- The file of a rule has ended, or is closed. -/
def Over (rule : Rule σ φ) (s : σ) : Prop :=
  (rule.direction = .pollIn ∧ (fds s rule.fd).eof = true) ∨ (fds s rule.fd).closed = true

/-- The rule was polled, and its report is of a hangup and not of what it was polled for. -/
def loneHangup (entry : Rule σ φ × Bool) (revents : Revents) : Bool :=
  revents.pollHup && entry.2 && !isReady entry.1 entry.2 revents

/-- The rules that a wait cancels for a hangup. -/
def hungUp (rules : List (Rule σ φ)) (poll : PollResult) (s : σ) : List (Rule σ φ) :=
  match poll, setUp fds rules s with
  | .ready reports, .ok (polled, _) => ((polled.zip reports).filter fun p => loneHangup p.1 p.2).map fun p => p.1.1
  | _, _ => []

/-- The rules keep `P` and throw only what is in `E`.  A callback may count on what its rule noted when it was asked for
its interest; and it uses its descriptor, or its rule has lost interest.  Only the rules in `H` may be cancelled for a
hangup. -/
structure Sound (P : σ → Prop) (M Q : Rule σ φ → Bool → σ → Prop) (H : Rule σ φ → Prop) (E : Exception → Prop)
    (rules : List (Rule σ φ)) : Prop where
  noted : ∀ rule ∈ rules, ∀ s, P s → M rule true s → ¬ Over fds rule s → Q rule (rule.interest s) s
  callback : ∀ rule ∈ rules, ∀ s, P s → M rule true s → Q rule true s → Ends (rule.callback s)
    (fun s' => P s' ∧ M rule true s' ∧
      (serviceCount fds rule s = serviceCount fds rule s' → rule.interest s' = false)) E
  cancel : ∀ rule ∈ rules, ∀ s, P s → M rule true s → Over fds rule s ∨ H rule →
    Ends (rule.cancel s) (fun s' => P s' ∧ M rule false s') E
  apart : rules.Pairwise (Apart P M Q)

/-- Some of the rules have been served and some of them cancelled: `rules'` are left. -/
structure Served (P : σ → Prop) (M Q : Rule σ φ → Bool → σ → Prop) (rules : List (Rule σ φ)) (s : σ)
    (rules' : List (Rule σ φ)) (s' : σ) : Prop where
  inv : P s'
  sub : rules'.Sublist rules
  live : ∀ rule ∈ rules', M rule true s'
  gone : ∀ rule ∈ rules, rule ∈ rules' ∨ M rule false s'
  /-- What the functions of all the rules keep is kept. -/
  keeps : ∀ R : σ → Prop, (∀ rule ∈ rules, ∀ t t', Does P M Q rule t t' → R t → R t') → R s → R s'

section Sound

variable {fds} {P : σ → Prop} {M Q : Rule σ φ → Bool → σ → Prop} {H : Rule σ φ → Prop} {E : Exception → Prop}
  {rules rules' rules'' : List (Rule σ φ)} {rule : Rule σ φ} {polled : List (Rule σ φ × Bool)} {s s' s'' : σ}

theorem Sound.sublist (h : Sound fds P M Q H E rules) (hsub : rules'.Sublist rules) : Sound fds P M Q H E rules' :=
  ⟨fun rule hr => h.noted rule (hsub.subset hr), fun rule hr => h.callback rule (hsub.subset hr),
    fun rule hr => h.cancel rule (hsub.subset hr), h.apart.sublist hsub⟩

theorem Sound.tail (h : Sound fds P M Q H E (rule :: rules)) : Sound fds P M Q H E rules :=
  h.sublist (List.sublist_cons_self rule rules)

theorem Sound.head (h : Sound fds P M Q H E (rule :: rules)) : ∀ r ∈ rules, Apart P M Q rule r :=
  (List.pairwise_cons.mp h.apart).1

/-- Two different rules leave each other alone, in whatever order they are. -/
theorem Sound.leaves (h : Sound fds P M Q H E rules) {r r' : Rule σ φ} (hr : r ∈ rules) (hr' : r' ∈ rules)
    (hne : r ≠ r') : Leaves P M Q r r' := by
  have hboth : rules.Pairwise fun r r' => Leaves P M Q r r' ∧ Leaves P M Q r' r :=
    h.apart.imp fun hapart => ⟨hapart.leaves, hapart.leaves'⟩
  have hsymm : Std.Symm fun r r' => Leaves P M Q r r' ∧ Leaves P M Q r' r := ⟨fun _ _ => And.symm⟩
  exact (hboth.forall hr hr' hne).1

theorem Served.nil (hs : P s) : Served P M Q [] s [] s :=
  ⟨hs, List.Sublist.refl _, by simp, by simp, fun _ _ hR => hR⟩

/-- A rule stays, after one of its functions or none. -/
theorem Served.stays (h : Sound fds P M Q H E (rule :: rules)) (hran : s = s' ∨ Does P M Q rule s s')
    (hlive : M rule true s') (hserved : Served P M Q rules s' rules' s'') :
    Served P M Q (rule :: rules) s (rule :: rules') s'' := by
  obtain ⟨hP, hsub, hlive', hgone, hkeeps⟩ := hserved
  refine ⟨hP, hsub.cons_cons _, List.forall_mem_cons.mpr ⟨?_, hlive'⟩, List.forall_mem_cons.mpr ⟨?_, ?_⟩, ?_⟩
  · exact hkeeps (M rule true) (fun r hr t t' hdoes => (h.head r hr).leaves' t t' true hdoes) hlive
  · exact Or.inl List.mem_cons_self
  · exact fun r hr => (hgone r hr).imp_left (List.mem_cons_of_mem _)
  · intro R hR hRs
    apply hkeeps R fun r hr => hR r (List.mem_cons_of_mem _ hr)
    rcases hran with rfl | hdoes
    · exact hRs
    · exact hR rule List.mem_cons_self s s' hdoes hRs

/-- A rule is cancelled. -/
theorem Served.goes (h : Sound fds P M Q H E (rule :: rules)) (hdoes : Does P M Q rule s s')
    (hmark : M rule false s') (hserved : Served P M Q rules s' rules' s'') :
    Served P M Q (rule :: rules) s rules' s'' := by
  obtain ⟨hP, hsub, hlive, hgone, hkeeps⟩ := hserved
  refine ⟨hP, hsub.cons _, hlive, List.forall_mem_cons.mpr ⟨Or.inr ?_, hgone⟩, fun R hR hRs => ?_⟩
  · exact hkeeps (M rule false) (fun r hr t t' hdoes => (h.head r hr).leaves' t t' false hdoes) hmark
  · apply hkeeps R fun r hr => hR r (List.mem_cons_of_mem _ hr)
    exact hR rule List.mem_cons_self s s' hdoes hRs

theorem Served.trans (h : Sound fds P M Q H E rules) (hfirst : Served P M Q rules s rules' s')
    (hthen : Served P M Q rules' s' rules'' s'') : Served P M Q rules s rules'' s'' := by
  refine ⟨hthen.inv, hthen.sub.trans hfirst.sub, hthen.live, fun rule hrule => ?_, fun R hR hRs => ?_⟩
  · by_cases hleft : rule ∈ rules'
    · exact hthen.gone rule hleft
    · right
      -- it was cancelled the first time, and the others leave it alone
      apply hthen.keeps (M rule false) ?_ ((hfirst.gone rule hrule).resolve_left hleft)
      intro r hr t t' hdoes
      have hne : r ≠ rule := by
        rintro rfl
        exact hleft hr
      exact h.leaves (hfirst.sub.subset hr) hrule hne t t' false hdoes
  · exact hthen.keeps R (fun r hr => hR r (hfirst.sub.subset hr)) (hfirst.keeps R hR hRs)

/-- **The first loop.**  What the rules have noted holds when it is over, since it runs cancellations only. -/
theorem setUp_ends (h : Sound fds P M Q H E rules) (hs : P s) (hM : ∀ rule ∈ rules, M rule true s) :
    Ends (setUp fds rules s) (fun (polled, s') => Served P M Q rules s (polled.map Prod.fst) s' ∧
      (∀ p ∈ polled, Q p.1 p.2 s') ∧
      ∀ R : σ → Prop, (∀ r ∈ rules, ∀ t t', P t → r.cancel t = .ok t' → R t → R t') → R s → R s') E := by
  induction rules generalizing s with
  | nil => exact ⟨.nil hs, by simp, fun _ _ hR => hR⟩
  | cons rule rest ih =>
    obtain ⟨hlive, hothers⟩ := List.forall_mem_cons.mp hM
    unfold setUp
    apply Ends.ite
    · intro hover
      rw [Bool.or_eq_true, Bool.and_eq_true, decide_eq_true_eq] at hover
      have hcancel := h.cancel rule List.mem_cons_self s hs hlive (Or.inl hover)
      refine Ends.bind (p := fun s₁ => (P s₁ ∧ M rule false s₁) ∧ rule.cancel s = .ok s₁) ?_ ?_
      · exact Ends.intro (fun s₁ hs₁ => ⟨hcancel.ok hs₁, hs₁⟩) (fun e he => hcancel.error he)
      · rintro s₁ ⟨⟨hP, hmark⟩, hs₁⟩
        have hdoes : Does P M Q rule s s₁ := ⟨hs, hlive, Or.inr hs₁⟩
        have hothers₁ : ∀ r ∈ rest, M r true s₁ := fun r hr =>
          (h.head r hr).leaves s s₁ true hdoes (hothers r hr)
        refine (ih h.tail hP hothers₁).mono ?_ (fun _ he => he)
        rintro ⟨polled, s'⟩ ⟨hserved, hQ, hR⟩
        refine ⟨hserved.goes h hdoes hmark, hQ, fun R hcancels hRs => ?_⟩
        apply hR R fun r hr => hcancels r (List.mem_cons_of_mem _ hr)
        exact hcancels rule List.mem_cons_self s s₁ hs hs₁ hRs
    · intro hover
      rw [Bool.or_eq_true, Bool.and_eq_true, decide_eq_true_eq] at hover
      refine (ih h.tail hs hothers).map ?_
      rintro ⟨polled, s'⟩ ⟨hserved, hQ, hR⟩
      refine ⟨hserved.stays h (Or.inl rfl) hlive, List.forall_mem_cons.mpr ⟨?_, hQ⟩, fun R hcancels => ?_⟩
      · -- the rules behind it may be cancelled, which does not disturb it
        exact hR (Q rule (rule.interest s)) (fun r hr t t' hP hc => (h.head r hr).noted' t t' _ hP hc)
          (h.noted rule List.mem_cons_self s hs hlive hover)
      · exact hR R fun r hr => hcancels r (List.mem_cons_of_mem _ hr)

/-- **The second loop.**  Each callback still knows what its rule noted, whatever was run before it. -/
theorem dispatch_ends (h : Sound fds P M Q H E (polled.map Prod.fst)) (hs : P s) (hM : ∀ p ∈ polled, M p.1 true s)
    (hQ : ∀ p ∈ polled, p.2 = true → Q p.1 true s) {reports : List Revents}
    (hhup : ∀ p ∈ polled.zip reports, loneHangup p.1 p.2 = true → H p.1.1) :
    Ends (dispatch fds polled reports s) (fun (rules', s') => Served P M Q (polled.map Prod.fst) s rules' s')
      (fun e => E e ∨ e = pollError) := by
  induction polled generalizing s reports with
  | nil => exact .nil hs
  | cons p rest ih =>
    obtain ⟨rule, interested⟩ := p
    obtain ⟨hlive, hothers⟩ := List.forall_mem_cons.mp hM
    have hrest := (List.forall_mem_cons.mp hQ).2
    have hapart := h.head
    have hmem : rule ∈ ((rule, interested) :: rest).map Prod.fst := List.mem_cons_self
    have hlater : ∀ p ∈ rest.zip reports.tail, loneHangup p.1 p.2 = true → H p.1.1 := by
      intro p hp
      cases reports with
      | nil => exact absurd hp (by simp)
      | cons revents reports => exact hhup p (List.mem_cons_of_mem _ hp)
    have hothers₁ : ∀ {s₁ : σ}, Does P M Q rule s s₁ → ∀ p ∈ rest, M p.1 true s₁ := fun hdoes p hp =>
      (hapart p.1 (List.mem_map_of_mem hp)).leaves s _ true hdoes (hothers p hp)
    unfold dispatch
    dsimp only
    apply Ends.ite
    · exact fun _ => Or.inr rfl
    intro _
    apply Ends.ite
    · intro hhung
      have hgone : Over fds rule s ∨ H rule := by
        cases reports with
        | nil => exact absurd hhung (by simp)
        | cons revents reports => exact Or.inr (hhup ((rule, interested), revents) List.mem_cons_self hhung)
      have hcancel := h.cancel rule hmem s hs hlive hgone
      refine Ends.bind (p := fun s₁ => (P s₁ ∧ M rule false s₁) ∧ rule.cancel s = .ok s₁) ?_ ?_
      · exact Ends.intro (fun s₁ hs₁ => ⟨hcancel.ok hs₁, hs₁⟩) (fun e he => Or.inl (hcancel.error he))
      · rintro s₁ ⟨⟨hP, hmark⟩, hs₁⟩
        have hdoes : Does P M Q rule s s₁ := ⟨hs, hlive, Or.inr hs₁⟩
        refine (ih h.tail hP (hothers₁ hdoes) (fun p hp hb => ?_) hlater).mono ?_ (fun _ he => he)
        · exact (hapart p.1 (List.mem_map_of_mem hp)).noted s s₁ hdoes (hrest p hp hb)
        · exact fun _ hserved => hserved.goes h hdoes hmark
    intro _
    apply Ends.ite
    · intro hready
      have hnoted : Q rule true s := by
        apply hQ (rule, interested) List.mem_cons_self
        exact (Bool.and_eq_true_iff.mp hready).1
      have hcallback := h.callback rule hmem s hs hlive hnoted
      refine Ends.bind (p := fun s₁ => rule.callback s = .ok s₁) ?_ ?_
      · exact Ends.intro (fun s₁ hs₁ => hs₁) (fun e he => Or.inl (hcallback.error he))
      · intro s₁ hs₁
        obtain ⟨hP, hlive₁, hused⟩ := hcallback.ok hs₁
        apply Ends.ite
        · intro hbusy
          rw [Bool.and_eq_true, decide_eq_true_eq] at hbusy
          rw [hused hbusy.1] at hbusy
          exact absurd hbusy.2 Bool.false_ne_true
        · intro _
          have hdoes : Does P M Q rule s s₁ := ⟨hs, hlive, Or.inl ⟨hnoted, hs₁⟩⟩
          refine (ih h.tail hP (hothers₁ hdoes) (fun p hp hb => ?_) hlater).map ?_
          · exact (hapart p.1 (List.mem_map_of_mem hp)).noted s s₁ hdoes (hrest p hp hb)
          · exact fun _ hserved => hserved.stays h (Or.inr hdoes) hlive₁
    · intro _
      exact (ih h.tail hs hothers hrest hlater).map fun _ hserved => hserved.stays h (Or.inl rfl) hlive

/-- **A wait on sound rules**: it serves some of them and cancels others; what it throws is a callback's, or that `poll`
reports an error; and when it exits without having been interrupted, no rule that is left was interested. -/
theorem waitNextEvent_ends (h : Sound fds P M Q H E rules) (hs : P s) (hM : ∀ rule ∈ rules, M rule true s)
    {poll : PollResult} (hhup : ∀ rule ∈ hungUp fds rules poll s, H rule) :
    Ends (waitNextEvent fds rules poll s) (fun (result, rules', s') => Served P M Q rules s rules' s' ∧
      (result = .exit → poll ≠ .interrupted → ∀ rule ∈ rules', Q rule false s')) (fun e => E e ∨ e = pollError) := by
  have hsetUp := setUp_ends h hs hM
  unfold waitNextEvent
  refine Ends.bind (p := fun r => setUp fds rules s = .ok r) ?_ ?_
  · exact Ends.intro (fun r hr => hr) fun e he => Or.inl (hsetUp.error he)
  rintro ⟨polled, s₁⟩ hpolled
  obtain ⟨hserved, hQ, -⟩ := hsetUp.ok hpolled
  have hlive : ∀ p ∈ polled, M p.1 true s₁ := fun p hp => hserved.live p.1 (List.mem_map_of_mem hp)
  have hnoted : ∀ p ∈ polled, p.2 = true → Q p.1 true s₁ := by
    intro p hp hb
    rw [← hb]
    exact hQ p hp
  dsimp only
  apply Ends.ite
  · intro hnone
    refine ⟨hserved, fun _ _ rule hrule => ?_⟩
    obtain ⟨p, hp, rfl⟩ := List.mem_map.mp hrule
    have hidle : p.2 = false := by
      rw [Bool.not_eq_true', List.any_eq_false] at hnone
      exact eq_false_of_ne_true (hnone p hp)
    rw [← hidle]
    exact hQ p hp
  · intro _
    have hsound := h.sublist hserved.sub
    cases poll with
    | timeout => exact ⟨hserved, by simp⟩
    | interrupted => exact ⟨hserved, fun _ hno => absurd rfl hno⟩
    | failed =>
      have hnone : ∀ p ∈ polled.zip ([] : List Revents), loneHangup p.1 p.2 = true → H p.1.1 := by simp
      have hdispatch := dispatch_ends hsound hserved.inv hlive hnoted hnone
      exact hdispatch.map fun _ hthen => ⟨hserved.trans h hthen, by simp⟩
    | ready reports =>
      have hlone : ∀ p ∈ polled.zip reports, loneHangup p.1 p.2 = true → H p.1.1 := by
        intro p hp hhung
        apply hhup
        unfold hungUp
        rw [hpolled]
        exact List.mem_map_of_mem (List.mem_filter.mpr ⟨hp, hhung⟩)
      have hdispatch := dispatch_ends hsound hserved.inv hlive hnoted hlone
      exact hdispatch.map fun _ hthen => ⟨hserved.trans h hthen, by simp⟩

end Sound

/-! ## What every function of the rules keeps -/

section Keeps

variable {fds} {R : σ → Prop} {rules rules' : List (Rule σ φ)} {polled : List (Rule σ φ × Bool)} {s s' : σ}

theorem setUp_keeps (hR : ∀ rule ∈ rules, ∀ s s', rule.callback s = .ok s' ∨ rule.cancel s = .ok s' → R s → R s')
    (h : setUp fds rules s = .ok (polled, s')) (hs : R s) : (polled.map Prod.fst).Sublist rules ∧ R s' := by
  induction rules generalizing s polled with
  | nil =>
    obtain ⟨rfl, rfl⟩ := Prod.mk.inj (Except.ok.inj h)
    exact ⟨List.Sublist.refl _, hs⟩
  | cons rule rest ih =>
    have hrest := (List.forall_mem_cons.mp hR).2
    rw [setUp] at h
    split at h
    · obtain ⟨s₁, hs₁, h⟩ := bind_ok.mp h
      obtain ⟨hsub, hs'⟩ := ih hrest h (hR rule List.mem_cons_self s s₁ (Or.inr hs₁) hs)
      exact ⟨hsub.cons _, hs'⟩
    · obtain ⟨⟨polled', s₁⟩, hafter, heq⟩ := map_ok.mp h
      obtain ⟨rfl, rfl⟩ := Prod.mk.inj heq
      obtain ⟨hsub, hs'⟩ := ih hrest hafter hs
      exact ⟨hsub.cons_cons _, hs'⟩

theorem dispatch_keeps {reports : List Revents} (hR : ∀ rule ∈ polled.map Prod.fst, ∀ s s',
      rule.callback s = .ok s' ∨ rule.cancel s = .ok s' → R s → R s')
    (h : dispatch fds polled reports s = .ok (rules', s')) (hs : R s) : R s' := by
  induction polled generalizing s rules' reports with
  | nil =>
    obtain ⟨-, rfl⟩ := Prod.mk.inj (Except.ok.inj h)
    exact hs
  | cons p rest ih =>
    obtain ⟨rule, interested⟩ := p
    have hrest := (List.forall_mem_cons.mp hR).2
    rw [dispatch] at h
    dsimp only at h
    split at h
    · exact absurd h (by simp)
    split at h
    · obtain ⟨s₁, hs₁, h⟩ := bind_ok.mp h
      exact ih hrest h (hR rule List.mem_cons_self s s₁ (Or.inr hs₁) hs)
    split at h
    · obtain ⟨s₁, hs₁, h⟩ := bind_ok.mp h
      split at h
      · exact absurd h (by simp)
      · obtain ⟨⟨rules₁, s₂⟩, hafter, heq⟩ := map_ok.mp h
        obtain ⟨-, rfl⟩ := Prod.mk.inj heq
        exact ih hrest hafter (hR rule List.mem_cons_self s s₁ (Or.inl hs₁) hs)
    · obtain ⟨⟨rules₁, s₂⟩, hafter, heq⟩ := map_ok.mp h
      obtain ⟨-, rfl⟩ := Prod.mk.inj heq
      exact ih hrest hafter hs

/-- **What every function of the rules keeps, a wait keeps.** -/
theorem waitNextEvent_keeps {poll : PollResult} {result : Result}
    (hR : ∀ rule ∈ rules, ∀ s s', rule.callback s = .ok s' ∨ rule.cancel s = .ok s' → R s → R s')
    (h : waitNextEvent fds rules poll s = .ok (result, rules', s')) (hs : R s) : R s' := by
  obtain ⟨⟨polled, s₁⟩, hpolled, h⟩ := bind_ok.mp h
  obtain ⟨hsub, hs₁⟩ := setUp_keeps hR hpolled hs
  have hdispatch : ∀ reports, (dispatch fds polled reports s₁).map (fun (rules, s) => (Result.success, rules, s))
      = .ok (result, rules', s') → R s' := by
    intro reports hd
    obtain ⟨⟨rules₁, s₂⟩, hafter, heq⟩ := map_ok.mp hd
    obtain ⟨-, -, rfl⟩ := by simpa only [Prod.mk.injEq] using heq
    exact dispatch_keeps (fun rule hrule => hR rule (hsub.subset hrule)) hafter hs₁
  dsimp only at h
  split at h
  · obtain ⟨-, -, rfl⟩ := by simpa only [Except.ok.injEq, Prod.mk.injEq] using h
    exact hs₁
  · cases poll with
    | timeout | interrupted =>
      obtain ⟨-, -, rfl⟩ := by simpa only [Except.ok.injEq, Prod.mk.injEq] using h
      exact hs₁
    | failed => exact hdispatch [] h
    | ready reports => exact hdispatch reports h

end Keeps

/-! ## The log of a loop -/

/-- Which of its functions a rule ran. -/
inductive Ran where
  | callback
  | cancel
  deriving DecidableEq, Repr

/-- The numbers of the rules that ran something, with what they ran, the oldest first. -/
abbrev Log := List (Nat × Ran)

/-- The rule with number `i`, which keeps a log of what it runs. -/
def logged (i : Nat) (rule : Rule σ φ) : Rule (σ × Log) φ where
  fd := rule.fd
  direction := rule.direction
  callback := fun (s, log) => (rule.callback s).map fun s' => (s', log ++ [(i, .callback)])
  interest := fun (s, _) => rule.interest s
  cancel := fun (s, log) => (rule.cancel s).map fun s' => (s', log ++ [(i, .cancel)])

/-- An `EventLoop` whose rules are numbered as they are added. -/
structure Logged (σ φ : Type) where
  next : Nat := 0
  rules : List (Rule (σ × Log) φ) := []
  state : σ
  log : Log := []

/-- What the owner of a loop can do; `outside` is whatever happens to the state between two waits. -/
inductive Call (σ φ : Type) where
  | addRule (rule : Rule σ φ)
  | waitNextEvent (poll : PollResult)
  | outside (state : σ)

def step (w : Logged σ φ) : Call σ φ → Except Exception (Logged σ φ)
  | .addRule rule => .ok { w with next := w.next + 1, rules := w.rules ++ [logged w.next rule] }
  | .waitNextEvent poll => (waitNextEvent (fun p => fds p.1) w.rules poll (w.state, w.log)).map
      fun (_, rules, state, log) => { w with rules := rules, state := state, log := log }
  | .outside state => .ok { w with state := state }

def Start (w : Logged σ φ) : Prop := ∃ state, w = { state := state }

/-- The later event is not of a rule that the earlier one cancelled. -/
def Final (e e' : Nat × Ran) : Prop := e.2 = .cancel → e'.1 ≠ e.1

instance : DecidableRel Final := fun e e' => inferInstanceAs (Decidable (e.2 = .cancel → e'.1 ≠ e.1))

/-- The rules with their numbers. -/
def numbered (live : List (Nat × Rule σ φ)) : List (Rule (σ × Log) φ) := live.map fun p => logged p.1 p.2

/-- What one of the loops over the rules `live` has logged when `left` are left of them: each event is of one of
them, none after its cancellation, and what is left has not been cancelled. -/
structure Entries (live left : List (Nat × Rule σ φ)) (new : Log) : Prop where
  sub : left.Sublist live
  known : ∀ e ∈ new, e.1 ∈ live.map Prod.fst
  final : new.Pairwise Final
  alive : ∀ e ∈ new, e.2 = .cancel → e.1 ∉ left.map Prod.fst

section Log

variable {fds} {live left : List (Nat × Rule σ φ)} {new : Log} {i : Nat} {rule : Rule σ φ} {s s' : σ}
  {log log' : Log}

theorem Entries.nil : Entries ([] : List (Nat × Rule σ φ)) [] [] :=
  ⟨List.Sublist.refl _, by simp, List.Pairwise.nil, by simp⟩

theorem Entries.idle (h : Entries live left new) (hi : i ∉ live.map Prod.fst) :
    Entries ((i, rule) :: live) ((i, rule) :: left) new := by
  refine ⟨h.sub.cons_cons _, fun e he => List.mem_cons_of_mem _ (h.known e he), h.final, fun e he hc => ?_⟩
  rw [List.map_cons, List.mem_cons, not_or]
  refine ⟨?_, h.alive e he hc⟩
  rintro rfl
  exact hi (h.known e he)

theorem Entries.served (h : Entries live left new) (hi : i ∉ live.map Prod.fst) :
    Entries ((i, rule) :: live) ((i, rule) :: left) ((i, .callback) :: new) := by
  have hidle : Entries ((i, rule) :: live) ((i, rule) :: left) new := h.idle hi
  obtain ⟨hsub, hknown, hfinal, halive⟩ := hidle
  refine ⟨hsub, ?_, ?_, ?_⟩
  · exact List.forall_mem_cons.mpr ⟨List.mem_cons_self, hknown⟩
  · exact List.pairwise_cons.mpr ⟨fun _ _ hc => absurd hc (by simp), hfinal⟩
  · exact List.forall_mem_cons.mpr ⟨fun hc => absurd hc (by simp), halive⟩

theorem Entries.cancelled (h : Entries live left new) (hi : i ∉ live.map Prod.fst) :
    Entries ((i, rule) :: live) left ((i, .cancel) :: new) := by
  refine ⟨h.sub.cons _, ?_, ?_, ?_⟩
  · exact List.forall_mem_cons.mpr ⟨List.mem_cons_self, fun e he => List.mem_cons_of_mem _ (h.known e he)⟩
  · refine List.pairwise_cons.mpr ⟨?_, h.final⟩
    rintro e he - rfl
    exact hi (h.known e he)
  · refine List.forall_mem_cons.mpr ⟨fun _ hleft => ?_, h.alive⟩
    exact hi ((h.sub.map _).subset hleft)

theorem setUp_logs (hnodup : (live.map Prod.fst).Nodup) {polled : List (Rule (σ × Log) φ × Bool)}
    (h : setUp (fun p : σ × Log => fds p.1) (numbered live) (s, log) = .ok (polled, s', log')) :
    ∃ left new, polled.map Prod.fst = numbered left ∧ log' = log ++ new ∧ Entries live left new := by
  induction live generalizing s log polled with
  | nil =>
    obtain ⟨rfl, heq⟩ := Prod.mk.inj (Except.ok.inj h)
    obtain ⟨-, rfl⟩ := Prod.mk.inj heq
    exact ⟨[], [], rfl, (List.append_nil _).symm, Entries.nil⟩
  | cons p live ih =>
    obtain ⟨i, rule⟩ := p
    obtain ⟨hi, hrest⟩ := List.nodup_cons.mp hnodup
    change setUp _ (logged i rule :: numbered live) _ = _ at h
    unfold setUp at h
    split at h
    · obtain ⟨_, hcancel, hsetUp⟩ := bind_ok.mp h
      obtain ⟨s₁, -, rfl⟩ := map_ok.mp hcancel
      obtain ⟨left, new, hpolled, hlog, hentries⟩ := ih hrest hsetUp
      refine ⟨left, (i, .cancel) :: new, hpolled, ?_, hentries.cancelled hi⟩
      rw [hlog, List.append_assoc, List.singleton_append]
    · obtain ⟨⟨polled₁, s₁, log₁⟩, hsetUp, heq⟩ := map_ok.mp h
      obtain ⟨rfl, rest⟩ := Prod.mk.inj heq
      obtain ⟨rfl, rfl⟩ := Prod.mk.inj rest
      obtain ⟨left, new, hpolled, hlog, hentries⟩ := ih hrest hsetUp
      exact ⟨(i, rule) :: left, new, congrArg (logged i rule :: ·) hpolled, hlog, hentries.idle hi⟩

theorem dispatch_logs (hnodup : (live.map Prod.fst).Nodup) {polled : List (Rule (σ × Log) φ × Bool)}
    (hpolled : polled.map Prod.fst = numbered live) {reports : List Revents} {rules' : List (Rule (σ × Log) φ)}
    (h : dispatch (fun p : σ × Log => fds p.1) polled reports (s, log) = .ok (rules', s', log')) :
    ∃ left new, rules' = numbered left ∧ log' = log ++ new ∧ Entries live left new := by
  induction live generalizing s log polled reports rules' with
  | nil =>
    obtain rfl : polled = [] := List.map_eq_nil_iff.mp hpolled
    obtain ⟨rfl, heq⟩ := Prod.mk.inj (Except.ok.inj h)
    obtain ⟨-, rfl⟩ := Prod.mk.inj heq
    exact ⟨[], [], rfl, (List.append_nil _).symm, Entries.nil⟩
  | cons p live ih =>
    obtain ⟨i, rule⟩ := p
    obtain ⟨hi, hrest⟩ := List.nodup_cons.mp hnodup
    obtain ⟨⟨_, interested⟩, polled, rfl, rfl, hwaiting⟩ := List.map_eq_cons_iff.mp hpolled
    unfold dispatch at h
    dsimp only at h
    split at h
    · exact absurd h (by simp)
    split at h
    · obtain ⟨_, hcancel, hrun⟩ := bind_ok.mp h
      obtain ⟨s₁, -, rfl⟩ := map_ok.mp hcancel
      obtain ⟨left, new, hrules, hlog, hentries⟩ := ih hrest hwaiting hrun
      refine ⟨left, (i, .cancel) :: new, hrules, ?_, hentries.cancelled hi⟩
      rw [hlog, List.append_assoc, List.singleton_append]
    split at h
    · obtain ⟨_, hcallback, hrun⟩ := bind_ok.mp h
      obtain ⟨s₁, -, rfl⟩ := map_ok.mp hcallback
      split at hrun
      · exact absurd hrun (by simp)
      obtain ⟨⟨rules₁, s₂, log₂⟩, hafter, heq⟩ := map_ok.mp hrun
      obtain ⟨rfl, rest⟩ := Prod.mk.inj heq
      obtain ⟨rfl, rfl⟩ := Prod.mk.inj rest
      obtain ⟨left, new, hrules, hlog, hentries⟩ := ih hrest hwaiting hafter
      refine ⟨(i, rule) :: left, (i, .callback) :: new, congrArg (logged i rule :: ·) hrules, ?_,
        hentries.served hi⟩
      rw [hlog, List.append_assoc, List.singleton_append]
    · obtain ⟨⟨rules₁, s₂, log₂⟩, hrun, heq⟩ := map_ok.mp h
      obtain ⟨rfl, rest⟩ := Prod.mk.inj heq
      obtain ⟨rfl, rfl⟩ := Prod.mk.inj rest
      obtain ⟨left, new, hrules, hlog, hentries⟩ := ih hrest hwaiting hrun
      exact ⟨(i, rule) :: left, new, congrArg (logged i rule :: ·) hrules, hlog, hentries.idle hi⟩

/-- One loop after the other. -/
theorem Entries.trans {left' : List (Nat × Rule σ φ)} {new' : Log} (h : Entries live left new)
    (h' : Entries left left' new') : Entries live left' (new ++ new') := by
  refine ⟨h'.sub.trans h.sub, fun e he => ?_, ?_, fun e he hc => ?_⟩
  · rcases List.mem_append.mp he with he | he
    · exact h.known e he
    · exact (h.sub.map _).subset (h'.known e he)
  · refine List.pairwise_append.mpr ⟨h.final, h'.final, ?_⟩
    rintro e he e' he' hc heq
    exact h.alive e he hc (heq ▸ h'.known e' he')
  · rcases List.mem_append.mp he with he | he
    · intro hleft
      exact h.alive e he hc ((h'.sub.map _).subset hleft)
    · exact h'.alive e he hc

theorem waitNextEvent_logs (hnodup : (live.map Prod.fst).Nodup) {poll : PollResult} {result : Result}
    {rules' : List (Rule (σ × Log) φ)}
    (h : waitNextEvent (fun p : σ × Log => fds p.1) (numbered live) poll (s, log) = .ok (result, rules', s', log')) :
    ∃ left new, rules' = numbered left ∧ log' = log ++ new ∧ Entries live left new := by
  unfold waitNextEvent at h
  obtain ⟨⟨polled, s₁, log₁⟩, hsetUp, hrun⟩ := bind_ok.mp h
  obtain ⟨left, new, hpolled, rfl, hentries⟩ := setUp_logs hnodup hsetUp
  have hleft : (left.map Prod.fst).Nodup := hnodup.sublist (hentries.sub.map _)
  have hdispatched : ∀ {reports : List Revents} {result' : Result},
      (dispatch (fun p : σ × Log => fds p.1) polled reports (s₁, log ++ new)).map
        (fun (rules, s) => (result', rules, s)) = .ok (result, rules', s', log') →
      ∃ left new, rules' = numbered left ∧ log' = log ++ new ∧ Entries live left new := by
    intro reports result' hrun
    obtain ⟨⟨rules₁, s₂, log₂⟩, hdispatch, heq⟩ := map_ok.mp hrun
    simp only [Prod.mk.injEq] at heq
    obtain ⟨-, rfl, rfl, rfl⟩ := heq
    obtain ⟨left', new', hrules, rfl, hentries'⟩ := dispatch_logs hleft hpolled hdispatch
    exact ⟨left', new ++ new', hrules, List.append_assoc _ _ _, hentries.trans hentries'⟩
  -- nothing more is run where `poll` is not heard
  have hquiet : ∀ {result' : Result},
      (.ok (result', polled.map Prod.fst, s₁, log ++ new) : Except Exception _)
        = .ok (result, rules', s', log') →
      ∃ left new, rules' = numbered left ∧ log' = log ++ new ∧ Entries live left new := by
    intro result' heq
    simp only [Except.ok.injEq, Prod.mk.injEq] at heq
    obtain ⟨-, rfl, -, rfl⟩ := heq
    exact ⟨left, new, hpolled, rfl, hentries⟩
  dsimp only at hrun
  split at hrun
  · exact hquiet hrun
  · split at hrun
    · exact hquiet hrun
    · exact hquiet hrun
    · exact hdispatched hrun
    · exact hdispatched hrun

/-- The rules of the loop are those that were added and have not been cancelled, and the log is final. -/
structure Kept (w : Logged σ φ) (live : List (Nat × Rule σ φ)) : Prop where
  rules : w.rules = numbered live
  nodup : (live.map Prod.fst).Nodup
  added : ∀ i ∈ live.map Prod.fst, i < w.next
  known : ∀ e ∈ w.log, e.1 < w.next
  final : w.log.Pairwise Final
  alive : ∀ e ∈ w.log, e.2 = .cancel → e.1 ∉ live.map Prod.fst

variable {w w' : Logged σ φ}

theorem Kept.waited (h : Kept w live) (hentries : Entries live left new) :
    Kept { w with rules := numbered left, state := s, log := w.log ++ new } left := by
  refine ⟨rfl, h.nodup.sublist (hentries.sub.map _), fun i hi => h.added i ((hentries.sub.map _).subset hi), ?_, ?_, ?_⟩
  · intro e he
    rcases List.mem_append.mp he with he | he
    · exact h.known e he
    · exact h.added e.1 (hentries.known e he)
  · refine List.pairwise_append.mpr ⟨h.final, hentries.final, ?_⟩
    rintro e he e' he' hc heq
    exact h.alive e he hc (heq ▸ hentries.known e' he')
  · intro e he hc hleft
    rcases List.mem_append.mp he with he | he
    · exact h.alive e he hc ((hentries.sub.map _).subset hleft)
    · exact hentries.alive e he hc hleft

theorem Kept.addRule (h : Kept w live) (rule : Rule σ φ) :
    Kept { w with next := w.next + 1, rules := w.rules ++ [logged w.next rule] } (live ++ [(w.next, rule)]) := by
  have hmap : (live ++ [(w.next, rule)]).map Prod.fst = live.map Prod.fst ++ [w.next] := List.map_append
  have hnew : w.next ∉ live.map Prod.fst := fun hmem => Nat.lt_irrefl _ (h.added _ hmem)
  refine ⟨?_, ?_, ?_, fun e he => Nat.lt_succ_of_lt (h.known e he), h.final, ?_⟩
  · rw [numbered, List.map_append, h.rules]
    rfl
  · rw [hmap]
    exact List.nodup_append_comm.mp (List.nodup_cons.mpr ⟨hnew, h.nodup⟩)
  · rw [hmap]
    intro i hi
    rcases List.mem_append.mp hi with hi | hi
    · exact Nat.lt_succ_of_lt (h.added i hi)
    · rw [List.mem_singleton.mp hi]
      exact Nat.lt_succ_self _
  · rw [hmap]
    intro e he hc hmem
    rcases List.mem_append.mp hmem with hmem | hmem
    · exact h.alive e he hc hmem
    · have hlt := h.known e he
      rw [List.mem_singleton.mp hmem] at hlt
      exact Nat.lt_irrefl _ hlt

/-- **One call of the owner.** -/
theorem Kept.step {call : Call σ φ} (h : Kept w live) (hs : step fds w call = .ok w') : ∃ live', Kept w' live' := by
  cases call with
  | addRule rule =>
    obtain rfl := Except.ok.inj hs
    exact ⟨_, h.addRule rule⟩
  | waitNextEvent poll =>
    obtain ⟨⟨result, rules, s, log⟩, hwait, rfl⟩ := map_ok.mp hs
    rw [h.rules] at hwait
    obtain ⟨left, new, rfl, rfl, hentries⟩ := waitNextEvent_logs h.nodup hwait
    exact ⟨left, h.waited hentries⟩
  | outside state =>
    obtain rfl := Except.ok.inj hs
    exact ⟨live, h.rules, h.nodup, h.added, h.known, h.final, h.alive⟩

/-- **A cancelled rule is never heard of again.**  However rules are added between the waits, whatever `poll` reports in
each wait and whatever happens to the state in between, once the cancel function of a rule has returned, neither that
nor its callback runs again; and the rule is not among those of the loop, whose interest is asked. -/
theorem cancel_is_final (hr : Reach Start (step fds) (fun _ _ => True) w) :
    w.log.Pairwise (fun e e' => e.2 = .cancel → e'.1 ≠ e.1) ∧
    ∃ live : List (Nat × Rule σ φ), w.rules = numbered live ∧ (live.map Prod.fst).Nodup ∧
      ∀ e ∈ w.log, e.2 = .cancel → e.1 ∉ live.map Prod.fst := by
  obtain ⟨live, hkept⟩ : ∃ live, Kept w live := by
    refine Reach.invariant (P := fun w => ∃ live, Kept w live) ?_ ?_ hr
    · rintro w ⟨state, rfl⟩
      exact ⟨[], rfl, List.nodup_nil, by simp, by simp, List.Pairwise.nil, by simp⟩
    · rintro w call w' ⟨live, h⟩ - hs
      exact h.step hs
  exact ⟨hkept.final, live, hkept.rules, hkept.nodup, hkept.alive⟩

end Log

/-- A rule that writes a descriptor, and one that reads it until it has reached the end. -/
def copies : List (Rule FDWrapper Unit) :=
  [{ fd := (), direction := .pollOut, callback := fun fd => .ok { fd with writeCount := fd.writeCount + 1 } },
    { fd := (), direction := .pollIn,
      callback := fun fd => .ok { fd with eof := true, readCount := fd.readCount + 1 } }]

/-- Both rules are served in the first wait, the reader is cancelled at the beginning of the second, and the writer
by a hangup. -/
theorem cancel_is_final_copies : ∃ w : Logged FDWrapper Unit,
    Reach Start (step fun fd _ => fd) (fun _ _ => True) w ∧
    w.log = [(0, .callback), (1, .callback), (1, .cancel), (0, .callback), (0, .cancel)] ∧
    w.log.Pairwise fun e e' => e.2 = .cancel → e'.1 ≠ e.1 := by
  obtain ⟨w, hr, htest⟩ : ∃ w, Reach Start (step fun fd _ => fd) (fun _ _ => True) w ∧
      decide (w.log = [(0, .callback), (1, .callback), (1, .cancel), (0, .callback), (0, .cancel)]) = true :=
    Reach.exec_any _ (s := { state := {} })
      (l := copies.map .addRule ++ [.waitNextEvent (.ready [{ pollOut := true }, { pollIn := true }]),
        .waitNextEvent (.ready [{ pollOut := true }]), .waitNextEvent (.ready [{ pollHup := true }])])
      (.start ⟨_, rfl⟩) (by decide +kernel)
  exact ⟨w, hr, of_decide_eq_true htest, (cancel_is_final hr).1⟩

end EventLoop

end Sponge
