/-
# `Sponge.ArpCache` — the ARP cache is what was learned in the last thirty seconds.

`IP2EthernetCache` keeps a map and a queue of expiry times.  `Holds` connects both to the history of
`set_cache` calls through `Lib.Expiry`: the queue is right for the history, and the map is what is current.
`set_cache` and `try_clean_expire_cache` keep it, and so does every call of an interface, whose lessons come
from the ARP messages it receives.

The times are `size_t`s, so this holds until the clock is thirty seconds away from `2^64` ms.  A lesson that comes
later gets an expiry time that has passed long ago, and the next tick forgets it (`late_lesson_forgotten`).  What the
cache knows was learned at any time (`Remembers`).
-/
import Sponge.NetworkInterface
import Sponge.Lib.Expiry
import Mathlib.Data.List.TakeWhile

namespace Sponge

open Sponge.Lib

/-! ## The cache by itself -/

namespace IP2EthernetCache

/-- The cache is right for a history of `set_cache` calls, each with lifetime `ttl`. -/
structure Holds (ttl now : Nat) (history : List (UInt32 × EthernetAddress × Nat)) (c : IP2EthernetCache) :
    Prop where
  queue : Expiring ttl now history c.cachExpireQueue
  known : ∀ ip, c.getCache ip = current ttl now history ip

variable {ttl now : Nat} {history : List (UInt32 × EthernetAddress × Nat)} {c : IP2EthernetCache}

theorem Holds.new (ttl : Nat) : Holds ttl 0 [] {} := ⟨Expiring.nil ttl 0, fun _ => rfl⟩

/-- **`set_cache`** is a lesson. -/
theorem Holds.setCache (h : Holds ttl now history c) (hearly : now + ttl < 2 ^ 64) (ip : UInt32)
    (eth : EthernetAddress) : Holds ttl now (history ++ [(ip, eth, now)]) (c.setCache ip eth now ttl) := by
  have hqueue : (c.setCache ip eth now ttl).cachExpireQueue
      = c.cachExpireQueue.eraseP (fun it => it.2 = ip) ++ [(now + ttl, ip)] := by
    rw [IP2EthernetCache.setCache, add64_of_lt hearly]
    dsimp only
    split
    · rfl
    · -- not in the map, so not in the queue either
      rename_i hnone
      rw [List.eraseP_of_forall_not]
      rintro ⟨e, k⟩ hmem hk
      obtain rfl : k = ip := by simpa using hk
      refine hnone ?_
      have hsome := (h.queue.key_iff k).mp ⟨e, hmem⟩
      rwa [← h.known k] at hsome
  refine ⟨by rw [hqueue]; exact h.queue.learn ip eth, fun ip' => ?_⟩
  rw [current_learn]
  by_cases hip : ip = ip'
  · rw [if_pos hip, ← hip]
    exact AList.lookup_insert _
  · rw [if_neg hip, ← h.known ip']
    exact AList.lookup_insert_ne (fun heq => hip heq.symm)

/-- The loop drops what is overdue in front and forgets its keys. -/
theorem cleanLoop_spec (time : Nat) (queue : List (Nat × UInt32))
    (cache : AList (fun _ : UInt32 => EthernetAddress)) :
    (cleanLoop time queue cache).cachExpireQueue = queue.dropWhile (fun e => decide (e.1 < time)) ∧
    ∀ ip, (cleanLoop time queue cache).getCache ip
      = if ip ∈ (queue.takeWhile fun e => decide (e.1 < time)).map Prod.snd then none
        else cache.lookup ip := by
  induction queue generalizing cache with
  | nil => exact ⟨rfl, fun ip => rfl⟩
  | cons front rest ih =>
    rw [cleanLoop]
    by_cases hdue : front.1 < time
    · obtain ⟨hqueue, hget⟩ := ih (cache.erase front.2)
      rw [if_pos hdue, List.dropWhile_cons_of_pos (by simpa using hdue),
        List.takeWhile_cons_of_pos (by simpa using hdue)]
      refine ⟨hqueue, fun ip => ?_⟩
      rw [hget, List.map_cons]
      by_cases hip : ip = front.2
      · rw [if_pos (List.mem_cons.mpr (Or.inl hip)), hip]
        split
        · rfl
        · exact AList.lookup_erase _ _
      · by_cases hmem : ip ∈ (rest.takeWhile fun e => decide (e.1 < time)).map Prod.snd
        · rw [if_pos hmem, if_pos (List.mem_cons_of_mem _ hmem)]
        · rw [if_neg hmem, if_neg (by rw [List.mem_cons, not_or]; exact ⟨hip, hmem⟩)]
          exact AList.lookup_erase_ne hip
    · rw [if_neg hdue, List.dropWhile_cons_of_neg (by simpa using hdue),
        List.takeWhile_cons_of_neg (by simpa using hdue)]
      exact ⟨rfl, fun ip => rfl⟩

/-- **`try_clean_expire_cache`** forgets exactly what is no longer current. -/
theorem Holds.clean (h : Holds ttl now history c) {time : Nat} (hle : now ≤ time) :
    Holds ttl time history (c.tryCleanExpireCache time) := by
  obtain ⟨hqueue, hget⟩ := cleanLoop_spec time c.cachExpireQueue c.ipMacCache
  have hnew := h.queue.advance hle
  refine ⟨by rw [tryCleanExpireCache, hqueue]; exact hnew, fun ip => ?_⟩
  have hkey := hnew.key_iff ip
  rw [tryCleanExpireCache, hget]
  by_cases hdue : ip ∈ (c.cachExpireQueue.takeWhile fun e => decide (e.1 < time)).map Prod.snd
  · -- the only entry of the key was overdue
    rw [if_pos hdue]
    obtain ⟨x, hx, rfl⟩ := List.mem_map.mp hdue
    have hlt : x.1 < time := by simpa using List.mem_takeWhile_imp hx
    cases hcur : current ttl time history x.2 with
    | none => rfl
    | some eth =>
      obtain ⟨e, he⟩ := hkey.mpr (by rw [hcur]; rfl)
      have hmem := (mem_dropWhile_due h.queue.sorted _).mp he
      obtain ⟨eth', t, hlatest, he', -⟩ := (h.queue.entry e x.2).mp hmem.1
      obtain ⟨eth'', t', hlatest', hx', -⟩ := (h.queue.entry x.1 x.2).mp (List.takeWhile_subset _ hx)
      obtain ⟨-, rfl⟩ := Prod.mk.inj (Option.some.inj (hlatest.symm.trans hlatest'))
      have hge : time ≤ e := hmem.2
      omega
  · rw [if_neg hdue]
    have hold : c.ipMacCache.lookup ip = current ttl now history ip := h.known ip
    rw [hold]
    rcases current_advance ttl hle history ip with hnone | heq
    · -- nothing current later: there was no entry that could stay
      rw [hnone]
      cases hcur : current ttl now history ip with
      | none => rfl
      | some eth =>
        obtain ⟨e, he⟩ := (h.queue.key_iff ip).mpr (by rw [hcur]; rfl)
        rw [← List.takeWhile_append_dropWhile (p := fun e : Nat × UInt32 => decide (e.1 < time))
          (l := c.cachExpireQueue)] at he
        rcases List.mem_append.mp he with he | he
        · exact absurd (List.mem_map.mpr ⟨_, he, rfl⟩) hdue
        · have hsome := hkey.mp ⟨e, he⟩
          rw [hnone] at hsome
          exact absurd hsome (by simp)
    · exact heq.symm

end IP2EthernetCache

/-! ## The cache of an interface -/

namespace NetworkInterface

/-- What a call teaches the interface, in order. -/
def lessonsOf : Call → List (UInt32 × EthernetAddress)
  | .sendDatagram _ _ => []
  | .recvFrame frame => (arpOf frame).elim [] ARPMessage.lessons
  | .tick _ => []

/-- How much time a call lets pass. -/
def elapsed : Call → Nat
  | .tick msSinceLastTick => msSinceLastTick
  | _ => 0

end NetworkInterface

/-- An interface, the sum of its ticks, and its `set_cache` calls with their times. -/
structure CacheRun where
  iface : NetworkInterface
  now : Nat := 0
  history : List (UInt32 × EthernetAddress × Nat) := []
  deriving DecidableEq

namespace CacheRun

open NetworkInterface (Call learn lessonsOf elapsed Received)

def step (w : CacheRun) (call : Call) : Except Exception CacheRun :=
  (w.iface.step call).map fun iface =>
    { iface := iface
      now := w.now + elapsed call
      history := w.history ++ (lessonsOf call).map fun lesson => (lesson.1, lesson.2, w.now) }

/-- A new interface. -/
def Start (w : CacheRun) : Prop := ∃ eth ip, w = { iface := NetworkInterface.new eth ip }

/-- The ticks add up to less than `2^64 - 30000`. -/
def inTime (w : CacheRun) (call : Call) : Prop := w.now + elapsed call + 30000 < 2 ^ 64

instance (w : CacheRun) : DecidablePred w.inTime := fun _ => inferInstanceAs (Decidable (_ < _))

variable {w w' : CacheRun} {call : Call}

/-- **What a call does to the cache**: frames and kept datagrams are no concern of it, the lessons of the call are
learned one by one, and a tick lets time pass. -/
theorem step_keeps {P : CacheRun → Prop}
    (hframe : ∀ w frames kept, P w → P { w with iface := { w.iface with framesOut := frames, arpIpQueue := kept } })
    (hlearn : ∀ w lesson, P w → P { w with
      iface := w.iface.learn lesson, history := w.history ++ [(lesson.1, lesson.2, w.now)] })
    (htick : ∀ ms, call = .tick ms → P { w with iface := w.iface.tick ms, now := w.now + ms })
    (h : P w) (hs : w.step call = .ok w') : P w' := by
  have hlessons : ∀ (lessons : List (UInt32 × EthernetAddress)) (w : CacheRun), P w → P { w with
      iface := lessons.foldl learn w.iface
      history := w.history ++ lessons.map fun lesson => (lesson.1, lesson.2, w.now) } := by
    intro lessons
    induction lessons with
    | nil => exact fun w h => by simpa using h
    | cons lesson rest ih =>
      intro w h
      have hrest := ih _ (hlearn w lesson h)
      rwa [List.append_assoc] at hrest
  obtain ⟨iface, hiface, rfl⟩ := map_ok.mp hs
  cases call with
  | sendDatagram dgram nextHop =>
    rw [lessonsOf, List.map_nil, List.append_nil]
    rcases NetworkInterface.sendDatagram_cases hiface with ⟨_, _, -, -, rfl⟩ | ⟨-, -, rfl⟩ | ⟨-, -, rfl⟩
    · exact hframe _ _ _ h
    · exact h
    · exact hframe _ _ _ h
  | recvFrame frame =>
    rw [lessonsOf]
    cases NetworkInterface.recvFrame_step hiface with
    | other hother =>
      rw [NetworkInterface.arpOf_other hother, Option.elim_none, List.map_nil, List.append_nil]
      exact h
    | request harp hparse hop frames hframes =>
      rw [NetworkInterface.arpOf_parse harp hparse]
      exact hlessons _ _ (hframe _ _ _ h)
    | reply harp hparse hop hnone =>
      rw [NetworkInterface.arpOf_parse harp hparse]
      exact hlessons _ _ h
    | resolved harp hparse hop hkept hpayload =>
      rw [NetworkInterface.arpOf_parse harp hparse]
      exact hlessons _ _ (hframe _ _ _ h)
  | tick ms =>
    obtain rfl := Except.ok.inj hiface
    rw [lessonsOf, List.map_nil, List.append_nil]
    exact htick ms rfl

/-! ## What the cache knows was learned -/

/-- Everything in the cache was learned, whenever that was. -/
def Remembers (w : CacheRun) : Prop :=
  ∀ ip eth, w.iface.ipMacMap.getCache ip = some eth → ∃ time, (ip, eth, time) ∈ w.history

theorem Remembers.start (hs : Start w) : Remembers w := by
  obtain ⟨eth, ip, rfl⟩ := hs
  intro _ _ hget
  cases hget

theorem Remembers.learn (h : Remembers w) (lesson : UInt32 × EthernetAddress) : Remembers { w with
    iface := w.iface.learn lesson, history := w.history ++ [(lesson.1, lesson.2, w.now)] } := by
  intro ip eth hget
  by_cases hip : ip = lesson.1
  · rw [hip] at hget ⊢
    obtain rfl : lesson.2 = eth := Option.some.inj ((AList.lookup_insert _).symm.trans hget)
    exact ⟨w.now, List.mem_append_right _ List.mem_cons_self⟩
  · obtain ⟨time, hmem⟩ := h ip eth ((AList.lookup_insert_ne hip).symm.trans hget)
    exact ⟨time, List.mem_append_left _ hmem⟩

theorem Remembers.tick (h : Remembers w) (ms : Nat) :
    Remembers { w with iface := w.iface.tick ms, now := w.now + ms } := by
  intro ip eth hget
  refine h ip eth ?_
  have hclean := (IP2EthernetCache.cleanLoop_spec (add64 w.iface.msSinceLastTick ms)
    w.iface.ipMacMap.cachExpireQueue w.iface.ipMacMap.ipMacCache).2 ip
  split at hclean
  · exact absurd (hclean.symm.trans hget) (by simp)
  · exact hclean.symm.trans hget

theorem Remembers.step (h : Remembers w) (hs : w.step call = .ok w') : Remembers w' :=
  step_keeps (fun _ _ _ h => h) (fun _ lesson h => h.learn lesson) (fun ms _ => h.tick ms) h hs

/-! ## The cache is what is current -/

/-- The interface's clock is the sum of the ticks and far from its end, and its cache is right for its history. -/
structure Inv (w : CacheRun) : Prop where
  clock : w.iface.msSinceLastTick = w.now
  early : w.now + 30000 < 2 ^ 64
  expireTime : w.iface.expireTime = 30000
  holds : w.iface.ipMacMap.Holds 30000 w.now w.history

theorem Inv.start (hs : Start w) : Inv w := by
  obtain ⟨eth, ip, rfl⟩ := hs
  have hearly : 0 + 30000 < 2 ^ 64 := by decide
  exact ⟨rfl, hearly, rfl, IP2EthernetCache.Holds.new 30000⟩

theorem Inv.learn (h : Inv w) (lesson : UInt32 × EthernetAddress) : Inv { w with
    iface := w.iface.learn lesson, history := w.history ++ [(lesson.1, lesson.2, w.now)] } := by
  refine ⟨h.clock, h.early, h.expireTime, ?_⟩
  show IP2EthernetCache.Holds 30000 w.now (w.history ++ [(lesson.1, lesson.2, w.now)])
    (w.iface.ipMacMap.setCache lesson.1 lesson.2 w.iface.msSinceLastTick w.iface.expireTime)
  rw [h.clock, h.expireTime]
  exact h.holds.setCache h.early lesson.1 lesson.2

theorem Inv.tick (h : Inv w) {ms : Nat} (hms : w.now + ms + 30000 < 2 ^ 64) :
    Inv { w with iface := w.iface.tick ms, now := w.now + ms } := by
  have hclock : add64 w.iface.msSinceLastTick ms = w.now + ms := by
    rw [h.clock, add64_of_lt (by omega)]
  refine ⟨hclock, hms, h.expireTime, ?_⟩
  show IP2EthernetCache.Holds 30000 (w.now + ms) w.history
    (w.iface.ipMacMap.tryCleanExpireCache (add64 w.iface.msSinceLastTick ms))
  rw [hclock]
  exact h.holds.clean (Nat.le_add_right _ _)

theorem Inv.step (h : Inv w) (hok : w.inTime call) (hs : w.step call = .ok w') : Inv w' := by
  refine step_keeps (fun _ _ _ h => ⟨h.clock, h.early, h.expireTime, h.holds⟩) (fun _ lesson h => h.learn lesson)
    ?_ h hs
  rintro ms rfl
  exact h.tick hok

theorem Inv.of_reach (hr : Reach Start CacheRun.step inTime w) : Inv w :=
  Reach.invariant (P := Inv) (fun _ hs => Inv.start hs) (fun _ _ _ h hok hs => h.step hok hs) hr

/-- **The cache is what was learned in the last thirty seconds**, in every state of every run whose ticks stay below
`2^64 - 30000` ms: one entry in the queue for each address in the map and no other, sorted by expiry time, and
`get_cache` returns the latest mapping while no more than 30000 ms have passed since it was learned. -/
theorem arp_cache_exact (hr : Reach Start step inTime w) :
    (w.iface.ipMacMap.cachExpireQueue.map Prod.snd).Nodup ∧
    (∀ ip, ip ∈ w.iface.ipMacMap.ipMacCache ↔ ∃ e, (e, ip) ∈ w.iface.ipMacMap.cachExpireQueue) ∧
    (w.iface.ipMacMap.cachExpireQueue.Pairwise fun a b => a.1 ≤ b.1) ∧
    ∀ ip, w.iface.ipMacMap.getCache ip = current 30000 w.now w.history ip := by
  have h := Inv.of_reach hr
  refine ⟨h.holds.queue.once, fun ip => ?_, h.holds.queue.sorted, h.holds.known⟩
  rw [h.holds.queue.key_iff, ← h.holds.known, IP2EthernetCache.getCache, AList.lookup_isSome]

/-- Two hosts announce themselves ten seconds apart, the first again later: at 45 s only the second has
expired. -/
theorem arp_cache_exact_refreshed : ∃ w : CacheRun, Reach Start step inTime w ∧
    w.history.length = 3 ∧ w.now = 45000 ∧ (latest w.history 1).isSome ∧ (latest w.history 2).isSome ∧
    w.iface.ipMacMap.getCache 1 = some { b0 := 2, b5 := 1 } ∧ current 30000 w.now w.history 2 = none := by
  obtain ⟨w, hr, htest⟩ : ∃ w, Reach Start step inTime w ∧
      (decide (w.history.length = 3) && decide (w.now = 45000) && (latest w.history 1).isSome
        && (latest w.history 2).isSome && decide (w.iface.ipMacMap.getCache 1 = some { b0 := 2, b5 := 1 })
        && decide (w.iface.ipMacMap.getCache 2 = none)) = true :=
    Reach.exec_any _ (s := { iface := NetworkInterface.new { b0 := 2, b5 := 9 } { ipv4Numeric := 9 } })
      (l := [
        .recvFrame (NetworkInterface.arpFrame
          { opcode := ARPMessage.OPCODE_REQUEST, senderIpAddress := 1
            senderEthernetAddress := { b0 := 2, b5 := 1 }
            targetIpAddress := 7 }),
        .tick 10000,
        .recvFrame (NetworkInterface.arpFrame
          { opcode := ARPMessage.OPCODE_REQUEST, senderIpAddress := 2
            senderEthernetAddress := { b0 := 2, b5 := 2 }
            targetIpAddress := 7 }),
        .tick 5000,
        .recvFrame (NetworkInterface.arpFrame
          { opcode := ARPMessage.OPCODE_REPLY, senderIpAddress := 1
            senderEthernetAddress := { b0 := 2, b5 := 1 }
            targetIpAddress := 7 }),
        .tick 30000])
      (.start ⟨_, _, rfl⟩) (by decide +kernel)
  simp only [Bool.and_eq_true, decide_eq_true_eq] at htest
  obtain ⟨⟨⟨⟨⟨hlen, hnow⟩, h1⟩, h2⟩, hget⟩, hgone⟩ := htest
  exact ⟨w, hr, hlen, hnow, h1, h2, hget, ((arp_cache_exact hr).2.2.2 2).symm.trans hgone⟩

/-- **A late lesson is forgotten at once.**  One millisecond before the clock starts again a host announces itself; its
entry gets the expiry time 29999, and a tick of 0 ms erases it. -/
theorem late_lesson_forgotten : ∃ w : CacheRun, Reach Start step (fun _ _ => True) w ∧
    w.now = 2 ^ 64 - 1 ∧ w.history = [(1, { b0 := 2, b5 := 1 }, 2 ^ 64 - 1)] ∧
    current 30000 w.now w.history 1 = some { b0 := 2, b5 := 1 } ∧ w.iface.ipMacMap.getCache 1 = none := by
  obtain ⟨w, hr, htest⟩ : ∃ w, Reach Start step (fun _ _ => True) w ∧
      decide (w.now = 2 ^ 64 - 1 ∧ w.history = [(1, { b0 := 2, b5 := 1 }, 2 ^ 64 - 1)] ∧
        current 30000 w.now w.history 1 = some { b0 := 2, b5 := 1 } ∧ w.iface.ipMacMap.getCache 1 = none) = true :=
    Reach.exec_any _ (s := { iface := NetworkInterface.new { b0 := 2, b5 := 9 } { ipv4Numeric := 9 } })
      (l := [
        .tick (2 ^ 64 - 1),
        .recvFrame (NetworkInterface.arpFrame
          { opcode := ARPMessage.OPCODE_REPLY, senderIpAddress := 1
            senderEthernetAddress := { b0 := 2, b5 := 1 }
            targetIpAddress := 9 }),
        .tick 0])
      (.start ⟨_, _, rfl⟩) (by decide +kernel)
  exact ⟨w, hr, of_decide_eq_true htest⟩

end CacheRun

end Sponge
