/-
# `Sponge.NetworkInterface` — IP over Ethernet, with ARP.

Models `libsponge/network_interface.{hh,cc}`: the cache of learned addresses, and the interface that
resolves the next hop of each datagram.  The two `unordered_map`s are `AList`s, which carry the proof that
no key occurs twice.  Times are sums of `size_t`, so they start again at zero after `2^64` ms.

The interface keeps at most ONE datagram while it waits for a resolution, and keeps it under its OWN
address: `_arp_ip_queue` is written at `_ip_address` only, whatever the next hop.

Each of the two calls is unfolded once, into an equation for each of its branches.  `sendDatagram_cases` and
`recvFrame_cases` name the outcomes; everything about runs is derived from them.
-/
import Sponge.InternetDatagram
import Sponge.EthernetFrame
import Sponge.Lib.Run
import Mathlib.Data.List.AList

namespace Sponge

open Sponge.Lib
open EthernetHeader (TYPE_IPv4 TYPE_ARP)
open EthernetAddress (ETHERNET_BROADCAST)

/-- `Address`, of which only IPv4 addresses occur here. -/
structure Address where
  ipv4Numeric : UInt32
  deriving DecidableEq, Repr

/-! ## The cache -/

/-- `IP2EthernetCache`. -/
structure IP2EthernetCache where
  ipMacCache : AList (fun _ : UInt32 => EthernetAddress) := ∅
  cachExpireQueue : List (Nat × UInt32) := []
  deriving DecidableEq

namespace IP2EthernetCache

/-- `IP2EthernetCache::set_cache`. -/
def setCache (c : IP2EthernetCache) (ipAddress : UInt32) (etherAdderss : EthernetAddress)
    (msSinceLastTick expireTime : Nat) : IP2EthernetCache :=
  -- a renewed entry leaves its old place, so the queue has each address once
  let queue := if (c.ipMacCache.lookup ipAddress).isSome
    then c.cachExpireQueue.eraseP (fun it => it.2 = ipAddress) else c.cachExpireQueue
  { ipMacCache := c.ipMacCache.insert ipAddress etherAdderss
    cachExpireQueue := queue ++ [(add64 msSinceLastTick expireTime, ipAddress)] }

/-- `IP2EthernetCache::get_cache`. -/
def getCache (c : IP2EthernetCache) (ipAddress : UInt32) : Option EthernetAddress :=
  c.ipMacCache.lookup ipAddress

/-- The loop of `try_clean_expire_cache`. -/
def cleanLoop (currentTime : Nat) : List (Nat × UInt32) → AList (fun _ : UInt32 => EthernetAddress) →
    IP2EthernetCache
  | [], cache => { ipMacCache := cache, cachExpireQueue := [] }
  | front :: rest, cache =>
    if front.1 < currentTime then cleanLoop currentTime rest (cache.erase front.2)
    else { ipMacCache := cache, cachExpireQueue := front :: rest }

/-- `IP2EthernetCache::try_clean_expire_cache`. -/
def tryCleanExpireCache (c : IP2EthernetCache) (currentTime : Nat) : IP2EthernetCache :=
  cleanLoop currentTime c.cachExpireQueue c.ipMacCache

end IP2EthernetCache

/-! ## The interface -/

/-- `NetworkInterface`. -/
structure NetworkInterface where
  ethernetAddress : EthernetAddress
  ipAddress : Address
  framesOut : List EthernetFrame := []
  arpIpQueue : AList (fun _ : UInt32 => Nat × InternetDatagram) := ∅
  ipMacMap : IP2EthernetCache := {}
  msSinceLastTick : Nat := 0
  expireTime : Nat := 30 * 1000
  deriving DecidableEq

namespace NetworkInterface

/-- `NetworkInterface(ethernet_address, ip_address)`. -/
def new (ethernetAddress : EthernetAddress) (ipAddress : Address) : NetworkInterface :=
  { ethernetAddress := ethernetAddress, ipAddress := ipAddress }

/-- `NetworkInterface::_try_set_cache_if_need`. -/
def trySetCacheIfNeed (n : NetworkInterface) (ipAddress : UInt32) (etherAddress : EthernetAddress) :
    NetworkInterface :=
  if etherAddress.toString ≠ ETHERNET_BROADCAST.toString ∧
      etherAddress.toString ≠ ({} : EthernetAddress).toString
  then { n with ipMacMap := n.ipMacMap.setCache ipAddress etherAddress n.msSinceLastTick n.expireTime }
  else n

/-- The test of `send_datagram` for a request of the last five seconds. -/
def requestOut (n : NetworkInterface) : Bool :=
  (n.arpIpQueue.lookup n.ipAddress.ipv4Numeric).any fun kept => decide (kept.1 ≥ n.msSinceLastTick)

/-- `NetworkInterface::send_datagram`. -/
def sendDatagram (n : NetworkInterface) (dgram : InternetDatagram) (nextHop : Address) :
    Except Exception NetworkInterface :=
  let nextHopIp := nextHop.ipv4Numeric
  match n.ipMacMap.getCache nextHopIp with
  | some mac =>
    dgram.serialize.map fun payload => { n with
      framesOut := n.framesOut ++
        [{ header := { dst := mac, src := n.ethernetAddress, type := TYPE_IPv4 }, payload := payload }] }
  | none =>
    -- a request is out, whatever next hop it asked for: the datagram is dropped
    if n.requestOut then .ok n
    else
      let arpMeg : ARPMessage :=
        { senderIpAddress := n.ipAddress.ipv4Numeric
          senderEthernetAddress := n.ethernetAddress
          targetIpAddress := nextHop.ipv4Numeric
          opcode := ARPMessage.OPCODE_REQUEST }
      -- the datagram is kept under the interface's own address, not under the next hop
      arpMeg.serialize.map fun payload => { n with
        arpIpQueue := n.arpIpQueue.insert n.ipAddress.ipv4Numeric (add64 n.msSinceLastTick (5 * 1000), dgram)
        framesOut := n.framesOut ++
          [{ header := { dst := ETHERNET_BROADCAST, src := n.ethernetAddress, type := TYPE_ARP }
             payload := payload }] }

/-- The branch of `recv_frame` for an ARP request. -/
def recvRequest (n : NetworkInterface) (getMsg : ARPMessage) : Except Exception NetworkInterface :=
  let macCache := n.ipMacMap.getCache getMsg.targetIpAddress
  -- a cached address is given away first, even for the interface's own
  let macCache := if macCache.isNone ∧ getMsg.targetIpAddress = n.ipAddress.ipv4Numeric
    then some n.ethernetAddress else macCache
  let replied : Except Exception NetworkInterface := match macCache with
    | some mac =>
      let finalArp : ARPMessage :=
        { targetIpAddress := getMsg.senderIpAddress
          targetEthernetAddress := getMsg.senderEthernetAddress
          senderEthernetAddress := mac
          senderIpAddress := getMsg.targetIpAddress
          opcode := ARPMessage.OPCODE_REPLY }
      finalArp.serialize.map fun payload => { n with
        framesOut := n.framesOut ++
          [{ header := { dst := getMsg.senderEthernetAddress, src := n.ethernetAddress, type := TYPE_ARP }
             payload := payload }] }
    | none => .ok n
  replied.map fun n =>
    (n.trySetCacheIfNeed getMsg.senderIpAddress getMsg.senderEthernetAddress).trySetCacheIfNeed
      getMsg.targetIpAddress getMsg.targetEthernetAddress

/-- The branch of `recv_frame` for an ARP reply. -/
def recvReply (n : NetworkInterface) (getMsg : ARPMessage) : Except Exception NetworkInterface :=
  let sent : Except Exception NetworkInterface := match n.arpIpQueue.lookup getMsg.targetIpAddress with
    | some ipDatagram =>
      -- both addresses of the frame are those of the reply
      ipDatagram.2.serialize.map fun payload => { n with
        framesOut := n.framesOut ++
          [{ header :=
              { dst := getMsg.senderEthernetAddress, src := getMsg.targetEthernetAddress, type := TYPE_IPv4 }
             payload := payload }]
        arpIpQueue := n.arpIpQueue.erase getMsg.targetIpAddress }
    | none => .ok n
  sent.map fun n =>
    (n.trySetCacheIfNeed getMsg.senderIpAddress getMsg.senderEthernetAddress).trySetCacheIfNeed
      getMsg.targetIpAddress getMsg.targetEthernetAddress

/-- `NetworkInterface::recv_frame`. -/
def recvFrame (n : NetworkInterface) (frame : EthernetFrame) :
    Except Exception (Option InternetDatagram × NetworkInterface) :=
  if frame.header.type = TYPE_IPv4 then
    if frame.header.dst.toString ≠ n.ethernetAddress.toString then .ok (none, n)
    else
      match InternetDatagram.parse frame.payload with
      | (.noError, ipDatagram) => .ok (some ipDatagram, n)
      | _ => .error (.runtimeError "ip datagram parse error.")
  else if frame.header.type = TYPE_ARP then
    match ARPMessage.parse frame.payload with
    | (.noError, getMsg) =>
      (if getMsg.opcode = ARPMessage.OPCODE_REQUEST then n.recvRequest getMsg
        else if getMsg.opcode = ARPMessage.OPCODE_REPLY then n.recvReply getMsg
        -- `ARPMessage.parse` lets no other opcode through
        else .ok n).map fun n => (none, n)
    | _ => .error (.runtimeError "ARP Message parse error.")
  else .ok (none, n)

/-- `NetworkInterface::tick`. -/
def tick (n : NetworkInterface) (msSinceLastTick : Nat) : NetworkInterface :=
  let now := add64 n.msSinceLastTick msSinceLastTick
  { n with msSinceLastTick := now, ipMacMap := n.ipMacMap.tryCleanExpireCache now }

end NetworkInterface

/-! ## What a message teaches -/

namespace ARPMessage

/-- The message states that `ip` has the address `eth`. -/
def announces (m : ARPMessage) (ip : UInt32) (eth : EthernetAddress) : Prop :=
  (m.senderIpAddress = ip ∧ m.senderEthernetAddress = eth) ∨
  (m.targetIpAddress = ip ∧ m.targetEthernetAddress = eth)

/-- An address that the interface learns: neither the broadcast nor the zero address. -/
def learnable (eth : EthernetAddress) : Bool := eth ≠ ETHERNET_BROADCAST ∧ eth ≠ {}

/-- What the interface learns from a message, in this order. -/
def lessons (m : ARPMessage) : List (UInt32 × EthernetAddress) :=
  [(m.senderIpAddress, m.senderEthernetAddress), (m.targetIpAddress, m.targetEthernetAddress)].filter
    fun lesson => learnable lesson.2

/-- The message teaches the mapping of `ip`. -/
def teaches (m : ARPMessage) (ip : UInt32) : Bool := m.lessons.any fun lesson => lesson.1 = ip

instance (m : ARPMessage) (ip : UInt32) (eth : EthernetAddress) : Decidable (m.announces ip eth) := by
  unfold announces
  infer_instance

theorem announces_of_lesson {m : ARPMessage} {ip : UInt32} {eth : EthernetAddress}
    (h : (ip, eth) ∈ m.lessons) : m.announces ip eth := by
  have hmem := List.mem_of_mem_filter h
  simp only [List.mem_cons, Prod.mk.injEq, List.not_mem_nil, or_false] at hmem
  rcases hmem with ⟨rfl, rfl⟩ | ⟨rfl, rfl⟩
  · exact Or.inl ⟨rfl, rfl⟩
  · exact Or.inr ⟨rfl, rfl⟩

end ARPMessage

namespace NetworkInterface

variable {n n' : NetworkInterface}

/-- `set_cache` for one pair, at the current time. -/
def learn (n : NetworkInterface) (lesson : UInt32 × EthernetAddress) : NetworkInterface :=
  { n with ipMacMap := n.ipMacMap.setCache lesson.1 lesson.2 n.msSinceLastTick n.expireTime }

theorem trySetCacheIfNeed_eq (n : NetworkInterface) (ip : UInt32) (eth : EthernetAddress) :
    n.trySetCacheIfNeed ip eth
      = if ARPMessage.learnable eth then n.learn (ip, eth) else n := by
  simp only [trySetCacheIfNeed, ne_eq, EthernetAddress.toString_inj, ARPMessage.learnable, decide_eq_true_eq]
  rfl

/-- Both branches of `recv_frame` end by learning what the message teaches. -/
theorem learned_eq (n : NetworkInterface) (m : ARPMessage) :
    (n.trySetCacheIfNeed m.senderIpAddress m.senderEthernetAddress).trySetCacheIfNeed
      m.targetIpAddress m.targetEthernetAddress = m.lessons.foldl learn n := by
  rw [trySetCacheIfNeed_eq, trySetCacheIfNeed_eq, ARPMessage.lessons]
  cases hs : ARPMessage.learnable m.senderEthernetAddress <;>
    cases ht : ARPMessage.learnable m.targetEthernetAddress <;>
    simp only [hs, ht, List.filter_cons, List.filter_nil, if_true, if_false, List.foldl_cons,
      List.foldl_nil, Bool.false_eq_true]

/-- Learning changes nothing but the cache. -/
theorem foldl_learn_frame (lessons : List (UInt32 × EthernetAddress)) (n : NetworkInterface) :
    ∃ cache, lessons.foldl learn n = { n with ipMacMap := cache } := by
  induction lessons generalizing n with
  | nil => exact ⟨n.ipMacMap, rfl⟩
  | cons lesson rest ih =>
    obtain ⟨cache, hcache⟩ := ih (n.learn lesson)
    exact ⟨cache, hcache⟩

/-! ## The branches of `send_datagram` -/

/-- The frame that carries a datagram. -/
def ipv4Frame (src dst : EthernetAddress) (payload : Bytes) : EthernetFrame :=
  { header := { dst := dst, src := src, type := TYPE_IPv4 }, payload := payload }

/-- The request that `send_datagram` sends. -/
def request (n : NetworkInterface) (nextHop : Address) : ARPMessage :=
  { senderIpAddress := n.ipAddress.ipv4Numeric
    senderEthernetAddress := n.ethernetAddress
    targetIpAddress := nextHop.ipv4Numeric
    opcode := ARPMessage.OPCODE_REQUEST }

/-- The frame that carries it. -/
def requestFrame (n : NetworkInterface) (nextHop : Address) : EthernetFrame :=
  { header := { dst := ETHERNET_BROADCAST, src := n.ethernetAddress, type := TYPE_ARP }
    payload := (n.request nextHop).wire }

@[simp] theorem requestFrame_src (n : NetworkInterface) (nextHop : Address) :
    (n.requestFrame nextHop).header.src = n.ethernetAddress := rfl

@[simp] theorem requestFrame_type (n : NetworkInterface) (nextHop : Address) :
    (n.requestFrame nextHop).header.type = TYPE_ARP := rfl

/-- A datagram for a known next hop is sent. -/
theorem sendDatagram_known (dgram : InternetDatagram) {nextHop : Address} {mac : EthernetAddress}
    (h : n.ipMacMap.getCache nextHop.ipv4Numeric = some mac) : n.sendDatagram dgram nextHop
      = dgram.serialize.map fun payload =>
          { n with framesOut := n.framesOut ++ [ipv4Frame n.ethernetAddress mac payload] } := by
  rw [sendDatagram]
  dsimp only
  rw [h]
  rfl

/-- One for an unknown next hop is dropped while a request is out. -/
theorem sendDatagram_waits (dgram : InternetDatagram) {nextHop : Address}
    (h : n.ipMacMap.getCache nextHop.ipv4Numeric = none) (hout : n.requestOut = true) :
    n.sendDatagram dgram nextHop = .ok n := by
  rw [sendDatagram]
  dsimp only
  rw [h, hout]
  rfl

/-- It is kept otherwise, and its next hop asked for. -/
theorem sendDatagram_asks (dgram : InternetDatagram) {nextHop : Address}
    (h : n.ipMacMap.getCache nextHop.ipv4Numeric = none) (hfree : n.requestOut = false) :
    n.sendDatagram dgram nextHop = .ok { n with
      arpIpQueue := n.arpIpQueue.insert n.ipAddress.ipv4Numeric (add64 n.msSinceLastTick (5 * 1000), dgram)
      framesOut := n.framesOut ++ [n.requestFrame nextHop] } := by
  rw [sendDatagram]
  dsimp only
  rw [h, hfree]
  rfl

/-- **`send_datagram`** sends the datagram, drops it because a request is out already, or keeps it and
sends a request. -/
theorem sendDatagram_cases {dgram : InternetDatagram} {nextHop : Address}
    (h : n.sendDatagram dgram nextHop = .ok n') :
    (∃ mac payload, n.ipMacMap.getCache nextHop.ipv4Numeric = some mac ∧ dgram.serialize = .ok payload ∧
      n' = { n with framesOut := n.framesOut ++ [ipv4Frame n.ethernetAddress mac payload] }) ∨
    (n.ipMacMap.getCache nextHop.ipv4Numeric = none ∧ n.requestOut = true ∧ n' = n) ∨
    (n.ipMacMap.getCache nextHop.ipv4Numeric = none ∧ n.requestOut = false ∧ n' = { n with
      arpIpQueue := n.arpIpQueue.insert n.ipAddress.ipv4Numeric (add64 n.msSinceLastTick (5 * 1000), dgram)
      framesOut := n.framesOut ++ [n.requestFrame nextHop] }) := by
  cases hcache : n.ipMacMap.getCache nextHop.ipv4Numeric with
  | some mac =>
    rw [sendDatagram_known dgram hcache] at h
    obtain ⟨payload, hpayload, rfl⟩ := map_ok.mp h
    exact Or.inl ⟨mac, payload, rfl, hpayload, rfl⟩
  | none =>
    cases hout : n.requestOut with
    | true =>
      rw [sendDatagram_waits dgram hcache hout] at h
      exact Or.inr (Or.inl ⟨rfl, rfl, (Except.ok.inj h).symm⟩)
    | false =>
      rw [sendDatagram_asks dgram hcache hout] at h
      exact Or.inr (Or.inr ⟨rfl, rfl, (Except.ok.inj h).symm⟩)

/-- `send_datagram` throws only for a datagram that it would send at once and that does not serialize. -/
theorem sendDatagram_returns_iff (n : NetworkInterface) (dgram : InternetDatagram) (nextHop : Address) :
    (∃ n', n.sendDatagram dgram nextHop = .ok n') ↔
      ((n.ipMacMap.getCache nextHop.ipv4Numeric).isSome = true → ∃ bytes, dgram.serialize = .ok bytes) := by
  cases hcache : n.ipMacMap.getCache nextHop.ipv4Numeric with
  | some mac =>
    rw [sendDatagram_known dgram hcache, imp_iff_right Option.isSome_some]
    constructor
    · rintro ⟨n', hn'⟩
      obtain ⟨bytes, hbytes, -⟩ := map_ok.mp hn'
      exact ⟨bytes, hbytes⟩
    · rintro ⟨bytes, hbytes⟩
      exact ⟨_, map_ok.mpr ⟨bytes, hbytes, rfl⟩⟩
  | none =>
    refine ⟨fun _ hsome => absurd hsome (by simp), fun _ => ?_⟩
    cases hout : n.requestOut with
    | true => exact ⟨_, sendDatagram_waits dgram hcache hout⟩
    | false => exact ⟨_, sendDatagram_asks dgram hcache hout⟩

/-! ## The branches of `recv_frame` -/

/-- The address that is given for an IP address: what is cached first, then the interface's own for its own. -/
def answer (n : NetworkInterface) (ip : UInt32) : Option EthernetAddress :=
  (n.ipMacMap.getCache ip).or (if ip = n.ipAddress.ipv4Numeric then some n.ethernetAddress else none)

/-- The reply that gives an address to whoever sent a request. -/
def reply (request : ARPMessage) (mac : EthernetAddress) : ARPMessage :=
  { targetIpAddress := request.senderIpAddress
    targetEthernetAddress := request.senderEthernetAddress
    senderEthernetAddress := mac
    senderIpAddress := request.targetIpAddress
    opcode := ARPMessage.OPCODE_REPLY }

/-- The frame that carries it. -/
def replyFrame (n : NetworkInterface) (request : ARPMessage) (mac : EthernetAddress) : EthernetFrame :=
  { header := { dst := request.senderEthernetAddress, src := n.ethernetAddress, type := TYPE_ARP }
    payload := (reply request mac).wire }

/-- **The branch for a request**: the answer is sent, if there is one, and the message is learned from. -/
theorem recvRequest_eq (n : NetworkInterface) (m : ARPMessage) :
    n.recvRequest m = .ok (m.lessons.foldl learn { n with
      framesOut := n.framesOut ++ (n.answer m.targetIpAddress).toList.map (n.replyFrame m) }) := by
  rw [recvRequest, answer]
  simp only [learned_eq]
  cases n.ipMacMap.getCache m.targetIpAddress with
  | some mac => rfl
  | none =>
    by_cases hown : m.targetIpAddress = n.ipAddress.ipv4Numeric
    · rw [if_pos ⟨rfl, hown⟩, if_pos hown]
      rfl
    · rw [if_neg (fun h => hown h.2), if_neg hown]
      simp only [Option.or_none, Option.toList_none, List.map_nil, List.append_nil]
      rfl

/-- The branch for a reply that releases nothing. -/
theorem recvReply_unkept {m : ARPMessage} (h : n.arpIpQueue.lookup m.targetIpAddress = none) :
    n.recvReply m = .ok (m.lessons.foldl learn n) := by
  rw [recvReply, h]
  exact congrArg Except.ok (learned_eq n m)

/-- The branch for a reply that releases a datagram. -/
theorem recvReply_kept {m : ARPMessage} {kept : Nat × InternetDatagram}
    (h : n.arpIpQueue.lookup m.targetIpAddress = some kept) :
    n.recvReply m = kept.2.serialize.map fun payload => m.lessons.foldl learn { n with
      framesOut := n.framesOut ++ [ipv4Frame m.targetEthernetAddress m.senderEthernetAddress payload]
      arpIpQueue := n.arpIpQueue.erase m.targetIpAddress } := by
  rw [recvReply, h]
  dsimp only
  cases kept.2.serialize with
  | error e => rfl
  | ok payload => exact congrArg Except.ok (learned_eq _ m)

/-- The ARP message in a frame. -/
def arpOf (frame : EthernetFrame) : Option ARPMessage :=
  if frame.header.type = TYPE_ARP then
    match ARPMessage.parse frame.payload with
    | (.noError, m) => some m
    | _ => none
  else none

theorem arpOf_other {frame : EthernetFrame} (h : frame.header.type ≠ TYPE_ARP) : arpOf frame = none := if_neg h

theorem arpOf_parse {frame : EthernetFrame} {m : ARPMessage} (h : frame.header.type = TYPE_ARP)
    (hparse : ARPMessage.parse frame.payload = (.noError, m)) : arpOf frame = some m := by
  rw [arpOf, if_pos h, hparse]

theorem parse_of_arpOf {frame : EthernetFrame} {m : ARPMessage} (h : arpOf frame = some m) :
    frame.header.type = TYPE_ARP ∧ ARPMessage.parse frame.payload = (.noError, m) := by
  rw [arpOf] at h
  split at h
  · rename_i htype
    split at h
    · rename_i m' hparse
      exact ⟨htype, Option.some.inj h ▸ hparse⟩
    · exact absurd h (by simp)
  · exact absurd h (by simp)

/-- An ARP message is handled by its opcode. -/
theorem recvFrame_arp {frame : EthernetFrame} {m : ARPMessage} (h : arpOf frame = some m) :
    n.recvFrame frame = (if m.opcode = ARPMessage.OPCODE_REQUEST then n.recvRequest m
      else n.recvReply m).map fun n => (none, n) := by
  obtain ⟨htype, hparse⟩ := parse_of_arpOf h
  have hip : frame.header.type ≠ TYPE_IPv4 := by
    rw [htype]
    decide
  rw [recvFrame, if_neg hip, if_pos htype, hparse]
  dsimp only
  by_cases hrequest : m.opcode = ARPMessage.OPCODE_REQUEST
  · rw [if_pos hrequest, if_pos hrequest]
  · rw [if_neg hrequest, if_neg hrequest,
      if_pos ((ARPMessage.opcode_of_parse hparse).resolve_left hrequest)]

/-- A frame of the ARP type without a message throws. -/
theorem recvFrame_not_arp {frame : EthernetFrame} (htype : frame.header.type = TYPE_ARP)
    (h : arpOf frame = none) : n.recvFrame frame = .error (.runtimeError "ARP Message parse error.") := by
  have hip : frame.header.type ≠ TYPE_IPv4 := by
    rw [htype]
    decide
  rw [recvFrame, if_neg hip, if_pos htype]
  rw [arpOf, if_pos htype] at h
  split
  · rename_i m hparse
    rw [hparse] at h
    exact absurd h (by simp)
  · rfl

/-- A datagram for the interface is handed up, or its parser's error thrown. -/
theorem recvFrame_ipv4 {frame : EthernetFrame} (htype : frame.header.type = TYPE_IPv4)
    (hdst : frame.header.dst = n.ethernetAddress) : n.recvFrame frame =
      if (InternetDatagram.parse frame.payload).1 = .noError
      then .ok (some (InternetDatagram.parse frame.payload).2, n)
      else .error (.runtimeError "ip datagram parse error.") := by
  rw [recvFrame, if_pos htype, hdst, if_neg (not_not.mpr rfl)]
  generalize InternetDatagram.parse frame.payload = parsed
  obtain ⟨result, ipDatagram⟩ := parsed
  cases result <;> rfl

/-- A datagram for another host, or a frame of another type, is ignored. -/
theorem recvFrame_other {frame : EthernetFrame} (harp : frame.header.type ≠ TYPE_ARP)
    (hdst : frame.header.type = TYPE_IPv4 → frame.header.dst ≠ n.ethernetAddress) :
    n.recvFrame frame = .ok (none, n) := by
  by_cases htype : frame.header.type = TYPE_IPv4
  · rw [recvFrame, if_pos htype, if_pos (fun heq => hdst htype (EthernetAddress.toString_inj.mp heq))]
  · rw [recvFrame, if_neg htype, if_neg harp]

/-- What `recv_frame` does to the interface. -/
inductive Received (n : NetworkInterface) (frame : EthernetFrame) : NetworkInterface → Prop
  /-- Not ARP: the interface does not change. -/
  | other (h : frame.header.type ≠ TYPE_ARP) : Received n frame n
  /-- A request is answered or not, and learned from. -/
  | request {m : ARPMessage} (harp : frame.header.type = TYPE_ARP)
      (hparse : ARPMessage.parse frame.payload = (.noError, m)) (hop : m.opcode = ARPMessage.OPCODE_REQUEST)
      (frames : List EthernetFrame)
      (hframes : ∀ f ∈ frames, f.header.src = n.ethernetAddress ∧ f.header.type = TYPE_ARP) :
      Received n frame (m.lessons.foldl learn { n with framesOut := n.framesOut ++ frames })
  /-- A reply for which nothing is kept is learned from. -/
  | reply {m : ARPMessage} (harp : frame.header.type = TYPE_ARP)
      (hparse : ARPMessage.parse frame.payload = (.noError, m)) (hop : m.opcode = ARPMessage.OPCODE_REPLY)
      (hnone : n.arpIpQueue.lookup m.targetIpAddress = none) :
      Received n frame (m.lessons.foldl learn n)
  /-- A reply for which a datagram is kept also sends it, addressed by the reply. -/
  | resolved {m : ARPMessage} (harp : frame.header.type = TYPE_ARP)
      (hparse : ARPMessage.parse frame.payload = (.noError, m)) (hop : m.opcode = ARPMessage.OPCODE_REPLY)
      {time : Nat} {dgram : InternetDatagram} {payload : Bytes}
      (hkept : n.arpIpQueue.lookup m.targetIpAddress = some (time, dgram))
      (hpayload : dgram.serialize = .ok payload) :
      Received n frame (m.lessons.foldl learn { n with
        framesOut := n.framesOut ++ [ipv4Frame m.targetEthernetAddress m.senderEthernetAddress payload]
        arpIpQueue := n.arpIpQueue.erase m.targetIpAddress })

theorem recvRequest_cases {m : ARPMessage} (h : n.recvRequest m = .ok n') :
    ∃ frames : List EthernetFrame,
      (∀ f ∈ frames, f.header.src = n.ethernetAddress ∧ f.header.type = TYPE_ARP) ∧
      n' = m.lessons.foldl learn { n with framesOut := n.framesOut ++ frames } := by
  rw [recvRequest_eq] at h
  refine ⟨_, ?_, (Except.ok.inj h).symm⟩
  intro f hf
  obtain ⟨mac, -, rfl⟩ := List.mem_map.mp hf
  exact ⟨rfl, rfl⟩

theorem recvReply_cases {m : ARPMessage} (h : n.recvReply m = .ok n') :
    (n.arpIpQueue.lookup m.targetIpAddress = none ∧ n' = m.lessons.foldl learn n) ∨
    ∃ time dgram payload, n.arpIpQueue.lookup m.targetIpAddress = some (time, dgram) ∧
      dgram.serialize = .ok payload ∧
      n' = m.lessons.foldl learn { n with
        framesOut := n.framesOut ++ [ipv4Frame m.targetEthernetAddress m.senderEthernetAddress payload]
        arpIpQueue := n.arpIpQueue.erase m.targetIpAddress } := by
  cases hlookup : n.arpIpQueue.lookup m.targetIpAddress with
  | none =>
    rw [recvReply_unkept hlookup] at h
    exact Or.inl ⟨rfl, (Except.ok.inj h).symm⟩
  | some kept =>
    rw [recvReply_kept hlookup] at h
    obtain ⟨payload, hpayload, rfl⟩ := map_ok.mp h
    exact Or.inr ⟨kept.1, kept.2, payload, rfl, hpayload, rfl⟩

/-- **`recv_frame`**, for every frame for which it returns. -/
theorem recvFrame_cases {frame : EthernetFrame} {dgram : Option InternetDatagram}
    (h : n.recvFrame frame = .ok (dgram, n')) : Received n frame n' := by
  by_cases htype : frame.header.type = TYPE_ARP
  · cases harp : arpOf frame with
    | none =>
      rw [recvFrame_not_arp htype harp] at h
      exact absurd h (by simp)
    | some m =>
      obtain ⟨-, hparse⟩ := parse_of_arpOf harp
      rw [recvFrame_arp harp] at h
      obtain ⟨n₁, hn₁, heq⟩ := map_ok.mp h
      obtain ⟨-, rfl⟩ := Prod.mk.inj heq
      split at hn₁
      · rename_i hop
        obtain ⟨frames, hframes, rfl⟩ := recvRequest_cases hn₁
        exact .request htype hparse hop frames hframes
      · rename_i hrequest
        have hop := (ARPMessage.opcode_of_parse hparse).resolve_left hrequest
        rcases recvReply_cases hn₁ with ⟨hnone, rfl⟩ | ⟨time, d, payload, hkept, hpayload, rfl⟩
        · exact .reply htype hparse hop hnone
        · exact .resolved htype hparse hop hkept hpayload
  · by_cases hown : frame.header.type = TYPE_IPv4 ∧ frame.header.dst = n.ethernetAddress
    · rw [recvFrame_ipv4 hown.1 hown.2] at h
      split at h
      · obtain ⟨-, rfl⟩ := Prod.mk.inj (Except.ok.inj h)
        exact .other htype
      · exact absurd h (by simp)
    · rw [recvFrame_other htype (fun hip hdst => hown ⟨hip, hdst⟩)] at h
      obtain ⟨-, rfl⟩ := Prod.mk.inj (Except.ok.inj h)
      exact .other htype

/-! ## The kept datagram -/

/-- The table holds at most one datagram, under the interface's own address. -/
inductive Keeps (own : UInt32) : AList (fun _ : UInt32 => Nat × InternetDatagram) → Option InternetDatagram → Prop
  | nothing : Keeps own ∅ none
  | one (time : Nat) (dgram : InternetDatagram) : Keeps own (AList.singleton own (time, dgram)) (some dgram)

variable {own ip : UInt32} {table : AList (fun _ : UInt32 => Nat × InternetDatagram)}
  {kept : Option InternetDatagram}

theorem Keeps.insert (h : Keeps own table kept) (time : Nat) (dgram : InternetDatagram) :
    Keeps own (table.insert own (time, dgram)) (some dgram) := by
  cases h with
  | nothing =>
    rw [AList.insert_empty]
    exact .one time dgram
  | one time' dgram' =>
    rw [AList.insert_singleton_eq]
    exact .one time dgram

theorem lookup_singleton (own ip : UInt32) (kept : Nat × InternetDatagram) :
    (AList.singleton own kept : AList fun _ : UInt32 => Nat × InternetDatagram).lookup ip
      = if ip = own then some kept else none := by
  rw [← AList.insert_empty]
  by_cases hip : ip = own
  · rw [if_pos hip, hip, AList.lookup_insert]
  · rw [if_neg hip, AList.lookup_insert_ne hip, AList.lookup_empty]

/-- What is found is what is kept, the key was the interface's own address, and nothing is held without it. -/
theorem Keeps.found (h : Keeps own table kept) {time : Nat} {dgram : InternetDatagram}
    (hfound : table.lookup ip = some (time, dgram)) :
    ip = own ∧ kept = some dgram ∧ Keeps own (table.erase ip) none := by
  cases h with
  | nothing => exact absurd hfound (by simp)
  | one time' dgram' =>
    rw [lookup_singleton] at hfound
    split at hfound
    · rename_i hip
      obtain ⟨rfl, rfl⟩ := Prod.mk.inj (Option.some.inj hfound)
      have herase : (AList.singleton own (time', dgram') : AList fun _ : UInt32 => Nat × InternetDatagram).erase ip
          = ∅ := AList.ext (List.kerase_cons_eq hip)
      rw [herase]
      exact ⟨hip, rfl, .nothing⟩
    · exact absurd hfound (by simp)

theorem Keeps.empty (h : Keeps own table none) : table = ∅ := by
  cases h
  rfl

theorem Keeps.missing (h : Keeps own table kept) (hnone : table.lookup own = none) : kept = none := by
  cases h with
  | nothing => rfl
  | one time dgram =>
    rw [lookup_singleton, if_pos rfl] at hnone
    exact absurd hnone (by simp)

/-- The datagrams that the interface holds. -/
def retained (n : NetworkInterface) : List InternetDatagram := n.arpIpQueue.entries.map fun e => e.2.2

theorem Keeps.retained (h : Keeps own table kept) : (table.entries.map fun e => e.2.2) = kept.toList := by
  cases h with
  | nothing => rfl
  | one time dgram => rfl

/-- ARP frames are no IPv4 frames. -/
theorem filter_arp (frames : List EthernetFrame) {more : List EthernetFrame}
    (h : ∀ frame ∈ more, frame.header.type = TYPE_ARP) :
    (frames ++ more).filter (fun frame => frame.header.type = TYPE_IPv4)
      = frames.filter fun frame => frame.header.type = TYPE_IPv4 := by
  rw [List.filter_append, List.append_right_eq_self, List.filter_eq_nil_iff]
  intro frame hframe
  rw [h frame hframe]
  decide

/-! ## Calls -/

/-- What the owner of an interface can do. -/
inductive Call where
  | sendDatagram (dgram : InternetDatagram) (nextHop : Address)
  | recvFrame (frame : EthernetFrame)
  | tick (msSinceLastTick : Nat)
  deriving DecidableEq

def step (n : NetworkInterface) : Call → Except Exception NetworkInterface
  | .sendDatagram dgram nextHop => n.sendDatagram dgram nextHop
  | .recvFrame frame => (n.recvFrame frame).map Prod.snd
  | .tick msSinceLastTick => .ok (n.tick msSinceLastTick)

/-- An ARP reply to the interface's address. -/
def resolves (n : NetworkInterface) (m : ARPMessage) : Bool :=
  m.opcode = ARPMessage.OPCODE_REPLY ∧ m.targetIpAddress = n.ipAddress.ipv4Numeric

theorem resolves_request (n : NetworkInterface) {m : ARPMessage} (hop : m.opcode = ARPMessage.OPCODE_REQUEST) :
    n.resolves m = false := by
  rw [resolves, hop]
  simp [ARPMessage.OPCODE_REQUEST, ARPMessage.OPCODE_REPLY]

/-- A frame with an ARP message in it. -/
def arpFrame (m : ARPMessage) : EthernetFrame :=
  { header := { dst := ETHERNET_BROADCAST, src := m.senderEthernetAddress, type := TYPE_ARP }
    payload := m.serialize.toOption.getD [] }

theorem recvFrame_step {frame : EthernetFrame} (h : n.step (.recvFrame frame) = .ok n') :
    Received n frame n' := by
  obtain ⟨⟨dgram, n₁⟩, hn₁, rfl⟩ := map_ok.mp h
  exact recvFrame_cases hn₁

end NetworkInterface

end Sponge
