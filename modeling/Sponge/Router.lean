/-
# `Sponge.Router` — forwarding by longest prefix match.

Models `libsponge/router.{hh,cc}`: interfaces whose received datagrams wait in a queue, a table of routes in
the order they were added, and `route()`, which empties the queues one after another.

`forward` says what should become of a datagram: nothing, or one `send_datagram` on the interface of the
longest matching route, the latest added among equals.  `route` performs exactly these calls, in order
(`route_eq`).  It does so to the end unless one of them throws: `send_datagram` does for a datagram that does
not serialize and whose next hop is known, and such datagrams can come in from the network, because
`IPv4Datagram::parse` does not look at what the header's parser reports (`bad_version_stops_route`).
-/
import Sponge.NetworkInterface
import Sponge.Lib.BestMatch
import Sponge.Lib.Indexed

namespace Sponge

open Sponge.Lib

/-! ## The source functions -/

/-- `AsyncNetworkInterface`. -/
structure AsyncNetworkInterface where
  iface : NetworkInterface
  datagramsOut : List InternetDatagram := []
  deriving DecidableEq

/-- `AsyncNetworkInterface::recv_frame`. -/
def AsyncNetworkInterface.recvFrame (i : AsyncNetworkInterface) (frame : EthernetFrame) :
    Except Exception AsyncNetworkInterface :=
  (i.iface.recvFrame frame).map fun (optionalDgram, iface) =>
    { iface := iface, datagramsOut := i.datagramsOut ++ optionalDgram.toList }

/-- `RouterInfo`. -/
structure RouterInfo where
  routerPrefix : UInt32
  prefixLength : UInt8
  nextHop : Option Address
  interfaceNum : Nat
  deriving DecidableEq, Repr

/-- `Router`. -/
@[ext]
structure Router where
  interfaces : List AsyncNetworkInterface := []
  routerList : List RouterInfo := []
  deriving DecidableEq

namespace Router

/-- `Router::add_interface`: the index of the new interface. -/
def addInterface (r : Router) (interface : AsyncNetworkInterface) : Nat × Router :=
  (r.interfaces.length, { r with interfaces := r.interfaces ++ [interface] })

/-- `Router::add_route`. -/
def addRoute (r : Router) (routePrefix : UInt32) (prefixLength : UInt8) (nextHop : Option Address)
    (interfaceNum : Nat) : Router :=
  { r with routerList := r.routerList ++ [{
      routerPrefix := routePrefix, prefixLength := prefixLength
      nextHop := nextHop, interfaceNum := interfaceNum }] }

/-- `Router::interface`: `at` throws. -/
def interface (r : Router) (index : Nat) : Except Exception AsyncNetworkInterface :=
  match r.interfaces[index]? with
  | some i => .ok i
  | none => .error (.outOfRange "vector::_M_range_check")

/-- `interface(index).send_datagram(dgram, address)`. -/
def send (r : Router) (index : Nat) (dgram : InternetDatagram) (address : Address) : Except Exception Router :=
  (r.interface index).bind fun i =>
    (i.iface.sendDatagram dgram address).map fun iface =>
      { r with interfaces := r.interfaces.set index { i with iface := iface } }

/-- The test for a route in the loop of `route_one_datagram`.  Prefix lengths are at most 32: beyond that
the shift of the source is undefined. -/
def sharesPrefix (ipDst : UInt32) (it : RouterInfo) : Bool :=
  ipDst.toNat >>> (32 - it.prefixLength.toNat) = it.routerPrefix.toNat >>> (32 - it.prefixLength.toNat)

/-- `Router::route_one_datagram`. -/
def routeOneDatagram (r : Router) (dgram : InternetDatagram) : Except Exception Router :=
  if dgram.header.ttl ≤ 1 then .ok r
  else
    let ipDst := dgram.header.dst
    -- among routes of one length the last that was added wins
    let (_, routeInfo) := r.routerList.foldl (fun (maxPrefix, routeInfo) it =>
      if sharesPrefix ipDst it && decide (maxPrefix ≤ it.prefixLength.toNat)
      then (it.prefixLength.toNat, some it) else (maxPrefix, routeInfo)) (0, none)
    match routeInfo with
    | some info =>
      let address : Address := { ipv4Numeric := dgram.header.dst }
      r.send info.interfaceNum { dgram with header := { dgram.header with ttl := dgram.header.ttl - 1 } }
        (info.nextHop.getD address)
    | none => .ok r

/-- The queue of received datagrams of an interface. -/
def queue (r : Router) (index : Nat) : List InternetDatagram :=
  (r.interfaces[index]?).elim [] AsyncNetworkInterface.datagramsOut

/-- A change to that queue. -/
def onQueue (r : Router) (index : Nat) (g : List InternetDatagram → List InternetDatagram) : Router :=
  { r with interfaces := r.interfaces.modify index fun i => { i with datagramsOut := g i.datagramsOut } }

/-! ## Sending leaves the queues alone -/

variable {r r' : Router} {index : Nat} {dgram : InternetDatagram} {address : Address}

/-- **One call** changes one interface, and of it only what `send_datagram` changes. -/
theorem send_cases (h : r.send index dgram address = .ok r') :
    ∃ i iface, r.interfaces[index]? = some i ∧ i.iface.sendDatagram dgram address = .ok iface ∧
      r' = { r with interfaces := r.interfaces.set index { i with iface := iface } } := by
  obtain ⟨i, hi, hsend⟩ := bind_ok.mp h
  obtain ⟨iface, hiface, rfl⟩ := map_ok.mp hsend
  rw [interface] at hi
  split at hi
  · rename_i i' hi'
    obtain rfl := Except.ok.inj hi
    exact ⟨i', iface, hi', hiface, rfl⟩
  · exact absurd hi (by simp)

theorem send_queue (h : r.send index dgram address = .ok r') (j : Nat) : r'.queue j = r.queue j := by
  obtain ⟨i, iface, hi, -, rfl⟩ := send_cases h
  rw [queue, queue, List.getElem?_set]
  split
  · rename_i hij
    subst hij
    have hlt := (List.getElem?_eq_some_iff.mp hi).1
    rw [if_pos hlt, hi]
    rfl
  · rfl

theorem send_routerList (h : r.send index dgram address = .ok r') : r'.routerList = r.routerList := by
  obtain ⟨i, iface, -, -, rfl⟩ := send_cases h
  rfl

theorem queue_onQueue {g : List InternetDatagram → List InternetDatagram} (hg : g [] = []) :
    (r.onQueue index g).queue index = g (r.queue index) := by
  rw [queue, queue, onQueue, List.getElem?_modify_eq]
  cases r.interfaces[index]? with
  | none => exact hg.symm
  | some i => rfl

theorem queue_onQueue_ne {g : List InternetDatagram → List InternetDatagram} {j : Nat} (h : index ≠ j) :
    (r.onQueue index g).queue j = r.queue j := by
  rw [queue, queue, onQueue]
  dsimp only
  rw [List.getElem?_modify_ne _ _ h]

theorem onQueue_onQueue (g g' : List InternetDatagram → List InternetDatagram) :
    (r.onQueue index g).onQueue index g' = r.onQueue index (g' ∘ g) := by
  rw [onQueue, onQueue, onQueue, List.modify_modify_eq]
  rfl

/-- A call and a change to a queue do not interfere. -/
theorem send_onQueue (j : Nat) (g : List InternetDatagram → List InternetDatagram) :
    (r.onQueue j g).send index dgram address = (r.send index dgram address).map fun r' => r'.onQueue j g := by
  rw [send, send, interface, interface, onQueue, List.getElem?_modify]
  cases hi : r.interfaces[index]? with
  | none => rfl
  | some i =>
    show (NetworkInterface.sendDatagram (if j = index then { i with datagramsOut := g i.datagramsOut } else i :
      AsyncNetworkInterface).iface dgram address).map _ = ((i.iface.sendDatagram dgram address).map _).map _
    rw [apply_ite AsyncNetworkInterface.iface, ite_self]
    cases i.iface.sendDatagram dgram address with
    | error e => rfl
    | ok iface =>
      show Except.ok ({ r with interfaces := _ } : Router) = Except.ok { r with interfaces := _ }
      rw [← modify_set]
      congr 3
      split <;> rfl

/-! ## The loops of `route` -/

theorem routeOneDatagram_queue (h : r.routeOneDatagram dgram = .ok r') (j : Nat) : r'.queue j = r.queue j := by
  rw [routeOneDatagram] at h
  split at h
  · obtain rfl := Except.ok.inj h
    rfl
  · dsimp only at h
    split at h
    · exact send_queue h j
    · obtain rfl := Except.ok.inj h
      rfl

/-- The inner loop of `route`: it ends, because routing a datagram adds none to the queue. -/
def drain (r : Router) (index : Nat) : Except Exception Router :=
  match hq : r.queue index with
  | [] => .ok r
  | front :: _ =>
    match hr : r.routeOneDatagram front with
    | .ok r' =>
      have : ((r'.onQueue index List.tail).queue index).length < (r.queue index).length := by
        rw [queue_onQueue rfl, routeOneDatagram_queue hr, hq]
        exact Nat.lt_succ_self _
      drain (r'.onQueue index List.tail) index
    | .error e => .error e
termination_by (r.queue index).length

/-- `Router::route`. -/
def route (r : Router) : Except Exception Router :=
  (List.range r.interfaces.length).foldlM drain r

end Router

/-! ## What should be sent -/

/-- A call of `send_datagram`: on which interface, what, and to which next hop. -/
structure Dispatch where
  index : Nat
  dgram : InternetDatagram
  address : Address
  deriving DecidableEq

/-- The route's prefix and the address agree in as many leading bits as the route says. -/
def RouterInfo.covers (info : RouterInfo) (dst : UInt32) : Bool :=
  decide (∀ k < info.prefixLength.toNat, dst.toNat.testBit (31 - k) = info.routerPrefix.toNat.testBit (31 - k))

/-- The longest of the routes that cover an address, the latest added among equals. -/
def longestMatch (table : List RouterInfo) (dst : UInt32) : Option RouterInfo :=
  bestMatch (fun info => info.covers dst) (fun info => info.prefixLength.toNat) table

/-- **What should become of a datagram.** -/
def forward (table : List RouterInfo) (dgram : InternetDatagram) : Option Dispatch :=
  if 2 ≤ dgram.header.ttl then
    (longestMatch table dgram.header.dst).map fun info =>
      { index := info.interfaceNum
        dgram := { dgram with header := { dgram.header with ttl := dgram.header.ttl - 1 } }
        address := info.nextHop.getD { ipv4Numeric := dgram.header.dst } }
  else none

/-- **Datagrams survive the wire**, as they are and as the router passes them on, one hop older. -/
theorem datagram_survives_wire {d : InternetDatagram} (hver : d.header.ver = 4) (hmin : 5 ≤ d.header.hlen)
    (hmax : d.header.hlen ≤ 15) (hoffset : d.header.offset.toNat < 2 ^ 13)
    (hlen : d.header.len.toNat = 4 * d.header.hlen.toNat + d.payload.length) :
    d.SurvivesWire ∧
    InternetDatagram.SurvivesWire { d with header := { d.header with ttl := d.header.ttl - 1 } } ∧
    ∀ table call, forward table d = some call →
      call.dgram = { d with header := { d.header with ttl := d.header.ttl - 1 } } := by
  have hbits : d.header.offset &&& 0x1fff = d.header.offset := by
    have h := IPv4Header.offset_of_word d.header.offset.toNat_lt
    rwa [UInt16.ofNat_toNat, Nat.mod_eq_of_lt hoffset, UInt16.ofNat_toNat] at h
  have hfits : d.header.Fits := ⟨hver, hmin, hmax, hbits⟩
  refine ⟨InternetDatagram.survivesWire hfits hlen, InternetDatagram.survivesWire (hfits.withTtl _) hlen, ?_⟩
  intro table call hcall
  rw [forward] at hcall
  split at hcall
  · obtain ⟨info, -, rfl⟩ := Option.map_eq_some_iff.mp hcall
    rfl
  · exact absurd hcall (by simp)

/-- A header with an option, fragmented, and three bytes of payload. -/
theorem datagram_survives_wire_fragment :
    InternetDatagram.SurvivesWire
      { header := { hlen := 6, len := 27, df := false, mf := true, offset := 8191, ttl := 63, dst := 9 },
        payload := [1, 2, 3] } :=
  (datagram_survives_wire (d :=
    { header := { hlen := 6, len := 27, df := false, mf := true, offset := 8191, ttl := 64, dst := 9 },
      payload := [1, 2, 3] }) rfl (by decide) (by decide) (by decide) rfl).2.1

namespace Router

variable {r r' : Router} {index : Nat} {dgram : InternetDatagram}

/-- Shifting out the bits that do not count compares the bits that do. -/
theorem sharesPrefix_eq_covers {info : RouterInfo} (h : info.prefixLength.toNat ≤ 32) (dst : UInt32) :
    sharesPrefix dst info = info.covers dst := by
  rw [sharesPrefix, RouterInfo.covers]
  refine decide_eq_decide.mpr ⟨fun heq k hk => ?_, fun hbits => ?_⟩
  · have hbit := congrArg (fun n => n.testBit (31 - k - (32 - info.prefixLength.toNat))) heq
    rwa [Nat.testBit_shiftRight, Nat.testBit_shiftRight,
      show 32 - info.prefixLength.toNat + (31 - k - (32 - info.prefixLength.toNat)) = 31 - k by omega] at hbit
  · refine Nat.eq_of_testBit_eq fun m => ?_
    rw [Nat.testBit_shiftRight, Nat.testBit_shiftRight]
    by_cases hm : 32 - info.prefixLength.toNat + m < 32
    · have hbit := hbits (31 - (32 - info.prefixLength.toNat + m)) (by omega)
      rwa [show 31 - (31 - (32 - info.prefixLength.toNat + m)) = 32 - info.prefixLength.toNat + m by omega]
        at hbit
    · -- addresses have 32 bits
      have hpow : 2 ^ 32 ≤ 2 ^ (32 - info.prefixLength.toNat + m) :=
        Nat.pow_le_pow_right (by decide) (Nat.le_of_not_lt hm)
      rw [Nat.testBit_lt_two_pow (Nat.lt_of_lt_of_le dst.toNat_lt hpow),
        Nat.testBit_lt_two_pow (Nat.lt_of_lt_of_le info.routerPrefix.toNat_lt hpow)]

/-- The loop of `route_one_datagram` finds the longest match. -/
theorem scan_routes {table : List RouterInfo} (h : ∀ info ∈ table, info.prefixLength.toNat ≤ 32)
    (dst : UInt32) :
    (table.foldl (fun (maxPrefix, routeInfo) it =>
      if sharesPrefix dst it && decide (maxPrefix ≤ it.prefixLength.toNat)
      then (it.prefixLength.toNat, some it) else (maxPrefix, routeInfo)) (0, none)).2
      = longestMatch table dst := by
  have hscan := scan_eq_bestMatch (fun info : RouterInfo => info.covers dst)
    (fun info => info.prefixLength.toNat) table
  refine Eq.trans (congrArg Prod.snd (List.foldl_ext _ _ _ fun best info hinfo => ?_)) (congrArg Prod.snd hscan)
  dsimp only [scanStep]
  rw [sharesPrefix_eq_covers (h info hinfo)]

/-- One call of `send_datagram`. -/
def perform (r : Router) (call : Dispatch) : Except Exception Router :=
  r.send call.index call.dgram call.address

/-- **`route_one_datagram`** performs what `forward` says. -/
theorem routeOneDatagram_eq (h : ∀ info ∈ r.routerList, info.prefixLength.toNat ≤ 32) :
    r.routeOneDatagram dgram = (forward r.routerList dgram).elim (.ok r) r.perform := by
  rw [routeOneDatagram, forward, ← scan_routes h]
  have hiff : dgram.header.ttl ≤ 1 ↔ ¬ 2 ≤ dgram.header.ttl := by
    rw [UInt8.le_iff_toNat_le, UInt8.le_iff_toNat_le]
    exact Nat.lt_succ_iff.symm.trans Nat.not_le.symm
  by_cases httl : 2 ≤ dgram.header.ttl
  · rw [if_pos httl, if_neg (fun hle => hiff.mp hle httl)]
    dsimp only
    generalize (List.foldl _ (0, none) r.routerList).2 = found
    cases found <;> rfl
  · rw [if_neg httl, if_pos (hiff.mpr httl)]
    rfl

theorem drain_nil (hq : r.queue index = []) : r.drain index = .ok r := by
  rw [drain]
  split
  · rfl
  · rename_i hcons
    exact absurd (hq.symm.trans hcons) (by simp)

theorem drain_cons {front : InternetDatagram} {rest : List InternetDatagram}
    (hq : r.queue index = front :: rest) :
    r.drain index = (r.routeOneDatagram front).bind fun r' => (r'.onQueue index List.tail).drain index := by
  rw [drain]
  split
  · rename_i hnil
    exact absurd (hnil.symm.trans hq) (by simp)
  · rename_i front' rest' hcons
    obtain ⟨rfl, -⟩ := List.cons.inj (hcons.symm.trans hq)
    split
    · rename_i r₁ hr
      dsimp only
      rw [hr]
      rfl
    · rename_i e hr
      rw [hr]
      rfl

theorem onQueue_eq_self {g : List InternetDatagram → List InternetDatagram}
    (h : g (r.queue index) = r.queue index) : r.onQueue index g = r := by
  have hlist : r.interfaces.modify index (fun i => { i with datagramsOut := g i.datagramsOut })
      = r.interfaces := by
    refine List.ext_getElem? fun j => ?_
    rw [List.getElem?_modify]
    cases hi : r.interfaces[j]? with
    | none => rfl
    | some i =>
      by_cases hij : index = j
      · rw [queue, hij, hi] at h
        exact congrArg some ((if_pos hij).trans
          (congrArg (fun q => ({ i with datagramsOut := q } : AsyncNetworkInterface)) h))
      · exact congrArg some (if_neg hij)
  rw [onQueue, hlist]

/-- A list of calls and a change to a queue do not interfere. -/
theorem foldlM_onQueue (calls : List Dispatch) (j : Nat) (g : List InternetDatagram → List InternetDatagram) :
    calls.foldlM perform (r.onQueue j g) = (calls.foldlM perform r).map fun r' => r'.onQueue j g := by
  induction calls generalizing r with
  | nil => rfl
  | cons call calls ih =>
    rw [List.foldlM_cons, List.foldlM_cons, perform, perform, send_onQueue]
    cases r.send call.index call.dgram call.address with
    | error e => rfl
    | ok r₁ => exact ih

/-- The queue of an interface emptied. -/
def clear (r : Router) (index : Nat) : Router := r.onQueue index fun _ => []

/-- **The inner loop** performs what the queue asks for, and leaves it empty. -/
theorem drain_eq (h : ∀ info ∈ r.routerList, info.prefixLength.toNat ≤ 32) :
    r.drain index = ((r.queue index).filterMap (forward r.routerList)).foldlM perform (r.clear index) := by
  unfold clear
  generalize hq : r.queue index = queue
  induction queue generalizing r with
  | nil =>
    rw [drain_nil hq, onQueue_eq_self hq.symm]
    rfl
  | cons front rest ih =>
    rw [drain_cons hq, routeOneDatagram_eq h, List.filterMap_cons]
    have htail : ∀ r₁ : Router, r₁.queue index = r.queue index →
        (r₁.onQueue index List.tail).queue index = rest := by
      intro r₁ hr₁
      rw [queue_onQueue rfl, hr₁, hq]
      rfl
    cases hf : forward r.routerList front with
    | none =>
      have hrest := ih (r := r.onQueue index List.tail) h (htail r rfl)
      rw [onQueue_onQueue] at hrest
      exact hrest
    | some call =>
      rw [Option.elim_some, List.foldlM_cons, perform, perform, send_onQueue]
      cases hsend : r.send call.index call.dgram call.address with
      | error e => rfl
      | ok r₁ =>
        have htable : r₁.routerList = r.routerList := send_routerList hsend
        have hrest := ih (r := r₁.onQueue index List.tail) (htable ▸ h) (htail r₁ (send_queue hsend index))
        rw [onQueue_onQueue, show (r₁.onQueue index List.tail).routerList = r.routerList from htable] at hrest
        exact hrest

theorem foldlM_queue {calls : List Dispatch} (h : calls.foldlM perform r = .ok r') :
    r'.routerList = r.routerList ∧ ∀ j, r'.queue j = r.queue j := by
  induction calls generalizing r with
  | nil =>
    obtain rfl := Except.ok.inj h
    exact ⟨rfl, fun _ => rfl⟩
  | cons call calls ih =>
    rw [List.foldlM_cons] at h
    obtain ⟨r₁, hsend, hrest⟩ := bind_ok.mp h
    obtain ⟨htable, hqueue⟩ := ih hrest
    exact ⟨htable.trans (send_routerList hsend), fun j => (hqueue j).trans (send_queue hsend j)⟩

theorem foldlM_cleared (calls : List Dispatch) (indices : List Nat) :
    calls.foldlM perform (indices.foldl clear r) = (calls.foldlM perform r).map (indices.foldl clear) := by
  induction indices generalizing r with
  | nil =>
    show calls.foldlM perform r = _
    cases calls.foldlM perform r <;> rfl
  | cons i indices ih =>
    rw [List.foldl_cons, ih, clear, foldlM_onQueue]
    cases calls.foldlM perform r <;> rfl

/-- **The outer loop**, over any interfaces, each once. -/
theorem foldlM_drain {indices : List Nat} (hnodup : indices.Nodup)
    (h : ∀ info ∈ r.routerList, info.prefixLength.toNat ≤ 32) :
    indices.foldlM drain r
      = (indices.flatMap fun i => (r.queue i).filterMap (forward r.routerList)).foldlM perform
        (indices.foldl clear r) := by
  induction indices generalizing r with
  | nil => rfl
  | cons i indices ih =>
    rw [List.nodup_cons] at hnodup
    rw [List.foldlM_cons, drain_eq h, List.flatMap_cons, List.foldlM_append, List.foldl_cons, foldlM_cleared]
    cases hfirst : ((r.queue i).filterMap (forward r.routerList)).foldlM perform (r.clear i) with
    | error e => rfl
    | ok r₁ =>
      -- the calls for this queue left the table and the other queues alone
      obtain ⟨htable, hqueue⟩ := foldlM_queue hfirst
      have htable₁ : r₁.routerList = r.routerList := htable
      have hcalls : (indices.flatMap fun j => (r₁.queue j).filterMap (forward r₁.routerList))
          = indices.flatMap fun j => (r.queue j).filterMap (forward r.routerList) := by
        refine List.flatMap_congr fun j hj => ?_
        rw [htable₁, hqueue j, clear, queue_onQueue_ne fun heq : i = j => hnodup.1 (heq ▸ hj)]
      have hrest := ih (r := r₁) hnodup.2 (htable₁ ▸ h)
      rw [hcalls] at hrest
      exact hrest

/-! ## All queues -/

/-- The calls that the queues ask for, in the order in which the interfaces and their queues hold them. -/
def forwards (r : Router) : List Dispatch :=
  r.interfaces.flatMap fun i => i.datagramsOut.filterMap (forward r.routerList)

/-- The router with its queues emptied. -/
def drained (r : Router) : Router :=
  { r with interfaces := r.interfaces.map fun i => { i with datagramsOut := [] } }

theorem foldl_clear (indices : List Nat) (j : Nat) :
    (indices.foldl clear r).interfaces[j]?
      = (r.interfaces[j]?).map fun i => if j ∈ indices then { i with datagramsOut := [] } else i := by
  induction indices generalizing r with
  | nil => simp
  | cons k indices ih =>
    rw [List.foldl_cons, ih, clear, onQueue]
    dsimp only
    rw [List.getElem?_modify]
    cases r.interfaces[j]? with
    | none => rfl
    | some i =>
      by_cases hkj : k = j
      · simp [hkj]
      · simp [hkj, Ne.symm hkj]

theorem foldl_clear_routerList (indices : List Nat) : (indices.foldl clear r).routerList = r.routerList := by
  induction indices generalizing r with
  | nil => rfl
  | cons k indices ih => exact ih

/-- **`route`** performs exactly the calls that the queues ask for, on the emptied queues. -/
theorem route_eq (h : ∀ info ∈ r.routerList, info.prefixLength.toNat ≤ 32) :
    r.route = r.forwards.foldlM perform r.drained := by
  have hforwards : ((List.range r.interfaces.length).flatMap fun i =>
      (r.queue i).filterMap (forward r.routerList))
      = r.forwards := by
    refine Eq.trans (List.flatMap_congr fun i _ => ?_) (flatMap_range _ _)
    rw [queue]
    cases r.interfaces[i]? <;> rfl
  have hdrained : (List.range r.interfaces.length).foldl clear r = r.drained := by
    refine Router.ext (List.ext_getElem? fun j => ?_) (foldl_clear_routerList _)
    rw [foldl_clear, drained, List.getElem?_map]
    cases hj : r.interfaces[j]? with
    | none => rfl
    | some i =>
      have hlt := (List.getElem?_eq_some_iff.mp hj).1
      simp [hlt]
  rw [route, foldlM_drain List.nodup_range h, hforwards, hdrained]

/-! ## When it returns -/

/-- A call that returns: the interface exists, and a datagram that is sent at once serializes. -/
def accepts (r : Router) (call : Dispatch) : Prop :=
  ∃ i, r.interfaces[call.index]? = some i ∧
    ((i.iface.ipMacMap.getCache call.address.ipv4Numeric).isSome = true →
      ∃ bytes, call.dgram.serialize = .ok bytes)

theorem perform_returns_iff (call : Dispatch) : (∃ r', r.perform call = .ok r') ↔ r.accepts call := by
  constructor
  · rintro ⟨r', hr'⟩
    obtain ⟨i, iface, hi, hiface, -⟩ := send_cases hr'
    exact ⟨i, hi, (NetworkInterface.sendDatagram_returns_iff _ _ _).mp ⟨iface, hiface⟩⟩
  · rintro ⟨i, hi, hserial⟩
    obtain ⟨iface, hiface⟩ := (NetworkInterface.sendDatagram_returns_iff _ _ _).mpr hserial
    refine ⟨_, bind_ok.mpr ⟨i, ?_, map_ok.mpr ⟨iface, hiface, rfl⟩⟩⟩
    rw [interface, hi]

/-- `send_datagram` does not touch the cache, so a call does not change what the next one needs. -/
theorem accepts_perform {call other : Dispatch} (h : r.perform call = .ok r') :
    r'.accepts other ↔ r.accepts other := by
  obtain ⟨i, iface, hi, hiface, rfl⟩ := send_cases h
  have hcache : iface.ipMacMap = i.iface.ipMacMap := by
    rcases NetworkInterface.sendDatagram_cases hiface with ⟨_, _, -, -, rfl⟩ | ⟨-, -, rfl⟩ | ⟨-, -, rfl⟩ <;> rfl
  have hlt := (List.getElem?_eq_some_iff.mp hi).1
  rw [accepts, accepts, List.getElem?_set]
  by_cases heq : call.index = other.index
  · rw [if_pos heq, if_pos hlt, ← heq, hi]
    simp [hcache]
  · rw [if_neg heq]

theorem foldlM_returns_iff (calls : List Dispatch) :
    (∃ r', calls.foldlM perform r = .ok r') ↔ ∀ call ∈ calls, r.accepts call := by
  induction calls generalizing r with
  | nil => exact ⟨fun _ => by simp, fun _ => ⟨r, rfl⟩⟩
  | cons call calls ih =>
    rw [List.forall_mem_cons, ← perform_returns_iff]
    constructor
    · rintro ⟨r', hr'⟩
      rw [List.foldlM_cons] at hr'
      obtain ⟨r₁, hfirst, hrest⟩ := bind_ok.mp hr'
      exact ⟨⟨r₁, hfirst⟩, fun other hother => (accepts_perform hfirst).mp (ih.mp ⟨r', hrest⟩ other hother)⟩
    · rintro ⟨⟨r₁, hfirst⟩, hrest⟩
      obtain ⟨r', hr'⟩ := ih.mpr fun other hother => (accepts_perform hfirst).mpr (hrest other hother)
      refine ⟨r', ?_⟩
      rw [List.foldlM_cons]
      exact bind_ok.mpr ⟨r₁, hfirst, hr'⟩

theorem foldlM_drained {calls : List Dispatch} (h : calls.foldlM perform r.drained = .ok r') :
    ∀ i ∈ r'.interfaces, i.datagramsOut = [] := by
  intro i hi
  obtain ⟨j, hj⟩ := List.mem_iff_getElem?.mp hi
  have hqueue := (foldlM_queue h).2 j
  rw [queue, queue, hj, drained, List.getElem?_map] at hqueue
  cases hold : r.interfaces[j]? with
  | none =>
    rw [hold] at hqueue
    exact hqueue
  | some i' =>
    rw [hold] at hqueue
    exact hqueue

theorem accepts_drained (call : Dispatch) : r.drained.accepts call ↔ r.accepts call := by
  rw [accepts, accepts, drained, List.getElem?_map]
  cases r.interfaces[call.index]? with
  | none => simp
  | some i => simp

/-- What is forwarded goes to an interface that some route names. -/
theorem forwards_index {call : Dispatch} (h : call ∈ r.forwards) :
    ∃ info ∈ r.routerList, call.index = info.interfaceNum := by
  obtain ⟨i, -, hi⟩ := List.mem_flatMap.mp h
  obtain ⟨dgram, -, hforward⟩ := List.mem_filterMap.mp hi
  rw [forward] at hforward
  split at hforward
  · obtain ⟨info, hinfo, rfl⟩ := Option.map_eq_some_iff.mp hforward
    exact ⟨info, bestMatch_mem _ _ hinfo, rfl⟩
  · exact absurd hforward (by simp)

/-- **The router forwards by longest prefix match, each datagram once**: `route()` returns with all queues
empty, having performed exactly the calls that `forward` asks for, in order, if and only if each of them whose
next hop is known carries a datagram that serializes. -/
theorem route_forwards_iff (r : Router) (hlen : ∀ info ∈ r.routerList, info.prefixLength ≤ 32)
    (hnum : ∀ info ∈ r.routerList, info.interfaceNum < r.interfaces.length) :
    (∃ r', r.route = .ok r' ∧ (∀ i ∈ r'.interfaces, i.datagramsOut = []) ∧
      r.forwards.foldlM perform r.drained = .ok r') ↔
    ∀ call ∈ r.forwards, ∀ i, r.interfaces[call.index]? = some i →
      (i.iface.ipMacMap.getCache call.address.ipv4Numeric).isSome = true →
      call.dgram.payload.length = call.dgram.header.payloadLength.toNat ∧ call.dgram.header.ver = 4 ∧
        IPv4Header.LENGTH ≤ 4 * call.dgram.header.hlen.toNat := by
  have heq := route_eq (r := r) fun info hinfo => UInt8.le_iff_toNat_le.mp (hlen info hinfo)
  have hreturns := foldlM_returns_iff (r := r.drained) r.forwards
  constructor
  · rintro ⟨r', -, -, hr'⟩ call hcall i hi hknown
    obtain ⟨i', hi', hserial⟩ := (accepts_drained call).mp (hreturns.mp ⟨r', hr'⟩ call hcall)
    obtain rfl := Option.some.inj (hi.symm.trans hi')
    exact (InternetDatagram.serialize_returns_iff _).mp (hserial hknown)
  · intro hserial
    obtain ⟨r', hr'⟩ := hreturns.mpr fun call hcall => by
      obtain ⟨info, hinfo, hindex⟩ := forwards_index hcall
      have hlt : call.index < r.interfaces.length := hindex ▸ hnum info hinfo
      have hi := List.getElem?_eq_getElem hlt
      exact (accepts_drained call).mpr ⟨_, hi, fun hknown =>
        (InternetDatagram.serialize_returns_iff _).mpr (hserial call hcall _ hi hknown)⟩
    exact ⟨r', heq.trans hr', foldlM_drained hr', hr'⟩

/-- A router with two interfaces, the second of which knows its neighbour `1`. -/
def sampleRouter (received : List InternetDatagram) : Router :=
  { interfaces := [
      { iface := NetworkInterface.new { b0 := 2, b5 := 9 } { ipv4Numeric := 9 }, datagramsOut := received },
      { iface := { NetworkInterface.new { b0 := 2, b5 := 8 } { ipv4Numeric := 8 } with
          ipMacMap := ({} : IP2EthernetCache).setCache 1 { b0 := 2, b5 := 1 } 0 30000 } }]
    routerList := [
      { routerPrefix := 0, prefixLength := 0, nextHop := some { ipv4Numeric := 1 }, interfaceNum := 1 },
      { routerPrefix := 0x0a000000, prefixLength := 8, nextHop := none, interfaceNum := 0 }] }

/-- A datagram by the default route, one by a longer route, and one whose time is up. -/
theorem route_forwards_three :
    ∃ r', (sampleRouter [{ header := { len := 20, dst := 0x0b000001 } },
        { header := { len := 20, dst := 0x0a000001, ttl := 2 } },
        { header := { len := 20, dst := 0x0b000001, ttl := 1 } }]).route = .ok r' ∧
      ∀ i ∈ r'.interfaces, i.datagramsOut = [] := by
  obtain ⟨r', hr', hempty, -⟩ := (route_forwards_iff (sampleRouter [{ header := { len := 20, dst := 0x0b000001 } },
    { header := { len := 20, dst := 0x0a000001, ttl := 2 } },
    { header := { len := 20, dst := 0x0b000001, ttl := 1 } }]) (by decide) (by decide)).mpr (by decide +kernel)
  exact ⟨r', hr', hempty⟩

/-- **A datagram of version 5 stops the router.** An interface accepts it from the network, and routing it to
a next hop that is known throws; the datagrams behind it stay in the queue. -/
theorem bad_version_stops_route : ∃ dgram : InternetDatagram,
    returns (AsyncNetworkInterface.recvFrame
        { iface := NetworkInterface.new { b0 := 2, b5 := 9 } { ipv4Numeric := 9 } }
        { header := { dst := { b0 := 2, b5 := 9 }, type := EthernetHeader.TYPE_IPv4 }
          payload := [0x55, 0, 0, 20, 0, 0, 0, 0, 64, 6, 0, 0, 0, 0, 0, 0, 0x0b, 0, 0, 1] })
      (fun i => decide (i.datagramsOut = [dgram])) = true ∧
    2 ≤ dgram.header.ttl ∧
    (sampleRouter [dgram]).route = .error (.runtimeError "wrong IP version") := by
  refine ⟨{ header := { ver := 5, len := 20, ttl := 64, dst := 0x0b000001, df := false } }, ?_, ?_, ?_⟩
  · decide +kernel
  · decide
  · decide +kernel

end Router

end Sponge
