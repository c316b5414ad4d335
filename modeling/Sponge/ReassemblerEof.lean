/-
# `Sponge.ReassemblerEof` — when does the end of the stream survive reassembly?

With room for the whole stream and no reads, the bytes reassemble whatever the order of the fragments.
The end mark does not: it travels on list elements, and the containment branch of `push_back` returns
without looking at it.  A marked fragment that lies inside an element already stored (the element then
also ends at the end of the stream) leaves no trace.

The branch is taken in exactly one situation, which can be read off the calls made before: some byte
before the fragment is still missing, an earlier fragment already reached the end of the stream, and the
fragment brings no new byte (`Lost`).  `Tracked` ties the state to the calls made so far; its last two
fields say where the end mark is.
-/
import Sponge.ReassemblerStream

namespace Sponge

open Sponge.Lib BufferStringList

namespace BufferStringList

/-- Some element carries the end mark. -/
def Marked (list : BufferStringList) : Prop := ∃ b ∈ list, b.eof = true

/-- Only a touched element can contain the fragment. -/
theorem contained_iff_touched {L M R : BufferStringList} {target : Bytes} {index : Nat}
    (hL : ∀ b ∈ L, b.second < index) (hR : ∀ b ∈ R, index + target.length < b.first) :
    (∃ b ∈ L ++ M ++ R, b.first ≤ index ∧ index + target.length ≤ b.second) ↔
      ∃ b ∈ M, b.first ≤ index ∧ index + target.length ≤ b.second := by
  constructor
  · rintro ⟨b, hb, h1, h2⟩
    simp only [List.mem_append] at hb
    rcases hb with (hb | hb) | hb
    · have := hL b hb
      omega
    · exact ⟨b, hb, h1, h2⟩
    · have := hR b hb
      omega
  · rintro ⟨b, hb, h1, h2⟩
    exact ⟨b, by simp [hb], h1, h2⟩

/-- A marked element among the touched ones ends where nothing ends later, so it is their last and nothing
follows. -/
theorem marked_is_last {L M R : BufferStringList} (h : Sorted (L ++ M ++ R)) {e : Nat}
    (hmark : ∀ b ∈ L ++ M ++ R, b.eof = true → b.second = e) (hle : ∀ b ∈ L ++ M ++ R, b.second ≤ e)
    {last : BufferString} (hlast : last ∈ M) (hspan : ∀ b ∈ M, b.second ≤ last.second) (hmarked : Marked M) :
    last.eof = true ∧ R = [] := by
  have hsM : Sorted M := (h.append.1).append.2
  obtain ⟨b, hb, hbe⟩ := hmarked
  have hbs := hmark b (by simp [hb]) hbe
  have hbl := hspan b hb
  have hll := hle last (by simp [hlast])
  have hlf := (hsM.fits last hlast).second_eq
  have hbf := (hsM.fits b hb).second_eq
  refine ⟨?_, ?_⟩
  · rcases hsM.ordered_pair hb hlast with rfl | hlt | hlt
    · exact hbe
    · omega
    · omega
  · rw [List.eq_nil_iff_forall_not_mem]
    intro c hc
    have h1 := (List.pairwise_append.mp h.gap).2.2 last (by simp [hlast]) c hc
    have h2 := hle c (by simp [hc])
    have h3 := (h.append.2.fits c hc).second_eq
    omega

/-- **`push_back` and the end mark.** When marks stand only at the last index `e`, a merge keeps them; the
mark of the new fragment is lost iff one element contains the fragment. -/
theorem pushBack_marked {list list' : BufferStringList} (h : Sorted list) {target : Bytes}
    {index e : Nat} {eof : Bool} (hlt : index + target.length < 2 ^ 64)
    (hmark : ∀ b ∈ list, b.eof = true → b.second = e) (hle : ∀ b ∈ list, b.second ≤ e)
    (heq : pushBack list target index eof = .ok list') :
    Marked list' ↔ Marked list ∨
      (eof = true ∧ ¬ ∃ b ∈ list, b.first ≤ index ∧ index + target.length ≤ b.second) := by
  obtain ⟨L, M, R, rfl, hL, hM, hR, heq'⟩ := pushBack_eq h hlt eof
  obtain rfl : L ++ merged M index target eof R.isEmpty :: R = list' :=
    Except.ok.inj (heq'.symm.trans heq)
  have hsM : Sorted M := (h.append.1).append.2
  rw [contained_iff_touched hL hR]
  refine exists_mem_replace ?_
  rcases merged_cases eof R.isEmpty hsM hM with
    ⟨rfl, hm⟩ | ⟨head, rfl, h1, h2, hm⟩ | ⟨head, last, hhead, hlast, hspan, hout, hgl, hm⟩
  · rw [hm]
    simp
  · rw [hm]
    simp [h1, h2]
  · have hnot : ¬ ∃ b ∈ M, b.first ≤ index ∧ index + target.length ≤ b.second := by
      rintro ⟨b, hb, h1, h2⟩
      refine hout ⟨by have := (hspan b hb).1; omega, ?_⟩
      rcases hsM.ordered_pair hhead hb with rfl | hlt' | hlt'
      · exact h2
      · have := (hM head hhead).1
        omega
      · have := (hspan b hb).1
        have := (hsM.fits b hb).second_eq
        omega
    have hkept := marked_is_last h hmark hle hlast fun b hb => (hspan b hb).2
    rw [hm]
    simp only [Bool.or_eq_true, Bool.and_eq_true]
    constructor
    · rintro (hx | ⟨_, hx⟩)
      · exact Or.inr ⟨hx, hnot⟩
      · exact Or.inl ⟨last, hlast, hx⟩
    · rintro (hx | ⟨hx, _⟩)
      · obtain ⟨h1, rfl⟩ := hkept hx
        exact Or.inr ⟨rfl, h1⟩
      · exact Or.inl hx

end BufferStringList

/-! ## Calls over a fixed byte string -/

/-- A call `push_substring(S[i..j), i, eof)`. -/
structure SlicePush where
  i : Nat
  j : Nat
  eof : Bool := false

namespace SlicePush

/-- A slice of `S`; the end mark only on a slice that reaches the end. -/
def Honest (S : Bytes) (c : SlicePush) : Prop :=
  c.i ≤ c.j ∧ c.j ≤ S.length ∧ (c.eof = true → c.j = S.length)

instance (S : Bytes) (c : SlicePush) : Decidable (c.Honest S) :=
  inferInstanceAs (Decidable (c.i ≤ c.j ∧ c.j ≤ S.length ∧ (c.eof = true → c.j = S.length)))

/-- Some call brought byte `n`. -/
def Covered (calls : List SlicePush) (n : Nat) : Prop := ∃ c ∈ calls, c.i ≤ n ∧ n < c.j

instance (calls : List SlicePush) (n : Nat) : Decidable (Covered calls n) :=
  inferInstanceAs (Decidable (∃ c ∈ calls, c.i ≤ n ∧ n < c.j))

/-- A call whose end mark is thrown away: a byte before it is missing, the end of `S` was reached before,
and it brings no new byte. -/
def Lost (S : Bytes) (before : List SlicePush) (c : SlicePush) : Prop :=
  (∃ n, n < c.i ∧ ¬ Covered before n) ∧ (∃ d ∈ before, d.j = S.length) ∧
  ∀ n, c.i ≤ n → n < S.length → Covered before n

/-- Some call brings an end mark that is not thrown away. -/
def Accepted (S : Bytes) (calls : List SlicePush) : Prop :=
  ∃ before c after, calls = before ++ c :: after ∧ c.eof = true ∧ ¬ Lost S before c

theorem covered_concat {calls : List SlicePush} {c : SlicePush} {n : Nat} :
    Covered (calls ++ [c]) n ↔ Covered calls n ∨ (c.i ≤ n ∧ n < c.j) := by
  simp only [Covered, List.mem_append, List.mem_singleton, or_and_right, exists_or, exists_eq_left]

theorem accepted_concat {S : Bytes} {calls : List SlicePush} {c : SlicePush} :
    Accepted S (calls ++ [c]) ↔ Accepted S calls ∨ (c.eof = true ∧ ¬ Lost S calls c) := by
  constructor
  · rintro ⟨before, d, after, heq, he, hl⟩
    rcases List.eq_nil_or_concat after with rfl | ⟨after', x, rfl⟩
    · obtain ⟨rfl, h⟩ := List.append_inj' heq rfl
      obtain rfl : c = d := by simpa using h
      exact Or.inr ⟨he, hl⟩
    · rw [List.concat_eq_append, ← List.cons_append, ← List.append_assoc] at heq
      exact Or.inl ⟨before, d, after', (List.append_inj' heq rfl).1, he, hl⟩
  · rintro (⟨before, d, after, rfl, he, hl⟩ | ⟨he, hl⟩)
    · exact ⟨before, d, after ++ [c], by simp, he, hl⟩
    · exact ⟨calls, c, [], rfl, he, hl⟩

end SlicePush

namespace StreamReassembler

open SlicePush (Covered Lost Accepted covered_concat accepted_concat)
open ObservedReassembler (slice slice_length endsAt_placed agrees_placed_slice)

/-- The calls, one after the other. -/
def pushAll (S : Bytes) (r : StreamReassembler) (calls : List SlicePush) :
    Except Exception StreamReassembler :=
  calls.foldlM (fun r c => r.pushSubstring (slice S c.i c.j) c.i c.eof) r

/-- When the output is not full, `settle` leaves the list or pops its front: positions behind
`_top_pointer` stay reached, and an end mark moves to the output with its element. -/
theorem settle_roomy {base : Nat} {r : StreamReassembler} (h : Ordered base r)
    {list : BufferStringList} (hs : Sorted list) (habove : ∀ b ∈ list, r.topPointer ≤ b.first)
    (hwin : ∀ b ∈ list, b.first < base + r.output.bytesRead + r.capacity) (hne : list ≠ [])
    (hroom : (r.settle list).output.contents.length < r.capacity) :
    (∀ b ∈ (r.settle list).bufferList, b ∈ list) ∧
    r.topPointer ≤ (r.settle list).topPointer ∧
    (∀ n, (r.settle list).topPointer < n →
      (Reaches list n ↔ Reaches (r.settle list).bufferList n)) ∧
    (((r.settle list).output.isInputEnd = true ∨ Marked (r.settle list).bufferList) ↔
      (r.output.isInputEnd = true ∨ Marked list)) := by
  have hcap := h.currentCapactiy
  rcases settle_cases h hs habove hwin hne with
    ⟨front, rest, rfl, _, hst, hbl, hin⟩ | ⟨front, rest, rfl, hfront, hst, hbl, hin⟩ |
    ⟨front, rfl, hfront, hlt, hst, hbl, hin⟩
  · rw [hbl, hin, hst.top]
    exact ⟨fun b hb => hb, Nat.le_add_right _ _, fun n _ => Iff.rfl, Iff.rfl⟩
  · have hsec := (hs.fits front (by simp)).second_eq
    rw [hbl, hin, hst.top]
    refine ⟨fun b hb => List.mem_cons_of_mem _ hb, Nat.le_add_right _ _, fun n hn => ?_, ?_⟩
    · rw [reaches_cons]
      exact or_iff_right (by omega)
    · rw [Bool.or_eq_true, or_assoc]
      simp only [Marked, List.mem_cons, or_and_right, exists_or, exists_eq_left]
  · rw [hst.contents, List.length_append, List.length_take] at hroom
    omega

/-- What the state says about the calls made so far. -/
structure Tracked (S : Bytes) (capacity : Nat) (calls : List SlicePush) (r : StreamReassembler) :
    Prop where
  cap : r.capacity = capacity
  honest : Honest (placed 0 S) (some (0 + S.length)) 0 [] r
  /-- Nothing is left to assemble. -/
  gap : ∀ b ∈ r.bufferList, r.topPointer < b.first
  bound : ∀ b ∈ r.bufferList, b.second ≤ S.length
  covered : ∀ n, Covered calls n ↔ n < r.topPointer ∨ Stores r.bufferList n
  reached : r.topPointer < S.length →
    ((∃ c ∈ calls, c.j = S.length) ↔ Reaches r.bufferList S.length)
  mark : Accepted S calls ↔ r.output.isInputEnd = true ∨ Marked r.bufferList

variable {S : Bytes} {capacity : Nat} {calls : List SlicePush} {r : StreamReassembler}

theorem Tracked.new (S : Bytes) (capacity : Nat) : Tracked S capacity [] (new capacity) where
  cap := rfl
  honest := Honest.new _ _ capacity
  gap := by simp [StreamReassembler.new]
  bound := by simp [StreamReassembler.new]
  covered := by simp [Covered, Stores, StreamReassembler.new]
  reached := by simp [Reaches, StreamReassembler.new]
  mark := by simp [Accepted, Marked, StreamReassembler.new, ByteStream.new]

/-- Nothing has been read, so the output holds all that was written. -/
theorem Honest.contents_length {f : Nat → Option UInt8} {fin : Option Nat}
    (h : Honest f fin 0 [] r) : r.output.contents.length = r.topPointer := by
  have h1 := h.written_length
  rw [List.nil_append] at h1
  rw [h1, h.ordered.top, Nat.zero_add]

theorem Honest.contents_eq (h : Honest (placed 0 S) (some (0 + S.length)) 0 [] r) :
    r.output.contents = S.take r.topPointer ∧ r.topPointer ≤ S.length := by
  have h1 := h.written.eq_take
  rw [List.nil_append, h.contents_length] at h1
  exact h1

theorem Tracked.not_stores_top (h : Tracked S capacity calls r) :
    ¬ Stores r.bufferList r.topPointer := by
  rintro ⟨b, hb, h1, _⟩
  have := h.gap b hb
  omega

/-- **The containment branch**, seen from the calls: an element contains what a fragment up to the end of
`S` still has to offer iff the fragment's end mark is `Lost`. -/
theorem Tracked.contained_iff_lost (h : Tracked S capacity calls r) {c : SlicePush}
    (hc : c.i ≤ S.length) :
    (∃ b ∈ r.bufferList, b.first ≤ max c.i r.topPointer ∧ S.length ≤ b.second) ↔ Lost S calls c := by
  constructor
  · rintro ⟨b, hb, h1, h2⟩
    have hg := h.gap b hb
    have hbd := h.bound b hb
    refine ⟨⟨r.topPointer, by omega, ?_⟩, ?_, ?_⟩
    · rw [h.covered]
      rintro (hn | hn)
      · omega
      · exact h.not_stores_top hn
    · exact (h.reached (by omega)).mpr ⟨b, hb, by omega, h2⟩
    · intro n hn1 hn2
      exact (h.covered n).mpr (Or.inr ⟨b, hb, by omega, by omega⟩)
  · rintro ⟨⟨n, hn, hunc⟩, hreach, hall⟩
    have htop : r.topPointer ≤ n := by
      by_contra hlt
      exact hunc ((h.covered n).mpr (Or.inl (by omega)))
    obtain ⟨b, hb, h1, h2⟩ := (h.reached (by omega)).mp hreach
    refine ⟨b, hb, ?_, h2⟩
    by_contra hlt
    -- the byte before `b` would be stored in another element, which touches `b`
    rcases (h.covered (b.first - 1)).mp (hall _ (by omega) (by omega)) with hm | ⟨d, hd, hd1, hd2⟩
    · omega
    · have hds := (h.honest.ordered.sorted.fits d hd).second_eq
      rcases h.honest.ordered.sorted.ordered_pair hd hb with rfl | hlt' | hlt'
      · omega
      · omega
      · omega

/-- A fragment that is dropped lies before `_top_pointer` and tells nothing new. -/
theorem Tracked.dropped (h : Tracked S capacity calls r) {c : SlicePush} (hc : c.Honest S)
    (hlt : c.j < r.topPointer) : Tracked S capacity (calls ++ [c]) r := by
  have hle := h.honest.contents_eq.2
  refine ⟨h.cap, h.honest, h.gap, h.bound, fun n => ?_, fun ht => ?_, ?_⟩
  · rw [covered_concat, h.covered]
    constructor
    · rintro (hn | hn)
      · exact hn
      · exact Or.inl (by omega)
    · exact Or.inl
  · rw [← h.reached ht]
    simp only [List.mem_append, List.mem_singleton, or_and_right, exists_or, exists_eq_left,
      show ¬ c.j = S.length by omega, or_false]
  · rw [accepted_concat, ← h.mark]
    have hne : ¬ c.eof = true := fun he => by have := hc.2.2 he; omega
    simp only [hne, Bool.false_eq_true, false_and, or_false]

/-! What is kept track of, after the indices from `c.i` to `c.j` that were not yet written have joined the
list. -/

section Pushed

variable {c : SlicePush} {list : BufferStringList}

/-- Nothing stored ends beyond `S`. -/
theorem Tracked.bound_pushed (h : Tracked S capacity calls r) (hj : c.j ≤ S.length) (hs : Sorted list)
    (hre : ∀ n, Reaches list n ↔ Reaches r.bufferList n ∨
      (max c.i r.topPointer ≤ n ∧ n ≤ max c.j r.topPointer)) :
    ∀ b ∈ list, b.second ≤ S.length := by
  have htop := h.honest.contents_eq.2
  intro b hb
  have hbs := (hs.fits b hb).second_eq
  rcases (hre b.second).mp ⟨b, hb, by omega, Nat.le_refl _⟩ with ⟨d, hd, h1, h2⟩ | hin
  · have := h.bound d hd
    omega
  · omega

/-- Each index that a call has covered is written or stored. -/
theorem Tracked.covered_pushed (h : Tracked S capacity calls r) {r' : StreamReassembler}
    (hmono : r.topPointer ≤ r'.topPointer)
    (hst : ∀ n, Stores list n ↔ Stores r.bufferList n ∨
      (max c.i r.topPointer ≤ n ∧ n < max c.j r.topPointer))
    (hstores : ∀ n, Stores list n ↔
      (r.topPointer ≤ n ∧ n < r'.topPointer) ∨ Stores r'.bufferList n) (n : Nat) :
    Covered (calls ++ [c]) n ↔ n < r'.topPointer ∨ Stores r'.bufferList n := by
  rw [covered_concat, h.covered]
  have hn := hstores n
  rw [hst n] at hn
  constructor
  · rintro ((hx | hx) | hx)
    · exact Or.inl (by omega)
    · exact (hn.mp (Or.inl hx)).imp (fun hx => hx.2) id
    · by_cases hlt : n < r.topPointer
      · exact Or.inl (by omega)
      · exact (hn.mp (Or.inr ⟨by omega, by omega⟩)).imp (fun hx => hx.2) id
  · intro hx
    by_cases hlt : n < r.topPointer
    · exact Or.inl (Or.inl hlt)
    · rcases hn.mpr (hx.imp (fun hx => ⟨by omega, hx⟩) id) with hx | hx
      · exact Or.inl (Or.inr hx)
      · exact Or.inr ⟨by omega, by omega⟩

/-- An end mark is stored unless the fragment that brings it is contained in an element. -/
theorem Tracked.marked_pushed (h : Tracked S capacity calls r) (hc : c.Honest S) {data : Bytes}
    (hdata : max c.i r.topPointer + data.length = max c.j r.topPointer) (hlt : S.length < 2 ^ 64)
    (hpb : BufferStringList.pushBack r.bufferList data (max c.i r.topPointer) c.eof = .ok list) :
    Marked list ↔ Marked r.bufferList ∨ (c.eof = true ∧ ¬ Lost S calls c) := by
  obtain ⟨hij, hj, heof⟩ := hc
  have htop := h.honest.contents_eq.2
  rw [pushBack_marked h.honest.ordered.sorted (e := S.length) (by omega) ?_ h.bound hpb, hdata]
  · refine or_congr_right (and_congr_right fun he => ?_)
    rw [heof he, show max S.length r.topPointer = S.length by omega, h.contained_iff_lost (by omega)]
  · intro b hb he
    have := h.honest.content.mark b hb he
    rw [Nat.zero_add, Option.some.injEq] at this
    exact this.symm

end Pushed

/-- **One call.** It returns, and the state keeps track of it. -/
theorem Tracked.push (h : Tracked S capacity calls r) (hcap : S.length < capacity)
    (hcap64 : capacity < 2 ^ 64) {c : SlicePush} (hc : c.Honest S) :
    ∃ r', r.pushSubstring (slice S c.i c.j) c.i c.eof = .ok r' ∧
      Tracked S capacity (calls ++ [c]) r' := by
  obtain ⟨hij, hj, heof⟩ := hc
  have hlen := slice_length hij hj
  have hord := h.honest.ordered
  have htop := h.honest.contents_eq.2
  have hcont := h.honest.contents_length
  have hroom := hord.currentCapactiy
  rw [h.cap, hcont] at hroom
  have hmark : c.eof = true → some (0 + S.length) = some (c.i + (slice S c.i c.j).length) := by
    intro he
    rw [hlen, heof he, Nat.zero_add, Option.some.injEq]
    omega
  have hlt : c.i + (slice S c.i c.j).length + 1 < 2 ^ 64 := by omega
  obtain ⟨r', heq, hr'⟩ := h.honest.push (endsAt_placed 0 S) (agrees_placed_slice S c.i c.j) hmark hlt
    (by omega)
  refine ⟨r', heq, ?_⟩
  have hcap' := (pushSubstring_frame heq).1
  have htop' := hr'.contents_eq.2
  have hcont' := hr'.contents_length
  rcases hord.push_cases c.eof hlt (by omega) with
    ⟨hd, heq'⟩ | ⟨hd, list, hpb, heq', hs, hne, habove, hwin, hst, hre⟩
  · obtain rfl : r = r' := Except.ok.inj (heq'.symm.trans heq)
    rw [Dropped, hlen, hroom] at hd
    exact h.dropped ⟨hij, hj, heof⟩ (by omega)
  · obtain rfl : r.settle list = r' := Except.ok.inj (heq'.symm.trans heq)
    rw [Dropped, hlen, not_or] at hd
    have hcut : max c.i r.topPointer + (r.cut (slice S c.i c.j) c.i).length = max c.j r.topPointer := by
      rw [cut, List.length_take, List.length_drop, hlen, hroom]
      omega
    have hcutEof : r.cutEof (slice S c.i c.j) c.i c.eof = c.eof := by
      rw [cutEof, hlen, hroom, decide_eq_true (by omega), Bool.and_true]
    rw [hcut] at hst hre
    rw [hcutEof] at hpb
    obtain ⟨hstores, hgap⟩ := hord.settle_stores hs habove hwin hne
    have hgap := hgap.resolve_left (by rw [hcont', h.cap]; omega)
    obtain ⟨hsub, htt, hpopped, hend⟩ :=
      settle_roomy hord hs habove hwin hne (by rw [hcont', h.cap]; omega)
    have hmarked := h.marked_pushed ⟨hij, hj, heof⟩ hcut (by omega) hpb
    have hbound := h.bound_pushed hj hs hre
    generalize r.settle list = r' at *
    refine ⟨hcap'.trans h.cap, hr', hgap, fun b hb => hbound b (hsub b hb),
      h.covered_pushed htt hst hstores, fun ht => ?_, ?_⟩
    · rw [← hpopped _ ht, hre, ← h.reached (by omega)]
      simp only [List.mem_append, List.mem_singleton, or_and_right, exists_or, exists_eq_left]
      exact or_congr_right ⟨fun he => ⟨by omega, by omega⟩, fun he => by omega⟩
    · rw [accepted_concat, h.mark, or_assoc, ← hmarked, hend]

/-- All the calls. -/
theorem Tracked.pushAll (hcap : S.length < capacity) (hcap64 : capacity < 2 ^ 64)
    {more : List SlicePush} (hmore : ∀ c ∈ more, c.Honest S) (h : Tracked S capacity calls r) :
    ∃ r', r.pushAll S more = .ok r' ∧ Tracked S capacity (calls ++ more) r' := by
  induction more generalizing calls r with
  | nil => exact ⟨r, rfl, by rwa [List.append_nil]⟩
  | cons c more ih =>
    obtain ⟨r₁, heq, h₁⟩ := h.push hcap hcap64 (hmore c (by simp))
    obtain ⟨r', heq', h'⟩ := ih (fun d hd => hmore d (by simp [hd])) h₁
    refine ⟨r', ?_, by rwa [List.append_assoc] at h'⟩
    rw [StreamReassembler.pushAll, List.foldlM_cons, heq]
    exact heq'

/-- **Order-independence of the bytes.** Calls that cover `S` leave exactly `S` in the output, and the
output has ended iff some end mark was accepted. -/
theorem pushAll_covered (hcap : S.length < capacity) (hcap64 : capacity < 2 ^ 64)
    (hcalls : ∀ c ∈ calls, c.Honest S) (hcov : ∀ n, n < S.length → Covered calls n) :
    ∃ r, (new capacity).pushAll S calls = .ok r ∧
      r.output.peeked r.output.bufferSize = S ∧
      (r.output.inputEnded = true ↔ Accepted S calls) := by
  obtain ⟨r, heq, h⟩ := (Tracked.new S capacity).pushAll hcap hcap64 hcalls
  rw [List.nil_append] at h
  obtain ⟨hout, hle⟩ := h.honest.contents_eq
  have htop : r.topPointer = S.length := by
    by_contra hne
    rcases (h.covered r.topPointer).mp (hcov _ (by omega)) with hn | hn
    · omega
    · exact h.not_stores_top hn
  have hnone : ¬ Marked r.bufferList := by
    rintro ⟨b, hb, _⟩
    have h1 := h.gap b hb
    have h2 := h.bound b hb
    have h3 := (h.honest.ordered.sorted.fits b hb).second_eq
    omega
  refine ⟨r, heq, ?_, ?_⟩
  · rw [h.honest.ordered.out.peeked_bufferSize, hout, htop, List.take_length]
  · rw [h.mark]
    exact (or_iff_left hnone).symm

/-- **When reassembly reaches the end of the stream.** Whatever the order, overlap and repetition of calls
that cover `S`: the output is `S` and has ended iff some call brings an end mark that is not thrown away
by the containment branch. -/
theorem reassembly_complete_iff (hcap : S.length < capacity) (hcap64 : capacity < 2 ^ 64)
    (hcalls : ∀ c ∈ calls, c.Honest S) (hcov : ∀ n, n < S.length → Covered calls n) :
    (∃ r, (new capacity).pushAll S calls = .ok r ∧
      r.output.peeked r.output.bufferSize = S ∧ r.output.inputEnded = true) ↔
    ∃ before c after, calls = before ++ c :: after ∧ c.eof = true ∧ ¬ Lost S before c := by
  obtain ⟨r, heq, hout, hend⟩ := pushAll_covered hcap hcap64 hcalls hcov
  constructor
  · rintro ⟨r', heq', _, he⟩
    obtain rfl : r = r' := Except.ok.inj (heq.symm.trans heq')
    exact hend.mp he
  · intro hacc
    exact ⟨r, heq, hout, hend.mpr hacc⟩

/-- The last byte and the end mark together, then the first byte. -/
theorem reassembly_complete_two : ∃ r, (new 3).pushAll [1, 2] [⟨1, 2, true⟩, ⟨0, 1, false⟩] = .ok r ∧
    r.output.peeked r.output.bufferSize = [1, 2] ∧ r.output.inputEnded = true := by
  refine (reassembly_complete_iff (by decide) (by decide) (by decide) (by decide)).mpr ?_
  refine ⟨[], ⟨1, 2, true⟩, [⟨0, 1, false⟩], rfl, rfl, ?_⟩
  rintro ⟨_, ⟨d, hd, _⟩, _⟩
  exact absurd hd (by simp)

/-- **The end of the stream is lost**: the last byte, then the bare end mark behind it, then the first
byte.  All bytes arrive and the stream stays open. -/
theorem end_mark_lost :
    (∀ c ∈ [(⟨1, 2, false⟩ : SlicePush), ⟨2, 2, true⟩, ⟨0, 1, false⟩], c.Honest [1, 2]) ∧
    (∀ n, n < [(1 : UInt8), 2].length →
      Covered [(⟨1, 2, false⟩ : SlicePush), ⟨2, 2, true⟩, ⟨0, 1, false⟩] n) ∧
    ∃ r, (new 3).pushAll [1, 2] [⟨1, 2, false⟩, ⟨2, 2, true⟩, ⟨0, 1, false⟩] = .ok r ∧
      r.output.peeked r.output.bufferSize = [1, 2] ∧ r.output.inputEnded = false := by
  refine ⟨by decide, by decide, _, rfl, rfl, rfl⟩

end StreamReassembler

end Sponge
