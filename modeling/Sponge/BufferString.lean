/-
# `Sponge.BufferString` — the list of out-of-order fragments.

Models `libsponge/buffer_string.{hh,cc}`.  A `BufferString` is a string with the pair of stream indices
it occupies and an end-of-stream mark; a `BufferStringList` is a deque of them, kept sorted by index.
`push_back` locates a new fragment by two binary searches and either inserts it, drops it as contained
in the first element it touches, or replaces all the elements it touches by one.

The main result is `pushBack_eq`: on a sorted list the whole function is the three-way cut of the list
by the fragment, with the touched part replaced by one explicit element (`merged`).  Everything the
reassembler needs — order, content, coverage, the end mark — is read off that element.
-/
import Sponge.Cpp
import Sponge.Lib.Fragments

namespace Sponge

open Sponge.Lib

/-! ## The source functions -/

/-- `sponge::BufferString`; `first` and `second` are the two halves of `_index`. -/
structure BufferString where
  first : Nat := 0
  second : Nat := 0
  eof : Bool := false
  target : Bytes := []
  deriving DecidableEq, Repr, Inhabited

namespace BufferString

/-- `BufferString(index, target, eof)`. -/
def make (index : Nat) (target : Bytes) (eof : Bool) : BufferString :=
  { first := index, second := add64 index target.length, eof := eof, target := target }

def size (b : BufferString) : Nat := b.target.length

@[simp] theorem make_first (index : Nat) (target : Bytes) (eof : Bool) :
    (make index target eof).first = index := rfl

@[simp] theorem make_target (index : Nat) (target : Bytes) (eof : Bool) :
    (make index target eof).target = target := rfl

@[simp] theorem make_eof (index : Nat) (target : Bytes) (eof : Bool) :
    (make index target eof).eof = eof := rfl

end BufferString

/-- `sponge::BufferStringList`. -/
abbrev BufferStringList := List BufferString

namespace BufferStringList

/-- `std::lower_bound` with the comparison `key > buff.second`. -/
def lowerBound (list : BufferStringList) (key : Nat) : Nat :=
  bisectList (fun buff => decide (key > buff.second)) list

/-- `std::upper_bound` with the comparison `key < buff.first`. -/
def upperBound (list : BufferStringList) (key : Nat) : Nat :=
  bisectList (fun buff => !decide (key < buff.first)) list

/-- The body of the stitching loop: the part of an absorbed node beyond `right_index` is appended. -/
def extend (rightIndex : Nat) (newString : Bytes) (it : BufferString) : Except Exception Bytes :=
  if it.second > rightIndex then
    (substr it.target (sub64 rightIndex it.first) (it.second - rightIndex)).map (newString ++ ·)
  else
    .ok newString

/-- The part of `BufferStringList::push_back` that runs when the two searches differ: the nodes from
`lowerLeft` up to `upperRight` are to be merged with `buffer`. -/
def mergeNodes (list : BufferStringList) (buffer : BufferString) (lowerLeft upperRight : Nat) :
    Except Exception BufferStringList :=
  let isListEnd : Bool := upperRight == list.length
  let upperRight := if !isListEnd then upperRight else upperRight - 1
  if upperRight < lowerLeft then
    .error (.runtimeError "BufferStringList::push_back lower_left is larger than upper_right")
  else
    let left := list.getD lowerLeft default
    let right := list.getD upperRight default
    let leftIndex := min left.first buffer.first
    let rightIndex := if !isListEnd then buffer.second else max right.second buffer.second
    if left.first ≤ buffer.first ∧ left.second ≥ buffer.second then
      .ok list
    else
      let newString := if buffer.first > leftIndex then
        left.target.take (buffer.first - leftIndex) else []
      let newString := newString ++ buffer.target
      (((list.drop lowerLeft).take (upperRight - lowerLeft)).foldlM (extend rightIndex)
          newString).bind fun newString =>
        if isListEnd then
          (if buffer.second < rightIndex then
              (substr right.target (sub64 buffer.second right.first)
                (rightIndex - buffer.second)).map (newString ++ ·)
            else .ok newString).bind fun newString =>
          let list := list.set upperRight
            (BufferString.make leftIndex newString (buffer.eof || right.eof))
          .ok (list.take lowerLeft ++ list.drop upperRight)
        else
          let list := list.set lowerLeft (BufferString.make leftIndex newString buffer.eof)
          .ok (list.take (lowerLeft + 1) ++ list.drop upperRight)

/-- `BufferStringList::push_back`. -/
def pushBack (list : BufferStringList) (target : Bytes) (index : Nat) (eof : Bool) :
    Except Exception BufferStringList :=
  let buffer := BufferString.make index target eof
  let lowerLeft := lowerBound list buffer.first
  let upperRight := upperBound list buffer.second
  if lowerLeft = upperRight then
    .ok (list.take lowerLeft ++ buffer :: list.drop lowerLeft)
  else
    mergeNodes list buffer lowerLeft upperRight

/-- `BufferStringList::size`. -/
def size (list : BufferStringList) : Nat := (list.map fun it => sub64 it.second it.first).sum

/-- `BufferStringList::top_index`. -/
def topIndex (list : BufferStringList) : Nat :=
  match list with
  | [] => 0
  | front :: _ => front.first

/-- `BufferStringList::pop_up_buffer_string`, that is `get_buffer_string(size, should_pop = 1)`: the
front element, or its first `size` bytes with the rest appended at the BACK of the list. -/
def popUpBufferString (list : BufferStringList) (size : Nat) : BufferString × BufferStringList :=
  match list with
  | [] => ({}, [])
  | buffer :: rest =>
    if size ≥ buffer.size then (buffer, rest)
    else
      (BufferString.make buffer.first (buffer.target.take size) false,
        rest ++ [BufferString.make (buffer.first + size) (buffer.target.drop size) buffer.eof])

/-- `BufferStringList::pop_up_buffer`, that is `get_buffer(size, should_pop = 1)`: the same for the bytes alone,
and here the rest is appended without its end mark. -/
def popUpBuffer (list : BufferStringList) (size : Nat) : Bytes × BufferStringList :=
  match list with
  | [] => ([], [])
  | front :: rest =>
    if size ≥ front.size then (front.target, rest)
    else
      (front.target.take size,
        rest ++ [BufferString.make (front.first + size) (front.target.drop size) false])

/-! ## Sorted lists -/

/-- The recorded range of an element matches its string, inside the 64-bit index space. -/
structure Fits (b : BufferString) : Prop where
  second_eq : b.second = b.first + b.target.length
  lt : b.second < 2 ^ 64

/-- Sorted by index, with a gap between any two elements, and every recorded range right. -/
structure Sorted (list : BufferStringList) : Prop where
  fits : ∀ b ∈ list, Fits b
  gap : list.Pairwise fun a b => a.second < b.first

theorem Sorted.separated {list : BufferStringList} (h : Sorted list) :
    Separated BufferString.first BufferString.second list :=
  ⟨fun b hb => by have := (h.fits b hb).second_eq; omega, h.gap⟩

theorem Sorted.nil : Sorted [] := ⟨by simp, List.Pairwise.nil⟩

theorem sorted_cons {b : BufferString} {list : BufferStringList} :
    Sorted (b :: list) ↔ Fits b ∧ (∀ c ∈ list, b.second < c.first) ∧ Sorted list := by
  constructor
  · intro h
    obtain ⟨hb, hl⟩ := List.pairwise_cons.mp h.gap
    exact ⟨h.fits b (by simp), hb, ⟨fun c hc => h.fits c (by simp [hc]), hl⟩⟩
  · rintro ⟨hf, hb, hl⟩
    refine ⟨fun c hc => ?_, List.pairwise_cons.mpr ⟨hb, hl.gap⟩⟩
    rcases List.mem_cons.mp hc with rfl | hc
    · exact hf
    · exact hl.fits c hc

theorem fits_make {index : Nat} {target : Bytes} (h : index + target.length < 2 ^ 64) (eof : Bool) :
    Fits (BufferString.make index target eof) :=
  ⟨add64_of_lt h, by rw [BufferString.make, add64_of_lt h]; exact h⟩

/-! ## What `push_back` does to a sorted list -/

/-- The string of the element that replaces the touched elements: what the first one has before the
fragment, the fragment, and what the last one has after it. -/
def glue (head : BufferString) (index : Nat) (target : Bytes) (last : BufferString) : Bytes :=
  head.target.take (index - head.first) ++ target ++
    last.target.drop (index + target.length - last.first)

/-- The element that a fragment and the elements `M` it touches become.  `atEnd` says that no element
follows: only then the end mark of the last touched element is kept.  A fragment inside the first
touched element leaves that element as it is, and its own end mark is dropped with it. -/
def merged (M : BufferStringList) (index : Nat) (target : Bytes) (eof atEnd : Bool) : BufferString :=
  match M with
  | [] => BufferString.make index target eof
  | head :: tail =>
    let last := (head :: tail).getLast (by simp)
    if head.first ≤ index ∧ index + target.length ≤ head.second then head
    else
      { first := min head.first index
        second := max last.second (index + target.length)
        eof := eof || (atEnd && last.eof)
        target := glue head index target last }

/-- The glued string fills the range from the leftmost start to the rightmost end. -/
theorem glue_length {head last : BufferString} {index : Nat} {target : Bytes} (hhead : Fits head)
    (hlast : Fits last) (h1 : index ≤ head.second) (h2 : last.first ≤ index + target.length) :
    min head.first index + (glue head index target last).length
      = max last.second (index + target.length) := by
  have hh := hhead.second_eq
  have hl := hlast.second_eq
  simp only [glue, List.length_append, List.length_take, List.length_drop]
  omega

/-- The stitching loop adds nothing for nodes that end inside the fragment. -/
theorem foldlM_extend_of_le {rightIndex : Nat} {M : BufferStringList}
    (h : ∀ b ∈ M, b.second ≤ rightIndex) (acc : Bytes) :
    M.foldlM (extend rightIndex) acc = .ok acc := by
  induction M generalizing acc with
  | nil => rfl
  | cons b M ih =>
    have hb : b.second ≤ rightIndex := h b (by simp)
    rw [List.foldlM_cons, extend, if_neg (by omega)]
    exact ih (fun c hc => h c (by simp [hc])) acc

/-- One node appends exactly what it has beyond `rightIndex`. -/
theorem extend_eq {rightIndex : Nat} {b : BufferString} (hf : Fits b) (hle : b.first ≤ rightIndex)
    (acc : Bytes) : extend rightIndex acc b = .ok (acc ++ b.target.drop (rightIndex - b.first)) := by
  have hs := hf.second_eq
  rw [extend]
  split
  · rename_i hgt
    have htake : (b.target.drop (rightIndex - b.first)).take (b.second - rightIndex)
        = b.target.drop (rightIndex - b.first) :=
      List.take_of_length_le (by rw [List.length_drop]; omega)
    rw [sub64_of_le hle, substr_of_le (by omega), htake]
    rfl
  · rename_i hle'
    have hnone : b.target.drop (rightIndex - b.first) = [] := List.drop_of_length_le (by omega)
    rw [hnone, List.append_nil]

/-- Overwriting position `L.length + k` of `L ++ M ++ R`, with the new element then standing between
`L` and what follows the overwritten range. -/
theorem set_first_touched {L M R : BufferStringList} (hM : M ≠ []) (x : BufferString) :
    ((L ++ M ++ R).set L.length x).take (L.length + 1)
      ++ ((L ++ M ++ R).set L.length x).drop (L.length + M.length) = L ++ x :: R := by
  obtain ⟨m, M', rfl⟩ := List.exists_cons_of_ne_nil hM
  have hset : (L ++ (m :: M') ++ R).set L.length x = L ++ x :: (M' ++ R) := by
    simp [List.append_assoc]
  rw [hset, List.take_length_add_append, List.drop_length_add_append]
  simp

theorem set_last_touched {L M : BufferStringList} (m x : BufferString) :
    ((L ++ (M ++ [m])).set (L.length + M.length) x).take L.length
      ++ ((L ++ (M ++ [m])).set (L.length + M.length) x).drop (L.length + M.length) = L ++ [x] := by
  have hset : (L ++ (M ++ [m])).set (L.length + M.length) x = L ++ M ++ [x] := by
    rw [← List.append_assoc, ← List.length_append, List.set_append_right _ _ (Nat.le_refl _)]
    simp
  rw [hset, ← List.length_append, List.drop_left, List.append_assoc, List.take_left]

/-- In a sorted run of touched elements only the last one can reach beyond the fragment, and only the
first one before it. -/
theorem Sorted.last_second_lt {L R M : BufferStringList} {last : BufferString}
    (h : Sorted (L ++ (M ++ [last]) ++ R)) : ∀ b ∈ M, b.second < last.first := by
  have h1 := (List.pairwise_append.mp h.gap).1
  have h2 := (List.pairwise_append.mp h1).2.1
  intro b hb
  exact (List.pairwise_append.mp h2).2.2 b hb last (by simp)

/-- The part of the first touched element that the new string starts with. -/
theorem leading_part (head : BufferString) (index : Nat) :
    (if index > min head.first index then head.target.take (index - min head.first index) else [])
      = head.target.take (index - head.first) := by
  split
  · rw [show min head.first index = head.first by omega]
  · rw [show index - head.first = 0 by omega, List.take_zero]

theorem getD_first_touched {L M R : BufferStringList} {head : BufferString}
    (hhead : M[0]? = some head) : (L ++ M ++ R).getD L.length default = head := by
  have hne : 0 < M.length := (List.getElem?_eq_some_iff.mp hhead).1
  rw [List.getD_eq_getElem?_getD, List.append_assoc, List.getElem?_append_right (Nat.le_refl _),
    Nat.sub_self, List.getElem?_append_left hne, hhead]
  rfl

/-- The merge when elements follow the touched ones. -/
theorem mergeNodes_inner {L M R : BufferStringList} {head last buffer : BufferString}
    (h : Sorted (L ++ (M ++ [last]) ++ R)) (hbuf : Fits buffer) (hR : R ≠ [])
    (hhead : (M ++ [last])[0]? = some head) (hlast : last.first ≤ buffer.second)
    (hout : ¬ (head.first ≤ buffer.first ∧ head.second ≥ buffer.second)) :
    mergeNodes (L ++ (M ++ [last]) ++ R) buffer L.length (L.length + (M ++ [last]).length)
      = .ok (L ++ BufferString.make (min head.first buffer.first)
          (glue head buffer.first buffer.target last) buffer.eof :: R) := by
  have hRlen : 0 < R.length := List.length_pos_iff.mpr hR
  have hend : (L.length + (M ++ [last]).length == (L ++ (M ++ [last]) ++ R).length) = false := by
    simp only [List.length_append, beq_eq_false_iff_ne]
    omega
  have hsub : ((L ++ (M ++ [last]) ++ R).drop L.length).take (L.length + (M ++ [last]).length - L.length)
      = M ++ [last] := by
    rw [Nat.add_sub_cancel_left, List.append_assoc, List.drop_left, List.take_left]
  have hlastFits : Fits last := h.fits last (by simp)
  have hfold : (M ++ [last]).foldlM (extend buffer.second)
        (head.target.take (buffer.first - head.first) ++ buffer.target)
      = .ok (glue head buffer.first buffer.target last) := by
    rw [List.foldlM_append, foldlM_extend_of_le fun b hb => ?_]
    · have hstep := extend_eq hlastFits hlast
        (head.target.take (buffer.first - head.first) ++ buffer.target)
      rw [hbuf.second_eq] at hstep
      simp only [hbuf.second_eq, glue, List.foldlM_cons, List.foldlM_nil, bind, Except.bind, hstep]
      rfl
    · have := h.last_second_lt b hb
      omega
  unfold mergeNodes
  simp only [hend, Bool.not_false, if_true, getD_first_touched hhead, leading_part, hsub, hfold]
  rw [if_neg (by omega), if_neg hout]
  simp only [Except.bind, Bool.false_eq_true, if_false]
  rw [set_first_touched (by simp)]

/-- The merge when the last touched element is the last of the list. -/
theorem mergeNodes_end {L M : BufferStringList} {head last buffer : BufferString}
    (h : Sorted (L ++ (M ++ [last]))) (hbuf : Fits buffer)
    (hhead : (M ++ [last])[0]? = some head) (hlast : last.first ≤ buffer.second)
    (hout : ¬ (head.first ≤ buffer.first ∧ head.second ≥ buffer.second)) :
    mergeNodes (L ++ (M ++ [last])) buffer L.length (L.length + (M ++ [last]).length)
      = .ok (L ++ [BufferString.make (min head.first buffer.first)
          (glue head buffer.first buffer.target last) (buffer.eof || last.eof)]) := by
  have hend : (L.length + (M ++ [last]).length == (L ++ (M ++ [last])).length) = true := by
    simp
  have hupper : L.length + (M ++ [last]).length - 1 = L.length + M.length := by
    rw [List.length_append, List.length_singleton]
    omega
  have hleft : (L ++ (M ++ [last])).getD L.length default = head := by
    simpa using getD_first_touched (L := L) (R := []) hhead
  have hright : (L ++ (M ++ [last])).getD (L.length + M.length) default = last := by
    rw [← List.append_assoc, ← List.length_append, List.getD_eq_getElem?_getD,
      List.getElem?_append_right (Nat.le_refl _), Nat.sub_self]
    rfl
  have hsub : ((L ++ (M ++ [last])).drop L.length).take (L.length + M.length - L.length) = M := by
    rw [Nat.add_sub_cancel_left, List.drop_left, List.take_left]
  have hlastFits : Fits last := h.fits last (by simp)
  have hfold : M.foldlM (extend (max last.second buffer.second))
        (head.target.take (buffer.first - head.first) ++ buffer.target)
      = .ok (head.target.take (buffer.first - head.first) ++ buffer.target) := by
    apply foldlM_extend_of_le
    intro b hb
    have h1 : b.second < last.first :=
      Sorted.last_second_lt (L := L) (R := []) (by simpa using h) b hb
    have h2 := hlastFits.second_eq
    omega
  have htail : (if buffer.second < max last.second buffer.second then
        (substr last.target (sub64 buffer.second last.first)
          (max last.second buffer.second - buffer.second)).map
          (head.target.take (buffer.first - head.first) ++ buffer.target ++ ·)
      else .ok (head.target.take (buffer.first - head.first) ++ buffer.target))
      = Except.ok (glue head buffer.first buffer.target last) := by
    have hstep := extend_eq hlastFits hlast
      (head.target.take (buffer.first - head.first) ++ buffer.target)
    rw [extend] at hstep
    rw [glue, ← hbuf.second_eq, ← hstep]
    by_cases hgt : last.second > buffer.second
    · rw [if_pos (by omega), if_pos hgt, show max last.second buffer.second = last.second by omega]
    · rw [if_neg (by omega), if_neg hgt]
  unfold mergeNodes
  simp only [hend, Bool.not_true, Bool.false_eq_true, if_false, hupper, hleft, hright, leading_part,
    hsub, hfold]
  rw [if_neg (by omega), if_neg hout]
  simp only [Except.bind, if_true, htail]
  rw [set_last_touched]

/-- A fragment inside the first touched element changes nothing. -/
theorem mergeNodes_contained {L M R : BufferStringList} {head buffer : BufferString}
    (hhead : M[0]? = some head) (hin : head.first ≤ buffer.first ∧ head.second ≥ buffer.second) :
    mergeNodes (L ++ M ++ R) buffer L.length (L.length + M.length) = .ok (L ++ M ++ R) := by
  have hne : 0 < M.length := (List.getElem?_eq_some_iff.mp hhead).1
  unfold mergeNodes
  simp only [getD_first_touched hhead]
  rw [if_neg (by split <;> omega), if_pos hin]

/-- The merge in general, for a fragment that is not inside the first touched element. -/
theorem mergeNodes_eq {L M R : BufferStringList} {head last : BufferString} {target : Bytes} {index : Nat}
    (h : Sorted (L ++ (M ++ [last]) ++ R)) (hlt : index + target.length < 2 ^ 64) (eof : Bool)
    (hhead : (M ++ [last])[0]? = some head) (hleft : index ≤ head.second)
    (hright : last.first ≤ index + target.length)
    (hout : ¬ (head.first ≤ index ∧ index + target.length ≤ head.second)) :
    mergeNodes (L ++ (M ++ [last]) ++ R) (BufferString.make index target eof) L.length
        (L.length + (M ++ [last]).length)
      = .ok (L ++ { first := min head.first index
                    second := max last.second (index + target.length)
                    eof := eof || (R.isEmpty && last.eof)
                    target := glue head index target last } :: R) := by
  have hbuf : Fits (BufferString.make index target eof) := fits_make hlt eof
  have hsecond : (BufferString.make index target eof).second = index + target.length := hbuf.second_eq
  have hlast : Fits last := h.fits last (by simp)
  have hlastLt := hlast.lt
  have hmem : head ∈ L ++ (M ++ [last]) ++ R :=
    List.mem_append_left _ (List.mem_append_right _ (List.mem_of_getElem? hhead))
  have hlen := glue_length (h.fits head hmem) hlast hleft hright
  have hmake : ∀ e : Bool, BufferString.make (min head.first index) (glue head index target last) e
      = { first := min head.first index, second := max last.second (index + target.length)
          eof := e, target := glue head index target last } := by
    intro e
    rw [BufferString.make, add64_of_lt (by omega), hlen]
  rw [← hsecond] at hright hout
  by_cases hR : R = []
  · subst hR
    rw [List.append_nil] at h ⊢
    rw [mergeNodes_end h hbuf hhead hright hout]
    simp only [BufferString.make_first, BufferString.make_target, BufferString.make_eof, hmake,
      List.isEmpty_nil, Bool.true_and]
  · have hfalse : R.isEmpty = false := by simpa using hR
    rw [mergeNodes_inner h hbuf hR hhead hright hout]
    simp only [BufferString.make_first, BufferString.make_target, BufferString.make_eof, hmake, hfalse,
      Bool.false_and, Bool.or_false]

/-- What touches a fragment that ends inside the first touched element is that element alone. -/
theorem Sorted.touched_alone {L R tail : BufferStringList} {head : BufferString} {right : Nat}
    (h : Sorted (L ++ head :: tail ++ R)) (htouch : ∀ b ∈ tail, b.first ≤ right) (hin : right ≤ head.second) :
    tail = [] := by
  refine List.eq_nil_iff_forall_not_mem.mpr fun b hb => ?_
  have hgap := (List.pairwise_append.mp (List.pairwise_append.mp h.gap).1).2.1
  have hbehind := (List.pairwise_cons.mp hgap).1 b hb
  have hstart := htouch b hb
  omega

/-- **`push_back` on a sorted list.** It does not throw: the list is cut into the elements left of the
fragment, those it touches and those right of it, and the touched ones become `merged`. -/
theorem pushBack_eq {list : BufferStringList} (h : Sorted list) {target : Bytes} {index : Nat}
    (hlt : index + target.length < 2 ^ 64) (eof : Bool) :
    ∃ L M R, list = L ++ M ++ R ∧
      (∀ b ∈ L, b.second < index) ∧
      (∀ b ∈ M, index ≤ b.second ∧ b.first ≤ index + target.length) ∧
      (∀ b ∈ R, index + target.length < b.first) ∧
      pushBack list target index eof = .ok (L ++ merged M index target eof R.isEmpty :: R) := by
  have hsecond : (BufferString.make index target eof).second = index + target.length :=
    (fits_make hlt eof).second_eq
  obtain ⟨L, M, R, rfl, hlo, hhi, hL, hM, hR⟩ :=
    h.separated.split (x := index) (y := index + target.length) (by omega)
  refine ⟨L, M, R, rfl, hL, hM, hR, ?_⟩
  have hcut : pushBack (L ++ M ++ R) target index eof
      = if L.length = L.length + M.length then
          .ok ((L ++ M ++ R).take L.length ++
            BufferString.make index target eof :: (L ++ M ++ R).drop L.length)
        else mergeNodes (L ++ M ++ R) (BufferString.make index target eof) L.length
          (L.length + M.length) := by
    simp only [pushBack, lowerBound, upperBound, hsecond, hhi]
    rw [show bisectList (fun buff => decide ((BufferString.make index target eof).first > buff.second))
      (L ++ M ++ R) = L.length from hlo]
  rw [hcut]
  cases M with
  | nil => simp [merged]
  | cons head tail =>
    rw [if_neg (by simp), merged]
    by_cases hin : head.first ≤ index ∧ index + target.length ≤ head.second
    · have htail := h.touched_alone (fun b hb => (hM b (by simp [hb])).2) hin.2
      have hhead : (head :: tail)[0]? = some head := rfl
      rw [mergeNodes_contained hhead (by rw [hsecond]; exact hin), if_pos hin, htail]
      simp
    · -- the last touched element, for the merge to look at
      obtain ⟨M', hlast⟩ : ∃ M', head :: tail = M' ++ [(head :: tail).getLast (by simp)] :=
        ⟨_, (List.dropLast_concat_getLast (by simp)).symm⟩
      rw [if_neg hin]
      generalize (head :: tail).getLast (by simp) = last at hlast ⊢
      have hhead : (M' ++ [last])[0]? = some head := by
        rw [← hlast]
        rfl
      have htouch := hM last (by rw [hlast]; simp)
      rw [hlast] at h ⊢
      exact mergeNodes_eq h hlt eof hhead (hM head (by simp)).1 htouch.2 hin

/-! ## The end mark -/

theorem getD_unmarked {list : BufferStringList} (h : ∀ b ∈ list, b.eof = false) (i : Nat) :
    (list.getD i default).eof = false := by
  rw [List.getD_eq_getElem?_getD]
  cases hi : list[i]? with
  | none => rfl
  | some b => exact h b (List.mem_of_getElem? hi)

/-- Overwriting one element and cutting out a range brings in no other mark. -/
theorem set_unmarked {list : BufferStringList} (h : ∀ b ∈ list, b.eof = false) {x : BufferString}
    (hx : x.eof = false) (i m n : Nat) :
    ∀ b ∈ (list.set i x).take m ++ (list.set i x).drop n, b.eof = false := by
  intro b hb
  have hmem : b ∈ list.set i x :=
    (List.mem_append.mp hb).elim List.mem_of_mem_take List.mem_of_mem_drop
  rcases List.mem_or_eq_of_mem_set hmem with hold | rfl
  · exact h b hold
  · exact hx

theorem mergeNodes_unmarked {list list' : BufferStringList} (h : ∀ b ∈ list, b.eof = false)
    {buffer : BufferString} (hbuffer : buffer.eof = false) {lowerLeft upperRight : Nat}
    (hs : mergeNodes list buffer lowerLeft upperRight = .ok list') : ∀ b ∈ list', b.eof = false := by
  rw [mergeNodes] at hs
  dsimp only at hs
  generalize (if (!(upperRight == list.length)) = true then upperRight else upperRight - 1) = upper at hs
  split at hs
  · exact absurd hs (by simp)
  · split at hs
    · obtain rfl := Except.ok.inj hs
      exact h
    · obtain ⟨newString, -, hs⟩ := bind_ok.mp hs
      split at hs
      · obtain ⟨newString', -, hs⟩ := bind_ok.mp hs
        obtain rfl := Except.ok.inj hs
        refine set_unmarked h ?_ _ _ _
        rw [BufferString.make_eof, hbuffer, Bool.false_or]
        exact getD_unmarked h _
      · obtain rfl := Except.ok.inj hs
        refine set_unmarked h ?_ _ _ _
        exact hbuffer

/-- **No mark without one**: a fragment without end mark, pushed into a list without one, leaves none. -/
theorem pushBack_unmarked {list list' : BufferStringList} (h : ∀ b ∈ list, b.eof = false) {target : Bytes}
    {index : Nat} (hs : pushBack list target index false = .ok list') : ∀ b ∈ list', b.eof = false := by
  rw [pushBack] at hs
  split at hs
  · obtain rfl := Except.ok.inj hs
    intro b hb
    rcases List.mem_append.mp hb with hb | hb
    · exact h b (List.mem_of_mem_take hb)
    · rcases List.mem_cons.mp hb with rfl | hb
      · rfl
      · exact h b (List.mem_of_mem_drop hb)
  · exact mergeNodes_unmarked h (BufferString.make_eof _ _ _) hs

theorem popUpBufferString_unmarked {list : BufferStringList} (h : ∀ b ∈ list, b.eof = false) (size : Nat) :
    (popUpBufferString list size).1.eof = false ∧ ∀ b ∈ (popUpBufferString list size).2, b.eof = false := by
  cases list with
  | nil => exact ⟨rfl, by simp [popUpBufferString]⟩
  | cons buffer rest =>
    have hrest : ∀ b ∈ rest, b.eof = false := fun b hb => h b (List.mem_cons_of_mem _ hb)
    rw [popUpBufferString]
    split
    · exact ⟨h buffer List.mem_cons_self, hrest⟩
    · refine ⟨rfl, fun b hb => ?_⟩
      rcases List.mem_append.mp hb with hb | hb
      · exact hrest b hb
      · rw [List.mem_singleton.mp hb]
        exact h buffer List.mem_cons_self

end BufferStringList

end Sponge
