/-
# `Sponge.SharedBuffer` — the parsers on the buffer they really run on.

Models `Buffer` of `libsponge/util/buffer.{hh,cc}`, a shared string and the number of bytes removed from its front,
and `NetParser` as it is written over it: a number is put together from `at(0)`, `at(1)`, …, and the string is
released when its last byte is removed.  `Sponge.NetParser` has a list of bytes in its place.

A parser sees its input through these calls only.  `Program` is what such a parser is, `onShared` and `onBytes`
run it over both kinds of buffer, and `onShared_refines` says that it cannot tell them apart: no call throws, and
every value and every rest of the input are the same.  The parsers of the four headers are programs
(`IsProgram.ethernetHeader` and the lemmas next to it).
-/
import Sponge.TcpWire
import Sponge.EthernetFrame

namespace Sponge

/-! ## The buffer -/

/-- `Buffer`; the offset does not pass the end of the string. -/
structure SharedBuffer where
  storage : Option Bytes := none
  startingOffset : Nat := 0
  within : ∀ s ∈ storage, startingOffset ≤ s.length

namespace SharedBuffer

variable {b : SharedBuffer} {n : Nat}

/-- `Buffer(string)`. -/
def ofString (s : Bytes) : SharedBuffer := ⟨some s, 0, fun _ _ => Nat.zero_le _⟩

/-- `Buffer::str`. -/
def str (b : SharedBuffer) : Bytes :=
  match b.storage with
  | none => []
  | some s => s.drop b.startingOffset

/-- `Buffer::at`. -/
def byteAt (b : SharedBuffer) (n : Nat) : Except Exception UInt8 :=
  match b.str[n]? with
  | some byte => .ok byte
  | none => .error (.outOfRange "basic_string_view::at")

/-- `Buffer::remove_prefix`. -/
def removePrefix (b : SharedBuffer) (n : Nat) : Except Exception SharedBuffer :=
  if hlong : n > b.str.length then .error (.outOfRange "Buffer::remove_prefix")
  else match hs : b.storage with
    | none => .ok ⟨none, b.startingOffset + n, by simp⟩
    | some s =>
      if b.startingOffset + n = s.length then .ok ⟨none, b.startingOffset + n, by simp⟩
      else .ok ⟨some s, b.startingOffset + n, by
        intro s' hs'
        obtain rfl := Option.some.inj hs'
        have hin := b.within s hs
        rw [str, hs, List.length_drop] at hlong
        omega⟩

theorem byteAt_of_lt {byte : UInt8} (h : b.str[n]? = some byte) : b.byteAt n = .ok byte := by
  rw [byteAt, h]

/-- Releasing the string is not seen from outside. -/
theorem removePrefix_str (h : n ≤ b.str.length) : ∃ b', b.removePrefix n = .ok b' ∧ b'.str = b.str.drop n := by
  rw [removePrefix, dif_neg (Nat.not_lt.mpr h)]
  split
  · rename_i hs
    refine ⟨_, rfl, ?_⟩
    rw [str, str, hs, List.drop_nil]
  · rename_i s hs
    have hstr : b.str.drop n = s.drop (b.startingOffset + n) := by
      rw [str, hs, List.drop_drop]
    split
    · rename_i hall
      have hnil : s.drop (b.startingOffset + n) = [] := by rw [hall, List.drop_length]
      exact ⟨_, rfl, (hstr.trans hnil).symm⟩
    · exact ⟨_, rfl, hstr.symm⟩

end SharedBuffer

/-! ## The parser over it -/

/-- `NetParser`. -/
structure SharedParser where
  buffer : SharedBuffer
  error : ParseResult := .noError

namespace SharedParser

/-- `NetParser::_check_size`. -/
def checkSize (p : SharedParser) (size : Nat) : SharedParser :=
  if size > p.buffer.str.length then { p with error := .packetTooShort } else p

/-- The loop of `_parse_int<T>`: `ret` after so many rounds. -/
def readLoop (b : SharedBuffer) (len : Nat) : Nat → Except Exception Nat
  | 0 => .ok 0
  | i + 1 => (readLoop b len i).bind fun ret =>
    (b.byteAt i).map fun byte => (ret * 2 ^ 8 + byte.toNat) % 2 ^ (8 * len)

/-- `NetParser::_parse_int<T>` for a `T` of `len` bytes. -/
def parseInt (len : Nat) : StateT SharedParser (Except Exception) Nat := fun p =>
  let p := p.checkSize len
  if p.error ≠ .noError then .ok (0, p)
  else (readLoop p.buffer len len).bind fun ret =>
    (p.buffer.removePrefix len).map fun buffer => (ret, { p with buffer := buffer })

/-- `NetParser::remove_prefix`. -/
def removePrefix (n : Nat) : StateT SharedParser (Except Exception) Unit := fun p =>
  let p := p.checkSize n
  if p.error ≠ .noError then .ok ((), p)
  else (p.buffer.removePrefix n).map fun buffer => ((), { p with buffer := buffer })

/-- What can be seen of a parser. -/
def view (p : SharedParser) : NetParser := { buffer := p.buffer.str, error := p.error }

theorem view_checkSize (p : SharedParser) (size : Nat) : (p.checkSize size).view = p.view.checkSize size := by
  rw [checkSize, NetParser.checkSize]
  by_cases h : size > p.buffer.str.length
  · rw [if_pos h]
    exact (if_pos h).symm
  · rw [if_neg h]
    exact (if_neg h).symm

/-- Without an error the bytes that were checked for are there. -/
theorem length_of_checkSize {p : SharedParser} {size : Nat} (h : (p.checkSize size).error = .noError) :
    size ≤ (p.checkSize size).buffer.str.length := by
  rw [checkSize] at h ⊢
  by_cases hlong : size > p.buffer.str.length
  · rw [if_pos hlong] at h
    exact absurd h (by simp)
  · rw [if_neg hlong]
    exact Nat.le_of_not_lt hlong

theorem readLoop_eq (b : SharedBuffer) (len : Nat) {i : Nat} (h : i ≤ b.str.length) :
    readLoop b len i = .ok ((b.str.take i).foldl (fun ret byte => (ret * 2 ^ 8 + byte.toNat) % 2 ^ (8 * len)) 0) := by
  induction i with
  | zero => rfl
  | succ i ih =>
    have hbyte : b.str[i]? = some b.str[i] := List.getElem?_eq_getElem h
    rw [readLoop, ih (Nat.le_of_succ_le h), List.take_add_one, List.foldl_append, hbyte, Except.bind,
      SharedBuffer.byteAt_of_lt hbyte]
    rfl

/-- A call over the shared buffer does not throw, and does what it does over the bytes. -/
def Refines {α : Type} (x : StateM NetParser α) (y : StateT SharedParser (Except Exception) α) : Prop :=
  ∀ p : SharedParser, ∃ p', y p = .ok ((x p.view).1, p') ∧ p'.view = (x p.view).2

theorem refines_removePrefix (n : Nat) : Refines (NetParser.removePrefix n) (removePrefix n) := by
  intro p
  rw [removePrefix, NetParser.removePrefix]
  rw [← view_checkSize]
  by_cases herror : (p.checkSize n).error = .noError
  · have hseen : (p.checkSize n).view.error = .noError := herror
    obtain ⟨buffer, hbuffer, hstr⟩ := SharedBuffer.removePrefix_str (length_of_checkSize herror)
    rw [if_neg (not_not.mpr herror), if_neg (not_not.mpr hseen), hbuffer]
    refine ⟨_, rfl, ?_⟩
    rw [view, hstr]
    rfl
  · have hseen : (p.checkSize n).view.error ≠ .noError := herror
    rw [if_pos herror, if_pos hseen]
    exact ⟨_, rfl, rfl⟩

theorem refines_parseInt (len : Nat) : Refines (NetParser.parseInt len) (parseInt len) := by
  intro p
  rw [parseInt, NetParser.parseInt]
  rw [← view_checkSize]
  by_cases herror : (p.checkSize len).error = .noError
  · have hseen : (p.checkSize len).view.error = .noError := herror
    have hlen := length_of_checkSize herror
    obtain ⟨buffer, hbuffer, hstr⟩ := SharedBuffer.removePrefix_str hlen
    rw [if_neg (not_not.mpr herror), if_neg (not_not.mpr hseen), readLoop_eq _ _ hlen, hbuffer]
    refine ⟨_, rfl, ?_⟩
    rw [view, hstr]
    rfl
  · have hseen : (p.checkSize len).view.error ≠ .noError := herror
    rw [if_pos herror, if_pos hseen]
    exact ⟨_, rfl, rfl⟩

end SharedParser

/-! ## Programs -/

/-- What a parser that returns an `α` does next. -/
inductive Program (α : Type) where
  | done (a : α)
  /-- `buffer()` and `get_error()`. -/
  | look (next : NetParser → Program α)
  /-- `_parse_int<T>` for a `T` of `len` bytes. -/
  | int (len : Nat) (next : Nat → Program α)
  /-- `remove_prefix(n)`. -/
  | drop (n : Nat) (next : Program α)

namespace Program

variable {α β : Type}

/-- Run over a list of bytes. -/
def onBytes : Program α → StateM NetParser α
  | done a => pure a
  | look next => get >>= fun p => (next p).onBytes
  | int len next => NetParser.parseInt len >>= fun val => (next val).onBytes
  | drop n next => NetParser.removePrefix n >>= fun _ => next.onBytes

/-- Run over a shared buffer. -/
def onShared : Program α → StateT SharedParser (Except Exception) α
  | done a => pure a
  | look next => get >>= fun p => (next p.view).onShared
  | int len next => SharedParser.parseInt len >>= fun val => (next val).onShared
  | drop n next => SharedParser.removePrefix n >>= fun _ => next.onShared

/-- **A program cannot tell the buffers apart.** -/
theorem onShared_refines (prog : Program α) : SharedParser.Refines prog.onBytes prog.onShared := by
  induction prog with
  | done a => exact fun p => ⟨p, rfl, rfl⟩
  | look next ih => exact fun p => ih p.view p
  | int len next ih =>
    intro p
    obtain ⟨p₁, hcall, hview⟩ := SharedParser.refines_parseInt len p
    obtain ⟨p', hrest, hview'⟩ := ih (NetParser.parseInt len p.view).1 p₁
    rw [hview] at hrest hview'
    refine ⟨p', ?_, hview'⟩
    show (SharedParser.parseInt len p).bind _ = _
    rw [hcall]
    exact hrest
  | drop n next ih =>
    intro p
    obtain ⟨p₁, hcall, hview⟩ := SharedParser.refines_removePrefix n p
    obtain ⟨p', hrest, hview'⟩ := ih p₁
    rw [hview] at hrest hview'
    refine ⟨p', ?_, hview'⟩
    show (SharedParser.removePrefix n p).bind _ = _
    rw [hcall]
    exact hrest

/-- Go on with the result of a program. -/
def bind : Program α → (α → Program β) → Program β
  | done a, f => f a
  | look next, f => look fun p => (next p).bind f
  | int len next, f => int len fun val => (next val).bind f
  | drop n next, f => drop n (next.bind f)

theorem onBytes_bind (prog : Program α) (f : α → Program β) :
    (prog.bind f).onBytes = prog.onBytes >>= fun a => (f a).onBytes := by
  induction prog with
  | done a => rfl
  | look next ih => exact funext fun p => congrFun (ih p) p
  | int len next ih => exact funext fun p => congrFun (ih (NetParser.parseInt len p).1) _
  | drop n next ih => exact funext fun p => congrFun ih _

end Program

/-- The parser looks at its input, reads numbers and removes bytes, and does nothing else with it. -/
def IsProgram {α : Type} (x : StateM NetParser α) : Prop := ∃ prog : Program α, prog.onBytes = x

namespace IsProgram

variable {α β : Type}

theorem pure (a : α) : IsProgram (pure a : StateM NetParser α) := ⟨.done a, rfl⟩

theorem get : IsProgram (get : StateM NetParser NetParser) := ⟨.look .done, rfl⟩

theorem removePrefix (n : Nat) : IsProgram (NetParser.removePrefix n) := ⟨.drop n (.done ()), rfl⟩

theorem u32 : IsProgram NetParser.u32 := ⟨.int 4 fun val => .done (UInt32.ofNat val), rfl⟩

theorem u16 : IsProgram NetParser.u16 := ⟨.int 2 fun val => .done (UInt16.ofNat val), rfl⟩

theorem u8 : IsProgram NetParser.u8 := ⟨.int 1 fun val => .done (UInt8.ofNat val), rfl⟩

theorem bind {x : StateM NetParser α} {f : α → StateM NetParser β} (hx : IsProgram x)
    (hf : ∀ a, IsProgram (f a)) : IsProgram (x >>= f) := by
  obtain ⟨prog, rfl⟩ := hx
  choose next hnext using hf
  refine ⟨prog.bind next, ?_⟩
  rw [Program.onBytes_bind, funext hnext]

theorem ite {c : Prop} [Decidable c] {x y : StateM NetParser α} (hx : IsProgram x) (hy : IsProgram y) :
    IsProgram (if c then x else y) := by
  split
  · exact hx
  · exact hy

theorem readAddress : IsProgram EthernetAddress.read := by
  rw [EthernetAddress.read]
  exact .bind .u8 fun _ => .bind .u8 fun _ => .bind .u8 fun _ => .bind .u8 fun _ => .bind .u8 fun _ =>
    .bind .u8 fun _ => .pure _

theorem ethernetHeader (h : EthernetHeader) : IsProgram h.parse := by
  rw [EthernetHeader.parse]
  refine .bind .get fun _ => .ite (.pure _) ?_
  exact .bind .readAddress fun _ => .bind .readAddress fun _ => .bind .u16 fun _ => .bind .get fun _ => .pure _

theorem arpMessage (m : ARPMessage) : IsProgram m.read := by
  rw [ARPMessage.read]
  refine .bind .get fun _ => .ite (.pure _) ?_
  refine .bind .u16 fun _ => .bind .u16 fun _ => .bind .u8 fun _ => .bind .u8 fun _ => .bind .u16 fun _ => ?_
  refine .ite (.pure _) ?_
  exact .bind .readAddress fun _ => .bind .u32 fun _ => .bind .readAddress fun _ => .bind .u32 fun _ =>
    .bind .get fun _ => .pure _

theorem ipv4Header (h : IPv4Header) : IsProgram h.parse := by
  rw [IPv4Header.parse]
  refine .bind .get fun _ => .bind .get fun _ => .ite (.pure _) ?_
  refine .bind .u8 fun _ => .bind .u8 fun _ => .bind .u16 fun _ => .bind .u16 fun _ => .bind .u16 fun _ => ?_
  refine .bind .u8 fun _ => .bind .u8 fun _ => .bind .u16 fun _ => .bind .u32 fun _ => .bind .u32 fun _ => ?_
  refine .ite (.pure _) (.ite (.pure _) (.ite (.pure _) (.ite (.pure _) ?_)))
  refine .bind (.removePrefix _) fun _ => .bind .get fun _ => ?_
  exact .ite (.bind .get fun _ => .pure _) (.ite (.pure _) (.pure _))

theorem tcpHeader : IsProgram TCPHeader.parse := by
  rw [TCPHeader.parse]
  refine .bind .u16 fun _ => .bind .u16 fun _ => .bind .u32 fun _ => .bind .u32 fun _ => ?_
  refine .bind .u8 fun _ => .bind .u8 fun _ => .bind .u16 fun _ => .bind .u16 fun _ => .bind .u16 fun _ => ?_
  refine .ite (.pure _) (.bind (.removePrefix _) fun _ => .bind .get fun _ => ?_)
  exact .ite (.bind .get fun _ => .pure _) (.pure _)

/-- What a program reads from a string it reads from a buffer that holds the string. -/
theorem onShared {x : StateM NetParser α} (hx : IsProgram x) : ∃ prog : Program α, prog.onBytes = x ∧
    ∀ s : Bytes, ∃ p', prog.onShared { buffer := .ofString s } = .ok ((x { buffer := s }).1, p') ∧
      p'.view = (x { buffer := s }).2 := by
  obtain ⟨prog, rfl⟩ := hx
  exact ⟨prog, rfl, fun s => prog.onShared_refines { buffer := .ofString s }⟩

end IsProgram

end Sponge
