import Mathlib.Data.List.Basic
import Mathlib.Data.List.TakeWhile

/-!
# C strings and line input

A C string is the list of its bytes before the terminating NUL. A buffer filled by `fgets` may
hold NUL bytes of its own, so the string it denotes (`terminated`) can be shorter than what was
read. `chunks` is the sequence of buffers that repeated calls of `fgets` deliver until it
returns a null pointer, each with the state of the end-of-file indicator after the call.
-/

namespace CStr

/-- Text is a list of bytes. A C string is one without a zero, and its end is the end of the
list. -/
abbrev Bytes := List UInt8

/-- The bytes of an ASCII literal. -/
def lit (s : String) : Bytes := s.toList.map fun c => c.toNat.toUInt8

/-- `'\n'`. -/
def newline : UInt8 := 10
/-- `'\r'`. -/
def carriageReturn : UInt8 := 13
/-- `'='`. -/
def equalsSign : UInt8 := 61

/-- The C string held by a buffer: everything before the first NUL. -/
def terminated (buf : Bytes) : Bytes := buf.takeWhile (· ≠ 0)

/-! ## `fgets`

A file is read buffer by buffer, each of them up to and including the first newline, or as long as
fits. -/

/-- `fgets(buf, n + 1, file)`: reads at most `n` bytes, up to and including a newline. Returns
the bytes read, whether the read ran into the end of the file, and the unread rest. -/
def fgets : Nat → Bytes → Bytes × Bool × Bytes
  | 0, rest => ([], false, rest)
  | _ + 1, [] => ([], true, [])
  | n + 1, c :: rest =>
    if c = newline then ([c], false, rest)
    else
      let r := fgets n rest
      (c :: r.1, r.2)

/-- One buffer delivered by `fgets`. -/
structure Chunk where
  bytes : Bytes
  eof : Bool
  deriving DecidableEq

/-- `while(fgets(..) != 0)`. Every call but the last consumes a byte, so the length of the file
bounds the number of turns. -/
def fgetsLoop (n : Nat) : Nat → Bytes → List Chunk
  | 0, _ => []
  | fuel + 1, rest =>
    let r := fgets n rest
    if r.1 = [] then [] else ⟨r.1, r.2.1⟩ :: fgetsLoop n fuel r.2.2

/-- The buffers of a file. -/
def chunks (n : Nat) (file : Bytes) : List Chunk := fgetsLoop n file.length file

/-! ### Files of lines

A file whose lines fit is read line by line. -/

/-- The file with these lines, separated by newlines. -/
def joinLines : List Bytes → Bytes
  | [] => []
  | [line] => line
  | line :: rest => line ++ newline :: joinLines rest

/-- What `fgets` delivers of these lines when none of them is too long for its buffer. The last
line has no newline, and if it is empty there is nothing left to read. -/
def lineChunks : List Bytes → List Chunk
  | [] => []
  | [line] => if line = [] then [] else [⟨line, true⟩]
  | line :: rest => ⟨line ++ [newline], false⟩ :: lineChunks rest

/-! ## String operations

The calls of `<string.h>`, on lists. -/

/-- Splits at the first occurrence of `c`: what `strchr` finds, with both sides. -/
def splitAtFirst (c : UInt8) (text : Bytes) : Option (Bytes × Bytes) :=
  match text.dropWhile (· ≠ c) with
  | [] => none
  | _ :: rest => some (text.takeWhile (· ≠ c), rest)

/-- `snprintf(dst, size, ..)` of an already formatted text: the length it would need, and what
`dst` holds afterwards. -/
def snprintf (size : Nat) (text : Bytes) : Nat × Bytes := (text.length, text.take (size - 1))

/-! ## Joined texts

Texts put together with a separator can be told apart if the separator is in none of them. -/

/-- Two texts joined at a separator are equal when their parts are, or when one side was cut at an
earlier occurrence of the separator than the other. -/
theorem append_cons_eq_iff {c : UInt8} {p q s t : Bytes} :
    p ++ c :: s = q ++ c :: t ↔
      p = q ∧ s = t ∨ (∃ x, q = p ++ c :: x ∧ s = x ++ c :: t) ∨
        ∃ x, p = q ++ c :: x ∧ t = x ++ c :: s := by
  rw [List.append_eq_append_iff]
  constructor
  · -- mid is what one prefix has more than the other; if it is not empty it starts with c
    rintro (⟨mid, hq, hs⟩ | ⟨mid, hp, ht⟩)
    · cases mid with
      | nil => exact .inl ⟨by simpa using hq.symm, by simpa using hs⟩
      | cons d mid =>
        cases hs
        exact .inr (.inl ⟨mid, hq, rfl⟩)
    · cases mid with
      | nil => exact .inl ⟨by simpa using hp, by simpa using ht.symm⟩
      | cons d mid =>
        cases ht
        exact .inr (.inr ⟨mid, hp, rfl⟩)
  · rintro (⟨rfl, rfl⟩ | ⟨x, rfl, rfl⟩ | ⟨x, rfl, rfl⟩)
    · exact .inl ⟨[], by simp, rfl⟩
    · exact .inl ⟨c :: x, rfl, rfl⟩
    · exact .inr ⟨c :: x, rfl, rfl⟩

/-- A text can be cut at its last `c` in one way only. -/
theorem append_cons_inj {c : UInt8} {p q s t : Bytes} (hs : c ∉ s) (ht : c ∉ t)
    (h : p ++ c :: s = q ++ c :: t) : p = q ∧ s = t := by
  rcases append_cons_eq_iff.mp h with hsame | ⟨x, -, rfl⟩ | ⟨x, -, rfl⟩
  · exact hsame
  · exact absurd (List.mem_append_right x List.mem_cons_self) hs
  · exact absurd (List.mem_append_right x List.mem_cons_self) ht

end CStr
