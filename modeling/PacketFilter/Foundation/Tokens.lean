import PacketFilter.Foundation.CText
import PacketFilter.Foundation.Splitting

/-! # Tokens in place

`strtok` takes a string apart where it stands: it overwrites separators by
terminators and hands out the places where the tokens start.
-/

namespace Tokens

open CText Splitting

abbrev nul : Char := Char.ofNat 0

/-- The string that starts at a place of a buffer. Behind the buffer stands its
terminator. -/
def stringAt (buf : List Char) (start : Nat) : List Char :=
  cStr (buf.drop start)

/-- What one call of `strtok` finds, the buffer after it, and the place that it
keeps for the next call. -/
structure Call where
  token : Option Nat
  buf : List Char
  save : Nat

def strtok (separator : Char) (buf : List Char) (save : Nat) : Call :=
  let start := save +
    ((stringAt buf save).takeWhile (· == separator)).length
  let length := ((stringAt buf start).takeWhile (· != separator)).length
  if length = 0 then ⟨none, buf, start⟩
  else if buf[start + length]? = some separator then
    ⟨some start, buf.set (start + length) nul, start + length + 1⟩
  else ⟨some start, buf, start + length⟩

def strtokLoop (separator : Char) : Nat → List Char → Nat → List Nat × List Char
  | 0, buf, _ => ([], buf)
  | fuel + 1, buf, save =>
      match strtok separator buf save with
      | ⟨none, after, _⟩ => ([], after)
      | ⟨some token, after, next⟩ =>
          let (tokens, final) := strtokLoop separator fuel after next
          (token :: tokens, final)

/-- A string of as many characters as the loop has turns for is long enough. -/
def strtokAll (separator : Char) (buf : List Char) : List Nat × List Char :=
  strtokLoop separator (buf.length + 1) buf 0

/-! ## One call -/

section Call

variable {separator : Char} {done word behind : List Char} {count : Nat}

end Call

/-! ## The loop -/

/-- What became of a string that was taken apart: at most, separators have been
overwritten. -/
structure Overwritten (separator : Char) (before after : List Char) : Prop where
  length : after.length = before.length
  cell : ∀ index : Nat, after[index]? = before[index]? ∨
    before[index]? = some separator ∧ after[index]? = some nul

namespace Overwritten

variable {separator : Char} {before after : List Char}

theorem refl (text : List Char) : Overwritten separator text text where
  length := rfl
  cell _ := .inl rfl

theorem append (first : List Char)
    (overwritten : Overwritten separator before after) :
    Overwritten separator (first ++ before) (first ++ after) where
  length := by
    rw [List.length_append, List.length_append, overwritten.length]
  cell index := by
    by_cases inFirst : index < first.length
    · left
      rw [List.getElem?_append_left inFirst, List.getElem?_append_left inFirst]
    · rw [List.getElem?_append_right (Nat.not_lt.mp inFirst),
        List.getElem?_append_right (Nat.not_lt.mp inFirst)]
      exact overwritten.cell _

theorem cons (overwritten : Overwritten separator before after) :
    Overwritten separator (separator :: before) (nul :: after) where
  length := congrArg (· + 1) overwritten.length
  cell index := by
    cases index with
    | zero => exact .inr ⟨rfl, rfl⟩
    | succ index => exact overwritten.cell index

end Overwritten

section Turn

variable {separator : Char} {done word : List Char} {count : Nat}

end Turn

end Tokens
