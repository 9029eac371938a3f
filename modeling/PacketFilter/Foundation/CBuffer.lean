import PacketFilter.Foundation.CText
import Mathlib.Logic.Function.Basic

/-! # Strings in memory

A program that formats text into a buffer is described by the stores it makes,
so that stores outside the buffer are seen as well.
-/

namespace CBuffer

/-- The terminator of a C string. -/
abbrev nul : Char := Char.ofNat 0

theorem nul_notMem_cStr (text : List Char) : nul ∉ CText.cStr text := by
  intro member
  have passes : (nul != nul) = true :=
    List.mem_takeWhile_imp (p := (· != nul)) member
  exact absurd passes (by decide)

abbrev Memory := Nat → Char

structure Store where
  index : Nat
  char : Char
  deriving DecidableEq

def stored (memory : Memory) (stores : List Store) : Memory :=
  stores.foldl (fun memory store => Function.update memory store.index store.char)
    memory

theorem stored_append (memory : Memory) (first second : List Store) :
    stored memory (first ++ second) = stored (stored memory first) second :=
  List.foldl_append

theorem stored_update_comm (memory : Memory) {stores : List Store}
    {index : Nat} (apart : ∀ store ∈ stores, store.index ≠ index)
    (char : Char) :
    stored (Function.update memory index char) stores =
      Function.update (stored memory stores) index char := by
  induction stores generalizing memory with
  | nil => rfl
  | cons store rest induction =>
      have different := apart store List.mem_cons_self
      have others : ∀ later ∈ rest, later.index ≠ index :=
        fun later member => apart later (List.mem_cons_of_mem store member)
      change stored (Function.update _ store.index store.char) rest = _
      rw [Function.update_comm different.symm, induction _ others]
      rfl

def storeText (start : Nat) : List Char → List Store
  | [] => []
  | char :: rest => ⟨start, char⟩ :: storeText (start + 1) rest

theorem storeText_append (start : Nat) (first second : List Char) :
    storeText start (first ++ second) =
      storeText start first ++ storeText (start + first.length) second := by
  induction first generalizing start with
  | nil => rfl
  | cons char rest induction =>
      rw [List.cons_append, storeText, storeText, induction, List.length_cons,
        Nat.add_comm rest.length, ← Nat.add_assoc]
      rfl

theorem index_of_mem_storeText {start : Nat} {text : List Char} {store : Store}
    (member : store ∈ storeText start text) :
    start ≤ store.index ∧ store.index < start + text.length := by
  induction text generalizing start with
  | nil => cases member
  | cons char rest induction =>
      rw [List.length_cons]
      rcases List.mem_cons.mp member with rfl | later
      · constructor <;> simp
      · have bounds := induction later
        omega

/-- Every cell holds its character of the text, or what it held before. -/
theorem stored_storeText (memory : Memory) (start : Nat) (text : List Char)
    (index : Nat) :
    stored memory (storeText start text) index =
      if start ≤ index then text.getD (index - start) (memory index)
      else memory index := by
  induction text generalizing memory start with
  | nil => simp [storeText, stored]
  | cons char rest induction =>
      have continued := induction (Function.update memory start char) (start + 1)
      change stored (Function.update memory start char) _ index = _
      rw [continued]
      by_cases here : start = index
      · subst here
        simp
      · rw [Function.update_of_ne (Ne.symm here)]
        by_cases behind : start + 1 ≤ index
        · have offset : index - start = index - (start + 1) + 1 := by omega
          rw [if_pos behind, if_pos (by omega), offset, List.getD_cons_succ]
        · rw [if_neg behind, if_neg (by omega)]

def cells (memory : Memory) (start count : Nat) : List Char :=
  (List.range count).map fun offset => memory (start + offset)

theorem cells_stored_storeText (memory : Memory) (start : Nat)
    {text : List Char} {offset count : Nat}
    (within : offset + count ≤ text.length) :
    cells (stored memory (storeText start text)) (start + offset) count =
      (text.drop offset).take count := by
  apply List.ext_getElem
  · simp [cells]
    omega
  · intro index bound _
    have below : index < count := by simpa [cells] using bound
    have reached : start ≤ start + offset + index := by omega
    have position : start + offset + index - start = offset + index := by omega
    have inside : offset + index < text.length := by omega
    simp [cells, stored_storeText, reached, position, inside]

/-! ## Contents -/

def contents (memory : Memory) (count : Nat) : List Char :=
  (List.range count).map memory

@[simp] theorem contents_zero (memory : Memory) : contents memory 0 = [] := rfl

theorem contents_succ (memory : Memory) (count : Nat) :
    contents memory (count + 1) = contents memory count ++ [memory count] := by
  simp [contents, List.range_succ]

theorem contents_update (memory : Memory) (count : Nat) (char : Char) :
    contents (Function.update memory count char) count =
      contents memory count := by
  apply List.map_congr_left
  intro index member
  have below := List.mem_range.mp member
  exact Function.update_of_ne (by omega) _ _

theorem contents_storeText (memory : Memory) (start : Nat) (text : List Char) :
    contents (stored memory (storeText start text)) (start + text.length) =
      contents memory start ++ text := by
  induction text generalizing memory start with
  | nil => simp [storeText, stored]
  | cons char rest induction =>
      have continued := induction (Function.update memory start char) (start + 1)
      rw [contents_succ, contents_update, Function.update_self,
        List.append_assoc, List.singleton_append] at continued
      rw [List.length_cons, Nat.add_comm rest.length, ← Nat.add_assoc]
      exact continued

/-- The string in a buffer of `limit` cells. -/
def string (memory : Memory) (limit : Nat) : List Char :=
  CText.cStr (contents memory limit)

theorem contents_prefix (memory : Memory) {count limit : Nat}
    (within : count ≤ limit) : contents memory count <+: contents memory limit := by
  induction limit with
  | zero =>
      have none : count = 0 := by omega
      rw [none]
  | succ limit induction =>
      rw [contents_succ]
      by_cases whole : count = limit + 1
      · rw [whole, contents_succ]
      · exact (induction (by omega)).trans (List.prefix_append _ _)

theorem string_of_contents {memory : Memory} {limit : Nat} {text : List Char}
    (holds : contents memory (text.length + 1) = text ++ [nul])
    (noNul : nul ∉ text) (within : text.length < limit) :
    string memory limit = text := by
  rcases contents_prefix memory (show text.length + 1 ≤ limit from within) with
    ⟨rest, isContents⟩
  have passes : ∀ char ∈ text, (char != nul) = true := by
    intro char member
    apply bne_iff_ne.mpr
    intro isNul
    exact noNul (isNul ▸ member)
  rw [string, ← isContents, holds, List.append_assoc, List.singleton_append,
    CText.cStr, List.takeWhile_append_of_pos passes,
    List.takeWhile_cons_of_neg (by simp), List.append_nil]

/-! ## Formatting into a buffer -/

/-- `snprintf`: the stores it makes, and the untruncated length it returns. -/
def snprintf (index : Nat) (size : BitVec 64) (text : List Char) :
    List Store × BitVec 32 :=
  (if size = 0 then []
    else storeText index (text.take (size.toNat - 1) ++ [nul]),
    BitVec.ofNat 32 text.length)

/-- A buffer keeps of a text what fits in front of its last cell. -/
structure Keeps (capacity : Nat) (memory : Memory) (text : List Char) :
    Prop where
  kept : contents memory (text.take (capacity - 1)).length =
    text.take (capacity - 1)
  terminated : text ≠ [] → memory (text.take (capacity - 1)).length = nul

theorem Keeps.empty (capacity : Nat) (memory : Memory) :
    Keeps capacity memory [] where
  kept := by simp [contents]
  terminated nonempty := absurd rfl nonempty

section Append

variable {capacity : Nat} {memory : Memory} {text more : List Char}

/-- What appending to a text of the buffer stores, when the size that is passed
is what is left of the buffer. -/
def appended (capacity start : Nat) (more : List Char) : List Store :=
  if start = capacity then []
  else storeText start (more.take (capacity - start - 1) ++ [nul])

theorem index_lt_of_mem_appended {start : Nat} (within : start ≤ capacity)
    {store : Store} (member : store ∈ appended capacity start more) :
    store.index < capacity := by
  rw [appended] at member
  split at member
  · cases member
  · have bounds := index_of_mem_storeText member
    simp at bounds
    omega

theorem Keeps.append_full (keeps : Keeps capacity memory text)
    (nonempty : text ≠ []) (full : text.length = capacity) :
    Keeps capacity memory (text ++ more) := by
  have same : (text ++ more).take (capacity - 1) = text.take (capacity - 1) :=
    List.take_append_of_le_length (by omega)
  constructor
  · rw [same]
    exact keeps.kept
  · intro _
    rw [same]
    exact keeps.terminated nonempty

theorem Keeps.append_room (keeps : Keeps capacity memory text)
    (room : text.length < capacity) :
    Keeps capacity
      (stored memory (storeText text.length
        (more.take (capacity - text.length - 1) ++ [nul])))
      (text ++ more) := by
  have whole : text.take (capacity - 1) = text :=
    List.take_of_length_le (by omega)
  have kept := keeps.kept
  rw [whole] at kept
  have shown : (text ++ more).take (capacity - 1) =
      text ++ more.take (capacity - text.length - 1) := by
    rw [List.take_append, whole]
    congr 2
    omega
  have written := contents_storeText memory text.length
    (more.take (capacity - text.length - 1) ++ [nul])
  rw [List.length_append, List.length_singleton, ← Nat.add_assoc,
    ← List.length_append, ← shown, contents_succ, kept, ← List.append_assoc,
    ← shown] at written
  rcases List.append_inj' written rfl with ⟨before, last⟩
  exact ⟨before, fun _ => List.singleton_inj.mp last⟩

theorem Keeps.append (keeps : Keeps capacity memory text)
    (positive : 0 < capacity) (within : text.length ≤ capacity)
    (more : List Char) :
    Keeps capacity (stored memory (appended capacity text.length more))
      (text ++ more) := by
  rw [appended]
  by_cases full : text.length = capacity
  · rw [if_pos full]
    apply keeps.append_full _ full
    exact List.ne_nil_of_length_pos (by omega)
  · rw [if_neg full]
    exact keeps.append_room (by omega)

theorem Keeps.string (keeps : Keeps capacity memory text)
    (positive : 0 < capacity) (nonempty : text ≠ []) (noNul : nul ∉ text) :
    string memory capacity = text.take (capacity - 1) := by
  apply string_of_contents
  · rw [contents_succ, keeps.kept, keeps.terminated nonempty]
  · intro member
    exact noNul (List.mem_of_mem_take member)
  · rw [List.length_take]
    omega

end Append

end CBuffer
