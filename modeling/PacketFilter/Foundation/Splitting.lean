import Mathlib.Data.List.Basic

/-! # Texts taken apart at separators

A text that is read piece by piece, each up to the next separator. The last
separator may be missing, so a text that ends with one has no empty piece behind
it.
-/

namespace Splitting

variable {Symbol : Type u} [DecidableEq Symbol] (separator : Symbol)

/-- Reading goes symbol by symbol; `piece` is what has been read of the piece
under way. -/
def pieces (piece : List Symbol) : List Symbol → List (List Symbol)
  | [] => if piece = [] then [] else [piece]
  | symbol :: rest =>
      if symbol = separator then piece :: pieces [] rest
      else pieces (piece ++ [symbol]) rest

def terminated (found : List (List Symbol)) : List Symbol :=
  found.flatMap fun piece => piece ++ [separator]

variable {separator}

omit [DecidableEq Symbol] in
theorem mem_terminated {found : List (List Symbol)} {symbol : Symbol}
    (within : symbol ∈ terminated separator found) :
    symbol = separator ∨ ∃ piece ∈ found, symbol ∈ piece := by
  rcases List.mem_flatMap.mp within with ⟨piece, member, part⟩
  rcases List.mem_append.mp part with inside | behind
  · exact .inr ⟨piece, member, inside⟩
  · exact .inl (List.mem_singleton.mp behind)

theorem pieces_append {first : List Symbol} (absent : separator ∉ first)
    (piece rest : List Symbol) :
    pieces separator piece (first ++ rest) =
      pieces separator (piece ++ first) rest := by
  induction first generalizing piece with
  | nil => rw [List.nil_append, List.append_nil]
  | cons symbol tail induction =>
      have different : symbol ≠ separator :=
        fun same => absent (same ▸ List.mem_cons_self)
      have absentTail : separator ∉ tail :=
        fun member => absent (List.mem_cons_of_mem symbol member)
      rw [List.cons_append, pieces, if_neg different, induction absentTail,
        List.append_assoc, List.singleton_append]

theorem pieces_append_separator {first : List Symbol}
    (absent : separator ∉ first) (rest : List Symbol) :
    pieces separator [] (first ++ separator :: rest) =
      first :: pieces separator [] rest := by
  rw [pieces_append absent, List.nil_append, pieces, if_pos rfl]

theorem pieces_of_notMem {text : List Symbol} (absent : separator ∉ text) :
    pieces separator [] text = if text = [] then [] else [text] := by
  have whole := pieces_append absent [] []
  rw [List.append_nil, List.nil_append] at whole
  rw [whole, pieces]

theorem pieces_terminated {found : List (List Symbol)}
    (absent : ∀ piece ∈ found, separator ∉ piece) (rest : List Symbol) :
    pieces separator [] (terminated separator found ++ rest) =
      found ++ pieces separator [] rest := by
  induction found with
  | nil => rfl
  | cons piece others induction =>
      have absentOthers : ∀ other ∈ others, separator ∉ other :=
        fun other member => absent other (List.mem_cons_of_mem piece member)
      have shape : terminated separator (piece :: others) ++ rest =
          piece ++ separator :: (terminated separator others ++ rest) := by
        simp [terminated]
      rw [shape, pieces_append_separator (absent piece List.mem_cons_self),
        induction absentOthers, List.cons_append]

theorem notMem_of_mem_pieces {piece text found : List Symbol}
    (absent : separator ∉ piece)
    (member : found ∈ pieces separator piece text) : separator ∉ found := by
  induction text generalizing piece with
  | nil =>
      rw [pieces] at member
      split at member
      · cases member
      · rw [List.mem_singleton.mp member]
        exact absent
  | cons symbol rest induction =>
      rw [pieces] at member
      split at member
      · rcases List.mem_cons.mp member with rfl | later
        · exact absent
        · exact induction (List.not_mem_nil : separator ∉ []) later
      · next different =>
          refine induction ?_ member
          rw [List.mem_append, List.mem_singleton]
          rintro (before | same)
          · exact absent before
          · exact different same.symm

theorem mem_of_mem_pieces {piece text found : List Symbol}
    (member : found ∈ pieces separator piece text) {symbol : Symbol}
    (within : symbol ∈ found) : symbol ∈ piece ++ text := by
  induction text generalizing piece with
  | nil =>
      rw [pieces] at member
      split at member
      · cases member
      · rw [List.mem_singleton.mp member] at within
        rwa [List.append_nil]
  | cons next rest induction =>
      rw [pieces] at member
      split at member
      · rcases List.mem_cons.mp member with rfl | later
        · exact List.mem_append_left _ within
        · have inRest : symbol ∈ [] ++ rest := induction later
          exact List.mem_append_right _ (List.mem_cons_of_mem next inRest)
      · have regrouped : piece ++ [next] ++ rest = piece ++ next :: rest := by
          rw [List.append_assoc, List.singleton_append]
        rw [← regrouped]
        exact induction member

/-- The pieces with their separators are the text, but for the last separator
where a piece was under way at its end. -/
theorem terminated_pieces (piece text : List Symbol) :
    terminated separator (pieces separator piece text) = piece ++ text ∨
      terminated separator (pieces separator piece text) =
          piece ++ text ++ [separator] ∧
        (pieces separator piece text).getLast? ≠ some [] := by
  induction text generalizing piece with
  | nil =>
      rw [pieces]
      split
      · next empty =>
          left
          rw [empty]
          rfl
      · next nonempty =>
          right
          simpa [terminated] using nonempty
  | cons symbol rest induction =>
      rw [pieces]
      split
      · next isSeparator =>
          subst isSeparator
          have shape : terminated symbol (piece :: pieces symbol [] rest) =
              piece ++ symbol :: terminated symbol (pieces symbol [] rest) := by
            simp [terminated]
          rcases induction [] with whole | ⟨unfinished, last⟩
          · left
            rw [shape, whole, List.nil_append]
          · right
            rw [shape, unfinished]
            refine ⟨by simp, ?_⟩
            have some_piece : pieces symbol [] rest ≠ [] := by
              intro none_found
              rw [none_found] at unfinished
              simp [terminated] at unfinished
            rw [List.getLast?_cons_of_ne_nil some_piece]
            exact last
      · have regrouped : piece ++ [symbol] ++ rest = piece ++ symbol :: rest := by
          rw [List.append_assoc, List.singleton_append]
        rw [← regrouped]
        exact induction (piece ++ [symbol])

/-- What pieces a text has: those that, each with a separator behind it, give
the text, where the separator behind the last one may be missing unless that one
is empty. -/
theorem pieces_eq_iff {text : List Symbol} {found : List (List Symbol)} :
    pieces separator [] text = found ↔
      (∀ piece ∈ found, separator ∉ piece) ∧
        (text = terminated separator found ∨
          text ++ [separator] = terminated separator found ∧
            found.getLast? ≠ some []) := by
  constructor
  · rintro rfl
    refine ⟨fun piece member => notMem_of_mem_pieces (by simp) member, ?_⟩
    have cut := @terminated_pieces _ _ separator [] text
    rcases cut with whole | ⟨unfinished, last⟩
    · exact .inl whole.symm
    · exact .inr ⟨unfinished.symm, last⟩
  · rintro ⟨absent, rfl | ⟨unfinished, last⟩⟩
    · have whole := pieces_terminated absent []
      rwa [List.append_nil, pieces, if_pos rfl, List.append_nil] at whole
    · rcases List.eq_nil_or_concat found with rfl | ⟨earlier, final, rfl⟩
      · simp [terminated] at unfinished
      · have shape : text = terminated separator earlier ++ final := by
          have same : text ++ [separator] =
              terminated separator earlier ++ final ++ [separator] := by
            rw [unfinished, List.concat_eq_append]
            simp [terminated]
          exact List.append_cancel_right same
        have nonempty : final ≠ [] := by
          rintro rfl
          exact last (by simp)
        have absentEarlier : ∀ piece ∈ earlier, separator ∉ piece :=
          fun piece member => absent piece (by simp [member])
        have absentFinal : separator ∉ final := absent final (by simp)
        rw [shape, pieces_terminated absentEarlier,
          pieces_of_notMem absentFinal, if_neg nonempty,
          List.concat_eq_append]

/-! ## Words -/

def words (separator : Symbol) (text : List Symbol) : List (List Symbol) :=
  (pieces separator [] text).filter fun piece => !piece.isEmpty

end Splitting
