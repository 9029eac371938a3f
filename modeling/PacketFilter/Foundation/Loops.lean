import Mathlib.Data.List.Basic

/-! # Loops that fill a vector

Counting loops that write the cells of a vector one after the other, and nested
loops that count through rows and columns.
-/

namespace Loops

variable {Cell : Type u} {Result : Type v} {Error : Type w}

/-- Counting through the columns of each row in turn is counting through all
cells. -/
theorem flatMap_range (rows columns : Nat) (cell : Nat → Result) :
    ((List.range rows).flatMap fun row =>
        (List.range columns).map fun column => cell (row * columns + column)) =
      (List.range (rows * columns)).map cell := by
  induction rows with
  | zero => simp
  | succ rows induction =>
      rw [List.range_succ, List.flatMap_append, induction,
        List.flatMap_singleton, Nat.succ_mul, List.range_add, List.map_append,
        List.map_map]
      rfl

theorem foldl_set_range (value : Nat → Cell) (initial : Cell)
    {count size : Nat} (within : count ≤ size) :
    (List.range count).foldl (fun cells index => cells.set index (value index))
        (List.replicate size initial) =
      (List.range count).map value ++
        List.replicate (size - count) initial := by
  induction count with
  | zero => simp
  | succ count induction =>
      have shape : size - count = size - (count + 1) + 1 := by omega
      rw [List.range_succ, List.foldl_append, induction (by omega), shape,
        List.replicate_succ, List.foldl_cons, List.foldl_nil,
        List.set_append_right _ _ (by simp), List.map_append]
      simp

theorem modify_append (done : List Cell) (cell : Cell) (rest : List Cell)
    (update : Cell → Cell) :
    (done ++ cell :: rest).modify done.length update =
      done ++ update cell :: rest := by
  rw [List.modify_eq_take_cons_drop (by simp)]
  simp

/-- A loop whose steps update cell after cell, and succeed up to `limit`,
succeeds up to there and updates a prefix. -/
theorem foldlM_range (step : List Cell → Nat → Except Error (List Cell))
    (update : Cell → Cell) (limit : Nat)
    (succeeds : ∀ done cell rest, done.length < limit →
      step (done ++ cell :: rest) done.length =
        .ok (done ++ update cell :: rest))
    (cells : List Cell) {count : Nat} (within : count ≤ cells.length)
    (below : count ≤ limit) :
    (List.range count).foldlM step cells =
      .ok ((cells.take count).map update ++ cells.drop count) := by
  induction count with
  | zero => rfl
  | succ count induction =>
      have earlier := induction (by omega) (by omega)
      have length : ((cells.take count).map update).length = count := by
        rw [List.length_map, List.length_take_of_le (by omega)]
      have next := succeeds ((cells.take count).map update) cells[count]
        (cells.drop (count + 1)) (by omega)
      rw [length] at next
      rw [List.range_succ, List.foldlM_append, earlier,
        List.drop_eq_getElem_cons (by omega : count < cells.length),
        List.take_succ_eq_append_getElem (by omega), List.map_append,
        List.append_assoc]
      change step _ count >>= pure = _
      rw [next]
      rfl

/-! ## Loops that look ahead -/

theorem flatMap_ahead (visit : Nat → Result) (distance count passes : Nat) :
    ((List.range passes).flatMap fun index =>
        if index + distance < count then [visit (index + distance)] else []) =
      (List.range (min passes (count - distance))).map fun index =>
        visit (distance + index) := by
  induction passes with
  | zero => simp
  | succ passes induction =>
      rw [List.range_succ, List.flatMap_append, induction,
        List.flatMap_singleton]
      by_cases inside : passes + distance < count
      · rw [if_pos inside, Nat.min_eq_left (by omega),
          Nat.min_eq_left (by omega), List.range_succ, List.map_append,
          Nat.add_comm passes]
        rfl
      · rw [if_neg inside, Nat.min_eq_right (by omega),
          Nat.min_eq_right (by omega), List.append_nil]

/-- A loop over the first cells and a loop that looks `distance` cells ahead
together visit every cell once and in order. -/
theorem map_append_flatMap_ahead (visit : Nat → Result)
    (distance count : Nat) :
    (List.range (min count distance)).map visit ++
        ((List.range count).flatMap fun index =>
          if index + distance < count then [visit (index + distance)] else []) =
      (List.range count).map visit := by
  rw [flatMap_ahead, Nat.min_eq_right (Nat.sub_le count distance)]
  by_cases short : count ≤ distance
  · rw [Nat.min_eq_left short, Nat.sub_eq_zero_of_le short]
    simp
  · have split : distance + (count - distance) = count := by omega
    rw [Nat.min_eq_right (by omega)]
    conv_rhs => rw [← split, List.range_add, List.map_append, List.map_map]
    rfl

/-- What such a loop does with one cell: first when it looks ahead, then when
it is there. -/
theorem flatMap_ahead_cell (own ahead : List Result) {distance : Nat}
    (positive : 0 < distance) (cell passes : Nat) :
    ((List.range passes).flatMap fun index =>
        (if index = cell then own else []) ++
          if index + distance = cell then ahead else []) =
      (if distance ≤ cell ∧ cell < passes + distance then ahead else []) ++
        if cell < passes then own else [] := by
  induction passes with
  | zero => rw [if_neg (by omega), if_neg (by omega)]; rfl
  | succ passes induction =>
      rw [List.range_succ, List.flatMap_append, induction,
        List.flatMap_singleton]
      by_cases here : passes = cell
      · have looked : (distance ≤ cell ∧ cell < passes + distance) ↔
            distance ≤ cell ∧ cell < passes + 1 + distance := by omega
        have later : ¬ cell < passes := by omega
        have alone : ¬ passes + distance = cell := by omega
        have done : cell < passes + 1 := by omega
        rw [if_pos here]
        simp only [looked, later, alone, done, if_true, if_false,
          List.append_nil]
      · have same : cell < passes + 1 ↔ cell < passes := by omega
        by_cases next : passes + distance = cell
        · have before : ¬ (distance ≤ cell ∧ cell < passes + distance) := by
            omega
          have now : distance ≤ cell ∧ cell < passes + 1 + distance := by omega
          have later : ¬ cell < passes := by omega
          rw [if_neg before, if_pos now]
          simp only [same, later, here, next, if_true, if_false,
            List.append_nil, List.nil_append]
        · have looked : (distance ≤ cell ∧ cell < passes + 1 + distance) ↔
              distance ≤ cell ∧ cell < passes + distance := by omega
          simp only [looked, same, here, next, if_false, List.append_nil]

theorem flatMap_cell (own : List Result) (cell passes : Nat) :
    ((List.range passes).flatMap fun index =>
        if index = cell then own else []) =
      if cell < passes then own else [] := by
  have alone := flatMap_ahead_cell own [] Nat.one_pos cell passes
  simpa only [ite_self, List.append_nil, List.nil_append] using alone

end Loops
