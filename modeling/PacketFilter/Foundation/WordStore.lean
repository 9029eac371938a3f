import Mathlib.Data.List.Nodup
import Mathlib.Logic.Function.Basic

/-! # Values in a store of words

A store holds a word at every address. A value is kept in one or more cells of
it, and a store operation is the list of words it assigns.
-/

namespace WordStore

variable {Address : Type u} {Word : Type v} [DecidableEq Address]

def assign (store : Address → Word) (writes : List (Address × Word)) :
    Address → Word :=
  writes.foldl (fun store write => Function.update store write.1 write.2) store

theorem assign_cons (store : Address → Word) (write : Address × Word)
    (rest : List (Address × Word)) :
    assign store (write :: rest) =
      assign (Function.update store write.1 write.2) rest := rfl

theorem assign_of_notMem (store : Address → Word)
    {writes : List (Address × Word)} {address : Address}
    (absent : address ∉ writes.map Prod.fst) :
    assign store writes address = store address := by
  induction writes generalizing store with
  | nil => rfl
  | cons write rest induction =>
      rw [List.map_cons, List.mem_cons, not_or] at absent
      rw [assign_cons, induction _ absent.2,
        Function.update_of_ne absent.1]

/-- What an address holds afterwards depends on what it held, but not on what
other addresses did. -/
theorem assign_congr {store store' : Address → Word} {address : Address}
    (same : store address = store' address) (writes : List (Address × Word)) :
    assign store writes address = assign store' writes address := by
  induction writes generalizing store store' with
  | nil => exact same
  | cons write rest induction =>
      rw [assign_cons, assign_cons]
      apply induction
      by_cases here : address = write.1
      · rw [here, Function.update_self, Function.update_self]
      · rw [Function.update_of_ne here, Function.update_of_ne here, same]

theorem assign_comm (store : Address → Word)
    {first second : List (Address × Word)}
    (apart : (first.map Prod.fst).Disjoint (second.map Prod.fst)) :
    assign (assign store first) second = assign (assign store second) first := by
  funext address
  by_cases inFirst : address ∈ first.map Prod.fst
  · have absent : address ∉ second.map Prod.fst :=
      fun inSecond => apart inFirst inSecond
    rw [assign_of_notMem _ absent,
      assign_congr (assign_of_notMem store absent) first]
  · rw [assign_of_notMem _ inFirst,
      assign_congr (assign_of_notMem store inFirst) second]

theorem map_assign_zip (store : Address → Word) {cells : List Address}
    (distinct : cells.Nodup) {words : List Word}
    (fits : words.length = cells.length) :
    cells.map (assign store (cells.zip words)) = words := by
  induction cells generalizing store words with
  | nil => exact (List.eq_nil_of_length_eq_zero fits).symm
  | cons cell rest induction =>
      cases words with
      | nil => cases fits
      | cons word words =>
          rw [List.nodup_cons] at distinct
          have fitsRest : words.length = rest.length := Nat.succ.inj fits
          have keys : (rest.zip words).map Prod.fst = rest :=
            List.map_fst_zip (Nat.le_of_eq fitsRest.symm)
          have absent : cell ∉ (rest.zip words).map Prod.fst := by
            rw [keys]
            exact distinct.1
          rw [List.zip_cons_cons, List.map_cons, assign_cons,
            assign_of_notMem _ absent, Function.update_self,
            induction _ distinct.2 fitsRest]

/-! ## Layouts -/

/-- How the values of a type are kept in cells of a store. -/
structure Layout (Address : Type u) (Word : Type v) (Value : Type w) where
  cells : List Address
  distinct : cells.Nodup
  encode : Value → List Word
  fits : ∀ value, (encode value).length = cells.length
  decode : List Word → Value
  decode_encode : ∀ value, decode (encode value) = value

namespace Layout

variable {Value : Type w} {Value' : Type x} (layout : Layout Address Word Value)

def write (store : Address → Word) (value : Value) : Address → Word :=
  assign store (layout.cells.zip (layout.encode value))

omit [DecidableEq Address] in
def read (store : Address → Word) : Value :=
  layout.decode (layout.cells.map store)

omit [DecidableEq Address] in
theorem map_fst_zip (value : Value) :
    (layout.cells.zip (layout.encode value)).map Prod.fst = layout.cells :=
  List.map_fst_zip (Nat.le_of_eq (layout.fits value).symm)

theorem read_write (store : Address → Word) (value : Value) :
    layout.read (layout.write store value) = value := by
  rw [read, write, map_assign_zip store layout.distinct (layout.fits value),
    layout.decode_encode]

theorem write_of_notMem (store : Address → Word) (value : Value)
    {address : Address} (absent : address ∉ layout.cells) :
    layout.write store value address = store address := by
  apply assign_of_notMem
  rw [map_fst_zip]
  exact absent

theorem write_comm (store : Address → Word)
    (layout' : Layout Address Word Value')
    (apart : layout.cells.Disjoint layout'.cells) (value : Value)
    (value' : Value') :
    layout'.write (layout.write store value) value' =
      layout.write (layout'.write store value') value := by
  apply assign_comm
  rw [map_fst_zip, map_fst_zip]
  exact apart

end Layout

end WordStore
