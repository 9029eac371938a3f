import Mathlib.Data.List.Induction

/-! # Frames of a stream

A stream of items is cut into frames after every item that `isLast` marks. The
items behind the last mark form the open frame.
-/

namespace Framing

variable {Item : Type u} {Other : Type v} (isLast : Item → Bool)

def push (split : List (List Item) × List Item) (item : Item) :
    List (List Item) × List Item :=
  if isLast item then (split.1 ++ [split.2 ++ [item]], [])
  else (split.1, split.2 ++ [item])

def closedFrames (items : List Item) : List (List Item) :=
  (items.foldl (push isLast) ([], [])).1

def openFrame (items : List Item) : List Item :=
  (items.foldl (push isLast) ([], [])).2

/-- All frames of a stream, an unfinished one at the end included. -/
def frames (items : List Item) : List (List Item) :=
  closedFrames isLast items ++
    if openFrame isLast items = [] then [] else [openFrame isLast items]

@[simp] theorem closedFrames_nil : closedFrames isLast [] = [] := rfl

@[simp] theorem openFrame_nil : openFrame isLast [] = [] := rfl

theorem closedFrames_concat (items : List Item) (item : Item) :
    closedFrames isLast (items ++ [item]) =
      if isLast item then
        closedFrames isLast items ++ [openFrame isLast items ++ [item]]
      else closedFrames isLast items := by
  cases marked : isLast item <;>
    simp [closedFrames, openFrame, push, marked]

theorem openFrame_concat (items : List Item) (item : Item) :
    openFrame isLast (items ++ [item]) =
      if isLast item then [] else openFrame isLast items ++ [item] := by
  cases marked : isLast item <;> simp [openFrame, push, marked]

theorem frames_concat (items : List Item) (item : Item) :
    frames isLast (items ++ [item]) =
      closedFrames isLast items ++ [openFrame isLast items ++ [item]] := by
  cases marked : isLast item <;>
    simp [frames, closedFrames_concat, openFrame_concat, marked]

/-- Cutting a stream into frames loses no item and changes no order. -/
theorem closedFrames_flatten_append_openFrame (items : List Item) :
    (closedFrames isLast items).flatten ++ openFrame isLast items = items := by
  induction items using List.reverseRecOn with
  | nil => rfl
  | append_singleton items item induction =>
      cases marked : isLast item <;>
        simp [closedFrames_concat, openFrame_concat, marked,
          ← List.append_assoc, induction]

theorem frames_flatten (items : List Item) :
    (frames isLast items).flatten = items := by
  rw [frames, List.flatten_append]
  split
  · next empty =>
      simpa [empty] using closedFrames_flatten_append_openFrame isLast items
  · simpa using closedFrames_flatten_append_openFrame isLast items

theorem mem_frames_of_mem_closedFrames {items frame : List Item}
    (member : frame ∈ closedFrames isLast items) :
    frame ∈ frames isLast items :=
  List.mem_append_left _ member

/-- Frames are cut by the marks alone, not by what else the items carry. -/
theorem openFrame_map (transform : Other → Item) (items : List Other) :
    openFrame isLast (items.map transform) =
      (openFrame (fun item => isLast (transform item)) items).map transform := by
  induction items using List.reverseRecOn with
  | nil => rfl
  | append_singleton items item induction =>
      rw [List.map_append, List.map_singleton, openFrame_concat,
        openFrame_concat, induction]
      split <;> simp

/-! ## Items and the first item of their frame -/

/-- An item together with the items before it lies in a frame that starts
with the part of it that was open. -/
theorem exists_frame_of_split {items before after : List Item} {item : Item}
    (split : items = before ++ item :: after) :
    ∃ frame ∈ frames isLast items,
      openFrame isLast before ++ [item] <+: frame := by
  induction after using List.reverseRecOn generalizing items with
  | nil =>
      subst split
      refine ⟨openFrame isLast before ++ [item], ?_, List.prefix_refl _⟩
      rw [frames_concat]
      simp
  | append_singleton after last induction =>
      have earlier : ∃ frame ∈ frames isLast (before ++ item :: after),
          openFrame isLast before ++ [item] <+: frame := induction rfl
      rcases earlier with ⟨frame, member, leads⟩
      have regroup : items = (before ++ item :: after) ++ [last] := by
        simp [split]
      rw [regroup, frames_concat]
      rw [frames] at member
      rcases List.mem_append.mp member with closed | unfinished
      · exact ⟨frame, List.mem_append_left _ closed, leads⟩
      · split at unfinished
        · cases unfinished
        · rcases List.mem_singleton.mp unfinished with rfl
          exact ⟨_, List.mem_append_right _ (List.mem_singleton.mpr rfl),
            leads.trans (List.prefix_append _ _)⟩

theorem head?_of_prefix {front frame : List Item} {item : Item}
    (leads : front ++ [item] <+: frame) :
    frame.head? = some (front.headD item) := by
  rcases leads with ⟨rest, rfl⟩
  cases front <;> rfl

/-- What holds between an item and the first item of the frame that is open
when it arrives holds inside every frame. -/
theorem forall_mem_frames {items : List Item} (Relation : Item → Item → Prop)
    (holds : ∀ before item after, items = before ++ item :: after →
      ∀ first, (openFrame isLast before ++ [item]).head? = some first →
        Relation first item) :
    ∀ frame ∈ frames isLast items, ∀ first, frame.head? = some first →
      ∀ item ∈ frame, Relation first item := by
  induction items using List.reverseRecOn with
  | nil => simp [frames]
  | append_singleton items last induction =>
      have earlier := induction fun before item after split =>
        holds before item (after ++ [last]) (by simp [split])
      intro frame member first isFirst item inFrame
      rw [frames_concat] at member
      rcases List.mem_append.mp member with closed | unfinished
      · exact earlier frame (mem_frames_of_mem_closedFrames isLast closed)
          first isFirst item inFrame
      · rcases List.mem_singleton.mp unfinished with rfl
        rcases List.mem_append.mp inFrame with inOpen | isLatest
        · have nonempty : openFrame isLast items ≠ [] :=
            List.ne_nil_of_mem inOpen
          apply earlier (openFrame isLast items)
            (by simp [frames, nonempty]) first ?_ item inOpen
          rcases List.exists_cons_of_ne_nil nonempty with ⟨head, rest, shape⟩
          simpa [shape] using isFirst
        · rcases List.mem_singleton.mp isLatest with rfl
          exact holds items item [] rfl first isFirst

def flatMapFrame (transform : Item → Item → List Other) : List Item → List Other
  | [] => []
  | first :: rest => (first :: rest).flatMap (transform first)

theorem flatMapFrame_concat (transform : Item → Item → List Other)
    (frame : List Item) (item : Item) :
    flatMapFrame transform (frame ++ [item]) =
      flatMapFrame transform frame ++
        transform (frame.headD item) item := by
  cases frame <;> simp [flatMapFrame]

/-- Transforming a stream frame by frame is transforming each item as it
arrives, knowing only the frame that is open then. -/
theorem frames_flatMap_concat (transform : Item → Item → List Other)
    (items : List Item) (item : Item) :
    (frames isLast (items ++ [item])).flatMap (flatMapFrame transform) =
      (frames isLast items).flatMap (flatMapFrame transform) ++
        transform ((openFrame isLast items).headD item) item := by
  rw [frames_concat, frames, List.flatMap_append, List.flatMap_append]
  simp only [List.flatMap_singleton, flatMapFrame_concat]
  split
  · next empty => simp [empty, flatMapFrame]
  · simp

end Framing
