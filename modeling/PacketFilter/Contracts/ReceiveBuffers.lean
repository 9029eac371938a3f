import Mathlib.Data.List.Nodup
import PacketFilter.Foundation.Loops
import PacketFilter.Software.ReceiveLoop

/-! # Receive buffers

The receive loop owns the buffers of a burst until it frees them. Two loops that
prefetch, one ahead of the other, share the buffers between them.
-/

namespace PacketFilter.Contracts.ReceiveBuffers

open Software

variable {Mbuf : Type u}

/-! ## Reading a trace -/

def arrivals (trace : List (RxEvent Mbuf)) : List Mbuf :=
  trace.flatMap fun
    | .receive mbufs => mbufs
    | _ => []

def uses (kind : Use) (trace : List (RxEvent Mbuf)) : List Mbuf :=
  trace.flatMap fun
    | .use other _ mbuf => if other = kind then [mbuf] else []
    | _ => []

inductive Moment where
  | received
  | used (kind : Use)
  deriving DecidableEq

section History

variable [DecidableEq Mbuf]

def moments (mbuf : Mbuf) : RxEvent Mbuf → List Moment
  | .receive mbufs => List.replicate (mbufs.count mbuf) .received
  | .use kind _ other => if other = mbuf then [.used kind] else []
  | .warn _ => []

def history (mbuf : Mbuf) (trace : List (RxEvent Mbuf)) : List Moment :=
  trace.flatMap (moments mbuf)

def life : List Moment :=
  [.received, .used .prefetch, .used .measure, .used .callback, .used .free]

end History

def AccessesInside : Nat → List (RxEvent Mbuf) → Prop
  | _, [] => True
  | _, .receive mbufs :: rest => AccessesInside mbufs.length rest
  | nbRx, .use _ index _ :: rest => index < nbRx ∧ AccessesInside nbRx rest
  | nbRx, .warn _ :: rest => AccessesInside nbRx rest

/-! ## One burst -/

section Burst

variable (bufs : Nat → Mbuf) (nbRx : Nat) (results : Nat → Int)

theorem uses_append (kind : Use) (first second : List (RxEvent Mbuf)) :
    uses kind (first ++ second) = uses kind first ++ uses kind second :=
  List.flatMap_append

theorem uses_processPacketAt_prefetch (i : Nat) :
    uses .prefetch (processPacketAt bufs nbRx results i) =
      if i + dpdkPrefetchNum < nbRx then [bufs (i + dpdkPrefetchNum)]
      else [] := by
  rw [processPacketAt]
  split <;> split <;> rfl

theorem uses_processPacketAt {kind : Use} (inLoop : kind ≠ .prefetch) (i : Nat) :
    uses kind (processPacketAt bufs nbRx results i) = [bufs i] := by
  rw [processPacketAt]
  cases kind with
  | prefetch => exact absurd rfl inLoop
  | measure => split <;> split <;> rfl
  | callback => split <;> split <;> rfl
  | free => split <;> split <;> rfl

theorem uses_prefetches (kind : Use) (count : Nat) :
    uses kind ((List.range count).map fun i => .use .prefetch i (bufs i)) =
      if kind = .prefetch then (List.range count).map bufs else [] := by
  rw [uses, List.flatMap_map]
  by_cases prefetching : kind = .prefetch
  · subst prefetching
    exact List.map_eq_flatMap.symm
  · have other : Use.prefetch ≠ kind := Ne.symm prefetching
    simp [other, prefetching]

theorem uses_processBurst (kind : Use) :
    uses kind (processBurst bufs nbRx results) = (List.range nbRx).map bufs := by
  have packets : uses kind
      ((List.range nbRx).flatMap (processPacketAt bufs nbRx results)) =
        (List.range nbRx).flatMap fun i =>
          uses kind (processPacketAt bufs nbRx results i) :=
    List.flatMap_assoc
  rw [processBurst, uses_append, packets, uses_prefetches]
  by_cases prefetching : kind = .prefetch
  · subst prefetching
    simp only [uses_processPacketAt_prefetch, if_true]
    exact Loops.map_append_flatMap_ahead bufs dpdkPrefetchNum nbRx
  · simp only [uses_processPacketAt bufs nbRx results prefetching,
      if_neg prefetching, List.nil_append]
    exact List.map_eq_flatMap.symm

def Within : RxEvent Mbuf → Prop
  | .receive _ => False
  | .use _ index _ => index < nbRx
  | .warn _ => True

theorem within_of_mem_processPacketAt {i : Nat} (inside : i < nbRx)
    {event : RxEvent Mbuf}
    (member : event ∈ processPacketAt bufs nbRx results i) :
    Within nbRx event := by
  simp only [processPacketAt, List.mem_append, List.mem_cons, List.not_mem_nil,
    or_false] at member
  rcases member with (((rfl | rfl) | warned) | rfl) | ahead
  · exact inside
  · exact inside
  · split at warned
    · rw [List.mem_singleton.mp warned]
      trivial
    · cases warned
  · exact inside
  · split at ahead
    · next within =>
        rw [List.mem_singleton.mp ahead]
        exact within
    · cases ahead

theorem within_of_mem_processBurst {event : RxEvent Mbuf}
    (member : event ∈ processBurst bufs nbRx results) : Within nbRx event := by
  rw [processBurst, List.mem_append, List.mem_map, List.mem_flatMap] at member
  rcases member with ⟨i, inside, rfl⟩ | ⟨i, inside, member⟩
  · have below := List.mem_range.mp inside
    exact Nat.lt_of_lt_of_le below (Nat.min_le_left _ _)
  · exact within_of_mem_processPacketAt bufs nbRx results
      (List.mem_range.mp inside) member

theorem arrivals_processBurst :
    arrivals (processBurst bufs nbRx results) = [] := by
  rw [arrivals, List.flatMap_eq_nil_iff]
  intro event member
  have within := within_of_mem_processBurst bufs nbRx results member
  cases event with
  | receive mbufs => exact within.elim
  | use kind index mbuf => rfl
  | warn index => rfl

theorem accessesInside_append {first : List (RxEvent Mbuf)}
    (within : ∀ event ∈ first, Within nbRx event)
    {second : List (RxEvent Mbuf)} (inside : AccessesInside nbRx second) :
    AccessesInside nbRx (first ++ second) := by
  induction first with
  | nil => exact inside
  | cons event rest induction =>
      have head := within event List.mem_cons_self
      have continued := induction fun later member =>
        within later (List.mem_cons_of_mem event member)
      cases event with
      | receive mbufs => exact head.elim
      | use kind index mbuf => exact ⟨head, continued⟩
      | warn index => exact continued

section Cell

variable [DecidableEq Mbuf] {bufs nbRx} {mbuf : Mbuf}

theorem history_append (first second : List (RxEvent Mbuf)) :
    history mbuf (first ++ second) =
      history mbuf first ++ history mbuf second :=
  List.flatMap_append

theorem history_processPacketAt (i : Nat) :
    history mbuf (processPacketAt bufs nbRx results i) =
      (if bufs i = mbuf then [.used .measure, .used .callback, .used .free]
        else []) ++
        if i + dpdkPrefetchNum < nbRx ∧ bufs (i + dpdkPrefetchNum) = mbuf then
          [.used .prefetch]
        else [] := by
  have warned : history mbuf (if results i < 0 then [.warn i] else []) = [] := by
    split <;> rfl
  rw [processPacketAt, history_append, history_append, history_append, warned]
  by_cases here : bufs i = mbuf
  · by_cases ahead : i + dpdkPrefetchNum < nbRx
    · simp [history, moments, here, ahead]
    · simp [history, moments, here, ahead]
  · by_cases ahead : i + dpdkPrefetchNum < nbRx
    · simp [history, moments, here, ahead]
    · simp [history, moments, here, ahead]

theorem history_processBurst_eq :
    history mbuf (processBurst bufs nbRx results) =
      ((List.range (min nbRx dpdkPrefetchNum)).flatMap fun i =>
        if bufs i = mbuf then [.used .prefetch] else []) ++
        (List.range nbRx).flatMap fun i =>
          (if bufs i = mbuf then [.used .measure, .used .callback, .used .free]
            else []) ++
            if i + dpdkPrefetchNum < nbRx ∧
                bufs (i + dpdkPrefetchNum) = mbuf then [.used .prefetch]
            else [] := by
  have packets : history mbuf
      ((List.range nbRx).flatMap (processPacketAt bufs nbRx results)) =
        (List.range nbRx).flatMap fun i =>
          history mbuf (processPacketAt bufs nbRx results i) :=
    List.flatMap_assoc
  rw [processBurst, history_append, packets, history, List.flatMap_map]
  simp only [history_processPacketAt, moments]

theorem history_processBurst_of_absent
    (absent : ∀ i, i < nbRx → bufs i ≠ mbuf) :
    history mbuf (processBurst bufs nbRx results) = [] := by
  rw [history_processBurst_eq, List.append_eq_nil_iff,
    List.flatMap_eq_nil_iff, List.flatMap_eq_nil_iff]
  constructor
  · intro i member
    have inside := List.mem_range.mp member
    exact if_neg (absent i (by omega))
  · intro i member
    have inside := List.mem_range.mp member
    rw [if_neg (absent i inside), if_neg]
    · rfl
    · intro ahead
      exact absent _ ahead.1 ahead.2

section OneCell

variable {cell : Nat} (only : ∀ i, i < nbRx → (bufs i = mbuf ↔ i = cell))
include only

theorem prefetched_of_cell (inside : cell < nbRx) :
    ((List.range (min nbRx dpdkPrefetchNum)).flatMap fun i =>
        if bufs i = mbuf then [Moment.used .prefetch] else []) =
      if cell < dpdkPrefetchNum then [.used .prefetch] else [] := by
  have reached : cell < min nbRx dpdkPrefetchNum ↔ cell < dpdkPrefetchNum := by
    omega
  simp only [← reached, ← Loops.flatMap_cell]
  apply List.flatMap_congr
  intro i member
  have below := List.mem_range.mp member
  simp only [only i (by omega)]

/-- The second loop prefetches it when its cell is a later one, and handles it
when it gets there. -/
theorem handled_of_cell (inside : cell < nbRx) :
    ((List.range nbRx).flatMap fun i =>
        (if bufs i = mbuf then
            [Moment.used .measure, .used .callback, .used .free] else []) ++
          if i + dpdkPrefetchNum < nbRx ∧ bufs (i + dpdkPrefetchNum) = mbuf then
            [.used .prefetch] else []) =
      (if dpdkPrefetchNum ≤ cell then [.used .prefetch] else []) ++
        [.used .measure, .used .callback, .used .free] := by
  have later : dpdkPrefetchNum ≤ cell ∧ cell < nbRx + dpdkPrefetchNum ↔
      dpdkPrefetchNum ≤ cell := by
    omega
  have visited := Loops.flatMap_ahead_cell
    [Moment.used .measure, .used .callback, .used .free] [.used .prefetch]
    (show 0 < dpdkPrefetchNum by decide) cell nbRx
  simp only [later, if_pos inside] at visited
  rw [← visited]
  apply List.flatMap_congr
  intro i member
  have below := List.mem_range.mp member
  have ahead : i + dpdkPrefetchNum < nbRx ∧
      bufs (i + dpdkPrefetchNum) = mbuf ↔ i + dpdkPrefetchNum = cell := by
    constructor
    · intro looked
      exact (only _ looked.1).mp looked.2
    · intro reached
      rw [reached]
      exact ⟨inside, (only _ inside).mpr rfl⟩
  simp only [only i below, ahead]

theorem history_processBurst_of_cell (inside : cell < nbRx) :
    history mbuf (processBurst bufs nbRx results) =
      [.used .prefetch, .used .measure, .used .callback, .used .free] := by
  rw [history_processBurst_eq, prefetched_of_cell only inside,
    handled_of_cell only inside]
  by_cases early : cell < dpdkPrefetchNum
  · rw [if_pos early, if_neg (by omega)]
    rfl
  · rw [if_neg early, if_pos (by omega)]
    rfl

end OneCell

end Cell

end Burst

/-! ## One pass of the loop -/

section Pass

variable (bufs : Nat → Mbuf) (burst : Burst Mbuf) (results : Nat → Int)

theorem map_fillBufs (mbufs : List Mbuf) :
    (List.range mbufs.length).map (fillBufs bufs mbufs) = mbufs := by
  apply List.ext_getElem
  · simp
  · intro index inside member
    simp [fillBufs, member]

def processed : List (RxEvent Mbuf) :=
  if burst.mbufs.length = 0 then []
  else processBurst (fillBufs bufs burst.mbufs) burst.mbufs.length results

theorem uses_processed (kind : Use) :
    uses kind (processed bufs burst results) = burst.mbufs := by
  rw [processed]
  split
  · next empty => exact (List.length_eq_zero_iff.mp empty).symm
  · rw [uses_processBurst, map_fillBufs]

theorem arrivals_processed : arrivals (processed bufs burst results) = [] := by
  rw [processed]
  split
  · rfl
  · exact arrivals_processBurst _ _ _

theorem within_of_mem_processed {event : RxEvent Mbuf}
    (member : event ∈ processed bufs burst results) :
    Within burst.mbufs.length event := by
  rw [processed] at member
  split at member
  · cases member
  · exact within_of_mem_processBurst _ _ _ member

theorem fillBufs_eq_iff {mbuf : Mbuf} {cell : Nat}
    (inside : cell < burst.mbufs.length) (isMbuf : burst.mbufs[cell] = mbuf)
    (i : Nat) (within : i < burst.mbufs.length) :
    fillBufs bufs burst.mbufs i = mbuf ↔ i = cell := by
  have isCell : fillBufs bufs burst.mbufs i = burst.mbufs[i] := by
    simp [fillBufs, within]
  rw [isCell, ← isMbuf]
  exact burst.distinct.getElem_inj_iff

theorem history_processed [DecidableEq Mbuf] (mbuf : Mbuf) :
    history mbuf (.receive burst.mbufs :: processed bufs burst results) =
      (List.replicate (burst.mbufs.count mbuf) life).flatten := by
  change List.replicate _ Moment.received ++
    history mbuf (processed bufs burst results) = _
  rw [processed]
  by_cases member : mbuf ∈ burst.mbufs
  · rcases List.mem_iff_getElem.mp member with ⟨cell, inside, isMbuf⟩
    have once := List.count_eq_one_of_mem burst.distinct member
    rw [if_neg (by omega), once,
      history_processBurst_of_cell results
        (fillBufs_eq_iff bufs burst inside isMbuf) inside]
    rfl
  · have never := List.count_eq_zero_of_not_mem member
    rw [never]
    split
    · rfl
    · apply history_processBurst_of_absent
      intro i inside isMbuf
      rw [fillBufs, List.getElem?_eq_getElem inside] at isMbuf
      exact member (List.mem_of_getElem isMbuf)

end Pass

/-! ## Runs of the loop -/

def passes (polls : List (Poll Mbuf)) : List (Poll Mbuf) :=
  polls.takeWhile fun poll => !poll.forceQuit

def received (polls : List (Poll Mbuf)) : List Mbuf :=
  (passes polls).flatMap fun poll => poll.burst.mbufs

/-- What the loop owes to the buffers it is handed. -/
structure Disciplined [DecidableEq Mbuf] (polls : List (Poll Mbuf))
    (trace : List (RxEvent Mbuf)) : Prop where
  arrived : arrivals trace = received polls
  /-- Each way of using a buffer takes each buffer once and in order. -/
  inOrder : ∀ kind, uses kind trace = arrivals trace
  /-- Between two arrivals of a buffer lies one whole life, and nothing else. -/
  wholeLives : ∀ mbuf, history mbuf trace =
    (List.replicate ((arrivals trace).count mbuf) life).flatten
  inside : AccessesInside 0 trace

theorem dpdkRxLoop_quit (bufs : Nat → Mbuf) {poll : Poll Mbuf}
    (quit : poll.forceQuit = true) (rest : List (Poll Mbuf)) :
    (dpdkRxLoop bufs (poll :: rest)).1 = [] := by
  rw [dpdkRxLoop, if_pos quit]

theorem dpdkRxLoop_goes_on (bufs : Nat → Mbuf) {poll : Poll Mbuf}
    (goesOn : poll.forceQuit = false) (rest : List (Poll Mbuf)) :
    (dpdkRxLoop bufs (poll :: rest)).1 =
      (.receive poll.burst.mbufs :: processed bufs poll.burst poll.results) ++
        (dpdkRxLoop (fillBufs bufs poll.burst.mbufs) rest).1 := by
  rw [dpdkRxLoop, if_neg (by simp [goesOn])]
  rfl

theorem passes_cons (poll : Poll Mbuf) (rest : List (Poll Mbuf)) :
    passes (poll :: rest) =
      if poll.forceQuit then [] else poll :: passes rest := by
  rw [passes, List.takeWhile_cons]
  cases poll.forceQuit <;> rfl

/-- What is observed of a run is what is observed of its passes. -/
theorem flatMap_dpdkRxLoop {Item : Type v} (observe : RxEvent Mbuf → List Item)
    (expected : Poll Mbuf → List Item)
    (pass : ∀ bufs poll, (RxEvent.receive poll.burst.mbufs ::
      processed bufs poll.burst poll.results).flatMap observe = expected poll)
    (bufs : Nat → Mbuf) (polls : List (Poll Mbuf)) :
    (dpdkRxLoop bufs polls).1.flatMap observe =
      (passes polls).flatMap expected := by
  induction polls generalizing bufs with
  | nil => rfl
  | cons poll rest induction =>
      rw [passes_cons]
      cases quit : poll.forceQuit with
      | true =>
          rw [dpdkRxLoop_quit bufs quit]
          rfl
      | false =>
          rw [dpdkRxLoop_goes_on bufs quit, List.flatMap_append, pass, induction]
          rfl

theorem arrivals_dpdkRxLoop (bufs : Nat → Mbuf) (polls : List (Poll Mbuf)) :
    arrivals (dpdkRxLoop bufs polls).1 = received polls := by
  apply flatMap_dpdkRxLoop
  intro bufs poll
  change poll.burst.mbufs ++ arrivals (processed _ _ _) = _
  rw [arrivals_processed, List.append_nil]

theorem uses_dpdkRxLoop (bufs : Nat → Mbuf) (polls : List (Poll Mbuf))
    (kind : Use) : uses kind (dpdkRxLoop bufs polls).1 = received polls := by
  apply flatMap_dpdkRxLoop
  intro bufs poll
  exact uses_processed bufs poll.burst poll.results kind

theorem count_received [DecidableEq Mbuf] (polls : List (Poll Mbuf))
    (mbuf : Mbuf) (moments : List Moment) :
    (passes polls).flatMap (fun poll =>
        (List.replicate (poll.burst.mbufs.count mbuf) moments).flatten) =
      (List.replicate ((received polls).count mbuf) moments).flatten := by
  rw [received]
  induction passes polls with
  | nil => rfl
  | cons poll rest induction =>
      rw [List.flatMap_cons, List.flatMap_cons, induction, List.count_append,
        List.replicate_add, List.flatten_append]

theorem history_dpdkRxLoop [DecidableEq Mbuf] (bufs : Nat → Mbuf)
    (polls : List (Poll Mbuf)) (mbuf : Mbuf) :
    history mbuf (dpdkRxLoop bufs polls).1 =
      (List.replicate ((received polls).count mbuf) life).flatten := by
  rw [← count_received]
  apply flatMap_dpdkRxLoop
  intro bufs poll
  exact history_processed bufs poll.burst poll.results mbuf

theorem accessesInside_dpdkRxLoop (bufs : Nat → Mbuf)
    (polls : List (Poll Mbuf)) (nbRx : Nat) :
    AccessesInside nbRx (dpdkRxLoop bufs polls).1 := by
  induction polls generalizing bufs nbRx with
  | nil => trivial
  | cons poll rest induction =>
      cases quit : poll.forceQuit with
      | true =>
          rw [dpdkRxLoop_quit bufs quit]
          trivial
      | false =>
          rw [dpdkRxLoop_goes_on bufs quit]
          change AccessesInside poll.burst.mbufs.length (_ ++ _)
          exact accessesInside_append _
            (fun _ member => within_of_mem_processed _ _ _ member)
            (induction _ _)

/-- Whatever arrives, whatever the callback returns and whenever the loop is
told to quit, every buffer is prefetched, handed to the callback and freed, in
this order and in the order of arrival. -/
theorem receive_loop_disciplined [DecidableEq Mbuf] (bufs : Nat → Mbuf)
    (polls : List (Poll Mbuf)) :
    Disciplined polls (dpdkRxLoop bufs polls).1 where
  arrived := arrivals_dpdkRxLoop bufs polls
  inOrder kind := by rw [uses_dpdkRxLoop, arrivals_dpdkRxLoop]
  wholeLives mbuf := by rw [history_dpdkRxLoop, arrivals_dpdkRxLoop]
  inside := accessesInside_dpdkRxLoop bufs polls 0

end PacketFilter.Contracts.ReceiveBuffers
