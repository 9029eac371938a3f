import Mathlib.Data.List.Basic

/-! # dpdk_rx_loop

What the receive loop does with the buffers it is handed, access by access.
-/

namespace PacketFilter.Software

def dpdkBurstSize : Nat := 32

def dpdkPrefetchNum : Nat := 4

/-- What `rte_eth_rx_burst` returns: distinct buffers, which the loop then
owns. -/
structure Burst (Mbuf : Type u) where
  mbufs : List Mbuf
  size : mbufs.length ≤ dpdkBurstSize
  distinct : mbufs.Nodup

/-- What one evaluation of the condition of the loop finds, and what the driver
and the callback return if the loop goes on. -/
structure Poll (Mbuf : Type u) where
  forceQuit : Bool
  burst : Burst Mbuf
  results : Nat → Int

inductive Use where
  | prefetch
  | measure
  | callback
  | free
  deriving DecidableEq

inductive RxEvent (Mbuf : Type u) where
  | receive (mbufs : List Mbuf)
  /-- A use of what stands in `bufs` at an index. -/
  | use (use : Use) (index : Nat) (mbuf : Mbuf)
  /-- The warning about a negative result. -/
  | warn (index : Nat)

variable {Mbuf : Type u}

/-- `bufs` after a burst. What is behind the burst stays. -/
def fillBufs (bufs : Nat → Mbuf) (mbufs : List Mbuf) (index : Nat) : Mbuf :=
  mbufs[index]?.getD (bufs index)

def processPacketAt (bufs : Nat → Mbuf) (nbRx : Nat) (results : Nat → Int)
    (i : Nat) : List (RxEvent Mbuf) :=
  [.use .measure i (bufs i), .use .callback i (bufs i)] ++
    (if results i < 0 then [.warn i] else []) ++
    [.use .free i (bufs i)] ++
    if i + dpdkPrefetchNum < nbRx then
      [.use .prefetch (i + dpdkPrefetchNum) (bufs (i + dpdkPrefetchNum))]
    else []

def processBurst (bufs : Nat → Mbuf) (nbRx : Nat) (results : Nat → Int) :
    List (RxEvent Mbuf) :=
  ((List.range (min nbRx dpdkPrefetchNum)).map fun i =>
      .use .prefetch i (bufs i)) ++
    (List.range nbRx).flatMap (processPacketAt bufs nbRx results)

/-- What the loop has done after so many evaluations of its condition, and
whether it has ended. -/
def dpdkRxLoop (bufs : Nat → Mbuf) : List (Poll Mbuf) → List (RxEvent Mbuf) × Bool
  | [] => ([], false)
  | poll :: rest =>
      if poll.forceQuit then ([], true)
      else
        let mbufs := poll.burst.mbufs
        let received := fillBufs bufs mbufs
        let processed :=
          if mbufs.length = 0 then []
          else processBurst received mbufs.length poll.results
        let (later, ended) := dpdkRxLoop received rest
        (.receive mbufs :: processed ++ later, ended)

end PacketFilter.Software
