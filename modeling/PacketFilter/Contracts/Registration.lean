import PacketFilter.Software.Dpdk

/-! # Registration contract

`main` registers a callback for the threads it asked for, `init_dpdk` launches
the threads it rounded that number up to.
-/

namespace PacketFilter.Contracts

open Software

variable {Callback : Type}

def AllRegistered (infos : ThreadInfos Callback) : Prop :=
  ∀ entry ∈ infos, ∃ info, entry = some info ∧ info.rxCallback ≠ none

def RegistersAll (infos : ThreadInfos Callback) (numThreads : BitVec 16)
    (rxCallback : Callback) : Prop :=
  ∃ registered, registerCallbacks infos numThreads rxCallback = .ok registered ∧
    AllRegistered registered

theorem allRegistered_map (infos : ThreadInfos Callback)
    (assigned : ∀ entry ∈ infos, entry.isSome) (rxCallback : Callback) :
    AllRegistered (infos.map
      (Option.map fun info => { info with rxCallback := some rxCallback })) := by
  intro entry member
  rcases List.mem_map.mp member with ⟨before, inInfos, rfl⟩
  rcases Option.isSome_iff_exists.mp (assigned before inInfos) with ⟨info, rfl⟩
  exact ⟨_, rfl, Option.some_ne_none rxCallback⟩

/-- A vector of assigned threads without callbacks is registered as a whole
exactly when the loop goes through all of it. -/
theorem registersAll_iff {infos : ThreadInfos Callback}
    (fresh : ∀ entry ∈ infos, ∃ info, entry = some info ∧
      info.rxCallback = none)
    (numThreads : BitVec 16) (enough : numThreads.toNat ≤ infos.length)
    (rxCallback : Callback) :
    RegistersAll infos numThreads rxCallback ↔
      infos.length = numThreads.toNat := by
  rw [RegistersAll, registerCallbacks_eq infos numThreads rxCallback enough]
  constructor
  · intro registers
    rcases registers with ⟨registered, isRegistered, all⟩
    rcases Except.ok.inj isRegistered with rfl
    by_contra longer
    have left : numThreads.toNat < infos.length := by omega
    have inRest : infos[numThreads.toNat] ∈ infos.drop numThreads.toNat := by
      rw [List.drop_eq_getElem_cons left]
      exact List.mem_cons_self
    rcases fresh _ (List.getElem_mem left) with ⟨info, isInfo, none⟩
    rcases all _ (List.mem_append_right _ inRest) with ⟨other, isOther, some⟩
    rw [isInfo] at isOther
    rcases Option.some.inj isOther with rfl
    exact some none
  · intro whole
    refine ⟨_, rfl, ?_⟩
    rw [← whole, List.take_length, List.drop_length, List.append_nil]
    apply allRegistered_map
    intro entry member
    rcases fresh entry member with ⟨info, rfl, -⟩
    rfl

/-- After the registration loop every launched receive thread has a callback
exactly when the number of ports divides the number of threads asked for. -/
theorem callbacks_registered_iff (eal : Eal) (numThreads : BitVec 16)
    (rxCallback : Callback)
    (fits : roundedThreads numThreads.toNat eal.portNum.toNat < 2 ^ 16)
    (infos : ThreadInfos Callback)
    (started : initDpdk eal numThreads.toNat = .ok infos) :
    RegistersAll infos numThreads rxCallback ↔
      eal.portNum.toNat ∣ numThreads.toNat := by
  have positive := (initDpdk_ok started).1
  have isInfos := initDpdk_infos fits started
  have length : infos.length =
      roundedThreads numThreads.toNat eal.portNum.toNat := by
    rw [isInfos, List.length_map, List.length_range]
  have enough : numThreads.toNat ≤ infos.length := by
    rw [length]
    exact le_roundedThreads _ positive
  have fresh : ∀ entry ∈ infos, ∃ info, entry = some info ∧
      info.rxCallback = none := by
    intro entry member
    rw [isInfos] at member
    rcases List.mem_map.mp member with ⟨i, -, rfl⟩
    exact ⟨_, rfl, rfl⟩
  rw [registersAll_iff fresh numThreads enough, length, roundedThreads_eq_iff]

def workingEal (portNum : BitVec 16) : Eal where
  ealInit := 0
  portNum := portNum
  poolCreated _ := true
  portInit _ := 0

theorem callbacks_registered_sample :
    RegistersAll [some (threadInfoAt 1 0), some (threadInfoAt 1 1)] 2 () ↔
      2 ∣ 2 :=
  callbacks_registered_iff (workingEal 2) 2 () (by decide) _ rfl

/-- One thread asked for on two ports: the second receive thread is launched
and gets no callback. -/
theorem not_callbacks_registered :
    ¬ ∀ (eal : Eal) (numThreads : BitVec 16) (infos : ThreadInfos Unit),
      numThreads ≠ 0 →
      roundedThreads numThreads.toNat eal.portNum.toNat < 2 ^ 16 →
      initDpdk eal numThreads.toNat = .ok infos →
      RegistersAll infos numThreads () := by
  intro registered
  have all := registered (workingEal 2) 1
    [some (threadInfoAt 1 0), some (threadInfoAt 1 1)] (by decide) (by decide)
    rfl
  have whole := (registersAll_iff
    (by
      intro entry member
      simp only [List.mem_cons, List.not_mem_nil, or_false] at member
      rcases member with rfl | rfl
      · exact ⟨_, rfl, rfl⟩
      · exact ⟨_, rfl, rfl⟩)
    1 (by decide) ()).mp all
  exact absurd whole (by decide)

end PacketFilter.Contracts
