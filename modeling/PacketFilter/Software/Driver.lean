import PacketFilter.Foundation.FailingState
import PacketFilter.Software.UpdateRule

/-! # The driver, statement by statement

Every register write takes effect when its statement is executed, and a failure
ends the program at the statement that fails.
-/

namespace PacketFilter.Software

open CText

/-- The object, with what has been written through it so far. -/
structure Mmio where
  baseAddr : BitVec 32
  writes : List RegisterWrite
  deriving DecidableEq

def Mmio.written (mmio : Mmio) (writes : List RegisterWrite) : Mmio :=
  { mmio with writes := mmio.writes ++ writes }

@[simp] theorem Mmio.baseAddr_written (mmio : Mmio)
    (writes : List RegisterWrite) :
    (mmio.written writes).baseAddr = mmio.baseAddr := rfl

@[simp] theorem Mmio.written_nil (mmio : Mmio) : mmio.written [] = mmio := by
  simp [Mmio.written]

@[simp] theorem Mmio.written_written (mmio : Mmio)
    (first second : List RegisterWrite) :
    (mmio.written first).written second = mmio.written (first ++ second) := by
  simp [Mmio.written]

abbrev Driver := ExceptT UpdateFailure (StateM Mmio)

namespace Driver

variable {Result Next : Type}

def execute (program : Driver Result) (mmio : Mmio) :
    Except UpdateFailure Result × Mmio :=
  program.run.run mmio

/-! ## The program -/

def logAssert (condition : Prop) [Decidable condition]
    (message : List Char) : Driver Unit :=
  if condition then pure () else throw (.fatal message)

/-- `std::stoi`, whose exceptions are caught nowhere. -/
def stoi (text : List Char) : Driver Int :=
  match CText.stoi text with
  | .ok value => pure value
  | .error error => throw (.exception error)

def mmioRegWrite (offset value : BitVec 32) : Driver Unit := do
  let mmio ← get
  logAssert (mmio.baseAddr ≠ 0) "Base address is not set".toList
  set (mmio.written [⟨mmio.baseAddr + offset, value⟩])

def write (type : Integral) (offset : BitVec 32) (value : BitVec type.bits) :
    Driver Unit :=
  if type.bits ≤ 32 then mmioRegWrite offset (type.toUint32 value)
  else do
    mmioRegWrite offset (value.setWidth 32)
    mmioRegWrite (offset + 4) ((value >>> 32).setWidth 32)

def writeRule (ip : BitVec 32) (port : BitVec 16) (action : RuleAction) :
    Driver Unit := do
  write .uint32 ipv4AddrReg ip
  write .uint16 udpPortReg port
  write .uint8 ruleActionReg (action.value.setWidth 8)

def updateRule (netAddr : List Char) (action : RuleAction) : Driver Unit :=
  match netAddr.idxOf? ':' with
  | none => throw (.fatal ("Invalid net_addr format: ".toList ++ cStr netAddr))
  | some colonPos => do
      let ipStr := netAddr.take colonPos
      let portStr := netAddr.drop (colonPos + 1)
      let ip := inetAddr ipStr
      logAssert (ip ≠ inaddrNone) ("Invalid IP address: ".toList ++ cStr ipStr)
      let number ← stoi portStr
      let port := htons (BitVec.ofInt 16 number)
      logAssert (port ≠ 0) ("Invalid port: ".toList ++ cStr portStr)
      writeRule ip port action

def packetFilter (filterList : List (List Char)) : Driver Unit := do
  modify fun mmio => { mmio with baseAddr := baseAddr }
  forM filterList fun filter => updateRule filter .forward

/-! ## What running it does -/

@[simp] theorem execute_pure (result : Result) (mmio : Mmio) :
    execute (pure result) mmio = (.ok result, mmio) := rfl

@[simp] theorem execute_throw (failure : UpdateFailure) (mmio : Mmio) :
    execute (throw failure : Driver Result) mmio = (.error failure, mmio) := rfl

theorem execute_bind_ok {program : Driver Result} {mmio after : Mmio}
    {result : Result} (ran : execute program mmio = (.ok result, after))
    (next : Result → Driver Next) :
    execute (program >>= next) mmio = execute (next result) after :=
  FailingState.execute_bind_ok ran next

theorem execute_bind_error {program : Driver Result} {mmio after : Mmio}
    {failure : UpdateFailure}
    (failed : execute program mmio = (.error failure, after))
    (next : Result → Driver Next) :
    execute (program >>= next) mmio = (.error failure, after) :=
  FailingState.execute_bind_error failed next

section Assertion

variable {condition : Prop} [Decidable condition]

theorem execute_logAssert_true (holds : condition) (message : List Char)
    (mmio : Mmio) : execute (logAssert condition message) mmio = (.ok (), mmio) := by
  simp [logAssert, holds]

theorem execute_logAssert_false (fails : ¬ condition) (message : List Char)
    (mmio : Mmio) :
    execute (logAssert condition message) mmio =
      (.error (.fatal message), mmio) := by
  simp [logAssert, fails]

end Assertion

section Ready

variable {mmio : Mmio} (ready : mmio.baseAddr = baseAddr)
include ready

theorem execute_mmioRegWrite (offset value : BitVec 32) :
    execute (mmioRegWrite offset value) mmio =
      (.ok (), mmio.written [Software.mmioRegWrite offset value]) := by
  have isSet : mmio.baseAddr ≠ 0 := ready ▸ baseAddr_ne_zero
  have reads : execute get mmio = (.ok mmio, mmio) := rfl
  rw [mmioRegWrite, execute_bind_ok reads,
    execute_bind_ok (execute_logAssert_true isSet _ mmio), ready]
  rfl

theorem execute_write (type : Integral) (offset : BitVec 32)
    (value : BitVec type.bits) :
    execute (write type offset value) mmio =
      (.ok (), mmio.written (Software.write type offset value)) := by
  rw [write, Software.write]
  split
  · exact execute_mmioRegWrite ready offset _
  · rw [execute_bind_ok (execute_mmioRegWrite ready offset _),
      execute_mmioRegWrite (by exact ready), Mmio.written_written]
    rfl

theorem execute_writeRule (ip : BitVec 32) (port : BitVec 16)
    (action : RuleAction) :
    execute (writeRule ip port action) mmio =
      (.ok (), mmio.written (ruleWrites ip port action)) := by
  rw [writeRule, execute_bind_ok (execute_write ready .uint32 ipv4AddrReg ip),
    execute_bind_ok (execute_write (by exact ready) .uint16 udpPortReg port)]
  refine (execute_write (by exact ready) .uint8 ruleActionReg _).trans ?_
  rw [Mmio.written_written, Mmio.written_written]
  rfl

/-- An update either writes its whole rule or fails without a write. -/
theorem execute_updateRule (netAddr : List Char) (action : RuleAction) :
    execute (updateRule netAddr action) mmio =
      match Software.updateRule netAddr action with
      | .ok writes => (.ok (), mmio.written writes)
      | .error failure => (.error failure, mmio) := by
  rw [updateRule, Software.updateRule, parseNetAddr]
  cases netAddr.idxOf? ':' with
  | none => rfl
  | some colonPos =>
      dsimp only
      by_cases invalid : inetAddr (netAddr.take colonPos) = inaddrNone
      · rw [if_pos invalid, execute_bind_error
          (execute_logAssert_false (not_not.mpr invalid) _ mmio)]
      · rw [if_neg invalid,
          execute_bind_ok (execute_logAssert_true invalid _ mmio), stoi]
        cases CText.stoi (netAddr.drop (colonPos + 1)) with
        | error error => rfl
        | ok number =>
            dsimp only
            rw [execute_bind_ok (execute_pure number mmio)]
            by_cases zero : htons (BitVec.ofInt 16 number) = 0
            · rw [if_pos zero, execute_bind_error
                (execute_logAssert_false (not_not.mpr zero) _ mmio)]
            · rw [if_neg zero,
                execute_bind_ok (execute_logAssert_true zero _ mmio),
                execute_writeRule ready]

end Ready

theorem execute_rules (filterList : List (List Char)) {mmio : Mmio}
    (ready : mmio.baseAddr = baseAddr) :
    execute (forM filterList fun filter => updateRule filter .forward) mmio =
      ((Software.packetFilter filterList).2.elim (.ok ()) .error,
        mmio.written (Software.packetFilter filterList).1) := by
  induction filterList generalizing mmio with
  | nil => simp [Software.packetFilter]
  | cons filter rest induction =>
      have first := execute_updateRule ready filter .forward
      rw [List.forM_cons, Software.packetFilter]
      cases updated : Software.updateRule filter .forward with
      | error failure =>
          rw [updated] at first
          rw [execute_bind_error first]
          simp
      | ok writes =>
          rw [updated] at first
          rw [execute_bind_ok first, induction (by exact ready),
            Mmio.written_written]

theorem execute_packetFilter (filterList : List (List Char)) (mmio : Mmio) :
    execute (packetFilter filterList) mmio =
      ((Software.packetFilter filterList).2.elim (.ok ()) .error,
        ⟨baseAddr, mmio.writes ++ (Software.packetFilter filterList).1⟩) := by
  have sets : execute (modify fun mmio => { mmio with baseAddr := baseAddr })
      mmio = (.ok (), { mmio with baseAddr := baseAddr }) := rfl
  rw [packetFilter, execute_bind_ok sets, execute_rules filterList rfl]
  rfl

end Driver

end PacketFilter.Software
