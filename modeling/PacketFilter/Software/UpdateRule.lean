import PacketFilter.Foundation.CText
import PacketFilter.Software.Mmio

/-! # Rule updates

What `PacketFilter::update_rule` and the constructor of `PacketFilter` write to
the device, and how they fail.
-/

namespace PacketFilter.Software

open CText

inductive RuleAction where
  | drop
  | forward
  deriving DecidableEq

def RuleAction.value : RuleAction → BitVec 32
  | .drop => 0
  | .forward => 1

def updateMessage (netAddr : List Char) (action : RuleAction) : List Char :=
  "Updating rule: ".toList ++ cStr netAddr ++ " -> ".toList ++
    (if action = .drop then "DROP" else "FORWARD").toList

/-- How an update ends without writing: with a fatal log message, or with an
exception that nothing catches. -/
inductive UpdateFailure where
  | fatal (message : List Char)
  | exception (error : ConversionError)
  deriving DecidableEq

/-- The part of `update_rule` that takes `net_addr` apart. The address and the
port are in network byte order. -/
def parseNetAddr (netAddr : List Char) :
    Except UpdateFailure (BitVec 32 × BitVec 16) :=
  match netAddr.idxOf? ':' with
  | none =>
      .error (.fatal ("Invalid net_addr format: ".toList ++ cStr netAddr))
  | some colonPos =>
      let ipStr := netAddr.take colonPos
      let portStr := netAddr.drop (colonPos + 1)
      let ip := inetAddr ipStr
      if ip = inaddrNone then
        .error (.fatal ("Invalid IP address: ".toList ++ cStr ipStr))
      else
        match stoi portStr with
        | .error error => .error (.exception error)
        | .ok number =>
            let port := htons (BitVec.ofInt 16 number)
            if port = 0 then
              .error (.fatal ("Invalid port: ".toList ++ cStr portStr))
            else .ok (ip, port)

def ruleWrites (ip : BitVec 32) (port : BitVec 16) (action : RuleAction) :
    List RegisterWrite :=
  write .uint32 ipv4AddrReg ip ++ write .uint16 udpPortReg port ++
    write .uint8 ruleActionReg (action.value.setWidth 8)

def updateRule (netAddr : List Char) (action : RuleAction) :
    Except UpdateFailure (List RegisterWrite) :=
  match parseNetAddr netAddr with
  | .error failure => .error failure
  | .ok (ip, port) => .ok (ruleWrites ip port action)

def packetFilter : List (List Char) → List RegisterWrite × Option UpdateFailure
  | [] => ([], none)
  | filter :: rest =>
      match updateRule filter .forward with
      | .error failure => ([], some failure)
      | .ok writes =>
          let (later, failure) := packetFilter rest
          (writes ++ later, failure)

/-! ## Accepted addresses -/

/-- A text that `update_rule` accepts, with the address it stands for. -/
structure ValidAddress where
  netAddr : List Char
  ip : BitVec 32
  port : BitVec 16
  accepted : parseNetAddr netAddr = .ok (ip, port)

namespace ValidAddress

def writes (address : ValidAddress) (action : RuleAction) :
    List RegisterWrite :=
  ruleWrites address.ip address.port action

theorem updateRule_netAddr (address : ValidAddress) (action : RuleAction) :
    updateRule address.netAddr action = .ok (address.writes action) := by
  rw [updateRule, address.accepted]
  rfl

theorem packetFilter_netAddrs (filters : List ValidAddress) :
    packetFilter (filters.map netAddr) =
      (filters.flatMap fun filter => filter.writes .forward, none) := by
  induction filters with
  | nil => rfl
  | cons filter rest induction =>
      rw [List.map_cons, packetFilter, filter.updateRule_netAddr, induction]
      rfl

end ValidAddress

theorem ruleWrites_eq (ip : BitVec 32) (port : BitVec 16)
    (action : RuleAction) :
    ruleWrites ip port action =
      [mmioRegWrite ipv4AddrReg ip,
        mmioRegWrite udpPortReg (port.setWidth 32),
        mmioRegWrite ruleActionReg ((action.value.setWidth 8).setWidth 32)] := by
  have whole : Integral.uint32.toUint32 ip = ip := BitVec.setWidth_eq ip
  change [mmioRegWrite ipv4AddrReg (Integral.uint32.toUint32 ip), _, _] = _
  rw [whole]
  rfl

theorem idxOf?_separator {separator : Char} {before : List Char}
    (absent : separator ∉ before) (after : List Char) :
    (before ++ separator :: after).idxOf? separator = some before.length := by
  induction before with
  | nil => simp [List.idxOf?_cons]
  | cons head tail induction =>
      have different : head ≠ separator :=
        fun equal => absent (equal ▸ List.mem_cons_self)
      have absentTail : separator ∉ tail :=
        fun member => absent (List.mem_cons_of_mem head member)
      rw [List.cons_append, List.idxOf?_cons, induction absentTail]
      simp [different]

theorem parseNetAddr_dottedQuad (a b c d : BitVec 8) {port : Nat}
    (positive : 0 < port) (inRange : port < 2 ^ 16)
    (notNone : d ++ c ++ b ++ a ≠ inaddrNone) :
    parseNetAddr (dottedQuad a b c d ++ ':' :: decimal port) =
      .ok (d ++ c ++ b ++ a, htons (BitVec.ofNat 16 port)) := by
  have absent : ':' ∉ dottedQuad a b c d :=
    fun member => absurd (of_mem_dottedQuad member) (by decide)
  have isIp : (dottedQuad a b c d ++ ':' :: decimal port).take
      (dottedQuad a b c d).length = dottedQuad a b c d :=
    List.take_left
  have isPort : (dottedQuad a b c d ++ ':' :: decimal port).drop
      ((dottedQuad a b c d).length + 1) = decimal port := by
    rw [← List.drop_drop, List.drop_left]
    rfl
  have nonzero : htons (BitVec.ofNat 16 port) ≠ 0 := by
    rw [Ne, htons_eq_zero_iff, BitVec.toNat_eq, BitVec.toNat_ofNat,
      Nat.mod_eq_of_lt inRange]
    exact positive.ne'
  rw [parseNetAddr, idxOf?_separator absent]
  simp only [isIp, isPort, inetAddr_dottedQuad, if_neg notNone,
    stoi_decimal (inRange.trans (by decide)), BitVec.ofInt_natCast,
    if_neg nonzero]

end PacketFilter.Software
