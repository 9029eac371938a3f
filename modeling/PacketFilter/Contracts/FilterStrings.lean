import PacketFilter.Foundation.Numerals
import PacketFilter.Platform.SharedRegisters
import PacketFilter.Software.Driver

/-! # Filter strings

Which texts `update_rule` accepts as `<ip>:<port>`, which port it opens for
them, and what a list of filters leaves in the registers when one is rejected.
-/

namespace PacketFilter.Contracts

open CText Software

def addressText (netAddr : List Char) : List Char :=
  netAddr.takeWhile (· != ':')

def portText (netAddr : List Char) : List Char :=
  (netAddr.dropWhile (· != ':')).tail

section Split

variable {before after : List Char} (absent : ':' ∉ before)
include absent

theorem addressText_split : addressText (before ++ ':' :: after) = before := by
  apply takeWhile_append_stop
  · intro char member
    simpa using ne_of_mem_of_not_mem member absent
  · simp

theorem portText_split : portText (before ++ ':' :: after) = after := by
  rw [portText, dropWhile_append_stop]
  · rfl
  · intro char member
    simpa using ne_of_mem_of_not_mem member absent
  · simp

theorem parseNetAddr_split :
    parseNetAddr (before ++ ':' :: after) =
      if inetAddr before = inaddrNone then
        .error (.fatal ("Invalid IP address: ".toList ++ cStr before))
      else
        match stoi after with
        | .error error => .error (.exception error)
        | .ok number =>
            if htons (BitVec.ofInt 16 number) = 0 then
              .error (.fatal ("Invalid port: ".toList ++ cStr after))
            else .ok (inetAddr before, htons (BitVec.ofInt 16 number)) := by
  have isBefore : (before ++ ':' :: after).take before.length = before :=
    List.take_left
  have isAfter : (before ++ ':' :: after).drop (before.length + 1) = after := by
    rw [← List.drop_drop, List.drop_left]
    rfl
  have parsed := parseNetAddr.eq_def (before ++ ':' :: after)
  rw [idxOf?_separator absent] at parsed
  simp only [isBefore, isAfter] at parsed
  exact parsed

end Split

theorem parseNetAddr_unsplit {netAddr : List Char} (absent : ':' ∉ netAddr) :
    parseNetAddr netAddr =
      .error (.fatal ("Invalid net_addr format: ".toList ++ cStr netAddr)) := by
  rw [parseNetAddr, List.idxOf?_eq_none_iff.mpr absent]

/-! ## Rejected texts -/

inductive Rejected : List Char → UpdateFailure → Prop
  | noColon {netAddr} (absent : ':' ∉ netAddr) :
      Rejected netAddr
        (.fatal ("Invalid net_addr format: ".toList ++ cStr netAddr))
  | badAddress {before after} (absent : ':' ∉ before)
      (invalid : inetAddr before = inaddrNone) :
      Rejected (before ++ ':' :: after)
        (.fatal ("Invalid IP address: ".toList ++ cStr before))
  | badNumber {before after error} (absent : ':' ∉ before)
      (valid : inetAddr before ≠ inaddrNone)
      (throws : stoi after = .error error) :
      Rejected (before ++ ':' :: after) (.exception error)
  | zeroPort {before after number} (absent : ':' ∉ before)
      (valid : inetAddr before ≠ inaddrNone)
      (reads : stoi after = .ok number)
      (zero : htons (BitVec.ofInt 16 number) = 0) :
      Rejected (before ++ ':' :: after)
        (.fatal ("Invalid port: ".toList ++ cStr after))

theorem Rejected.parseNetAddr_eq {netAddr : List Char} {failure : UpdateFailure}
    (rejected : Rejected netAddr failure) :
    parseNetAddr netAddr = .error failure := by
  cases rejected with
  | noColon absent => exact parseNetAddr_unsplit absent
  | badAddress absent invalid =>
      rw [parseNetAddr_split absent, if_pos invalid]
  | badNumber absent valid throws =>
      rw [parseNetAddr_split absent, if_neg valid, throws]
  | zeroPort absent valid reads zero =>
      rw [parseNetAddr_split absent, if_neg valid, reads]
      exact if_pos zero

theorem rejected_or_accepted (netAddr : List Char) :
    (∃ failure, Rejected netAddr failure) ∨
      ∃ before after number, ':' ∉ before ∧
        netAddr = before ++ ':' :: after ∧ inetAddr before ≠ inaddrNone ∧
        stoi after = .ok number ∧ htons (BitVec.ofInt 16 number) ≠ 0 := by
  by_cases colon : ':' ∈ netAddr
  · rcases List.eq_append_cons_of_mem colon with ⟨before, after, rfl, absent⟩
    by_cases invalid : inetAddr before = inaddrNone
    · exact .inl ⟨_, .badAddress absent invalid⟩
    · cases reads : stoi after with
      | error error => exact .inl ⟨_, .badNumber absent invalid reads⟩
      | ok number =>
          by_cases zero : htons (BitVec.ofInt 16 number) = 0
          · exact .inl ⟨_, .zeroPort absent invalid reads zero⟩
          · exact .inr ⟨before, after, number, absent, rfl, invalid, reads, zero⟩
  · exact .inl ⟨_, .noColon colon⟩

/-! ## Lists of filters -/

def forwardWrites (filter : ValidAddress) : List RegisterWrite :=
  [mmioRegWrite ipv4AddrReg filter.ip,
    mmioRegWrite udpPortReg (filter.port.setWidth 32),
    mmioRegWrite ruleActionReg 1]

theorem writes_forward (filter : ValidAddress) :
    filter.writes .forward = forwardWrites filter := by
  rw [ValidAddress.writes, ruleWrites_eq]
  rfl

/-- How the constructor ends when it has written all entries in front of
`rest`. -/
inductive Stops : List (List Char) → Except UpdateFailure Unit → Prop
  | complete : Stops [] (.ok ())
  | rejected {first later failure} (rejected : Rejected first failure) :
      Stops (first :: later) (.error failure)

/-- The constructor gets through a prefix of accepted filters and stops at the
first one that is rejected. -/
theorem packetFilter_split (filterList : List (List Char)) :
    ∃ (accepted : List ValidAddress) (rest : List (List Char)),
      filterList = accepted.map ValidAddress.netAddr ++ rest ∧
      (packetFilter filterList).1 = accepted.flatMap forwardWrites ∧
      Stops rest ((packetFilter filterList).2.elim (.ok ()) .error) := by
  induction filterList with
  | nil => exact ⟨[], [], rfl, rfl, .complete⟩
  | cons filter later induction =>
      rcases rejected_or_accepted filter with ⟨failure, rejected⟩ | accepted
      · refine ⟨[], filter :: later, rfl, ?_, ?_⟩
        · simp [packetFilter, updateRule, rejected.parseNetAddr_eq]
        · simp only [packetFilter, updateRule, rejected.parseNetAddr_eq]
          exact .rejected rejected
      · rcases accepted with
          ⟨before, after, number, absent, isFilter, valid, reads, nonzero⟩
        have parsed : parseNetAddr filter =
            .ok (inetAddr before, htons (BitVec.ofInt 16 number)) := by
          rw [isFilter, parseNetAddr_split absent, if_neg valid, reads]
          exact if_neg nonzero
        let first : ValidAddress := ⟨filter, _, _, parsed⟩
        rcases induction with ⟨others, rest, isLater, written, stops⟩
        refine ⟨first :: others, rest, ?_, ?_, ?_⟩
        · rw [isLater]
          rfl
        · rw [packetFilter, first.updateRule_netAddr]
          simp [written, writes_forward]
        · rw [packetFilter, first.updateRule_netAddr]
          exact stops

theorem foldl_forwardWrites (registers : Hardware.Config)
    (accepted : List ValidAddress) :
    (accepted.flatMap forwardWrites).foldl Hardware.Config.writeRegister
        registers =
      (accepted.getLast?.map fun last => Platform.rule last .forward).getD
        registers := by
  rcases List.eq_nil_or_concat accepted with rfl | ⟨front, last, rfl⟩
  · rfl
  · simp [← writes_forward, Platform.foldl_writes]

/-- The constructor writes exactly the rules of the longest prefix of accepted
filters, whole and in order, and nothing for the entry that stops it. -/
theorem constructor_writes (filterList : List (List Char)) (mmio : Mmio)
    (registers : Hardware.Config) :
    ∃ (accepted : List ValidAddress) (rest : List (List Char))
      (outcome : Except UpdateFailure Unit),
      filterList = accepted.map ValidAddress.netAddr ++ rest ∧
      (Driver.packetFilter filterList).execute mmio =
        (outcome, ⟨baseAddr, mmio.writes ++ accepted.flatMap forwardWrites⟩) ∧
      Stops rest outcome ∧
      (accepted.flatMap forwardWrites).foldl Hardware.Config.writeRegister
          registers =
        (accepted.getLast?.map fun last => Platform.rule last .forward).getD
          registers := by
  rcases packetFilter_split filterList with
    ⟨accepted, rest, isList, written, stops⟩
  refine ⟨accepted, rest, _, isList, ?_, stops, ?_⟩
  · rw [Driver.execute_packetFilter, written]
  · exact foldl_forwardWrites registers accepted

/-! ## Ports -/

/-- The text behind the first colon is the numeral of a port and `update_rule`
writes that port, or it fails without a write. -/
def PortNamed (netAddr : List Char) : Prop :=
  ∀ (action : RuleAction) (mmio : Mmio), mmio.baseAddr = baseAddr →
    (∃ (ip : BitVec 32) (port : Nat), 1 ≤ port ∧ port ≤ 65535 ∧
        portText netAddr = decimal port ∧
        (Driver.updateRule netAddr action).execute mmio =
          (.ok (), mmio.written
            (ruleWrites ip (htons (BitVec.ofNat 16 port)) action))) ∨
      ∃ failure, (Driver.updateRule netAddr action).execute mmio =
        (.error failure, mmio)

/-- Behind a valid address, every text that begins with a number of which a
port is left is that number's numeral, without anything before or after it,
and the number is below `2 ^ 16`. -/
def PlainPort (netAddr : List Char) : Prop :=
  inetAddr (addressText netAddr) ≠ inaddrNone →
    ∀ numeral : Numeral (portText netAddr),
      numeral.Fits → ¬ 2 ^ 16 ∣ numeral.value →
        numeral.Plain ∧ numeral.value < 2 ^ 16

theorem htons_ofInt_eq_zero_iff (value : Int) :
    htons (BitVec.ofInt 16 value) = 0 ↔ 2 ^ 16 ∣ value := by
  rw [htons_eq_zero_iff, BitVec.toNat_eq, BitVec.toNat_ofInt]
  simp
  omega

section Execution

variable {netAddr : List Char} {mmio : Mmio} (ready : mmio.baseAddr = baseAddr)
  (action : RuleAction)
include ready

theorem execute_of_rejected {failure : UpdateFailure}
    (rejected : Rejected netAddr failure) :
    (Driver.updateRule netAddr action).execute mmio = (.error failure, mmio) := by
  rw [Driver.execute_updateRule ready, updateRule, rejected.parseNetAddr_eq]

theorem execute_of_parsed {ip : BitVec 32} {port : BitVec 16}
    (parsed : parseNetAddr netAddr = .ok (ip, port)) :
    (Driver.updateRule netAddr action).execute mmio =
      (.ok (), mmio.written (ruleWrites ip port action)) := by
  rw [Driver.execute_updateRule ready, updateRule, parsed]

end Execution

/-- A text with a number that leaves a port is accepted, however the number is
written. -/
theorem parsed_of_reads {netAddr : List Char} {number : Int}
    (valid : inetAddr (addressText netAddr) ≠ inaddrNone)
    (reads : stoi (portText netAddr) = .ok number)
    (indivisible : ¬ 2 ^ 16 ∣ number) :
    parseNetAddr netAddr = .ok (inetAddr (addressText netAddr),
      htons (BitVec.ofInt 16 number)) := by
  by_cases colon : ':' ∈ netAddr
  · rcases List.eq_append_cons_of_mem colon with ⟨before, after, rfl, absent⟩
    rw [addressText_split absent] at valid ⊢
    rw [portText_split absent] at reads
    rw [parseNetAddr_split absent, if_neg valid, reads]
    exact if_neg ((htons_ofInt_eq_zero_iff number).not.mpr indivisible)
  · have all : ∀ char ∈ netAddr, (char != ':') = true := by
      intro char member
      simpa using ne_of_mem_of_not_mem member colon
    have empty : portText netAddr = [] := by
      rw [portText, List.dropWhile_eq_nil_iff.mpr all, List.tail_nil]
    rw [empty] at reads
    cases reads

theorem plainPort_of_named {netAddr : List Char} (named : PortNamed netAddr) :
    PlainPort netAddr := by
  intro valid numeral fits indivisible
  have ready : (⟨baseAddr, []⟩ : Mmio).baseAddr = baseAddr := rfl
  have executed := execute_of_parsed ready .forward
    (parsed_of_reads valid (stoi_eq_ok_iff.mpr ⟨numeral, fits, rfl⟩)
      indivisible)
  rcases named .forward _ ready with
    ⟨ip, port, positive, bounded, isPort, -⟩ | ⟨failure, failed⟩
  · clear executed
    generalize portText netAddr = text at isPort numeral
    subst isPort
    have plain := numeral.plain_of_decimal positive
    exact ⟨plain.1, by omega⟩
  · rw [executed] at failed
    cases failed

theorem exists_port_of_plain {text : List Char} {numeral : Numeral text}
    (plain : numeral.Plain) (small : numeral.value < 2 ^ 16)
    (indivisible : ¬ 2 ^ 16 ∣ numeral.value) :
    ∃ port : Nat, 1 ≤ port ∧ port ≤ 65535 ∧ text = decimal port ∧
      BitVec.ofInt 16 numeral.value = BitVec.ofNat 16 port := by
  rcases numeral.eq_decimal plain with ⟨port, isValue, isText⟩
  have positive : port ≠ 0 := by
    intro isZero
    exact indivisible (by simp [isValue, isZero])
  refine ⟨port, by omega, by omega, isText, ?_⟩
  rw [isValue, BitVec.ofInt_natCast]

theorem portNamed_of_plain {netAddr : List Char}
    (plainPort : PlainPort netAddr) : PortNamed netAddr := by
  intro action mmio ready
  rcases rejected_or_accepted netAddr with ⟨failure, rejected⟩ | accepted
  · exact .inr ⟨failure, execute_of_rejected ready action rejected⟩
  · rcases accepted with
      ⟨before, after, number, absent, rfl, valid, reads, nonzero⟩
    have isAfter : portText (before ++ ':' :: after) = after :=
      portText_split absent
    rcases stoi_eq_ok_iff.mp reads with ⟨numeral, fits, rfl⟩
    rw [PlainPort, addressText_split absent, isAfter] at plainPort
    have indivisible := (htons_ofInt_eq_zero_iff _).not.mp nonzero
    rcases plainPort valid numeral fits indivisible with ⟨plain, small⟩
    rcases exists_port_of_plain plain small indivisible with
      ⟨port, positive, bounded, isText, isPort⟩
    refine .inl ⟨inetAddr before, port, positive, bounded, ?_, ?_⟩
    · rw [isAfter, isText]
    · apply execute_of_parsed ready action
      rw [parseNetAddr_split absent, if_neg valid, reads, ← isPort]
      exact if_neg nonzero

/-- `update_rule` keeps to the port that the text names exactly when its port
text is plain. -/
theorem port_named_iff (netAddr : List Char) :
    PortNamed netAddr ↔ PlainPort netAddr := by
  constructor
  · exact plainPort_of_named
  · exact portNamed_of_plain

/-- `192.168.2.1:74036` opens port 8500. -/
theorem not_port_named : ¬ ∀ netAddr, PortNamed netAddr := by
  intro named
  have ready : (⟨baseAddr, []⟩ : Mmio).baseAddr = baseAddr := rfl
  have parsed : parseNetAddr "192.168.2.1:74036".toList =
      .ok (0x0102A8C0, 0x3421) := by decide +kernel
  have isText : portText "192.168.2.1:74036".toList = decimal 74036 := by
    decide +kernel
  rcases named "192.168.2.1:74036".toList .forward _ ready with
    ⟨ip, port, -, bounded, isPort, -⟩ | ⟨failure, failed⟩
  · have value : Nat.ofDigitChars 10 (decimal port) 0 = port :=
      Nat.ofDigitChars_ten_toDigits
    rw [← isPort, isText] at value
    have number : Nat.ofDigitChars 10 (decimal 74036) 0 = 74036 :=
      Nat.ofDigitChars_ten_toDigits
    omega
  · rw [execute_of_parsed ready .forward parsed] at failed
    cases failed

end PacketFilter.Contracts
