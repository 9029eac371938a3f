import PacketFilter.Contracts.LoggedAddresses

/-! # Messages of the packet handler

The handler logs five lines of a packet that it accepts. Every byte that it has
read of the packet can be told from them.
-/

namespace PacketFilter.Contracts

open ByteLanes CText Software

/-! ## Bytes as text -/

theorem digitChar_ne_comma {digit : Nat} (small : digit < 16) :
    digit.digitChar ≠ ',' := by
  have all : ∀ digit : Fin 16, digit.val.digitChar ≠ ',' := by decide
  exact all ⟨digit, small⟩

theorem digitChar_inj {digit digit' : Nat} (small : digit < 16)
    (small' : digit' < 16) (same : digit.digitChar = digit'.digitChar) :
    digit = digit' := by
  have all : ∀ first second : Fin 16,
      first.val.digitChar = second.val.digitChar → first = second := by decide
  exact congrArg Fin.val (all ⟨digit, small⟩ ⟨digit', small'⟩ same)

theorem hexByte_inj {byte byte' : BitVec 8} (same : hexByte byte = hexByte byte') :
    byte = byte' := by
  have small := byte.isLt
  have small' := byte'.isLt
  rw [hexByte, hexByte, List.cons.injEq, List.cons.injEq] at same
  have high := digitChar_inj (by omega) (by omega) same.1
  have low := digitChar_inj (by omega) (by omega) same.2.1
  exact BitVec.eq_of_toNat_eq (by omega)

theorem comma_notMem_hexByte (byte : BitVec 8) : ',' ∉ hexByte byte := by
  have small := byte.isLt
  rw [hexByte, List.mem_cons, List.mem_singleton]
  rintro (high | low)
  · exact digitChar_ne_comma (by omega) high.symm
  · exact digitChar_ne_comma (by omega) low.symm

theorem convertBinToStr_inj {data data' : List (BitVec 8)}
    (length : data.length = data'.length)
    (same : convertBinToStr data = convertBinToStr data') : data = data' := by
  induction data generalizing data' with
  | nil => exact (List.eq_nil_of_length_eq_zero length.symm).symm
  | cons byte rest induction =>
      rcases data' with _ | ⟨byte', rest'⟩
      · cases length
      · have split := List.append_inj (same : hexByte byte ++ convertBinToStr rest =
          hexByte byte' ++ convertBinToStr rest') rfl
        rw [hexByte_inj split.1,
          induction (Nat.succ.inj length) split.2]

theorem convertMacToStr_cons_cons (byte next : BitVec 8)
    (rest : List (BitVec 8)) :
    convertMacToStr (byte :: next :: rest) =
      hexByte byte ++ ':' :: convertMacToStr (next :: rest) := by
  simp [convertMacToStr, List.intercalate]

theorem convertMacToStr_inj {mac mac' : List (BitVec 8)}
    (length : mac.length = mac'.length)
    (same : convertMacToStr mac = convertMacToStr mac') : mac = mac' := by
  induction mac generalizing mac' with
  | nil => exact (List.eq_nil_of_length_eq_zero length.symm).symm
  | cons byte rest induction =>
      rcases mac' with _ | ⟨byte', rest'⟩
      · cases length
      · have lengths := Nat.succ.inj length
        rcases rest with _ | ⟨next, more⟩
        · rw [List.eq_nil_of_length_eq_zero lengths.symm] at same ⊢
          have bytes : hexByte byte = hexByte byte' := by
            simpa [convertMacToStr, List.intercalate] using same
          rw [hexByte_inj bytes]
        · rcases rest' with _ | ⟨next', more'⟩
          · cases lengths
          · rw [convertMacToStr_cons_cons, convertMacToStr_cons_cons] at same
            have split := List.append_inj same rfl
            rw [hexByte_inj split.1,
              induction lengths (List.cons.inj split.2).2]

theorem comma_notMem_convertMacToStr (mac : List (BitVec 8)) :
    ',' ∉ convertMacToStr mac := by
  induction mac with
  | nil => exact List.not_mem_nil
  | cons byte rest induction =>
      rcases rest with _ | ⟨next, more⟩
      · have alone : convertMacToStr [byte] = hexByte byte := by
          simp [convertMacToStr, List.intercalate]
        rw [alone]
        exact comma_notMem_hexByte byte
      · rw [convertMacToStr_cons_cons, List.mem_append, List.mem_cons]
        rintro (first | colon | later)
        · exact comma_notMem_hexByte byte first
        · exact absurd colon (by decide)
        · exact induction later

theorem dottedQuad_inj {a b c d a' b' c' d' : BitVec 8}
    (same : dottedQuad a b c d = dottedQuad a' b' c' d') :
    a = a' ∧ b = b' ∧ c = c' ∧ d = d' := by
  have addresses := congrArg inetAddr same
  rw [inetAddr_dottedQuad, inetAddr_dottedQuad, append_inj, append_inj,
    append_inj] at addresses
  rcases addresses with ⟨⟨⟨rfl, rfl⟩, rfl⟩, rfl⟩
  exact ⟨rfl, rfl, rfl, rfl⟩

theorem comma_notMem_dottedQuad (a b c d : BitVec 8) : ',' ∉ dottedQuad a b c d :=
  fun member => absurd (of_mem_dottedQuad member) (by decide)

theorem decimal_inj {value value' : Nat} (same : decimal value = decimal value') :
    value = value' := by
  have values := congrArg (fun digits => Nat.ofDigitChars 10 digits 0) same
  simp only [decimal, Nat.ofDigitChars_ten_toDigits] at values
  exact values

theorem decimal_toNat_inj {width : Nat} {value value' : BitVec width}
    (same : decimal value.toNat = decimal value'.toNat) : value = value' :=
  BitVec.eq_of_toNat_eq (decimal_inj same)

/-! ## Reading the lines -/

structure Plain (report : Report) : Prop where
  etherSrc : ',' ∉ report.etherSrc
  etherDst : ',' ∉ report.etherDst
  ipv4Src : ',' ∉ report.ipv4Src
  ipv4Dst : ',' ∉ report.ipv4Dst

theorem comma_notMem_decimal (value : Nat) : ',' ∉ decimal value :=
  notMem_decimal (by decide) value

theorem Plain.readable {report : Report} (plain : Plain report) :
    ∀ line ∈ report.lines, Messages.Readable line := by
  have dst : ", dst=".toList = ',' :: " dst=".toList := by decide
  have etherType : ", ether_type=".toList = ',' :: " ether_type=".toList := by
    decide
  have totalLength : ", total_length=".toList =
      ',' :: " total_length=".toList := by decide
  have nextProtoId : ", next_proto_id=".toList =
      ',' :: " next_proto_id=".toList := by decide
  have dstPort : ", dst_port=".toList = ',' :: " dst_port=".toList := by decide
  have dgramLen : ", dgram_len=".toList = ',' :: " dgram_len=".toList := by
    decide
  have bytes : " bytes): ".toList = ' ' :: "bytes): ".toList := by decide
  have blank : ' ' ∉ decimal report.payloadLen.toNat :=
    notMem_decimal (by decide) _
  rw [Report.lines]
  simp only [List.forall_mem_cons, and_true, Messages.Readable,
    List.isChain_cons_cons, List.IsChain.singleton]
  exact ⟨trivial, ⟨⟨_, _, dst, plain.etherSrc⟩, ⟨_, _, etherType, plain.etherDst⟩⟩,
    ⟨⟨_, _, dst, plain.ipv4Src⟩, ⟨_, _, totalLength, plain.ipv4Dst⟩,
      ⟨_, _, nextProtoId, comma_notMem_decimal _⟩⟩,
    ⟨⟨_, _, dstPort, comma_notMem_decimal _⟩,
      ⟨_, _, dgramLen, comma_notMem_decimal _⟩⟩,
    ⟨_, _, bytes, blank⟩, List.forall_mem_nil _⟩

theorem lines_of_messages {report report' : Report} (plain : Plain report)
    (plain' : Plain report') (same : report.messages = report'.messages) :
    report.lines = report'.lines :=
  Messages.messages_inj plain.readable plain'.readable rfl same

/-! ## What a report says -/

def fieldBytes (mbuf : Mbuf) (field : Nat × Nat) : List (BitVec 8) :=
  (List.range field.2).map fun index => mbuf.memory (field.1 + index)

theorem memory_eq_of_fieldBytes {mbuf mbuf' : Mbuf} {field : Nat × Nat}
    (same : fieldBytes mbuf field = fieldBytes mbuf' field) {byte : Nat}
    (above : field.1 ≤ byte) (below : byte < field.1 + field.2) :
    mbuf.memory byte = mbuf'.memory byte := by
  have inside : byte - field.1 ∈ List.range field.2 :=
    List.mem_range.mpr (by omega)
  have cell := List.map_inj_left.mp same (byte - field.1) inside
  rwa [Nat.add_sub_cancel' above] at cell

/-- What the texts and numbers of a report are, in terms of the packet. -/
structure Reports (threadId : BitVec 16) (mbuf : Mbuf) (report : Report) :
    Prop where
  threadId : report.threadId = threadId
  etherSrc : report.etherSrc = convertMacToStr (fieldBytes mbuf (6, 6))
  etherDst : report.etherDst = convertMacToStr (fieldBytes mbuf (0, 6))
  ipv4Src : report.ipv4Src = dottedQuad (mbuf.memory 29) (mbuf.memory 28)
    (mbuf.memory 27) (mbuf.memory 26)
  ipv4Dst : report.ipv4Dst = dottedQuad (mbuf.memory 33) (mbuf.memory 32)
    (mbuf.memory 31) (mbuf.memory 30)
  totalLength : report.totalLength = mbuf.memory 16 ++ mbuf.memory 17
  srcPort : report.srcPort = mbuf.memory 34 ++ mbuf.memory 35
  dstPort : report.dstPort = mbuf.memory 36 ++ mbuf.memory 37
  dgramLen : report.dgramLen = mbuf.memory 38 ++ mbuf.memory 39
  payloadLen : report.payloadLen = mbuf.payloadLen
  payload : report.payload =
    convertBinToStr (fieldBytes mbuf (42, mbuf.payloadLen.toNat))

theorem reports_of_handled {threadId : BitVec 16} {mbuf : Mbuf}
    {report : Report} (received : handled threadId mbuf = .received report) :
    Reports threadId mbuf report := by
  have addresses := reportPacket_addresses threadId mbuf 0 14 34 42
    mbuf.payloadLen ([12, 13, 23] ++ [38] ++ [39])
  rw [handled_of_reportable threadId (reportable_of_handled received)]
    at received
  rcases Outcome.received.inj received with rfl
  refine ⟨?_, ?_, ?_, addresses.1, addresses.2, ?_, ?_, ?_, ?_, ?_, ?_⟩
  all_goals
    rw [reportPacket]
    simp only [Mbuf.run_readBytes, Mbuf.run_readBe32, Mbuf.run_readBe16,
      Mbuf.run_readByte, StateT.run_pure]
    rfl

theorem Reports.plain {threadId : BitVec 16} {mbuf : Mbuf} {report : Report}
    (reports : Reports threadId mbuf report) : Plain report := by
  refine ⟨?_, ?_, ?_, ?_⟩
  · rw [reports.etherSrc]
    exact comma_notMem_convertMacToStr _
  · rw [reports.etherDst]
    exact comma_notMem_convertMacToStr _
  · rw [reports.ipv4Src]
    exact comma_notMem_dottedQuad _ _ _ _
  · rw [reports.ipv4Dst]
    exact comma_notMem_dottedQuad _ _ _ _

/-! ## The packet behind the lines -/

theorem bytesRead_of_handled {threadId : BitVec 16} {mbuf : Mbuf}
    {report : Report} (received : handled threadId mbuf = .received report) :
    bytesRead threadId mbuf = [12, 13, 23, 38, 39] ++
      fieldOffsets (reportFields 0 14 34 42 mbuf.payloadLen.toNat) := by
  rcases reportable_of_handled received with ⟨ipv4, udp, fits⟩
  have reads := reportPacket_reads threadId mbuf 0 14 34 42 mbuf.payloadLen
    ([12, 13, 23] ++ [38] ++ [39])
  rw [bytesRead, run_of_udp threadId ipv4 udp, handleUdp_run,
    if_neg (not_lt.mpr fits)]
  exact reads

theorem mem_fieldOffsets_of_tested {byte : Nat} (length : Nat)
    (tested : byte ∈ [12, 13, 23, 38, 39]) :
    byte ∈ fieldOffsets (reportFields 0 14 34 42 length) := by
  rw [mem_fieldOffsets]
  simp only [List.mem_cons, List.not_mem_nil, or_false] at tested
  rcases tested with rfl | rfl | rfl | rfl | rfl
  · exact ⟨(12, 2), by simp [reportFields], by decide⟩
  · exact ⟨(12, 2), by simp [reportFields], by decide⟩
  · exact ⟨(23, 1), by simp [reportFields], by decide⟩
  · exact ⟨(38, 2), by simp [reportFields], by decide⟩
  · exact ⟨(38, 2), by simp [reportFields], by decide⟩

theorem fieldBytes_two (mbuf : Mbuf) (offset : Nat) :
    fieldBytes mbuf (offset, 2) = [mbuf.memory offset, mbuf.memory (offset + 1)] :=
  rfl

section Same

variable {threadId threadId' : BitVec 16} {mbuf mbuf' : Mbuf}
  {report report' : Report}

theorem fieldBytes_of_append {offset : Nat}
    (same : mbuf.memory offset ++ mbuf.memory (offset + 1) =
      mbuf'.memory offset ++ mbuf'.memory (offset + 1)) :
    fieldBytes mbuf (offset, 2) = fieldBytes mbuf' (offset, 2) := by
  rw [append_inj] at same
  rw [fieldBytes_two, fieldBytes_two, same.1, same.2]

theorem fieldBytes_of_dottedQuad {offset : Nat}
    (same : dottedQuad (mbuf.memory (offset + 3)) (mbuf.memory (offset + 2))
        (mbuf.memory (offset + 1)) (mbuf.memory offset) =
      dottedQuad (mbuf'.memory (offset + 3)) (mbuf'.memory (offset + 2))
        (mbuf'.memory (offset + 1)) (mbuf'.memory offset)) :
    fieldBytes mbuf (offset, 4) = fieldBytes mbuf' (offset, 4) := by
  rcases dottedQuad_inj same with ⟨fourth, third, second, first⟩
  have bytes : ∀ packet : Mbuf, fieldBytes packet (offset, 4) =
      [packet.memory offset, packet.memory (offset + 1),
        packet.memory (offset + 2), packet.memory (offset + 3)] :=
    fun _ => rfl
  rw [bytes, bytes, first, second, third, fourth]

theorem length_fieldBytes (mbuf : Mbuf) (field : Nat × Nat) :
    (fieldBytes mbuf field).length = field.2 := by
  rw [fieldBytes, List.length_map, List.length_range]

theorem fieldBytes_of_lines (received : handled threadId mbuf = .received report)
    (received' : handled threadId' mbuf' = .received report')
    (same : report.lines = report'.lines) :
    mbuf.payloadLen = mbuf'.payloadLen ∧
      ∀ field ∈ reportFields 0 14 34 42 mbuf.payloadLen.toNat,
        fieldBytes mbuf field = fieldBytes mbuf' field := by
  have reports := reports_of_handled received
  have reports' := reports_of_handled received'
  have packet := reportable_of_handled received
  have packet' := reportable_of_handled received'
  simp only [Report.lines, List.cons.injEq, Messages.Field.mk.injEq, true_and,
    and_true] at same
  rcases same with ⟨_, ⟨etherSrc, etherDst, _⟩,
    ⟨ipv4Src, ipv4Dst, totalLength, _⟩, ⟨srcPort, dstPort, dgramLen⟩,
    payloadLen, payload⟩
  have length : mbuf.payloadLen = mbuf'.payloadLen := by
    rw [← reports.payloadLen, ← reports'.payloadLen]
    exact decimal_toNat_inj payloadLen
  refine ⟨length, ?_⟩
  rw [reports.etherSrc, reports'.etherSrc] at etherSrc
  rw [reports.etherDst, reports'.etherDst] at etherDst
  rw [reports.ipv4Src, reports'.ipv4Src] at ipv4Src
  rw [reports.ipv4Dst, reports'.ipv4Dst] at ipv4Dst
  rw [reports.totalLength, reports'.totalLength] at totalLength
  rw [reports.srcPort, reports'.srcPort] at srcPort
  rw [reports.dstPort, reports'.dstPort] at dstPort
  rw [reports.dgramLen, reports'.dgramLen] at dgramLen
  rw [reports.payload, reports'.payload, ← length] at payload
  have protocol : mbuf.memory 23 = mbuf'.memory 23 :=
    packet.2.1.trans packet'.2.1.symm
  have protocolBytes : fieldBytes mbuf (23, 1) = fieldBytes mbuf' (23, 1) :=
    congrArg (fun byte => [byte]) protocol
  simp only [reportFields, List.forall_mem_cons]
  exact ⟨convertMacToStr_inj rfl etherSrc, convertMacToStr_inj rfl etherDst,
    fieldBytes_of_append (packet.1.trans packet'.1.symm),
    fieldBytes_of_dottedQuad ipv4Src, fieldBytes_of_dottedQuad ipv4Dst,
    fieldBytes_of_append (decimal_toNat_inj totalLength), protocolBytes,
    fieldBytes_of_append (decimal_toNat_inj srcPort),
    fieldBytes_of_append (decimal_toNat_inj dstPort),
    fieldBytes_of_append (decimal_toNat_inj dgramLen),
    convertBinToStr_inj
      ((length_fieldBytes _ _).trans (length_fieldBytes _ _).symm) payload,
    List.forall_mem_nil _⟩

/-- The handler logs the same lines for two packets only if it runs on the same
thread and reads the same bytes, with the same contents. -/
theorem bytes_of_messages (received : handled threadId mbuf = .received report)
    (received' : handled threadId' mbuf' = .received report')
    (same : report.messages = report'.messages) :
    threadId = threadId' ∧ bytesRead threadId mbuf = bytesRead threadId' mbuf' ∧
      ∀ byte ∈ bytesRead threadId mbuf, mbuf.memory byte = mbuf'.memory byte := by
  have reports := reports_of_handled received
  have reports' := reports_of_handled received'
  have lines := lines_of_messages reports.plain reports'.plain same
  have threads : threadId = threadId' := by
    simp only [Report.lines, List.cons.injEq, Messages.Field.mk.injEq, true_and,
      and_true] at lines
    rw [← reports.threadId, ← reports'.threadId]
    exact decimal_toNat_inj lines.1
  rcases fieldBytes_of_lines received received' lines with ⟨length, fields⟩
  refine ⟨threads, ?_, ?_⟩
  · rw [bytesRead_of_handled received, bytesRead_of_handled received', length]
  · intro byte member
    rw [bytesRead_of_handled received] at member
    have reported : byte ∈ fieldOffsets
        (reportFields 0 14 34 42 mbuf.payloadLen.toNat) := by
      rcases List.mem_append.mp member with tested | reported
      · exact mem_fieldOffsets_of_tested _ tested
      · exact reported
    rcases mem_fieldOffsets.mp reported with ⟨field, inReport, above, below⟩
    exact memory_eq_of_fieldBytes (fields field inReport) above below

end Same

def paddedDatagram : Mbuf where
  pktLen := 64
  data := 0x8000
  memory byte := if byte = 60 then 1 else plainDatagram.memory byte
  inMemory := by decide

theorem bytes_of_messages_sample :
    (0 : BitVec 16) = 0 ∧ bytesRead 0 plainDatagram = bytesRead 0 paddedDatagram ∧
      ∀ byte ∈ bytesRead 0 plainDatagram,
        plainDatagram.memory byte = paddedDatagram.memory byte :=
  bytes_of_messages
    (handled_of_reportable 0 ⟨by decide, by decide, by decide⟩)
    (handled_of_reportable 0 ⟨by decide, by decide, by decide⟩)
    (congrArg Report.messages (by decide))

end PacketFilter.Contracts
