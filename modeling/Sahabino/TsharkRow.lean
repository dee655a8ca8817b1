import Sahabino.Lib.PyText
import Sahabino.NetworkMetrics

/-!
# Rows of TShark

`_packet` of `network/analyzer.py`: the packet record of a row of TShark's
output, cell by cell. A cell is read as an integer, a float, a flag, a
direction or a text, and each reader has its own idea of which texts mean
the same.
-/

namespace Sahabino

open Rel (Double)

/-! ## Cells -/

/-- The columns that `_packet` reads; `ip.version` is requested but not read. -/
inductive FieldName where
  | frameTimeEpoch
  | frameLen
  | frameCapLen
  | framePacketFlagsDirection
  | frameProtocols
  | ipLen
  | ipSrc
  | ipDst
  | ipFlagsMf
  | ipFragOffset
  | ipDsfieldEcn
  | ipv6Plen
  | ipv6Src
  | ipv6Dst
  | ipv6Tclass
  | ipv6FraghdrOffset
  | tcpSrcport
  | tcpDstport
  | tcpStream
  | tcpLen
  | tcpFlagsSyn
  | tcpFlagsAck
  | tcpFlagsReset
  | tcpWindowSizeValue
  | tcpAnalysisInitialRtt
  | tcpAnalysisAckRtt
  | tcpAnalysisRetransmission
  | tcpAnalysisFastRetransmission
  | tcpAnalysisSpuriousRetransmission
  | tcpAnalysisZeroWindow
  | tcpAnalysisWindowFull
  | tcpAnalysisOutOfOrder
  | tcpAnalysisDuplicateAck
  | tcpAnalysisLostSegment
  | udpSrcport
  | udpDstport
  | udpLength
  | quicVersion
  | quicLongPacketType
  | quicSpinBit
  | dnsFlagsResponse
  | dnsFlagsRcode
  | dnsTime
  | icmpType
  | icmpv6Type
deriving DecidableEq, Repr

/-- `row.get(name)`. -/
abbrev Row := FieldName → Option String

def stripped (s : String) : String := String.ofList (Py.strip s.toList)

/-- `_integer`. -/
def integer (value : Option String) : Option ℤ :=
  value.bind fun s =>
    if Py.strip s.toList = [] then none
    else
      let first := Py.strip (Py.beforeComma s.toList)
      Py.intLiteral first <|> Py.intDecimal first

/-- `_float`. -/
def floatCell (value : Option String) : Option Double :=
  value.bind fun s =>
    if Py.strip s.toList = [] then none else Py.float (Py.beforeComma s.toList)

/-- `_flag`. -/
def flag (value : Option String) : Bool :=
  value.any fun s => lower (stripped s) ∉ ["", "0", "false", "no"]

/-- `_direction`. -/
def direction (value : Option String) : Option PacketDirection :=
  let normalized := lower (stripped (value.getD ""))
  if normalized ∈ ["2", "outbound", "sent"] then some .tx
  else if normalized ∈ ["1", "inbound", "received"] then some .rx
  else none

/-- `_first`. -/
def first (value : Option String) : Option String :=
  value.bind fun s =>
    let text := Py.strip (Py.beforeComma s.toList)
    if text = [] then none else some (String.ofList text)

/-! ## Packets -/

/-- `ip_version`, `network_bytes` before the floor, the addresses and `ecn_value`. -/
structure IpHeader where
  ipVersion : Option ℤ
  networkBytes : ℤ
  srcIp : Option String
  dstIp : Option String
  ecnValue : Option ℤ

/-- `transport`, the ports and `payload_bytes`. -/
structure TransportHeader where
  transport : Transport
  srcPort : Option ℤ
  dstPort : Option ℤ
  payloadBytes : ℤ

def icmpv4ErrorTypes : List ℤ := [3, 4, 5, 11, 12]

namespace Row

variable (row : Row)

def ipHeader : IpHeader :=
  match integer (row .ipLen), integer (row .ipv6Plen) with
  | some ipv4Len, _ =>
      ⟨some 4, ipv4Len, first (row .ipSrc), first (row .ipDst), integer (row .ipDsfieldEcn)⟩
  | none, some ipv6PayloadLen =>
      -- `ecn_raw & 0x3`; the remainder is that of two's complement
      ⟨some 6, ipv6PayloadLen + 40, first (row .ipv6Src), first (row .ipv6Dst),
        (integer (row .ipv6Tclass)).map (· % 4)⟩
  | none, none => ⟨none, 0, none, none, none⟩

def transportHeader : TransportHeader :=
  match integer (row .tcpSrcport), integer (row .tcpDstport), integer (row .udpSrcport),
    integer (row .udpDstport) with
  | some tcpSrc, some tcpDst, _, _ =>
      ⟨.tcp, some tcpSrc, some tcpDst, (integer (row .tcpLen)).getD 0⟩
  | _, _, some udpSrc, some udpDst =>
      ⟨.udp, some udpSrc, some udpDst, max 0 ((integer (row .udpLength)).getD 0 - 8)⟩
  | _, _, _, _ => ⟨.other, none, none, 0⟩

def isQuic : Bool :=
  ((lower ((row .frameProtocols).getD "")).toList.splitOn ':').contains "quic".toList
    || (first (row .quicVersion)).isSome || (first (row .quicLongPacketType)).isSome
    || (first (row .quicSpinBit)).isSome

/-- The signs of a fragment besides the flag. -/
def hasFragmentOffset : Bool :=
  0 < (integer (row .ipFragOffset)).getD 0 || (first (row .ipv6FraghdrOffset)).isSome

/-- The record of a row whose time and lengths were read. -/
def record (timestamp : Double) (frameLen capturedLen : ℤ) : PacketRecord Double where
  timestamp := timestamp
  frameLen := frameLen
  capturedLen := capturedLen
  direction := direction (row .framePacketFlagsDirection)
  ipVersion := row.ipHeader.ipVersion
  networkBytes := max 0 row.ipHeader.networkBytes
  srcIp := row.ipHeader.srcIp
  dstIp := row.ipHeader.dstIp
  srcPort := row.transportHeader.srcPort
  dstPort := row.transportHeader.dstPort
  transport := row.transportHeader.transport
  l4PayloadBytes := max 0 row.transportHeader.payloadBytes
  tcpStream := integer (row .tcpStream)
  ipFragment := flag (row .ipFlagsMf) || row.hasFragmentOffset
  ecnCe := row.ipHeader.ecnValue = some 3
  icmpError := (integer (row .icmpType)).any (· ∈ icmpv4ErrorTypes)
    || (integer (row .icmpv6Type)).any (· < 128)
  tcpSyn := flag (row .tcpFlagsSyn)
  tcpAck := flag (row .tcpFlagsAck)
  tcpRst := flag (row .tcpFlagsReset)
  tcpWindowSize := integer (row .tcpWindowSizeValue)
  tcpInitialRttSeconds := floatCell (row .tcpAnalysisInitialRtt)
  tcpAckRttSeconds := floatCell (row .tcpAnalysisAckRtt)
  tcpRetransmission := flag (row .tcpAnalysisRetransmission)
  tcpFastRetransmission := flag (row .tcpAnalysisFastRetransmission)
  tcpSpuriousRetransmission := flag (row .tcpAnalysisSpuriousRetransmission)
  tcpZeroWindow := flag (row .tcpAnalysisZeroWindow)
  tcpWindowFull := flag (row .tcpAnalysisWindowFull)
  tcpOutOfOrder := flag (row .tcpAnalysisOutOfOrder)
  tcpDuplicateAck := flag (row .tcpAnalysisDuplicateAck)
  tcpLostSegment := flag (row .tcpAnalysisLostSegment)
  quic := row.isQuic
  quicVersion := first (row .quicVersion)
  quicPacketType := first (row .quicLongPacketType)
  quicSpinBit := integer (row .quicSpinBit)
  dnsIsResponse := (integer (row .dnsFlagsResponse)).map (· ≠ 0)
  dnsResponseCode := integer (row .dnsFlagsRcode)
  dnsTimeSeconds := floatCell (row .dnsTime)

/-- `_packet`. -/
def packet : Option (PacketRecord Double) :=
  match floatCell (row .frameTimeEpoch), integer (row .frameLen), integer (row .frameCapLen) with
  | some timestamp, some frameLen, some capturedLen =>
      some (row.record timestamp frameLen capturedLen)
  | _, _, _ => none

/-- The time and the lengths can be read; otherwise the row has no packet. -/
def readable : Bool :=
  (floatCell (row .frameTimeEpoch)).isSome && (integer (row .frameLen)).isSome
    && (integer (row .frameCapLen)).isSome

variable {row}

theorem record_of_packet {p : PacketRecord Double} (h : row.packet = some p) :
    row.readable = true ∧ ∃ timestamp frameLen capturedLen,
      p = row.record timestamp frameLen capturedLen := by
  unfold packet at h
  split at h
  · rename_i htime hlen hcap
    refine ⟨?_, _, _, _, (Option.some.inj h).symm⟩
    rw [readable, htime, hlen, hcap]
    rfl
  · cases h

theorem packet_of_readable (h : row.readable = true) : ∃ timestamp frameLen capturedLen,
    row.packet = some (row.record timestamp frameLen capturedLen) := by
  simp only [readable, Bool.and_eq_true, Option.isSome_iff_exists] at h
  obtain ⟨⟨⟨t, htime⟩, ⟨n, hlen⟩⟩, ⟨m, hcap⟩⟩ := h
  exact ⟨t, n, m, by rw [packet, htime, hlen, hcap]⟩

end Row

end Sahabino
