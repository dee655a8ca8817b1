import Sahabino.Lib.Csv
import Sahabino.Lib.Prog
import Sahabino.Lib.PyLines
import Sahabino.Lib.Substring
import Sahabino.TsharkRow

/-!
# The TShark engine

`TSharkEngine` of `network/analyzer.py`: TShark prints a line of quoted
cells for each packet, and `read_packets` reads them through `csv.reader`
while a timer may kill the process between any two of its steps. A result
is complete, however the timer runs; and what TShark prints for some rows
comes back as the packets of these rows.
-/

namespace Sahabino

namespace Tshark

open Rel (Double)
open Conc (Prog Proto Runs)

/-! ## Commands -/

structure CompletedProcess where
  returncode : ℤ
  stdout : String
  stderr : String

inductive EngineRaise where
  | runtimeError (message : String)
  /-- `TerminalAnalysisError` -/
  | terminal (code message : String)
  /-- `csv.Error` -/
  | csv (e : Csv.CsvError)
  | fileNotFound
  | timeoutExpired
  /-- not an exception: more lines than the reading is followed for -/
  | stillReading
deriving DecidableEq

inductive EngineCommand where
  /-- `subprocess.run` of the executable -/
  | metadata (arguments : List String)
  | popen (arguments : List String)
  /-- the next line of its output; `none` at the end -/
  | nextLine
  | wait
  | kill
  /-- `timed_out.is_set()` -/
  | timedOut
  | stderrText

def EngineReply : EngineCommand → Type
  | .metadata _ => CompletedProcess
  | .popen _ => Unit
  | .nextLine => Option String
  | .wait => ℤ
  | .kill => Unit
  | .timedOut => Bool
  | .stderrText => String

abbrev EngineProg (α : Type) := Prog EngineCommand EngineReply EngineRaise α

def metadata (arguments : List String) : EngineProg CompletedProcess :=
  Prog.cmd (EngineCommand.metadata arguments)

def popen (arguments : List String) : EngineProg Unit := Prog.cmd (EngineCommand.popen arguments)

def nextLine : EngineProg (Option String) := Prog.cmd EngineCommand.nextLine

def waitProcess : EngineProg ℤ := Prog.cmd EngineCommand.wait

def killProcess : EngineProg Unit := Prog.cmd EngineCommand.kill

def timedOut : EngineProg Bool := Prog.cmd EngineCommand.timedOut

def stderrText : EngineProg String := Prog.cmd EngineCommand.stderrText

/-! ## Fields -/

def FIELD_NAMES : List String :=
  ["frame.time_epoch", "frame.len", "frame.cap_len", "frame.packet_flags_direction",
    "frame.protocols", "ip.version", "ip.len", "ip.src", "ip.dst", "ip.flags.mf", "ip.frag_offset",
    "ip.dsfield.ecn", "ipv6.plen", "ipv6.src", "ipv6.dst", "ipv6.tclass", "ipv6.fraghdr.offset",
    "tcp.srcport", "tcp.dstport", "tcp.stream", "tcp.len", "tcp.flags.syn", "tcp.flags.ack",
    "tcp.flags.reset", "tcp.window_size_value", "tcp.analysis.initial_rtt", "tcp.analysis.ack_rtt",
    "tcp.analysis.retransmission", "tcp.analysis.fast_retransmission",
    "tcp.analysis.spurious_retransmission", "tcp.analysis.zero_window", "tcp.analysis.window_full",
    "tcp.analysis.out_of_order", "tcp.analysis.duplicate_ack", "tcp.analysis.lost_segment",
    "udp.srcport", "udp.dstport", "udp.length", "quic.version", "quic.long.packet_type",
    "quic.spin_bit", "dns.flags.response", "dns.flags.rcode", "dns.time", "icmp.type",
    "icmpv6.type"]

/-- `sorted(REQUIRED_FIELDS)` -/
def REQUIRED_FIELDS : List String :=
  ["frame.cap_len", "frame.len", "frame.protocols", "frame.time_epoch", "ip.len", "ipv6.plen",
    "tcp.len", "udp.length"]

/-- The name of a column of `_packet`. -/
def fieldText : FieldName → String
  | .frameTimeEpoch => "frame.time_epoch"
  | .frameLen => "frame.len"
  | .frameCapLen => "frame.cap_len"
  | .framePacketFlagsDirection => "frame.packet_flags_direction"
  | .frameProtocols => "frame.protocols"
  | .ipLen => "ip.len"
  | .ipSrc => "ip.src"
  | .ipDst => "ip.dst"
  | .ipFlagsMf => "ip.flags.mf"
  | .ipFragOffset => "ip.frag_offset"
  | .ipDsfieldEcn => "ip.dsfield.ecn"
  | .ipv6Plen => "ipv6.plen"
  | .ipv6Src => "ipv6.src"
  | .ipv6Dst => "ipv6.dst"
  | .ipv6Tclass => "ipv6.tclass"
  | .ipv6FraghdrOffset => "ipv6.fraghdr.offset"
  | .tcpSrcport => "tcp.srcport"
  | .tcpDstport => "tcp.dstport"
  | .tcpStream => "tcp.stream"
  | .tcpLen => "tcp.len"
  | .tcpFlagsSyn => "tcp.flags.syn"
  | .tcpFlagsAck => "tcp.flags.ack"
  | .tcpFlagsReset => "tcp.flags.reset"
  | .tcpWindowSizeValue => "tcp.window_size_value"
  | .tcpAnalysisInitialRtt => "tcp.analysis.initial_rtt"
  | .tcpAnalysisAckRtt => "tcp.analysis.ack_rtt"
  | .tcpAnalysisRetransmission => "tcp.analysis.retransmission"
  | .tcpAnalysisFastRetransmission => "tcp.analysis.fast_retransmission"
  | .tcpAnalysisSpuriousRetransmission => "tcp.analysis.spurious_retransmission"
  | .tcpAnalysisZeroWindow => "tcp.analysis.zero_window"
  | .tcpAnalysisWindowFull => "tcp.analysis.window_full"
  | .tcpAnalysisOutOfOrder => "tcp.analysis.out_of_order"
  | .tcpAnalysisDuplicateAck => "tcp.analysis.duplicate_ack"
  | .tcpAnalysisLostSegment => "tcp.analysis.lost_segment"
  | .udpSrcport => "udp.srcport"
  | .udpDstport => "udp.dstport"
  | .udpLength => "udp.length"
  | .quicVersion => "quic.version"
  | .quicLongPacketType => "quic.long.packet_type"
  | .quicSpinBit => "quic.spin_bit"
  | .dnsFlagsResponse => "dns.flags.response"
  | .dnsFlagsRcode => "dns.flags.rcode"
  | .dnsTime => "dns.time"
  | .icmpType => "icmp.type"
  | .icmpv6Type => "icmpv6.type"

/-- `dict(zip(selected_fields, padded))`, as `_packet` reads it. -/
def rowOf (selected values : List String) : Row := fun field =>
  let padded := values ++ List.replicate (selected.length - values.length) ""
  (selected.zip padded).lookup (fieldText field)

/-! ## The engine -/

structure TSharkEngine where
  executable : String
  maxParsedRecords : Nat
  max_pos : 0 < maxParsedRecords
  /-- `_version`, once it has been asked for -/
  version : Option String
  /-- `_supported_fields` -/
  supportedFields : Option (List String)

structure TsharkOutput where
  version : String
  supportedFields : List String
  packets : List (PacketRecord Double)

/-- `_run_metadata` -/
def runMetadata (arguments : List String) (description : String) : EngineProg CompletedProcess := do
  let result ← (metadata arguments).tryCatch fun
    | .fileNotFound => .raise (.runtimeError "TShark executable was not found")
    | .timeoutExpired => .raise (.runtimeError (description ++ " command timed out"))
    | e => .raise e
  if result.returncode ≠ 0 then .raise (.runtimeError (description ++ " command failed"))
  else pure result

/-- The first line of what `--version` printed. -/
def firstLine (stdout : String) : String :=
  if stdout = "" then "" else stripped ((Py.textLines stdout).headD "")

/-- `version` -/
def askVersion (engine : TSharkEngine) : EngineProg (String × TSharkEngine) :=
  match engine.version with
  | some version => pure (version, engine)
  | none => do
      let result ← runMetadata [engine.executable, "--version"] "TShark version"
      let line := firstLine result.stdout
      if line = "" then .raise (.runtimeError "TShark returned an unknown version")
      else pure (line, { engine with version := some line })

/-- The fields of what `-G fields` printed. -/
def parseFields (stdout : String) : List String :=
  (Py.textLines stdout).filterMap fun line =>
    match line.toList.splitOn '\t' with
    | kind :: _ :: name :: _ => if kind = ['F'] then some (String.ofList name) else none
    | _ => none

/-- `supported_fields` -/
def askFields (engine : TSharkEngine) : EngineProg (List String × TSharkEngine) :=
  match engine.supportedFields with
  | some supported => pure (supported, engine)
  | none => do
      let result ← runMetadata [engine.executable, "-G", "fields"] "TShark fields"
      let supported := parseFields result.stdout
      let missing := REQUIRED_FIELDS.filter fun name => name ∉ supported
      if missing ≠ [] then
        .raise (.runtimeError ("TShark is missing required fields: " ++ ", ".intercalate missing))
      else pure (supported, { engine with supportedFields := some supported })

/-- `csv.reader(…, delimiter="\t", quotechar='"')` -/
def dialect : Csv.Dialect := ⟨'\t', '"', 131072⟩

def resourceLimit : EngineRaise :=
  .terminal "capture_resource_limit" "Capture exceeds the configured parsed-record limit"

/-- The body of the loop over the rows. -/
def keepRow (limit : Nat) (selected values : List String) (packets : List (PacketRecord Double)) :
    EngineProg (List (PacketRecord Double)) :=
  match (rowOf selected values).packet with
  | none => pure packets
  | some packet =>
      if limit ≤ packets.length then do
        killProcess
        let _ ← waitProcess
        .raise resourceLimit
      else pure (packets ++ [packet])

/-- The rows that a line completes: at most one. -/
def keepRows (limit : Nat) (selected : List String) (found : Option (List String))
    (packets : List (PacketRecord Double)) : EngineProg (List (PacketRecord Double)) :=
  match found with
  | none => pure packets
  | some values => keepRow limit selected values packets

/-- `for values in reader: …`, for as many lines. -/
def readRows (limit : Nat) (selected : List String) :
    Nat → Csv.Reader → List (PacketRecord Double) → EngineProg (List (PacketRecord Double))
  | 0, _, _ => .raise .stillReading
  | n + 1, reader, packets => do
      match ← nextLine with
      | none => keepRows limit selected reader.finish packets
      | some line =>
          match reader.takeLine dialect line with
          | .error e => .raise (.csv e)
          | .ok (found, reader') => do
              let packets' ← keepRows limit selected found packets
              readRows limit selected n reader' packets'

def contains (text s : String) : Bool := (Py.find text.toList s.toList).isSome

/-- The error for a return code that is not zero. -/
def parseFailure (stderr : String) : EngineRaise :=
  let detail := lower ((Py.textLines (stripped stderr)).getLastD "")
  if contains "not a capture file" detail || contains "appears to have been cut short" detail then
    .terminal "invalid_capture" "TShark could not parse the capture"
  else .terminal "tshark_parse_failure" "TShark could not parse the capture"

/-- `command` -/
def readCommand (executable capturePath : String) (selected : List String) : List String :=
  [executable, "-n", "-r", capturePath, "-T", "fields", "-E", "separator=/t", "-E", "quote=d", "-E",
    "occurrence=f"] ++ selected.flatMap fun name => ["-e", name]

def selectFields (supported : List String) : List String :=
  FIELD_NAMES.filter fun name => name ∈ supported

/-- `read_packets` -/
def readPackets (engine : TSharkEngine) (capturePath : String) (lines : Nat) :
    EngineProg (TsharkOutput × TSharkEngine) := do
  let (version, engine) ← askVersion engine
  let (supported, engine) ← askFields engine
  let selected := selectFields supported
  (popen (readCommand engine.executable capturePath selected)).tryCatch fun
    | .fileNotFound => .raise (.runtimeError "TShark executable was not found")
    | e => .raise e
  let packets ← readRows engine.maxParsedRecords selected lines .fresh []
  let returnCode ← waitProcess
  let stderr ← stderrText
  if ← timedOut then
    .raise (.terminal "tshark_timeout" "TShark analysis timed out")
  else if returnCode ≠ 0 then .raise (parseFailure stderr)
  else pure (⟨version, supported, packets⟩, engine)

/-! ## TShark, and the timer -/

/-- A run of TShark on a capture: all that it would print and its exit code; and what is left to be
read, whether it has been killed before its end, and whether the timer has run. -/
structure TsharkRun where
  output : List String
  code : ℤ
  left : List String
  killed : Bool
  timedOut : Bool

/-- What the environment decides before a command: the answers that do not come from the run, and
whether the timer runs now - which kills a process that has not ended yet, and leaves of its
output what has been printed so far. -/
structure EngineChoice where
  metadata : Except EngineRaise CompletedProcess
  launch : Except EngineRaise Unit
  stderr : String
  fires : Bool
  kills : Bool
  cut : List String

/-- `terminate_on_timeout` -/
def TsharkRun.timer (s : TsharkRun) (e : EngineChoice) : TsharkRun :=
  if e.fires then
    if e.kills then { s with timedOut := true, killed := true, left := e.cut }
    else { s with timedOut := true }
  else s

/-- A killed process has a negative return code. -/
def engineExec : Conc.Exec TsharkRun EngineCommand EngineChoice EngineRaise EngineReply :=
  fun _ e c s =>
    let s := s.timer e
    match c with
    | .metadata _ => some (e.metadata, s)
    | .popen _ => some (e.launch, s)
    | .nextLine => some (.ok s.left.head?, { s with left := s.left.tail })
    | .wait => some (.ok (if s.killed then (-9 : ℤ) else s.code), s)
    | .kill => some (.ok (), { s with killed := true, left := [] })
    | .timedOut => some (.ok s.timedOut, s)
    | .stderrText => some (.ok e.stderr, s)

/-- Nothing read yet. -/
def TsharkRun.start (output : List String) (code : ℤ) : TsharkRun :=
    ⟨output, code, output, false, false⟩

/-! ## A result is complete -/

/-- The packets of some records. -/
def packetsOf (selected : List String) (rows : List (List String)) : List (PacketRecord Double) :=
  rows.filterMap fun values => (rowOf selected values).packet

section

variable {allow : EngineCommand → EngineChoice → TsharkRun → Prop} {limit : Nat}
  {selected : List String} {s : TsharkRun}

theorem timer_idle {e : EngineChoice} (h : (s.timer e).timedOut = false) : s.timer e = s := by
  unfold TsharkRun.timer at h ⊢
  split
  · rename_i hfires
    rw [if_pos hfires] at h
    split at h
    · cases h
    · cases h
  · rfl

theorem timer_code {e : EngineChoice} : (s.timer e).code = s.code := by
  unfold TsharkRun.timer
  split
  · split
    · rfl
    · rfl
  · rfl

theorem packetsOf_append {rows rows' : List (List String)} :
    packetsOf selected (rows ++ rows') = packetsOf selected rows ++ packetsOf selected rows' :=
  List.filterMap_append

/-- A row is kept or there is no room for it. -/
theorem keepRow_wp {values : List String} {packets : List (PacketRecord Double)}
    {Q : List (PacketRecord Double) → TsharkRun → Prop} {X : EngineRaise → TsharkRun → Prop}
    (hkeep : (packets ++ packetsOf selected [values]).length ≤ limit →
      Q (packets ++ packetsOf selected [values]) s)
    (hfull : limit < (packets ++ packetsOf selected [values]).length → ∀ t, X resourceLimit t)
    (hpackets : packets.length ≤ limit) :
    (Proto.alone allow).wp engineExec 0 (keepRow limit selected values packets) Q X s := by
  unfold keepRow
  cases hpacket : (rowOf selected values).packet with
  | none =>
      have hnone : packetsOf selected [values] = [] := by simp [packetsOf, hpacket]
      rw [hnone, List.append_nil] at hkeep
      exact hkeep hpackets
  | some packet =>
      have hsome : packetsOf selected [values] = [packet] := by simp [packetsOf, hpacket]
      rw [hsome] at hkeep hfull
      rw [List.length_append, List.length_singleton] at hkeep hfull
      dsimp only
      split
      · have hover := hfull (by omega)
        refine Proto.wp_seq (Proto.wp_alone fun e v t _ hv => ?_)
        obtain ⟨rfl, rfl⟩ := Prod.mk.inj (Option.some.inj hv)
        refine ⟨fun _ _ => Proto.wp_seq (Proto.wp_alone fun e' v' t' _ hv' => ?_),
          fun _ h => by cases h⟩
        obtain ⟨rfl, rfl⟩ := Prod.mk.inj (Option.some.inj hv')
        exact ⟨fun _ _ => hover _, fun _ h => by cases h⟩
      · exact hkeep (by omega)

theorem keepRows_wp {found : Option (List String)} {packets : List (PacketRecord Double)}
    {Q : List (PacketRecord Double) → TsharkRun → Prop} {X : EngineRaise → TsharkRun → Prop}
    (hkeep : (packets ++ packetsOf selected found.toList).length ≤ limit →
      Q (packets ++ packetsOf selected found.toList) s)
    (hfull : limit < (packets ++ packetsOf selected found.toList).length → ∀ t, X resourceLimit t)
    (hpackets : packets.length ≤ limit) :
    (Proto.alone allow).wp engineExec 0 (keepRows limit selected found packets) Q X s := by
  cases found with
  | some values => exact keepRow_wp hkeep hfull hpackets
  | none =>
      have hnone : packets ++ packetsOf selected ([] : List (List String)) = packets :=
        List.append_nil packets
      rw [Option.toList_none, hnone] at hkeep
      exact hkeep hpackets

theorem nextLine_wp {Q : Option String → TsharkRun → Prop} {X : EngineRaise → TsharkRun → Prop}
    (h : ∀ e, Q (s.timer e).left.head? { s.timer e with left := (s.timer e).left.tail }) :
    (Proto.alone allow).wp engineExec 0 nextLine Q X s := by
  refine Proto.wp_alone fun e v t _ hv => ?_
  obtain ⟨rfl, rfl⟩ := Prod.mk.inj (Option.some.inj hv)
  refine ⟨?_, fun _ h => by cases h⟩
  rintro _ ⟨⟩
  exact h e

/-- As long as the timer has not run, what has been read and what is left are the whole output. -/
structure Unbroken (output : List String) (reader : Csv.Reader) (rows : List (List String))
    (s : TsharkRun) : Prop where
  alive : s.killed = false
  records : Csv.Reader.fresh.records dialect output =
    (reader.records dialect s.left).map (rows ++ ·)

theorem readRows_wp {output : List String} {n : Nat} {reader : Csv.Reader}
    {packets : List (PacketRecord Double)} {rows : List (List String)}
    (hs : s.timedOut = false → Unbroken output reader rows s ∧ packets = packetsOf selected rows)
    (hpackets : packets.length ≤ limit) :
    (Proto.alone allow).wp engineExec 0 (readRows limit selected n reader packets)
      (fun packets' t => packets'.length ≤ limit ∧ t.code = s.code ∧
        (t.timedOut = false → t.killed = false ∧ ∃ rows',
          Csv.Reader.fresh.records dialect output = .ok rows' ∧
            packets' = packetsOf selected rows'))
      (fun _ _ => True) s := by
  induction n generalizing reader packets rows s with
  | zero => trivial
  | succ n ih =>
      refine Proto.wp_seq (nextLine_wp fun e => ?_)
      cases hleft : (s.timer e).left with
      | nil =>
          refine keepRows_wp (fun hlength => ⟨hlength, timer_code, fun hidle => ?_⟩)
            (fun _ _ => trivial) hpackets
          have htimer := timer_idle (s := s) hidle
          rw [htimer] at hidle hleft ⊢
          obtain ⟨hunbroken, rfl⟩ := hs hidle
          refine ⟨hunbroken.alive, rows ++ reader.finish.toList, ?_, packetsOf_append.symm⟩
          rw [hunbroken.records, hleft]
          rfl
      | cons line lines =>
          rw [List.head?_cons, List.tail_cons]
          dsimp only
          cases htake : reader.takeLine dialect line with
          | error e => trivial
          | ok taken =>
              obtain ⟨found, reader'⟩ := taken
              refine Proto.wp_seq (keepRows_wp (fun hlength => ?_) (fun _ _ => trivial) hpackets)
              have hnext : ({ s.timer e with left := lines } : TsharkRun).timedOut = false →
                  Unbroken output reader' (rows ++ found.toList) { s.timer e with left := lines } ∧
                    packets ++ packetsOf selected found.toList =
                      packetsOf selected (rows ++ found.toList) := by
                intro hidle
                have htimer := timer_idle (s := s) hidle
                rw [htimer] at hidle hleft ⊢
                obtain ⟨hunbroken, rfl⟩ := hs hidle
                refine ⟨⟨hunbroken.alive, ?_⟩, packetsOf_append.symm⟩
                rw [hunbroken.records, hleft, Csv.Reader.records, htake]
                show ((reader'.records dialect lines).map fun rest => found.toList ++ rest).map
                  (rows ++ ·) = _
                cases reader'.records dialect lines with
                | error e => rfl
                | ok rest => exact congrArg Except.ok (List.append_assoc ..).symm
              refine Proto.wp_mono (fun packets' t ht => ?_) (fun _ _ h => h) (ih hnext hlength)
              exact ⟨ht.1, ht.2.1.trans timer_code, ht.2.2⟩

/-- Nothing has been read, and the timer has not run if it does not say so. -/
def Idle (output : List String) (code : ℤ) (s : TsharkRun) : Prop :=
  s.code = code ∧ (s.timedOut = false → s = .start output code)

theorem Idle.timer {output : List String} {code : ℤ} (h : Idle output code s) (e : EngineChoice) :
    Idle output code (s.timer e) := by
  refine ⟨timer_code.trans h.1, fun hidle => ?_⟩
  have htimer := timer_idle hidle
  rw [htimer] at hidle ⊢
  exact h.2 hidle

theorem runMetadata_wp {output : List String} {code : ℤ} {arguments : List String}
    {description : String} (hs : Idle output code s) :
    (Proto.alone allow).wp engineExec 0 (runMetadata arguments description)
      (fun _ t => Idle output code t) (fun _ _ => True) s := by
  refine Proto.wp_seq (Proto.wp_tryCatch.mpr (Proto.wp_alone fun e v t _ hv => ?_))
  obtain ⟨rfl, rfl⟩ := Prod.mk.inj (Option.some.inj hv)
  refine ⟨fun (result : CompletedProcess) _ => ?_, fun error _ => ?_⟩
  · split
    · trivial
    · exact hs.timer e
  · cases error with
    | _ => trivial

theorem askVersion_wp {output : List String} {code : ℤ} {engine : TSharkEngine}
    (hs : Idle output code s) :
    (Proto.alone allow).wp engineExec 0 (askVersion engine)
      (fun r t => Idle output code t ∧ r.2.maxParsedRecords = engine.maxParsedRecords)
      (fun _ _ => True) s := by
  unfold askVersion
  split
  · exact ⟨hs, rfl⟩
  · refine Proto.wp_seq (Proto.wp_mono (fun result t ht => ?_) (fun _ _ h => h) (runMetadata_wp hs))
    dsimp only
    split
    · trivial
    · exact ⟨ht, rfl⟩

theorem askFields_wp {output : List String} {code : ℤ} {engine : TSharkEngine}
    (hs : Idle output code s) :
    (Proto.alone allow).wp engineExec 0 (askFields engine)
      (fun r t => Idle output code t ∧ r.2.maxParsedRecords = engine.maxParsedRecords)
      (fun _ _ => True) s := by
  unfold askFields
  split
  · exact ⟨hs, rfl⟩
  · refine Proto.wp_seq (Proto.wp_mono (fun result t ht => ?_) (fun _ _ h => h) (runMetadata_wp hs))
    dsimp only
    split
    · trivial
    · exact ⟨ht, rfl⟩

/-- Whenever the timer runs, a result has the packets of all that TShark prints for the capture: its
process has ended by itself, with 0. And there are no more of them than the limit. -/
theorem readPackets_complete {engine : TSharkEngine} {capturePath : String} {lines : Nat}
    {output : List String} {code : ℤ} {out : TsharkOutput} {engine' : TSharkEngine}
    (hrun : Runs engineExec (fun _ _ _ => True) 0 (readPackets engine capturePath lines)
      (.start output code) (.ok (out, engine')) s) :
    code = 0 ∧ out.packets.length ≤ engine.maxParsedRecords ∧ ∃ rows,
      Csv.Reader.fresh.records dialect output = .ok rows ∧
      out.packets = packetsOf (selectFields out.supportedFields) rows := by
  have hwp : (Proto.alone fun _ _ _ => True).wp engineExec 0 (readPackets engine capturePath lines)
      (fun r _ => code = 0 ∧ r.1.packets.length ≤ engine.maxParsedRecords ∧ ∃ rows,
        Csv.Reader.fresh.records dialect output = .ok rows ∧
        r.1.packets = packetsOf (selectFields r.1.supportedFields) rows)
      (fun _ _ => True) (.start output code) := by
    refine Proto.wp_seq (Proto.wp_mono (fun version t ht => ?_) (fun _ _ h => h)
      (askVersion_wp ⟨rfl, fun _ => rfl⟩))
    obtain ⟨version, engine₁⟩ := version
    refine Proto.wp_seq (Proto.wp_mono (fun supported t₁ ht₁ => ?_) (fun _ _ h => h)
      (askFields_wp ht.1))
    obtain ⟨supported, engine₂⟩ := supported
    refine Proto.wp_seq (Proto.wp_tryCatch.mpr (Proto.wp_alone fun e v t₂ _ hv => ?_))
    obtain ⟨rfl, rfl⟩ := Prod.mk.inj (Option.some.inj hv)
    refine ⟨fun _ _ => ?_, fun error _ => by cases error <;> trivial⟩
    have hidle := ht₁.1.timer e
    have hunbroken : (t₁.timer e).timedOut = false →
        Unbroken output .fresh [] (t₁.timer e) ∧ [] = packetsOf (selectFields supported) [] := by
      intro htimer
      rw [hidle.2 htimer]
      refine ⟨⟨rfl, ?_⟩, rfl⟩
      show _ = (Csv.Reader.fresh.records dialect output).map ([] ++ ·)
      cases Csv.Reader.fresh.records dialect output with
      | error e => rfl
      | ok rows => rfl
    refine Proto.wp_seq (Proto.wp_mono (fun packets t₃ ht₃ => ?_) (fun _ _ h => h)
      (readRows_wp hunbroken (Nat.zero_le _)))
    obtain ⟨hlength, hcode, hwhole⟩ := ht₃
    refine Proto.wp_seq (Proto.wp_alone fun e₁ v₁ t₄ _ hv₁ => ?_)
    obtain ⟨rfl, rfl⟩ := Prod.mk.inj (Option.some.inj hv₁)
    refine ⟨fun returnCode hreturn => ?_, fun _ h => by cases h⟩
    refine Proto.wp_seq (Proto.wp_alone fun e₂ v₂ t₅ _ hv₂ => ?_)
    obtain ⟨rfl, rfl⟩ := Prod.mk.inj (Option.some.inj hv₂)
    refine ⟨fun stderr _ => ?_, fun _ h => by cases h⟩
    refine Proto.wp_seq (Proto.wp_alone fun e₃ v₃ t₆ _ hv₃ => ?_)
    obtain ⟨rfl, rfl⟩ := Prod.mk.inj (Option.some.inj hv₃)
    refine ⟨fun expired hexpired => ?_, fun _ h => by cases h⟩
    split
    · trivial
    rename_i hin
    split
    · trivial
    rename_i hzero
    -- the timer had not run by the end, and so never had
    have h₆ : (((t₃.timer e₁).timer e₂).timer e₃).timedOut = false := by
      rw [Except.ok.inj hexpired]
      exact Bool.eq_false_iff.mpr hin
    have h₅ := timer_idle h₆
    rw [h₅] at h₆
    have h₄ := timer_idle h₆
    rw [h₄] at h₆
    have h₃ := timer_idle h₆
    rw [h₃] at h₆
    obtain ⟨halive, rows, hrows, hpackets⟩ := hwhole h₆
    refine ⟨?_, ?_, rows, hrows, hpackets⟩
    · have hreturn := Except.ok.inj hreturn
      rw [h₃, halive] at hreturn
      have hcode' : t₃.code = returnCode := hreturn
      exact (hidle.1.symm.trans (hcode.symm.trans hcode')).trans (not_not.mp hzero)
    · rw [← ht.2, ← ht₁.2]
      exact hlength
  exact (Runs.alone hrun hwp).1 _ rfl

end

/-! ## What TShark prints comes back -/

/-- The cells of a row, as TShark prints them with `quote=d`: it does not double a quote. -/
def printCells : List String → List Char
  | [] => []
  | [cell] => '"' :: cell.toList ++ ['"']
  | cell :: rest => '"' :: cell.toList ++ '"' :: '\t' :: printCells rest

def printLine (cells : List String) : String := String.ofList (printCells cells ++ ['\n'])

/-- A value that TShark can print on one line and that is not too long for the reader. -/
structure Printable (value : String) : Prop where
  noQuote : '"' ∉ value.toList
  noBreak : '\n' ∉ value.toList ∧ '\r' ∉ value.toList
  short : value.length ≤ dialect.fieldLimit

theorem dialect_valid : dialect.Valid := ⟨by decide, by decide, by decide⟩

theorem printCells_eq {cells : List String} (h : ∀ cell ∈ cells, Printable cell) :
    printCells cells = Csv.joined dialect cells := by
  induction cells with
  | nil => rfl
  | cons cell cells ih =>
      have hcell := Csv.escaped_of_noQuote (d := dialect) (h cell (List.mem_cons_self ..)).noQuote
      have hrest := ih fun x hx => h x (List.mem_cons_of_mem cell hx)
      cases cells with
      | nil =>
          show '"' :: cell.toList ++ ['"'] = '"' :: Csv.escaped dialect cell.toList ++ ['"']
          rw [hcell]
      | cons next rest =>
          show '"' :: cell.toList ++ '"' :: '\t' :: printCells (next :: rest) =
            ('"' :: Csv.escaped dialect cell.toList ++ ['"']) ++ '\t' ::
              Csv.joined dialect (next :: rest)
          rw [hcell, hrest]
          simp

/-- A packet as TShark dissects it: the value of every field. -/
abbrev Dissected := String → String

/-- What `_packet` can see of it: the fields that were asked for. -/
def rowSeen (selected : List String) (cells : Dissected) : Row := fun field =>
  if fieldText field ∈ selected then some (cells (fieldText field)) else none

theorem rowOf_map {selected : List String} {cells : Dissected} :
    rowOf selected (selected.map cells) = rowSeen selected cells := by
  have hlookup : ∀ (names : List String) (name : String),
      (names.zip (names.map cells)).lookup name =
        if name ∈ names then some (cells name) else none := by
    intro names name
    induction names with
    | nil => rfl
    | cons x names ih =>
        rw [List.map_cons, List.zip_cons_cons, List.lookup_cons, ih]
        by_cases hx : name = x
        · simp [hx]
        · rw [beq_false_of_ne hx]
          simp [hx]
  funext field
  unfold rowOf rowSeen
  simp [hlookup]

/-- The packets of what TShark dissects. -/
def packetsSeen (selected : List String) (dissected : List Dissected) :
    List (PacketRecord Double) :=
  dissected.filterMap fun cells => (rowSeen selected cells).packet

theorem packetsOf_seen {selected : List String} {dissected : List Dissected} :
    packetsOf selected (dissected.map fun cells => selected.map cells) =
      packetsSeen selected dissected := by
  unfold packetsOf packetsSeen
  rw [List.filterMap_map]
  exact congrArg (fun f => List.filterMap f dissected) (funext fun cells => by
    rw [Function.comp_apply, rowOf_map])

/-- The timer does not run, TShark can be started, and says what version it is and what fields it
has. -/
def calm (version fields stderr : String) : EngineCommand → EngineChoice → TsharkRun → Prop
  | c, e, _ => e.fires = false ∧ e.launch = .ok () ∧ e.stderr = stderr ∧
      match c with
      | .metadata [_, "--version"] => e.metadata = .ok ⟨0, version, ""⟩
      | .metadata _ => e.metadata = .ok ⟨0, fields, ""⟩
      | _ => True

section

variable {version fields stderr : String} {limit : Nat} {selected : List String} {s : TsharkRun}
  {engine : TSharkEngine}

theorem calm_timer {c : EngineCommand} {e : EngineChoice} (h : calm version fields stderr c e s) :
    s.timer e = s := by
  unfold TsharkRun.timer
  rw [h.1]
  rfl

theorem calm_metadata {arguments : List String} {description answer : String}
    (hanswer : ∀ e, calm version fields stderr (.metadata arguments) e s →
      e.metadata = .ok ⟨0, answer, ""⟩)
    {Q : CompletedProcess → TsharkRun → Prop} {X : EngineRaise → TsharkRun → Prop}
    (h : Q ⟨0, answer, ""⟩ s) :
    (Proto.alone (calm version fields stderr)).wp engineExec 0 (runMetadata arguments description)
      Q X s := by
  refine Proto.wp_seq (Proto.wp_tryCatch.mpr (Proto.wp_alone fun e v t he hv => ?_))
  obtain ⟨rfl, rfl⟩ := Prod.mk.inj (Option.some.inj hv)
  rw [calm_timer he]
  have hanswer := hanswer e he
  constructor
  · intro result hresult
    obtain rfl : result = ⟨0, answer, ""⟩ := Except.ok.inj (hresult.symm.trans hanswer)
    exact h
  · intro error herror
    rw [hanswer] at herror
    cases herror

theorem calm_version (hversion : engine.version.getD (firstLine version) = firstLine version)
    (hline : firstLine version ≠ "") {Q : String × TSharkEngine → TsharkRun → Prop}
    {X : EngineRaise → TsharkRun → Prop}
    (h : Q (firstLine version, { engine with version := some (firstLine version) }) s) :
    (Proto.alone (calm version fields stderr)).wp engineExec 0 (askVersion engine) Q X s := by
  unfold askVersion
  split
  · rename_i cached hcached
    rw [hcached] at hversion
    obtain rfl : cached = firstLine version := hversion
    rw [← hcached] at h
    exact h
  · refine Proto.wp_seq (calm_metadata (fun e he => he.2.2.2) ?_)
    rw [if_neg hline]
    exact h

theorem calm_fields (hfields : engine.supportedFields.getD (parseFields fields) =
    parseFields fields)
    (hrequired : ∀ name ∈ REQUIRED_FIELDS, name ∈ parseFields fields)
    {Q : List String × TSharkEngine → TsharkRun → Prop} {X : EngineRaise → TsharkRun → Prop}
    (h : Q (parseFields fields, { engine with supportedFields := some (parseFields fields) }) s) :
    (Proto.alone (calm version fields stderr)).wp engineExec 0 (askFields engine) Q X s := by
  unfold askFields
  split
  · rename_i cached hcached
    rw [hcached] at hfields
    obtain rfl : cached = parseFields fields := hfields
    rw [← hcached] at h
    exact h
  · have hanswer : ∀ e, calm version fields stderr
        (.metadata [engine.executable, "-G", "fields"]) e s → e.metadata = .ok ⟨0, fields, ""⟩ :=
      fun e he => he.2.2.2
    have hnone : REQUIRED_FIELDS.filter (fun name => name ∉ parseFields fields) = [] := by
      simpa using hrequired
    refine Proto.wp_seq (calm_metadata hanswer ?_)
    dsimp only
    rw [hnone, if_neg (fun h => h rfl)]
    exact h

/-- A command that TShark's run answers. -/
theorem calm_cmd {c : EngineCommand} {a : EngineReply c} {t : TsharkRun}
    (hexec : ∀ e, calm version fields stderr c e s → engineExec 0 e c s = some (.ok a, t))
    {Q : EngineReply c → TsharkRun → Prop} {X : EngineRaise → TsharkRun → Prop} (h : Q a t) :
    (Proto.alone (calm version fields stderr)).wp engineExec 0 (Prog.cmd c) Q X s := by
  refine Proto.wp_alone fun e v t' he hv => ?_
  rw [hexec e he] at hv
  obtain ⟨rfl, rfl⟩ := Prod.mk.inj (Option.some.inj hv)
  refine ⟨?_, fun _ h => by cases h⟩
  rintro _ ⟨⟩
  exact h

theorem calm_nextLine {Q : Option String → TsharkRun → Prop} {X : EngineRaise → TsharkRun → Prop}
    (h : Q s.left.head? { s with left := s.left.tail }) :
    (Proto.alone (calm version fields stderr)).wp engineExec 0 nextLine Q X s :=
  calm_cmd (fun e he => by simp only [engineExec, calm_timer he]) h

theorem calm_wait {Q : ℤ → TsharkRun → Prop} {X : EngineRaise → TsharkRun → Prop}
    (halive : s.killed = false) (h : Q s.code s) :
    (Proto.alone (calm version fields stderr)).wp engineExec 0 waitProcess Q X s :=
  calm_cmd (fun e he => by simp [engineExec, calm_timer he, halive]) h

theorem calm_stderr {Q : String → TsharkRun → Prop} {X : EngineRaise → TsharkRun → Prop}
    (h : Q stderr s) :
    (Proto.alone (calm version fields stderr)).wp engineExec 0 stderrText Q X s :=
  calm_cmd (fun e he => by simp only [engineExec, calm_timer he, he.2.2.1]) h

theorem calm_timedOut {Q : Bool → TsharkRun → Prop} {X : EngineRaise → TsharkRun → Prop}
    (h : Q s.timedOut s) :
    (Proto.alone (calm version fields stderr)).wp engineExec 0 timedOut Q X s :=
  calm_cmd (fun e he => by simp only [engineExec, calm_timer he]) h

theorem calm_popen {arguments : List String} {Q : Unit → TsharkRun → Prop}
    {X : EngineRaise → TsharkRun → Prop} (h : Q () s) :
    (Proto.alone (calm version fields stderr)).wp engineExec 0 (popen arguments) Q X s :=
  calm_cmd (fun e he => by simp only [engineExec, calm_timer he, he.2.1]; rfl) h

/-- Row after row, until there is no room left for a packet. -/
theorem calm_readRows {dissected : List Dissected}
    (hselected : ∀ cells ∈ dissected, ∀ name ∈ selected,
      Printable (cells name)) {n : Nat} (hn : dissected.length < n)
    {packets : List (PacketRecord Double)} (hpackets : packets.length ≤ limit)
    {Q : List (PacketRecord Double) → TsharkRun → Prop} {X : EngineRaise → TsharkRun → Prop}
    (hfit : (packets ++ packetsSeen selected dissected).length ≤ limit →
      Q (packets ++ packetsSeen selected dissected) { s with left := [] })
    (hfull : limit < (packets ++ packetsSeen selected dissected).length → ∀ t, X resourceLimit t)
    (hleft : s.left = dissected.map fun cells => printLine (selected.map cells)) :
    (Proto.alone (calm version fields stderr)).wp engineExec 0
      (readRows limit selected n .fresh packets) Q X s := by
  induction dissected generalizing n packets s with
  | nil =>
      obtain ⟨m, rfl⟩ := Nat.exists_eq_succ_of_ne_zero (Nat.ne_of_gt hn)
      refine Proto.wp_seq (calm_nextLine ?_)
      rw [hleft]
      have hnil : packets ++ packetsSeen selected [] = packets := List.append_nil packets
      rw [hnil] at hfit
      exact hfit hpackets
  | cons cells dissected ih =>
      obtain ⟨m, rfl⟩ := Nat.exists_eq_succ_of_ne_zero (show n ≠ 0 by omega)
      rw [List.length_cons] at hn
      refine Proto.wp_seq (calm_nextLine ?_)
      rw [hleft, List.map_cons, List.head?_cons, List.tail_cons]
      have hhere := hselected cells (List.mem_cons_self ..)
      have hprintable : ∀ cell ∈ selected.map cells, Printable cell := by
        intro cell hcell
        obtain ⟨name, hname, rfl⟩ := List.mem_map.mp hcell
        exact hhere name hname
      have hline : printLine (selected.map cells) = Csv.printRow dialect (selected.map cells) := by
        rw [printLine, printCells_eq hprintable]
        rfl
      have htake : Csv.Reader.fresh.takeLine dialect (printLine (selected.map cells)) =
          .ok (some (selected.map cells), .fresh) := by
        rw [hline]
        exact Csv.takeLine_printRow dialect_valid fun cell hcell => (hprintable cell hcell).short
      have hseen : packets ++ packetsSeen selected (cells :: dissected) =
          (packets ++ packetsOf selected [selected.map cells]) ++
            packetsSeen selected dissected := by
        rw [← packetsOf_seen, ← packetsOf_seen, List.map_cons, List.append_assoc,
          ← packetsOf_append]
        rfl
      rw [hseen] at hfit hfull
      dsimp only
      rw [htake]
      refine Proto.wp_seq (keepRow_wp (fun hroom => ?_) (fun hover t => ?_) hpackets)
      · exact ih (fun x hx => hselected x (List.mem_cons_of_mem cells hx)) (by omega)
          hroom hfit hfull rfl
      · refine hfull ?_ t
        rw [List.length_append]
        omega

/-- An engine that answers what it remembers. -/
structure Answering (engine : TSharkEngine) (version fields : String) : Prop where
  sameVersion : engine.version.getD (firstLine version) = firstLine version
  sameFields : engine.supportedFields.getD (parseFields fields) = parseFields fields
  hasVersion : firstLine version ≠ ""
  required : ∀ name ∈ REQUIRED_FIELDS, name ∈ parseFields fields

/-- What `read_packets` returns for the packets of `dissected`. -/
def outputSeen (version fields : String) (dissected : List Dissected) : TsharkOutput :=
  ⟨firstLine version, parseFields fields, packetsSeen (selectFields (parseFields fields)) dissected⟩

/-- The engine, now that it has been asked. -/
def TSharkEngine.asked (engine : TSharkEngine) (version fields : String) : TSharkEngine :=
  { engine with version := some (firstLine version), supportedFields := some (parseFields fields) }

/-- What TShark prints for the packets of `dissected`. -/
def printed (fields : String) (dissected : List Dissected) : List String :=
  dissected.map fun cells => printLine ((selectFields (parseFields fields)).map cells)

theorem readPackets_wp {capturePath : String} {lines : Nat} {dissected : List Dissected} {code : ℤ}
    (hengine : Answering engine version fields)
    (hprintable : ∀ cells ∈ dissected, ∀ name ∈ selectFields (parseFields fields),
      Printable (cells name))
    (hlines : dissected.length < lines) :
    (Proto.alone (calm version fields stderr)).wp engineExec 0
      (readPackets engine capturePath lines)
      (fun a _ => (outputSeen version fields dissected).packets.length ≤ engine.maxParsedRecords ∧
        code = 0 ∧ a = (outputSeen version fields dissected, engine.asked version fields))
      (fun x _ =>
        (engine.maxParsedRecords < (outputSeen version fields dissected).packets.length ∧
          x = resourceLimit) ∨
        ((outputSeen version fields dissected).packets.length ≤ engine.maxParsedRecords ∧
          code ≠ 0 ∧ x = parseFailure stderr))
      (.start (printed fields dissected) code) := by
  refine Proto.wp_seq (calm_version hengine.sameVersion hengine.hasVersion ?_)
  have hsupported : ({ engine with version := some (firstLine version) } :
      TSharkEngine).supportedFields.getD (parseFields fields) = parseFields fields :=
    hengine.sameFields
  refine Proto.wp_seq (calm_fields hsupported hengine.required ?_)
  refine Proto.wp_seq (Proto.wp_tryCatch.mpr (calm_popen ?_))
  refine Proto.wp_seq (calm_readRows hprintable hlines (Nat.zero_le _) (fun hfit => ?_)
    (fun hfull t => Or.inl ⟨hfull, rfl⟩) rfl)
  refine Proto.wp_seq (calm_wait rfl (Proto.wp_seq (calm_stderr (Proto.wp_seq (calm_timedOut ?_)))))
  split
  · rename_i hexpired
    cases hexpired
  split
  · rename_i hcode
    exact Or.inr ⟨hfit, hcode, rfl⟩
  · rename_i hcode
    exact ⟨hfit, not_not.mp hcode, rfl⟩

theorem calm_exists (c : EngineCommand) (s : TsharkRun) : ∃ e v t,
    calm version fields stderr c e s ∧ engineExec 0 e c s = some (v, t) := by
  have hother : ∀ (answer : String) (c : EngineCommand), ∃ v t,
      engineExec 0 ⟨.ok ⟨0, answer, ""⟩, .ok (), stderr, false, false, []⟩ c s = some (v, t) := by
    intro answer c
    cases c <;> exact ⟨_, _, rfl⟩
  have hask : ∃ answer : String,
      calm version fields stderr c ⟨.ok ⟨0, answer, ""⟩, .ok (), stderr, false, false, []⟩ s := by
    dsimp only [calm]
    split
    · exact ⟨version, rfl, rfl, rfl, rfl⟩
    · exact ⟨fields, rfl, rfl, rfl, rfl⟩
    · exact ⟨fields, rfl, rfl, rfl, trivial⟩
  obtain ⟨answer, hcalm⟩ := hask
  obtain ⟨v, t, hexec⟩ := hother answer c
  exact ⟨_, v, t, hcalm, hexec⟩

theorem calm_runs {α : Type} (p : EngineProg α) (s : TsharkRun) :
    ∃ r t, Runs engineExec (calm version fields stderr) 0 p s r t := by
  induction p generalizing s with
  | ret a => exact ⟨_, _, .ret a s⟩
  | raise e => exact ⟨_, _, .raise e s⟩
  | call c k ih =>
      obtain ⟨e, v, t, hcalm, hexec⟩ : ∃ e v t,
          calm version fields stderr c e s ∧ engineExec 0 e c s = some (v, t) := calm_exists c s
      obtain ⟨r, t', hrest⟩ := ih v t
      exact ⟨r, t', .call hcalm hexec hrest⟩

/-- The packets that TShark dissects from a capture, printed and read again, come back one by one,
in order, as far as their time and lengths can be read. More than the limit are refused, and so is
every result of a TShark that failed. -/
theorem readPackets_printed {capturePath : String} {lines : Nat} {dissected : List Dissected}
    {code : ℤ} {r : Except EngineRaise (TsharkOutput × TSharkEngine)}
    (hengine : Answering engine version fields)
    (hprintable : ∀ cells ∈ dissected, ∀ name ∈ selectFields (parseFields fields),
      Printable (cells name))
    (hlines : dissected.length < lines)
    (hrun : Runs engineExec (calm version fields stderr) 0 (readPackets engine capturePath lines)
      (.start (printed fields dissected) code) r s) :
    r = if engine.maxParsedRecords < (outputSeen version fields dissected).packets.length then
        .error resourceLimit
      else if code ≠ 0 then .error (parseFailure stderr)
      else .ok (outputSeen version fields dissected, engine.asked version fields) := by
  obtain ⟨hok, herror⟩ := Runs.alone hrun (readPackets_wp hengine hprintable hlines)
  cases r with
  | ok a =>
      obtain ⟨hfit, hcode, ha⟩ := hok a rfl
      have hzero : ¬(code ≠ 0) := fun h => h hcode
      rw [ha, if_neg (Nat.not_lt.mpr hfit), if_neg hzero]
  | error x =>
      rcases herror x rfl with ⟨hfull, hx⟩ | ⟨hfit, hcode, hx⟩
      · rw [hx, if_pos hfull]
      · rw [hx, if_neg (Nat.not_lt.mpr hfit), if_pos hcode]

end

/-! ### One packet -/

/-- `-G fields` of a TShark that has the required fields and no others. -/
def fieldsListing : String :=
  String.join (REQUIRED_FIELDS.map fun name => "F\tField\t" ++ name ++ "\n")

def newEngine : TSharkEngine := ⟨"tshark", 250000, by decide, none, none⟩

/-- A packet all of whose fields are `1`. -/
def onePacket : Dissected := fun _ => "1"

theorem newEngine_answering : Answering newEngine "TShark 4.2.5\n" fieldsListing := by
  have hfields : parseFields fieldsListing = REQUIRED_FIELDS := by decide +kernel
  refine ⟨by simp [newEngine], by simp [newEngine], by decide +kernel, fun name hname => ?_⟩
  rwa [hfields]

theorem onePacket_printable (selected : List String) :
    ∀ cells ∈ [onePacket], ∀ name ∈ selected, Printable (cells name) := by
  intro cells hcells name _
  obtain rfl := List.mem_singleton.mp hcells
  have hone : Printable "1" := ⟨by decide, by decide, by decide⟩
  exact hone

theorem onePacket_fits {version fields : String} :
    (outputSeen version fields [onePacket]).packets.length ≤ newEngine.maxParsedRecords :=
  (List.length_filterMap_le _ _).trans (by decide)

theorem one_packet_printed : ∃ r s,
    Runs engineExec (calm "TShark 4.2.5\n" fieldsListing "") 0
      (readPackets newEngine "capture.pcapng" 2)
      (.start (printed fieldsListing [onePacket]) 0) r s ∧
    r = .ok (outputSeen "TShark 4.2.5\n" fieldsListing [onePacket],
      newEngine.asked "TShark 4.2.5\n" fieldsListing) := by
  obtain ⟨r, s, hrun⟩ := calm_runs (readPackets newEngine "capture.pcapng" 2)
    (.start (printed fieldsListing [onePacket]) 0)
  refine ⟨r, s, hrun, ?_⟩
  have hr := readPackets_printed newEngine_answering (onePacket_printable _) (by decide) hrun
  rwa [if_neg (Nat.not_lt.mpr onePacket_fits), if_neg (not_not.mpr rfl)] at hr

theorem one_packet_complete : ∃ out engine' s rows,
    Runs engineExec (fun _ _ _ => True) 0 (readPackets newEngine "capture.pcapng" 2)
      (.start (printed fieldsListing [onePacket]) 0) (.ok (out, engine')) s ∧
    Csv.Reader.fresh.records dialect (printed fieldsListing [onePacket]) = .ok rows ∧
    out.packets = packetsOf (selectFields out.supportedFields) rows := by
  obtain ⟨r, s, hrun⟩ : ∃ r s, Runs engineExec (calm "TShark 4.2.5\n" fieldsListing "") 0
      (readPackets newEngine "capture.pcapng" 2)
      (.start (printed fieldsListing [onePacket]) 0) r s := calm_runs _ _
  obtain ⟨-, herror⟩ := Runs.alone hrun
    (readPackets_wp newEngine_answering (onePacket_printable _) (by decide))
  cases r with
  | error x =>
      rcases herror x rfl with ⟨hfull, -⟩ | ⟨-, hcode, -⟩
      · exact absurd onePacket_fits (Nat.not_le.mpr hfull)
      · exact absurd rfl hcode
  | ok a =>
      have hrun' : Runs engineExec (fun _ _ _ => True) 0
          (readPackets newEngine "capture.pcapng" 2)
          (.start (printed fieldsListing [onePacket]) 0) (.ok (a.1, a.2)) s :=
        hrun.mono fun _ _ _ _ => trivial
      obtain ⟨-, -, rows, hrows, hpackets⟩ := readPackets_complete hrun'
      exact ⟨a.1, a.2, s, rows, hrun', hrows, hpackets⟩

end Tshark

end Sahabino
