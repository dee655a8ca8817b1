import Sahabino.CaptureService
import Sahabino.MetricRanges
import Sahabino.StoredColumns

/-!
# Validation of the metrics

What becomes of the computed metrics: the models accept them, and so do
the `CHECK`s of `network_analysis_results`. One quotient has a numerator
that is no part of its denominator: the retransmission rate counts flagged
segments over segments with payload, and a rate above 1 is an error of
`TcpMetricsV1` that the analyzer takes for a transient one.
-/

namespace Sahabino

/-! ## Checks of the table -/

theorem mem_option_arguments {α : Type} {x : Option α} {title : String} {f : α → Arguments}
    {model : String × Arguments} (hmem : model ∈ (x.map fun m => (title, f m)).toList) :
    ∃ m, x = some m ∧ model = (title, f m) := by
  cases x with
  | none => cases hmem
  | some m => exact ⟨m, rfl, List.mem_singleton.mp hmem⟩

/-- The metrics of a protocol, which are there if it has packets. -/
theorem eq_of_mem_present {α β : Type} {packets : List β} [Decidable (packets = [])] {m : α}
    {title : String} {f : α → Arguments} {model : String × Arguments}
    (hmem : model ∈ ((if packets = [] then none else some m).map fun m => (title, f m)).toList) :
    model = (title, f m) := by
  obtain ⟨m', hm', rfl⟩ := mem_option_arguments hmem
  split at hm'
  · cases hm'
  · rw [Option.some.inj hm']

inductive FieldType where
  | bool
  | literal (allowed : List String)
  | strings
  | nonBlankStrings
  | nonNegativeInt
  | positiveInt
  | nonNegativeFloat
  | ratio

def Argument.fieldType : Argument → FieldType
  | flag _ => .bool
  | literal allowed _ => .literal allowed
  | strings _ => .strings
  | nonBlankStrings _ => .nonBlankStrings
  | nonNegativeInt _ => .nonNegativeInt
  | positiveInt _ => .positiveInt
  | nonNegativeFloat _ => .nonNegativeFloat
  | ratio _ => .ratio

/-- What the annotation accepts passes the check. -/
def FieldType.implies : FieldType → Rel.Check → Bool
  | literal allowed, .oneOf texts => allowed.all texts.contains
  | nonNegativeInt, .atLeast lo | nonNegativeFloat, .atLeast lo => lo ≤ 0
  | positiveInt, .above lo => lo ≤ 0
  | ratio, .between lo hi => lo ≤ 0 && 1 ≤ hi
  | _, _ => false

theorem holds_of_accepted {a : Argument} {k : Rel.Check} (ha : a.accepted = true)
    (hk : a.fieldType.implies k = true) : k.holds a.value = true := by
  cases a <;> cases k <;> try cases hk
  case literal.oneOf allowed s texts =>
    exact List.all_eq_true.mp hk s (List.contains_iff_mem.mp ha)
  case nonNegativeInt.atLeast n lo =>
    have hlo : lo ≤ 0 := of_decide_eq_true hk
    cases n with
    | none => rfl
    | some n => exact decide_eq_true (le_trans hlo (of_decide_eq_true ha))
  case positiveInt.above n lo =>
    have hlo : lo ≤ 0 := of_decide_eq_true hk
    exact decide_eq_true (lt_of_le_of_lt hlo (of_decide_eq_true ha))
  case nonNegativeFloat.atLeast x lo =>
    have hlo : lo ≤ 0 := of_decide_eq_true hk
    cases x with
    | none => rfl
    | some x =>
        have hx : (0 : ℚ) ≤ x := of_decide_eq_true ha
        exact decide_eq_true (le_trans (by exact_mod_cast hlo) hx)
  case ratio.between x lo hi =>
    obtain ⟨hlo, hhi⟩ : lo ≤ 0 ∧ 1 ≤ hi := by simpa [FieldType.implies, Argument.fieldType] using hk
    cases x with
    | none => rfl
    | some x =>
        obtain ⟨hx, hx'⟩ : 0 ≤ x ∧ x ≤ 1 := by simpa [Argument.accepted] using ha
        have hlo : (lo : ℚ) ≤ x := le_trans (by exact_mod_cast hlo) hx
        have hhi : x ≤ hi := le_trans hx' (by exact_mod_cast hhi)
        simp [Argument.value, Rel.Check.holds, Rel.Double.sqlAtLeast, Rel.Double.sqlAtMost,
          hlo, hhi]

/-- The names and annotations of arguments; they do not depend on the values. -/
def shapes (arguments : Arguments) : List (String × FieldType) :=
  arguments.map fun a => (a.1, a.2.fieldType)

/-- The columns have these names, and check no more than the annotations do. -/
def fits : List Rel.Column → List (String × FieldType) → Bool
  | [], [] => true
  | c :: columns, f :: fields => c.name = f.1 && c.checks.all f.2.implies && fits columns fields
  | _, _ => false

/-- The values of arguments under the names of their columns. -/
def stored (arguments : Arguments) : List (String × Rel.Value) :=
  arguments.map fun a => (a.1, a.2.value)

/-- An absent group is `NULL` in all of its columns. -/
def storedOr (columns : List Rel.Column) (arguments : Option Arguments) :
    List (String × Rel.Value) :=
  (arguments.map stored).getD (columns.map fun c => (c.name, .null))

/-- The metric columns of `network_analysis_results`, those behind the identity. -/
def metricColumns : List Rel.Column :=
  captureColumns ++ capabilityColumns ++ warningColumns ++ trafficColumns ++ protocolMixColumns ++
    ipColumns ++ flowColumns ++ transferColumns ++ tcpColumns ++ quicColumns ++ udpColumns ++
    dnsColumns

/-- The values for them. -/
def AggregatedMetrics.row (m : AggregatedMetrics) : List (String × Rel.Value) :=
  stored (m.capture.arguments.take 7) ++ stored m.capabilities.arguments
    ++ stored (m.capture.arguments.drop 7) ++ stored m.traffic.arguments
    ++ stored m.protocolMix.arguments ++ stored m.ip.arguments ++ stored m.flow.arguments
    ++ stored m.transfer.arguments ++ storedOr tcpColumns (m.tcp.map (·.arguments))
    ++ storedOr quicColumns (m.quic.map (·.arguments))
    ++ storedOr udpColumns (m.udp.map (·.arguments))
    ++ storedOr dnsColumns (m.dns.map (·.arguments))

/-- A column under its name whose checks the value passes. -/
def Passes (c : Rel.Column) (v : String × Rel.Value) : Prop :=
  c.name = v.1 ∧ (v.1 ≠ "tcp_retransmission_rate" → (c.checks.all fun k => k.holds v.2) = true)

theorem passes_stored {columns : List Rel.Column} : ∀ {arguments : Arguments},
    fits columns (shapes arguments) = true →
    (∀ a ∈ arguments, a.1 ≠ "tcp_retransmission_rate" → a.2.accepted = true) →
    List.Forall₂ Passes columns (stored arguments) := by
  induction columns with
  | nil =>
      intro arguments hfits _
      cases arguments with
      | nil => exact List.Forall₂.nil
      | cons a arguments => cases hfits
  | cons c columns ih =>
      intro arguments hfits haccepted
      cases arguments with
      | nil => cases hfits
      | cons a arguments =>
          simp only [shapes, List.map_cons, fits, Bool.and_eq_true, decide_eq_true_eq] at hfits
          obtain ⟨⟨hname, hchecks⟩, hrest⟩ := hfits
          refine List.Forall₂.cons ⟨hname, fun hne => ?_⟩
            (ih hrest fun a ha => haccepted a (List.mem_cons_of_mem _ ha))
          refine List.all_eq_true.mpr fun k hk => ?_
          exact holds_of_accepted (haccepted a (List.mem_cons_self ..) hne)
            (List.all_eq_true.mp hchecks k hk)

theorem passes_null (columns : List Rel.Column) :
    List.Forall₂ Passes columns (columns.map fun c => (c.name, .null)) := by
  rw [List.forall₂_map_right_iff]
  refine List.forall₂_same.mpr fun c _ => ⟨rfl, fun _ => List.all_eq_true.mpr fun k _ => ?_⟩
  cases k <;> rfl

theorem passes_storedOr {α : Type} {columns : List Rel.Column} {f : α → Arguments}
    {x : Option α} (hfits : ∀ m, fits columns (shapes (f m)) = true)
    (haccepted : ∀ m, x = some m →
      ∀ a ∈ f m, a.1 ≠ "tcp_retransmission_rate" → a.2.accepted = true) :
    List.Forall₂ Passes columns (storedOr columns (x.map f)) := by
  cases x with
  | none => exact passes_null columns
  | some m => exact passes_stored (hfits m) (haccepted m rfl)

theorem tcp_fits (m : TcpMetrics) : fits tcpColumns (shapes m.arguments) = true := by
  show fits tcpColumns (shapes (tcpMetrics []).arguments) = true
  decide +kernel

theorem quic_fits (m : QuicMetrics) : fits quicColumns (shapes m.arguments) = true := by
  show fits quicColumns (shapes (quicMetrics [] []).arguments) = true
  decide +kernel

theorem udp_fits (m : UdpMetrics) : fits udpColumns (shapes m.arguments) = true := by
  show fits udpColumns (shapes (udpMetrics ([] : List (PacketRecord ℚ))).arguments) = true
  decide +kernel

theorem dns_fits (m : DnsMetrics) : fits dnsColumns (shapes m.arguments) = true := by
  show fits dnsColumns (shapes (dnsMetrics []).arguments) = true
  decide +kernel

/-- The row passes the checks when every argument of the models is accepted. -/
theorem row_passes {m : AggregatedMetrics} (h : ∀ model ∈ m.models, ∀ a ∈ model.2,
    a.1 ≠ "tcp_retransmission_rate" → a.2.accepted = true) :
    List.Forall₂ Passes metricColumns m.row := by
  have hcapture := h ("CaptureMetricsV1", m.capture.arguments) (by simp [AggregatedMetrics.models])
  unfold metricColumns AggregatedMetrics.row
  refine List.rel_append (List.rel_append (List.rel_append (List.rel_append (List.rel_append
    (List.rel_append (List.rel_append (List.rel_append (List.rel_append (List.rel_append
    (List.rel_append ?_ ?_) ?_) ?_) ?_) ?_) ?_) ?_) ?_) ?_) ?_) ?_
  · refine passes_stored ?_ fun a ha => hcapture a (List.mem_of_mem_take ha)
    show fits captureColumns
      (shapes ((captureMetrics [] .pcap 1 .upload 1).arguments.take 7)) = true
    decide +kernel
  · refine passes_stored ?_ (h ("NetworkCapabilitiesV1", m.capabilities.arguments)
      (by simp [AggregatedMetrics.models]))
    show fits capabilityColumns (shapes (networkCapabilities [] .upload none).arguments) = true
    decide +kernel
  · refine passes_stored ?_ fun a ha => hcapture a (List.mem_of_mem_drop ha)
    show fits warningColumns
      (shapes ((captureMetrics [] .pcap 1 .upload 1).arguments.drop 7)) = true
    decide +kernel
  · refine passes_stored ?_ (h ("TrafficMetricsV1", m.traffic.arguments)
      (by simp [AggregatedMetrics.models]))
    show fits trafficColumns (shapes (trafficMetrics ([] : List (PacketRecord ℚ))).arguments) = true
    decide +kernel
  · refine passes_stored ?_ (h ("ProtocolMixMetricsV1", m.protocolMix.arguments)
      (by simp [AggregatedMetrics.models]))
    show fits protocolMixColumns
      (shapes (protocolMixMetrics ([] : List (PacketRecord ℚ))).arguments) = true
    decide +kernel
  · refine passes_stored ?_ (h ("IpMetricsV1", m.ip.arguments)
      (by simp [AggregatedMetrics.models]))
    show fits ipColumns (shapes (ipMetrics ([] : List (PacketRecord ℚ))).arguments) = true
    decide +kernel
  · refine passes_stored ?_ (h ("FlowMetricsV1", m.flow.arguments)
      (by simp [AggregatedMetrics.models]))
    show fits flowColumns (shapes (flowMetrics ([] : List (PacketRecord ℚ)) 1).arguments) = true
    decide +kernel
  · refine passes_stored ?_ (h ("TransferMetricsV1", m.transfer.arguments)
      (by simp [AggregatedMetrics.models]))
    show fits transferColumns (shapes (transferMetrics [] .upload 1).arguments) = true
    decide +kernel
  · refine passes_storedOr tcp_fits fun tcp htcp => ?_
    exact h ("TcpMetricsV1", tcp.arguments) (by simp [AggregatedMetrics.models, htcp])
  · refine passes_storedOr quic_fits fun quic hquic => ?_
    exact h ("QuicMetricsV1", quic.arguments) (by simp [AggregatedMetrics.models, hquic])
  · refine passes_storedOr udp_fits fun udp hudp => ?_
    exact h ("UdpMetricsV1", udp.arguments) (by simp [AggregatedMetrics.models, hudp])
  · refine passes_storedOr dns_fits fun dns hdns => ?_
    exact h ("DnsMetricsV1", dns.arguments) (by simp [AggregatedMetrics.models, hdns])

/-! ## The whole result -/

section Whole

variable {packets : List (PacketRecord ℚ)} (h : ∀ p ∈ packets, p.NonNegative)
  (captureFormat : CaptureFormat) (scenario : Scenario) (supportedFields : Option (List String))
  {captureSizeBytes transferFileSizeBytes : ℤ}

include h in
/-- Only the retransmission rate can be out of range. -/
theorem models_accepted (hcapture : 1 ≤ captureSizeBytes) (htransfer : 1 ≤ transferFileSizeBytes)
    {model : String × Arguments} (hmodel : model ∈ (aggregated packets captureFormat
      captureSizeBytes scenario transferFileSizeBytes supportedFields).models) :
    ∀ a ∈ model.2, a.1 ≠ "tcp_retransmission_rate" → a.2.accepted = true := by
  have hip := nonNegative_filter h (·.isIp)
  simp only [AggregatedMetrics.models, List.mem_append, List.mem_cons, List.not_mem_nil,
    or_false] at hmodel
  rcases hmodel with (((hmem | hmem) | hmem) | hmem) | rfl | rfl | rfl | rfl | rfl | rfl | rfl
  · obtain rfl := eq_of_mem_present hmem
    exact tcp_accepted (nonNegative_filter hip _)
  · obtain rfl := eq_of_mem_present hmem
    exact fun a ha _ => quic_accepted _ _ a ha
  · obtain rfl := eq_of_mem_present hmem
    exact fun a ha _ => udp_accepted (nonNegative_filter hip _) a ha
  · obtain rfl := eq_of_mem_present hmem
    exact fun a ha _ => dns_accepted (nonNegative_filter h _) a ha
  · exact fun a ha _ => capture_accepted packets captureFormat scenario hcapture htransfer a ha
  · exact fun a ha _ => capabilities_accepted _ a ha
  · exact fun a ha _ => traffic_accepted h a ha
  · exact fun a ha _ => protocolMix_accepted h a ha
  · exact fun a ha _ => ip_accepted packets a ha
  · exact fun a ha _ => flow_accepted h htransfer a ha
  · exact fun a ha _ => transfer_accepted h scenario htransfer a ha

/-- Only the TCP model has a retransmission rate. -/
theorem rate_accepted {packets : List (PacketRecord ℚ)} {captureFormat : CaptureFormat}
    {captureSizeBytes : ℤ} {scenario : Scenario} {transferFileSizeBytes : ℤ}
    {supportedFields : Option (List String)} {model : String × Arguments}
    (hmodel : model ∈ (aggregated packets captureFormat captureSizeBytes scenario
      transferFileSizeBytes supportedFields).models)
    (hrate : InUnit (tcpMetrics (tcpPackets packets)).tcpRetransmissionRate)
    {a : String × Argument} (ha : a ∈ model.2) (hname : a.1 = "tcp_retransmission_rate") :
    a.2.accepted = true := by
  simp only [AggregatedMetrics.models, List.mem_append, List.mem_cons, List.not_mem_nil,
    or_false] at hmodel
  rcases hmodel with (((hmem | hmem) | hmem) | hmem) | rfl | rfl | rfl | rfl | rfl | rfl | rfl
  · obtain rfl := eq_of_mem_present hmem
    obtain ⟨name, argument⟩ := a
    obtain rfl : name = "tcp_retransmission_rate" := hname
    have hargument : argument = .ratio
        (tcpMetrics (tcpPackets packets)).tcpRetransmissionRate := by
      simpa [TcpMetrics.arguments] using ha
    rw [hargument]
    exact accepted_ratio.mpr hrate
  · obtain ⟨quic, -, rfl⟩ := mem_option_arguments hmem
    simp [QuicMetrics.arguments, Prod.ext_iff, hname] at ha
  · obtain ⟨udp, -, rfl⟩ := mem_option_arguments hmem
    simp [UdpMetrics.arguments, Prod.ext_iff, hname] at ha
  · obtain ⟨dns, -, rfl⟩ := mem_option_arguments hmem
    simp [DnsMetrics.arguments, Prod.ext_iff, hname] at ha
  · simp [CaptureMetrics.arguments, Prod.ext_iff, hname] at ha
  · simp [NetworkCapabilities.arguments, Prod.ext_iff, hname] at ha
  · simp [TrafficMetrics.arguments, Prod.ext_iff, hname] at ha
  · simp [ProtocolMixMetrics.arguments, Prod.ext_iff, hname] at ha
  · simp [IpMetrics.arguments, Prod.ext_iff, hname] at ha
  · simp [FlowMetrics.arguments, Prod.ext_iff, hname] at ha
  · simp [TransferMetrics.arguments, Prod.ext_iff, hname] at ha

/-- The one argument that may be rejected, alone in its model's error. -/
theorem tcp_modelError {tcpPackets : List (PacketRecord ℚ)} (h : ∀ p ∈ tcpPackets, p.NonNegative)
    (hrate : ¬InUnit (tcpMetrics tcpPackets).tcpRetransmissionRate) :
    modelError ("TcpMetricsV1", (tcpMetrics tcpPackets).arguments) =
      some ⟨"TcpMetricsV1", ["tcp_retransmission_rate"]⟩ := by
  have hothers := tcp_accepted h
  have hsplit : (tcpMetrics tcpPackets).arguments = (tcpMetrics tcpPackets).arguments.take 16 ++
      ("tcp_retransmission_rate", .ratio (tcpMetrics tcpPackets).tcpRetransmissionRate) ::
        (tcpMetrics tcpPackets).arguments.drop 17 := rfl
  have hnames : ∀ a ∈ (tcpMetrics tcpPackets).arguments.take 16 ++
      (tcpMetrics tcpPackets).arguments.drop 17, a.1 ≠ "tcp_retransmission_rate" := by
    simp [TcpMetrics.arguments]
  have hkept : ∀ {part : Arguments}, (∀ a ∈ part, a ∈ (tcpMetrics tcpPackets).arguments ∧
      a.1 ≠ "tcp_retransmission_rate") → part.filter (fun a => !a.2.accepted) = [] := by
    intro part hpart
    refine List.filter_eq_nil_iff.mpr fun a ha => ?_
    simp [hothers a (hpart a ha).1 (hpart a ha).2]
  have hbad : (Argument.ratio (tcpMetrics tcpPackets).tcpRetransmissionRate).accepted = false := by
    rw [Bool.eq_false_iff]
    exact fun haccepted => hrate (accepted_ratio.mp haccepted)
  have hfilter : (tcpMetrics tcpPackets).arguments.filter (fun a => !a.2.accepted) =
      [("tcp_retransmission_rate", .ratio (tcpMetrics tcpPackets).tcpRetransmissionRate)] := by
    rw [hsplit, List.filter_append, List.filter_cons_of_pos (by simp [hbad]),
      hkept fun a ha => ⟨List.mem_of_mem_take ha, hnames a (List.mem_append_left _ ha)⟩,
      hkept fun a ha => ⟨List.mem_of_mem_drop ha, hnames a (List.mem_append_right _ ha)⟩]
    rfl
  have hall : ((tcpMetrics tcpPackets).arguments.all fun a => a.2.accepted) = false := by
    rw [Bool.eq_false_iff]
    intro hall
    rw [List.all_eq_true] at hall
    have hmem : ("tcp_retransmission_rate",
        Argument.ratio (tcpMetrics tcpPackets).tcpRetransmissionRate) ∈
        (tcpMetrics tcpPackets).arguments := by
      rw [hsplit]
      exact List.mem_append_right _ (List.mem_cons_self ..)
    rw [hall _ hmem] at hbad
    cases hbad
  rw [modelError, if_neg (by simp [hall]), hfilter]
  rfl

/-- The retransmission rate of the result, if it has TCP metrics, is in range. -/
def RateInRange (packets : List (PacketRecord ℚ)) : Prop :=
  InUnit (tcpMetrics (tcpPackets packets)).tcpRetransmissionRate

include h in
/-- The models reject nothing but a retransmission rate. -/
theorem aggregatePackets_cases (hcapture : 1 ≤ captureSizeBytes)
    (htransfer : 1 ≤ transferFileSizeBytes) :
    (RateInRange packets ∧ aggregatePackets packets captureFormat captureSizeBytes scenario
      transferFileSizeBytes supportedFields = .ok (aggregated packets captureFormat captureSizeBytes
        scenario transferFileSizeBytes supportedFields)) ∨
    (¬RateInRange packets ∧ aggregatePackets packets captureFormat captureSizeBytes scenario
      transferFileSizeBytes supportedFields =
        .error ⟨"TcpMetricsV1", ["tcp_retransmission_rate"]⟩) := by
  have haccepted := @models_accepted packets h captureFormat scenario supportedFields
    captureSizeBytes transferFileSizeBytes hcapture htransfer
  have htcp : ∀ p ∈ tcpPackets packets, p.NonNegative :=
    nonNegative_filter (nonNegative_filter h (·.isIp)) (·.isTcp)
  by_cases hrate : RateInRange packets
  · refine Or.inl ⟨hrate, ?_⟩
    have hnone : (aggregated packets captureFormat captureSizeBytes scenario transferFileSizeBytes
        supportedFields).models.findSome? modelError = none := by
      refine List.findSome?_eq_none_iff.mpr fun model hmodel => ?_
      refine if_pos (List.all_eq_true.mpr fun a ha => ?_)
      by_cases hname : a.1 = "tcp_retransmission_rate"
      · exact rate_accepted hmodel hrate ha hname
      · exact haccepted hmodel a ha hname
    simp only [aggregatePackets, hnone]
  · refine Or.inr ⟨hrate, ?_⟩
    have hne : tcpPackets packets ≠ [] := by
      intro hnil
      refine hrate fun v hv => ?_
      rw [hnil] at hv
      cases hv
    have hsome : (aggregated packets captureFormat captureSizeBytes scenario transferFileSizeBytes
        supportedFields).tcp = some (tcpMetrics (tcpPackets packets)) := if_neg hne
    have hfirst : (aggregated packets captureFormat captureSizeBytes scenario
        transferFileSizeBytes supportedFields).models.findSome? modelError =
          some ⟨"TcpMetricsV1", ["tcp_retransmission_rate"]⟩ := by
      simp only [AggregatedMetrics.models, hsome, Option.map_some, Option.toList_some,
        List.cons_append, List.nil_append, List.findSome?_cons, tcp_modelError htcp hrate]
    simp only [aggregatePackets, hfirst]

end Whole

/-- On records that are not negative, all metrics but the retransmission rate are
in range, the checks of the table hold for them, and no model rejects
anything else. -/
theorem metric_ranges {packets : List (PacketRecord ℚ)} (h : ∀ p ∈ packets, p.NonNegative)
    {captureSizeBytes transferFileSizeBytes : ℤ} (hcapture : 1 ≤ captureSizeBytes)
    (htransfer : 1 ≤ transferFileSizeBytes) (captureFormat : CaptureFormat) (scenario : Scenario)
    (supportedFields : Option (List String)) :
    (∀ a ∈ (aggregated packets captureFormat captureSizeBytes scenario transferFileSizeBytes
        supportedFields).arguments, a.1 ≠ "tcp_retransmission_rate" → a.2.accepted = true) ∧
      List.Forall₂ Passes metricColumns (aggregated packets captureFormat captureSizeBytes scenario
        transferFileSizeBytes supportedFields).row ∧
      (aggregatePackets packets captureFormat captureSizeBytes scenario transferFileSizeBytes
          supportedFields = .ok (aggregated packets captureFormat captureSizeBytes scenario
            transferFileSizeBytes supportedFields) ∨
        aggregatePackets packets captureFormat captureSizeBytes scenario transferFileSizeBytes
          supportedFields = .error ⟨"TcpMetricsV1", ["tcp_retransmission_rate"]⟩) := by
  have haccepted := @models_accepted packets h captureFormat scenario supportedFields
    captureSizeBytes transferFileSizeBytes hcapture htransfer
  refine ⟨fun a ha => ?_, row_passes fun model hmodel => haccepted hmodel, ?_⟩
  · obtain ⟨model, hmodel, hmem⟩ := List.mem_flatMap.mp ha
    exact haccepted hmodel a hmem
  · rcases aggregatePackets_cases h captureFormat scenario supportedFields hcapture htransfer with
      ⟨-, hok⟩ | ⟨-, herror⟩
    · exact Or.inl hok
    · exact Or.inr herror

/-! ## The retransmission rate -/

/-- The flagged packets without payload are no more than the data segments that
are not flagged, or there is no data segment. -/
def RetransmissionsCovered {τ : Type} (tcpPackets : List (PacketRecord τ)) : Prop :=
  (∀ p ∈ tcpPackets, ¬0 < p.l4PayloadBytes) ∨
    tcpPackets.countP (fun p => p.retransmitted && !decide (0 < p.l4PayloadBytes)) ≤
      tcpPackets.countP fun p => !p.retransmitted && decide (0 < p.l4PayloadBytes)

/-- Packets that are both are in the numerator and in the denominator. -/
theorem length_retransmitted_le_iff {τ : Type} (tcpPackets : List (PacketRecord τ)) :
    (tcpPackets.filter (·.retransmitted)).length ≤ tcpPackets.countP (0 < ·.l4PayloadBytes) ↔
      tcpPackets.countP (fun p => p.retransmitted && !decide (0 < p.l4PayloadBytes)) ≤
        tcpPackets.countP fun p => !p.retransmitted && decide (0 < p.l4PayloadBytes) := by
  have hflagged : (tcpPackets.filter (·.retransmitted)).length =
      tcpPackets.countP (fun p => p.retransmitted && decide (0 < p.l4PayloadBytes)) +
        tcpPackets.countP fun p => p.retransmitted && !decide (0 < p.l4PayloadBytes) := by
    rw [← List.countP_eq_length_filter,
      List.countP_eq_countP_filter_add _ _ fun p => decide (0 < p.l4PayloadBytes),
      List.countP_filter, List.countP_filter]
  have hdata : tcpPackets.countP (0 < ·.l4PayloadBytes) =
      tcpPackets.countP (fun p => p.retransmitted && decide (0 < p.l4PayloadBytes)) +
        tcpPackets.countP fun p => !p.retransmitted && decide (0 < p.l4PayloadBytes) := by
    rw [List.countP_eq_countP_filter_add _ _ fun p => p.retransmitted, List.countP_filter,
      List.countP_filter]
    congr 2 <;> funext p <;> exact Bool.and_comm ..
  omega

theorem retransmissionRate_inUnit_iff (tcpPackets : List (PacketRecord ℚ)) :
    InUnit (tcpMetrics tcpPackets).tcpRetransmissionRate ↔ RetransmissionsCovered tcpPackets := by
  show InUnit (ratio ((tcpPackets.filter (·.retransmitted)).length : ℕ)
    (tcpPackets.countP (0 < ·.l4PayloadBytes) : ℕ)) ↔ _
  rw [RetransmissionsCovered, ← length_retransmitted_le_iff]
  by_cases hnone : ∀ p ∈ tcpPackets, ¬0 < p.l4PayloadBytes
  · have hzero : tcpPackets.countP (0 < ·.l4PayloadBytes) = 0 :=
      List.countP_eq_zero.mpr fun p hp => by simpa using hnone p hp
    refine iff_of_true (fun v hv => ?_) (Or.inl hnone)
    rw [hzero, ratio, if_pos (by simp)] at hv
    cases hv
  · have hpos : 0 < tcpPackets.countP (0 < ·.l4PayloadBytes) := by
      rw [List.countP_pos_iff]
      simpa using hnone
    have hpos : (0 : ℚ) < (tcpPackets.countP (0 < ·.l4PayloadBytes) : ℕ) := by exact_mod_cast hpos
    rw [or_iff_right hnone]
    constructor
    · intro hunit
      have hle := (hunit _ (if_neg (not_le.mpr hpos))).2
      exact_mod_cast (div_le_one hpos).mp hle
    · intro hle
      exact inUnit_ratio (Nat.cast_nonneg _) (by exact_mod_cast hle)

/-- A `ValidationError` is none of the analyzer's own exceptions. -/
def ValidationError.failure (e : ValidationError) : AnalysisFailure := .other e.title

/-- What is expected of the retransmission rate of these packets: it is a fraction,
`TcpMetricsV1` does not reject it, and a capture whose bytes and times are not
negative does not fail in a way that `process_next` would retry. -/
structure RateBounded (packets : List (PacketRecord ℚ)) (captureFormat : CaptureFormat)
    (captureSizeBytes : ℤ) (scenario : Scenario) (transferFileSizeBytes : ℤ)
    (supportedFields : Option (List String)) : Prop where
  rate : InUnit (tcpMetrics (tcpPackets packets)).tcpRetransmissionRate
  validation : ∀ e, aggregatePackets packets captureFormat captureSizeBytes scenario
    transferFileSizeBytes supportedFields = .error e → e.title = "TcpMetricsV1" →
      "tcp_retransmission_rate" ∉ e.fields
  retried : (∀ p ∈ packets, p.NonNegative) → 1 ≤ captureSizeBytes → 1 ≤ transferFileSizeBytes →
    ∀ e, aggregatePackets packets captureFormat captureSizeBytes scenario transferFileSizeBytes
      supportedFields = .error e → (terminalError e.failure.raised).isSome

/-- A model's error names the arguments it rejects. -/
theorem rejected_of_modelError {model : String × Arguments} {e : ValidationError}
    (h : modelError model = some e) {name : String} (hname : name ∈ e.fields) :
    ∃ a ∈ model.2, a.1 = name ∧ a.2.accepted = false := by
  rw [modelError] at h
  split at h
  · cases h
  · rw [← Option.some.inj h] at hname
    obtain ⟨a, ha, rfl⟩ := List.mem_map.mp hname
    obtain ⟨hmem, hrejected⟩ := List.mem_filter.mp ha
    exact ⟨a, hmem, rfl, by simpa using hrejected⟩

theorem aggregatePackets_error {packets : List (PacketRecord ℚ)} {captureFormat : CaptureFormat}
    {captureSizeBytes : ℤ} {scenario : Scenario} {transferFileSizeBytes : ℤ}
    {supportedFields : Option (List String)} {e : ValidationError}
    (h : aggregatePackets packets captureFormat captureSizeBytes scenario transferFileSizeBytes
      supportedFields = .error e) :
    ∃ model ∈ (aggregated packets captureFormat captureSizeBytes scenario transferFileSizeBytes
      supportedFields).models, modelError model = some e := by
  simp only [aggregatePackets] at h
  split at h
  · rename_i e' hfind
    obtain rfl := Except.error.inj h
    exact List.exists_of_findSome?_eq_some hfind
  · cases h

/-- The rate is bounded for exactly the captures whose flagged packets without
payload are covered. -/
theorem retransmission_rate_bounded_iff (packets : List (PacketRecord ℚ))
    (captureFormat : CaptureFormat) (captureSizeBytes : ℤ) (scenario : Scenario)
    (transferFileSizeBytes : ℤ) (supportedFields : Option (List String)) :
    RateBounded packets captureFormat captureSizeBytes scenario transferFileSizeBytes
      supportedFields ↔ RetransmissionsCovered (tcpPackets packets) := by
  rw [← retransmissionRate_inUnit_iff]
  refine ⟨fun h => h.rate, fun hrate => ⟨hrate, fun e he _ hname => ?_, ?_⟩⟩
  · obtain ⟨model, hmodel, herror⟩ := aggregatePackets_error he
    obtain ⟨a, ha, haname, hrejected⟩ := rejected_of_modelError herror hname
    rw [rate_accepted hmodel hrate ha haname] at hrejected
    cases hrejected
  · intro h hcapture htransfer e he
    rcases aggregatePackets_cases h captureFormat scenario supportedFields hcapture htransfer with
      ⟨-, hok⟩ | ⟨hnot, -⟩
    · rw [hok] at he
      cases he
    · exact absurd hrate hnot

namespace Sample

/-- A TCP packet from one host to another. -/
def segment (timestamp : ℚ) (payload : ℤ) : PacketRecord ℚ where
  timestamp := timestamp
  frameLen := payload + 54
  capturedLen := payload + 54
  direction := some .tx
  ipVersion := some 4
  networkBytes := payload + 40
  srcIp := some "10.0.0.2"
  dstIp := some "192.0.2.1"
  srcPort := some 50000
  dstPort := some 443
  transport := .tcp
  l4PayloadBytes := payload

/-- A SYN that was sent three times, and one data segment. -/
def repeatedSyn : List (PacketRecord ℚ) :=
  [{ segment 0 0 with tcpSyn := true },
    { segment 1 0 with tcpSyn := true, tcpRetransmission := true },
    { segment 3 0 with tcpSyn := true, tcpRetransmission := true }, segment 4 100]

def twoSegments : List (PacketRecord ℚ) :=
  [segment 0 100,
   { segment 1 100 with tcpRetransmission := true, tcpAckRttSeconds := some (1 / 2) }]

theorem segment_nonNegative (timestamp : ℚ) {payload : ℤ} (h : 0 ≤ payload) :
    (segment timestamp payload).NonNegative :=
  ⟨by simp only [segment]; omega, h, nofun, nofun, nofun⟩

end Sample

open Sample in
theorem metric_ranges_twoSegments : (∀ p ∈ twoSegments, p.NonNegative) ∧
    aggregatePackets twoSegments .pcap 400 .upload 200 none =
      .ok (aggregated twoSegments .pcap 400 .upload 200 none) := by
  have h : ∀ p ∈ twoSegments, p.NonNegative := by
    intro p hp
    rcases List.mem_cons.mp hp with rfl | hp
    · exact segment_nonNegative 0 (by decide)
    · obtain rfl := List.mem_singleton.mp hp
      exact ⟨by decide, by decide, nofun, fun v hv => by cases hv; norm_num, nofun⟩
  refine ⟨h, ?_⟩
  rcases (metric_ranges h (show (1 : ℤ) ≤ 400 by decide) (show (1 : ℤ) ≤ 200 by decide)
      .pcap .upload
    none).2.2 with hok | herror
  · exact hok
  · exact absurd herror (by decide +kernel)

open Sample in
/-- Two retransmitted SYNs over one data segment: a rate of 2. -/
theorem repeated_syn_rejected : (∀ p ∈ repeatedSyn, p.NonNegative) ∧
    (tcpMetrics (tcpPackets repeatedSyn)).tcpRetransmissionRate = some 2 ∧
    aggregatePackets repeatedSyn .pcap 400 .upload 100 none =
      .error ⟨"TcpMetricsV1", ["tcp_retransmission_rate"]⟩ ∧
    ¬RateBounded repeatedSyn .pcap 400 .upload 100 none := by
  have h : ∀ p ∈ repeatedSyn, p.NonNegative := by
    intro p hp
    simp only [repeatedSyn, List.mem_cons, List.not_mem_nil, or_false] at hp
    rcases hp with rfl | rfl | rfl | rfl
    · exact ⟨by decide, by decide, nofun, nofun, nofun⟩
    · exact ⟨by decide, by decide, nofun, nofun, nofun⟩
    · exact ⟨by decide, by decide, nofun, nofun, nofun⟩
    · exact segment_nonNegative 4 (by decide)
  have hrate : (tcpMetrics (tcpPackets repeatedSyn)).tcpRetransmissionRate = some 2 := by
    decide +kernel
  refine ⟨h, hrate, by decide +kernel, fun hbounded => ?_⟩
  have hle := (hbounded.rate 2 hrate).2
  norm_num at hle

end Sahabino
