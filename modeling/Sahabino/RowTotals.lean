import Sahabino.TsharkRow

/-!
# Byte totals

How the byte counts of the packets of a list of rows add up. Directions,
IP versions and flows split the packets of a capture, so their counts do
too. TCP, QUIC and other UDP do not: a row has a transport by its ports and
is QUIC by its protocols or any QUIC column, so a TCP packet can also be
counted as QUIC.
-/

namespace Sahabino

open Rel (Double)

/-! ## Splitting a sum -/

theorem sum_filter_add_filter {α β : Type} [AddCommMonoid β] (f : α → β) {q r : α → Bool}
    {xs : List α} (h : ∀ x ∈ xs, r x = !q x) :
    ((xs.filter q).map f).sum + ((xs.filter r).map f).sum = (xs.map f).sum := by
  induction xs with
  | nil => simp
  | cons x xs ih =>
      have ih := ih fun y hy => h y (List.mem_cons_of_mem _ hy)
      have hx := h x (List.mem_cons_self ..)
      rw [List.map_cons, List.sum_cons, ← ih]
      cases hq : q x with
      | true =>
          rw [hq] at hx
          simp [hq, hx, add_assoc]
      | false =>
          rw [hq] at hx
          simp [hq, hx, add_left_comm]

theorem length_filter_add_filter {α : Type} {q r : α → Bool} {xs : List α}
    (h : ∀ x ∈ xs, r x = !q x) : (xs.filter q).length + (xs.filter r).length = xs.length := by
  simpa using sum_filter_add_filter (fun _ => (1 : ℕ)) h

section Split

variable {τ : Type} {packets : List (PacketRecord τ)}

/-- With the direction available, a packet is sent or received. -/
theorem rx_eq_not_tx (h : directionAvailable packets = true) {p : PacketRecord τ}
    (hp : p ∈ ipPackets packets) :
    decide (p.direction = some .rx) = !decide (p.direction = some .tx) := by
  rw [directionAvailable, Bool.and_eq_true, List.all_eq_true] at h
  obtain ⟨d, hd⟩ := Option.isSome_iff_exists.mp (h.2 p hp)
  rw [hd]
  cases d <;> rfl

theorem v6_eq_not_v4 {p : PacketRecord τ} (hp : p ∈ ipPackets packets) :
    decide (p.ipVersion = some 6) = !decide (p.ipVersion = some 4) := by
  have hip := (List.mem_filter.mp hp).2
  rw [PacketRecord.isIp, Bool.or_eq_true, decide_eq_true_eq, decide_eq_true_eq] at hip
  rcases hip with hv | hv <;> rw [hv] <;> rfl

/-- What a packet adds to `tcp_bytes`, `quic_identified_bytes` and `other_udp_bytes`. -/
def PacketRecord.contributions (p : PacketRecord τ) : List ℤ :=
  [if p.isTcp then p.networkBytes else 0, if p.quic then p.networkBytes else 0,
    if p.isOtherUdp then p.networkBytes else 0]

theorem bytesOf_eq_sum (isOf : PacketRecord τ → Bool) : bytesOf packets isOf =
    ((ipPackets packets).map fun p => if isOf p then p.networkBytes else 0).sum := by
  rw [bytesOf, networkBytes]
  generalize ipPackets packets = xs
  induction xs with
  | nil => rfl
  | cons x xs ih =>
      rw [List.map_cons, List.sum_cons, ← ih, List.filter_cons]
      cases isOf x <;> simp

/-- The three counts are the sum of the contributions. -/
theorem transportBytes_eq_sum :
    bytesOf packets (·.isTcp) + bytesOf packets (·.quic) + bytesOf packets (·.isOtherUdp) =
      ((ipPackets packets).map fun p => p.contributions.sum).sum := by
  rw [bytesOf_eq_sum, bytesOf_eq_sum, bytesOf_eq_sum, ← List.sum_map_add, ← List.sum_map_add]
  refine congrArg List.sum (List.map_congr_left fun p _ => ?_)
  simp [PacketRecord.contributions, add_assoc]

end Split

/-! ## Conservation -/

/-- The byte counts of a capture add up. -/
structure BytesConserved {τ : Type} (packets : List (PacketRecord τ)) : Prop where
  network : directionAvailable packets = true → ∃ tx rx,
    (trafficMetrics packets).txNetworkBytes = some tx ∧
      (trafficMetrics packets).rxNetworkBytes = some rx ∧
      tx + rx = (trafficMetrics packets).networkBytesTotal
  payload : directionAvailable packets = true → ∃ tx rx,
    (trafficMetrics packets).txL4PayloadBytes = some tx ∧
      (trafficMetrics packets).rxL4PayloadBytes = some rx ∧
      tx + rx = (trafficMetrics packets).l4PayloadBytesTotal
  counts : directionAvailable packets = true → ∃ tx rx,
    (trafficMetrics packets).txPacketCount = some tx ∧
      (trafficMetrics packets).rxPacketCount = some rx ∧ tx + rx = (ipPackets packets).length
  versions : bytesOf packets (·.ipVersion = some 4) + bytesOf packets (·.ipVersion = some 6) =
    (trafficMetrics packets).networkBytesTotal
  shares : ∀ v4 v6, (protocolMixMetrics packets).ipv4ByteShare = some v4 →
    (protocolMixMetrics packets).ipv6ByteShare = some v6 → v4 + v6 = 1
  atMostOnce : ∀ p ∈ ipPackets packets, p.contributions.countP (· ≠ 0) ≤ 1
  transports : (protocolMixMetrics packets).tcpBytes +
      (protocolMixMetrics packets).quicIdentifiedBytes +
      (protocolMixMetrics packets).otherUdpBytes ≤ (trafficMetrics packets).networkBytesTotal
  flows : ((flowPayload (ipPackets packets)).map (·.2)).sum ≤
    (trafficMetrics packets).l4PayloadBytesTotal

section Conserved

variable {τ : Type} {packets : List (PacketRecord τ)}

theorem ifDirected_eq_some {α : Type} (h : directionAvailable packets = true) (value : α) :
    ifDirected packets value = some value :=
  if_pos h

/-- More than one of the counts gets the bytes of a packet that is TCP and QUIC. -/
theorem contributions_le_one_iff (p : PacketRecord τ) : p.contributions.countP (· ≠ 0) ≤ 1 ↔
    ¬(p.networkBytes ≠ 0 ∧ p.isTcp = true ∧ p.quic = true) := by
  by_cases hzero : p.networkBytes = 0
  · simp [PacketRecord.contributions, hzero]
  · have htransport : p.isTcp = true → p.isOtherUdp = false := by
      intro htcp
      rw [PacketRecord.isTcp, decide_eq_true_eq] at htcp
      simp [PacketRecord.isOtherUdp, htcp]
    cases htcp : p.isTcp with
    | true =>
        rw [htcp] at htransport
        cases hquic : p.quic <;> simp [PacketRecord.contributions, htcp, hquic, htransport, hzero]
    | false =>
        cases hquic : p.quic with
        | true =>
            have hudp : p.isOtherUdp = false := by simp [PacketRecord.isOtherUdp, hquic]
            simp [PacketRecord.contributions, htcp, hquic, hudp, hzero]
        | false =>
            simp only [PacketRecord.contributions, htcp, hquic]
            cases p.isOtherUdp <;> simp [hzero]

theorem contributions_sum_le {p : PacketRecord τ} (hbytes : 0 ≤ p.networkBytes)
    (h : p.contributions.countP (· ≠ 0) ≤ 1) : p.contributions.sum ≤ p.networkBytes := by
  by_cases hzero : p.networkBytes = 0
  · simp [PacketRecord.contributions, hzero]
  · simp only [PacketRecord.contributions] at h ⊢
    by_cases htcp : p.isTcp = true <;> by_cases hquic : p.quic = true <;>
      by_cases hudp : p.isOtherUdp = true <;> simp_all

theorem sum_contributions_le (hbytes : ∀ p ∈ packets, 0 ≤ p.networkBytes)
    (h : ∀ p ∈ ipPackets packets, p.contributions.countP (· ≠ 0) ≤ 1) :
    bytesOf packets (·.isTcp) + bytesOf packets (·.quic) + bytesOf packets (·.isOtherUdp) ≤
      networkBytes (ipPackets packets) := by
  rw [transportBytes_eq_sum, networkBytes]
  refine List.sum_le_sum fun p hp => ?_
  exact contributions_sum_le (hbytes p (List.mem_of_mem_filter hp)) (h p hp)

theorem versions_sum :
    bytesOf packets (·.ipVersion = some 4) + bytesOf packets (·.ipVersion = some 6) =
      networkBytes (ipPackets packets) :=
  sum_filter_add_filter PacketRecord.networkBytes fun _ hp => v6_eq_not_v4 hp

theorem shares_sum {v4 v6 : ℚ} (h4 : (protocolMixMetrics packets).ipv4ByteShare = some v4)
    (h6 : (protocolMixMetrics packets).ipv6ByteShare = some v6) : v4 + v6 = 1 := by
  simp only [protocolMixMetrics, ratio] at h4 h6
  split at h4
  · cases h4
  · rename_i hpos
    rw [if_neg hpos] at h6
    have htotal : (0 : ℚ) < (networkBytes (ipPackets packets) : ℤ) := not_le.mp hpos
    have hsum : ((bytesOf packets (·.ipVersion = some 4) : ℤ) : ℚ) +
        (bytesOf packets (·.ipVersion = some 6) : ℤ) = (networkBytes (ipPackets packets) : ℤ) := by
      exact_mod_cast versions_sum
    rw [← Option.some.inj h4, ← Option.some.inj h6, ← add_div, hsum, div_self htotal.ne']

/-- The totals of the flows are those of the packets that belong to one. -/
theorem flowPayload_sum_le (hpayload : ∀ p ∈ packets, 0 ≤ p.l4PayloadBytes) :
    ((flowPayload (ipPackets packets)).map (·.2)).sum ≤ payloadBytes (ipPackets packets) := by
  have hsplit : (((ipPackets packets).filter fun p => p.flowKey.isSome).map
      (·.l4PayloadBytes)).sum + (((ipPackets packets).filter fun p => !p.flowKey.isSome).map
      (·.l4PayloadBytes)).sum = payloadBytes (ipPackets packets) :=
    sum_filter_add_filter PacketRecord.l4PayloadBytes fun _ _ => rfl
  have hrest : 0 ≤ (((ipPackets packets).filter fun p => !p.flowKey.isSome).map
      (·.l4PayloadBytes)).sum := by
    refine List.sum_nonneg fun n hn => ?_
    obtain ⟨p, hp, rfl⟩ := List.mem_map.mp hn
    exact hpayload p (List.mem_of_mem_filter (List.mem_of_mem_filter hp))
  have htotals : ((flowPayload (ipPackets packets)).map (·.2)).sum =
      (((ipPackets packets).filter fun p => p.flowKey.isSome).map (·.l4PayloadBytes)).sum :=
    Dict.sum_totals PacketRecord.flowKey PacketRecord.l4PayloadBytes (ipPackets packets)
  omega

/-- Everything but the classes of transports is a split of the packets. -/
theorem bytesConserved_iff (hbytes : ∀ p ∈ packets, 0 ≤ p.networkBytes)
    (hpayload : ∀ p ∈ packets, 0 ≤ p.l4PayloadBytes) :
    BytesConserved packets ↔ ∀ p ∈ ipPackets packets, p.contributions.countP (· ≠ 0) ≤ 1 := by
  refine ⟨fun h => h.atMostOnce, fun h => ?_⟩
  have hsplit : directionAvailable packets = true → ∀ p ∈ ipPackets packets,
      decide (p.direction = some .rx) = !decide (p.direction = some .tx) :=
    fun hdir p hp => rx_eq_not_tx hdir hp
  refine ⟨fun hdir => ?_, fun hdir => ?_, fun hdir => ?_, versions_sum, ?_, h,
    sum_contributions_le hbytes h, flowPayload_sum_le hpayload⟩
  · exact ⟨_, _, ifDirected_eq_some hdir _, ifDirected_eq_some hdir _,
      sum_filter_add_filter (·.networkBytes) (hsplit hdir)⟩
  · exact ⟨_, _, ifDirected_eq_some hdir _, ifDirected_eq_some hdir _,
      sum_filter_add_filter (·.l4PayloadBytes) (hsplit hdir)⟩
  · exact ⟨_, _, ifDirected_eq_some hdir _, ifDirected_eq_some hdir _,
      length_filter_add_filter (hsplit hdir)⟩
  · exact fun v4 v6 h4 h6 => shares_sum h4 h6

end Conserved

/-! ## Rows -/

/-- The row has a packet with bytes that are counted as TCP and as QUIC. -/
def Row.countedTwice (row : Row) : Bool :=
  row.readable && row.ipHeader.ipVersion.isSome && 0 < row.ipHeader.networkBytes
    && (integer (row .tcpSrcport)).isSome && (integer (row .tcpDstport)).isSome && row.isQuic

theorem isTcp_record (row : Row) (timestamp : Double) (frameLen capturedLen : ℤ) :
    (row.record timestamp frameLen capturedLen).isTcp =
      ((integer (row .tcpSrcport)).isSome && (integer (row .tcpDstport)).isSome) := by
  rw [Bool.eq_iff_iff, PacketRecord.isTcp, decide_eq_true_eq]
  simp only [Row.record, Row.transportHeader]
  cases integer (row .tcpSrcport) <;> cases integer (row .tcpDstport) <;>
    cases integer (row .udpSrcport) <;> cases integer (row .udpDstport) <;> simp

theorem isIp_record (row : Row) (timestamp : Double) (frameLen capturedLen : ℤ) :
    (row.record timestamp frameLen capturedLen).isIp = row.ipHeader.ipVersion.isSome := by
  rw [Bool.eq_iff_iff, PacketRecord.isIp, Bool.or_eq_true, decide_eq_true_eq, decide_eq_true_eq]
  simp only [Row.record, Row.ipHeader]
  cases integer (row .ipLen) <;> cases integer (row .ipv6Plen) <;> simp

theorem contributions_record_iff {row : Row} {p : PacketRecord Double}
    (h : row.packet = some p) (hip : p.isIp = true) :
    p.contributions.countP (· ≠ 0) ≤ 1 ↔ row.countedTwice = false := by
  obtain ⟨hread, t, n, m, rfl⟩ := Row.record_of_packet h
  have hbytes : (row.record t n m).networkBytes ≠ 0 ↔ 0 < row.ipHeader.networkBytes := by
    show max 0 row.ipHeader.networkBytes ≠ 0 ↔ _
    omega
  rw [isIp_record] at hip
  rw [contributions_le_one_iff, hbytes, isTcp_record, ← Bool.not_eq_true, Row.countedTwice, hread,
    hip]
  simp [Row.record, and_assoc]

/-- The byte counts of the packets of a list of rows add up exactly when no row is
counted twice. -/
theorem byte_conservation_iff (rows : List Row) :
    BytesConserved (rows.filterMap Row.packet) ↔ ∀ row ∈ rows, row.countedTwice = false := by
  have hrow : ∀ {p}, p ∈ rows.filterMap Row.packet → ∃ row ∈ rows, row.packet = some p :=
    fun hp => List.mem_filterMap.mp hp
  have hbytes : ∀ p ∈ rows.filterMap Row.packet, 0 ≤ p.networkBytes := by
    intro p hp
    obtain ⟨row, -, hpacket⟩ := hrow hp
    obtain ⟨-, t, n, m, rfl⟩ := Row.record_of_packet hpacket
    exact le_max_left ..
  have hpayload : ∀ p ∈ rows.filterMap Row.packet, 0 ≤ p.l4PayloadBytes := by
    intro p hp
    obtain ⟨row, -, hpacket⟩ := hrow hp
    obtain ⟨-, t, n, m, rfl⟩ := Row.record_of_packet hpacket
    exact le_max_left ..
  rw [bytesConserved_iff hbytes hpayload]
  constructor
  · intro h row hmem
    by_contra htwice
    rw [Bool.not_eq_false] at htwice
    have hparts := htwice
    simp only [Row.countedTwice, Bool.and_eq_true] at hparts
    obtain ⟨t, n, m, hpacket⟩ := Row.packet_of_readable hparts.1.1.1.1.1
    have hip : (row.record t n m).isIp = true := by
      rw [isIp_record]
      exact hparts.1.1.1.1.2
    have hone := h _ (List.mem_filter.mpr ⟨List.mem_filterMap.mpr ⟨row, hmem, hpacket⟩, hip⟩)
    rw [contributions_record_iff hpacket hip, htwice] at hone
    cases hone
  · intro h p hp
    obtain ⟨hmem, hip⟩ := List.mem_filter.mp hp
    obtain ⟨row, hrow, hpacket⟩ := hrow hmem
    exact (contributions_record_iff hpacket hip).mpr (h row hrow)

namespace Sample

/-- A TCP segment of a tunnel; TShark also finds the QUIC packet inside. -/
def tunnelRow : Row
  | .frameTimeEpoch => some "1.25"
  | .frameLen => some "200"
  | .frameCapLen => some "200"
  | .frameProtocols => some "eth:ethertype:ip:tcp:ppp:ip:udp:quic"
  | .ipLen => some "160"
  | .ipSrc => some "10.0.0.2"
  | .ipDst => some "203.0.113.1"
  | .tcpSrcport => some "50000"
  | .tcpDstport => some "1723"
  | .tcpLen => some "120"
  | _ => none

end Sample

open Sample in
/-- The 160 bytes of one packet are counted as 320. -/
theorem tunnel_counted_twice :
    (trafficMetrics ([tunnelRow].filterMap Row.packet)).networkBytesTotal = 160 ∧
    (protocolMixMetrics ([tunnelRow].filterMap Row.packet)).tcpBytes = 160 ∧
    (protocolMixMetrics ([tunnelRow].filterMap Row.packet)).quicIdentifiedBytes = 160 ∧
    ¬BytesConserved ([tunnelRow].filterMap Row.packet) := by
  have htotal : (trafficMetrics ([tunnelRow].filterMap Row.packet)).networkBytesTotal = 160 := by
    decide +kernel
  have htcp : (protocolMixMetrics ([tunnelRow].filterMap Row.packet)).tcpBytes = 160 := by
    decide +kernel
  have hquic : (protocolMixMetrics ([tunnelRow].filterMap Row.packet)).quicIdentifiedBytes =
      160 := by decide +kernel
  have hudp : (protocolMixMetrics ([tunnelRow].filterMap Row.packet)).otherUdpBytes = 0 := by
    decide +kernel
  refine ⟨htotal, htcp, hquic, fun h => ?_⟩
  have hle := h.transports
  rw [htotal, htcp, hquic, hudp] at hle
  omega

end Sahabino
