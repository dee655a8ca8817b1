import Mathlib.Data.Finset.Card
import Mathlib.Logic.Equiv.Basic
import Mathlib.Tactic.FieldSimp
import Mathlib.Tactic.Linarith
import Sahabino.Packets

/-!
# The byte balance of UDP

`_aggregate_udp` tells the two directions of a flow apart by the order of
its endpoints, which is the order of their texts, and adds up the first
directions and the second directions of all flows. Spelling the addresses
another way swaps the directions of some flows and not of others
(`swapped`), and only the balance can see that.
-/

namespace Sahabino

/-! ## Endpoints and keys -/

namespace Endpoint

def rename (spell : String → String) (e : Endpoint) : Endpoint := (spell e.1, e.2)

theorem rename_injective {spell : String → String} (h : Function.Injective spell) :
    Function.Injective (rename spell) := by
  intro a b hab
  obtain ⟨hip, hport⟩ := Prod.mk.inj hab
  exact Prod.ext (h hip) hport

theorem before_iff {a b : Endpoint} : a.before b = true ↔ a.1 < b.1 ∨ (a.1 = b.1 ∧ a.2 < b.2) := by
  simp [before]

theorem before_asymm {a b : Endpoint} (h : a.before b = true) : b.before a = false := by
  rw [← Bool.not_eq_true, before_iff]
  rw [before_iff] at h
  rintro (hlt | ⟨heq, hlt⟩)
  · rcases h with h | ⟨h, -⟩
    · exact lt_asymm h hlt
    · exact hlt.ne h.symm
  · rcases h with h | ⟨-, h⟩
    · exact h.ne heq.symm
    · omega

theorem eq_of_not_before {a b : Endpoint} (hab : a.before b = false) (hba : b.before a = false) :
    a = b := by
  rw [← Bool.not_eq_true, before_iff, not_or, not_and, not_lt, not_lt] at hab hba
  have hip : a.1 = b.1 := le_antisymm hba.1 hab.1
  exact Prod.ext hip (le_antisymm (hba.2 hip.symm) (hab.2 hip))

end Endpoint

namespace FlowKey

/-- The key of a flow between two endpoints. -/
def between (ipVersion : ℤ) (transport : Transport) (left right : Endpoint) : FlowKey :=
  if right.before left then ⟨ipVersion, right, left, transport⟩
  else ⟨ipVersion, left, right, transport⟩

theorem between_comm (ipVersion : ℤ) (transport : Transport) (left right : Endpoint) :
    between ipVersion transport left right = between ipVersion transport right left := by
  unfold between
  cases hleft : left.before right with
  | true => rw [if_neg (by simp [Endpoint.before_asymm hleft]), if_pos rfl]
  | false =>
      cases hright : right.before left with
      | true => rw [if_pos rfl, if_neg (by simp)]
      | false => rw [Endpoint.eq_of_not_before hleft hright]

/-- A key names its two endpoints, not who is who. -/
theorem between_inj {v v' : ℤ} {t t' : Transport} {a b a' b' : Endpoint}
    (h : between v t a b = between v' t' a' b') :
    v = v' ∧ t = t' ∧ ((a = a' ∧ b = b') ∨ (a = b' ∧ b = a')) := by
  unfold between at h
  split at h <;> split at h <;> obtain ⟨hv, ha, hb, ht⟩ := FlowKey.mk.inj h
  · exact ⟨hv, ht, Or.inl ⟨hb, ha⟩⟩
  · exact ⟨hv, ht, Or.inr ⟨hb, ha⟩⟩
  · exact ⟨hv, ht, Or.inr ⟨ha, hb⟩⟩
  · exact ⟨hv, ht, Or.inl ⟨ha, hb⟩⟩

def rename (spell : String → String) (k : FlowKey) : FlowKey :=
  between k.ipVersion k.transport (k.endpointA.rename spell) (k.endpointB.rename spell)

theorem rename_between (spell : String → String) (v : ℤ) (t : Transport) (a b : Endpoint) :
    (between v t a b).rename spell = between v t (a.rename spell) (b.rename spell) := by
  unfold rename
  by_cases h : b.before a = true
  · rw [show between v t a b = ⟨v, b, a, t⟩ from if_pos h]
    exact between_comm ..
  · rw [show between v t a b = ⟨v, a, b, t⟩ from if_neg h]

end FlowKey

/-! ## Packets -/

namespace PacketRecord

variable {τ : Type}

/-- The packet with its addresses spelled another way. -/
def rename (spell : String → String) (p : PacketRecord τ) : PacketRecord τ :=
  { p with srcIp := p.srcIp.map spell, dstIp := p.dstIp.map spell }

/-- The sender's endpoint is the one that the flow's key names first. -/
def sentByFirst (p : PacketRecord τ) : Bool :=
  p.endpoints.any fun e => !e.2.before e.1

/-- The packet's bytes, if it belongs to a flow. -/
def flowBytes (p : PacketRecord τ) : ℤ := if p.flowKey.isSome then p.networkBytes else 0

/-- The same, with a sign for the direction. -/
def signedBytes (p : PacketRecord τ) : ℤ := if p.sentByFirst then p.flowBytes else -p.flowBytes

/-- The two spellings disagree about which endpoint of the flow comes first. -/
def swapped (spell : String → String) (p : PacketRecord τ) : Bool :=
  (p.rename spell).sentByFirst != p.sentByFirst

theorem flowKey_eq (p : PacketRecord τ) :
    p.flowKey = p.ipVersion.bind fun v => p.endpoints.bind fun e =>
      if p.transport = .other then none else some (.between v p.transport e.1 e.2) := by
  unfold flowKey
  cases p.ipVersion with
  | none => rfl
  | some v =>
      cases p.endpoints with
      | none => rfl
      | some e =>
          show (if _ then none else if _ then _ else _) = if _ then none else some _
          unfold FlowKey.between
          split
          · rfl
          · exact (apply_ite some ..).symm

theorem endpoints_rename (spell : String → String) (p : PacketRecord τ) :
    (p.rename spell).endpoints =
      p.endpoints.map fun e => (e.1.rename spell, e.2.rename spell) := by
  simp only [endpoints, rename]
  cases p.srcIp <;> cases p.srcPort <;> cases p.dstIp <;> cases p.dstPort <;> rfl

theorem flowKey_rename (spell : String → String) (p : PacketRecord τ) :
    (p.rename spell).flowKey = p.flowKey.map (FlowKey.rename spell) := by
  rw [flowKey_eq, flowKey_eq, endpoints_rename]
  rw [show (p.rename spell).ipVersion = p.ipVersion from rfl,
    show (p.rename spell).transport = p.transport from rfl]
  cases p.ipVersion with
  | none => rfl
  | some v =>
      cases p.endpoints with
      | none => rfl
      | some e =>
          by_cases hother : p.transport = .other
          · simp [hother]
          · simp [hother, FlowKey.rename_between]

/-- The keys of two packets stay different. -/
theorem flowKey_rename_inj {spell : String → String} (h : Function.Injective spell)
    {p q : PacketRecord τ} {k k' : FlowKey} (hp : p.flowKey = some k) (hq : q.flowKey = some k')
    (heq : k.rename spell = k'.rename spell) : k = k' := by
  have hform : ∀ {r : PacketRecord τ} {key : FlowKey}, r.flowKey = some key →
      ∃ v t a b, key = .between v t a b := by
    intro r key hkey
    rw [flowKey_eq] at hkey
    obtain ⟨v, -, hkey⟩ := Option.bind_eq_some_iff.mp hkey
    obtain ⟨e, -, hkey⟩ := Option.bind_eq_some_iff.mp hkey
    split at hkey
    · cases hkey
    · exact ⟨_, _, _, _, (Option.some.inj hkey).symm⟩
  obtain ⟨v, t, a, b, rfl⟩ := hform hp
  obtain ⟨v', t', a', b', rfl⟩ := hform hq
  rw [FlowKey.rename_between, FlowKey.rename_between] at heq
  have hinj := Endpoint.rename_injective h
  obtain ⟨rfl, rfl, hends⟩ := FlowKey.between_inj heq
  rcases hends with ⟨ha, hb⟩ | ⟨ha, hb⟩
  · rw [hinj ha, hinj hb]
  · rw [hinj ha, hinj hb, FlowKey.between_comm]

theorem flowBytes_rename (spell : String → String) (p : PacketRecord τ) :
    (p.rename spell).flowBytes = p.flowBytes := by
  simp only [flowBytes, flowKey_rename, Option.isSome_map]
  rfl

theorem signedBytes_rename (spell : String → String) (p : PacketRecord τ) :
    (p.rename spell).signedBytes = if p.swapped spell then -p.signedBytes else p.signedBytes := by
  simp only [signedBytes, swapped, flowBytes_rename]
  by_cases hnew : (p.rename spell).sentByFirst = true <;>
    by_cases hold : p.sentByFirst = true <;> simp [hnew, hold]

/-- The two entries of `flow_directions` that a packet adds to. -/
theorem directionalBytes_eq (p : PacketRecord τ) :
    p.directionalBytes = if p.sentByFirst then (p.flowBytes, 0) else (0, p.flowBytes) := by
  simp only [directionalBytes, flowBytes, sentByFirst, flowKey_eq]
  cases p.ipVersion with
  | none => simp
  | some v =>
      cases p.endpoints with
      | none => simp
      | some e =>
          obtain ⟨left, right⟩ := e
          by_cases hother : p.transport = .other
          · simp [hother]
          · cases hbefore : right.before left with
            | true =>
                have hne : left ≠ right := by
                  rintro rfl
                  simp [Endpoint.before_asymm hbefore] at hbefore
                simp [hother, FlowKey.between, hbefore, hne]
            | false => simp [hother, FlowKey.between, hbefore]

theorem directionalBytes_sum (p : PacketRecord τ) :
    p.directionalBytes.1 + p.directionalBytes.2 = p.flowBytes := by
  rw [directionalBytes_eq]
  split <;> simp

theorem directionalBytes_sub (p : PacketRecord τ) :
    p.directionalBytes.1 - p.directionalBytes.2 = p.signedBytes := by
  rw [directionalBytes_eq, signedBytes]
  split <;> simp

end PacketRecord

/-! ## Totals -/

section Totals

variable {τ : Type} (packets : List (PacketRecord τ))

def totalBytes : ℤ := (packets.map (·.flowBytes)).sum

def netBytes : ℤ := (packets.map (·.signedBytes)).sum

/-- `direction_totals` is a sum over the packets. -/
theorem directionTotals_eq : directionTotals packets = (packets.map (·.directionalBytes)).sum := by
  rw [directionTotals, flowDirections, Dict.sum_totals]
  induction packets with
  | nil => rfl
  | cons p packets ih =>
      cases hkey : p.flowKey with
      | some k =>
          rw [List.filter_cons_of_pos (by simp [hkey]), List.map_cons, List.sum_cons, ih,
            List.map_cons, List.sum_cons]
      | none =>
          have hzero : p.directionalBytes = 0 := by
            rw [PacketRecord.directionalBytes, hkey]
            rfl
          rw [List.filter_cons_of_neg (by simp [hkey]), ih, List.map_cons, List.sum_cons, hzero,
            zero_add]

theorem directionTotals_add : (directionTotals packets).1 + (directionTotals packets).2 =
    totalBytes packets := by
  rw [directionTotals_eq, totalBytes]
  induction packets with
  | nil => rfl
  | cons p packets ih =>
      simp only [List.map_cons, List.sum_cons, Prod.fst_add, Prod.snd_add,
        ← p.directionalBytes_sum, ← ih]
      ring

theorem directionTotals_sub : (directionTotals packets).1 - (directionTotals packets).2 =
    netBytes packets := by
  rw [directionTotals_eq, netBytes]
  induction packets with
  | nil => rfl
  | cons p packets ih =>
      simp only [List.map_cons, List.sum_cons, Prod.fst_add, Prod.snd_add,
        ← p.directionalBytes_sub, ← ih]
      ring

theorem totalBytes_rename (spell : String → String) :
    totalBytes (packets.map (·.rename spell)) = totalBytes packets := by
  rw [totalBytes, List.map_map]
  exact congrArg List.sum (List.map_congr_left fun p _ => p.flowBytes_rename spell)

/-- The net bytes of the flows whose endpoints the spelling swaps, or does not. -/
def netSwapped (spell : String → String) : ℤ := netBytes (packets.filter (·.swapped spell))

def netKept (spell : String → String) : ℤ := netBytes (packets.filter (!·.swapped spell))

theorem netBytes_split (spell : String → String) :
    netBytes packets = netKept packets spell + netSwapped packets spell := by
  simp only [netKept, netSwapped, netBytes]
  induction packets with
  | nil => rfl
  | cons p packets ih =>
      by_cases hswap : p.swapped spell = true
      · simp only [List.map_cons, List.sum_cons, List.filter_cons, hswap, ih, if_true,
          Bool.not_true, Bool.false_eq_true, if_false]
        ring
      · simp only [List.map_cons, List.sum_cons, List.filter_cons, hswap, ih, if_true,
          Bool.not_false, Bool.false_eq_true, if_false]
        ring

theorem netBytes_rename (spell : String → String) :
    netBytes (packets.map (·.rename spell)) =
      netKept packets spell - netSwapped packets spell := by
  simp only [netKept, netSwapped, netBytes, List.map_map]
  induction packets with
  | nil => rfl
  | cons p packets ih =>
      have hsigned := p.signedBytes_rename spell
      by_cases hswap : p.swapped spell = true
      · simp only [List.map_cons, List.sum_cons, List.filter_cons, hswap, ih, if_true,
          Bool.not_true, Bool.false_eq_true, if_false, Function.comp_apply] at hsigned ⊢
        rw [hsigned]
        ring
      · simp only [List.map_cons, List.sum_cons, List.filter_cons, hswap, ih, if_true,
          Bool.not_false, Bool.false_eq_true, if_false, Function.comp_apply] at hsigned ⊢
        rw [hsigned]
        ring

end Totals

/-! ## The balance -/

theorem two_mul_max (a b : ℤ) : 2 * max a b = a + b + |a - b| := by
  rcases le_total a b with h | h
  · rw [max_eq_right h, abs_of_nonpos (by omega)]
    omega
  · rw [max_eq_left h, abs_of_nonneg (by omega)]
    omega

theorem byteBalance_eq (a b : ℤ) : byteBalance (a, b) =
    if 0 < max a b then some (((a + b : ℤ) - (max a b : ℤ)) / (max a b : ℤ) : ℚ) else none := by
  have hmin : min a b = a + b - max a b := by
    have := min_add_max a b
    omega
  simp only [byteBalance, hmin]
  push_cast
  rfl

theorem share_eq_iff {t m m' : ℚ} (hm : 0 < m) (hm' : 0 < m') :
    (t - m) / m = (t - m') / m' ↔ t = 0 ∨ m = m' := by
  rw [div_eq_div_iff hm.ne' hm'.ne']
  constructor
  · intro h
    have hprod : t * (m' - m) = 0 := by linarith
    rcases mul_eq_zero.mp hprod with h0 | h0
    · exact Or.inl h0
    · exact Or.inr (by linarith)
  · rintro (rfl | rfl)
    · ring
    · rfl

/-- Two splits of one total have the same balance when the difference of the two
parts is the same. With negative parts there are two more cases: the total is 0
and neither part is, or no part of either split is positive. -/
theorem byteBalance_eq_iff {a b a' b' : ℤ} (h : a + b = a' + b') :
    byteBalance (a, b) = byteBalance (a', b') ↔ |a - b| = |a' - b'| ∨
      (a + b = 0 ∧ a - b ≠ 0 ∧ a' - b' ≠ 0) ∨
      (a + b + |a - b| ≤ 0 ∧ a + b + |a' - b'| ≤ 0) := by
  have hmax := two_mul_max a b
  have hmax' := two_mul_max a' b'
  rw [byteBalance_eq, byteBalance_eq, ← h]
  rw [← h] at hmax'
  have hnet : a - b = 0 → |a - b| = 0 := fun h0 => by rw [h0, abs_zero]
  have hnet' : a' - b' = 0 → |a' - b'| = 0 := fun h0 => by rw [h0, abs_zero]
  have hpos := abs_pos (a := a - b)
  have hpos' := abs_pos (a := a' - b')
  generalize max a b = m at *
  generalize max a' b' = m' at *
  by_cases hm : 0 < m
  · rw [if_pos hm]
    by_cases hm' : 0 < m'
    · rw [if_pos hm', Option.some.injEq,
        share_eq_iff (by exact_mod_cast hm) (by exact_mod_cast hm')]
      rw [Int.cast_eq_zero, Int.cast_inj]
      constructor
      · rintro (hzero | hsame)
        · refine Or.inr (Or.inl ⟨hzero, fun h0 => ?_, fun h0 => ?_⟩)
          · have := hnet h0
            omega
          · have := hnet' h0
            omega
        · exact Or.inl (by omega)
      · rintro (hsame | ⟨hzero, -⟩ | ⟨hle, -⟩)
        · exact Or.inr (by omega)
        · exact Or.inl hzero
        · omega
    · rw [if_neg hm']
      refine iff_of_false (by simp) ?_
      rintro (hsame | ⟨hzero, -, hne⟩ | ⟨hle, -⟩)
      · omega
      · have := hpos'.mpr hne
        omega
      · omega
  · rw [if_neg hm]
    by_cases hm' : 0 < m'
    · rw [if_pos hm']
      refine iff_of_false (by simp) ?_
      rintro (hsame | ⟨hzero, hne, -⟩ | ⟨-, hle⟩)
      · omega
      · have := hpos.mpr hne
        omega
      · omega
    · rw [if_neg hm']
      exact iff_of_true rfl (Or.inr (Or.inr ⟨by omega, by omega⟩))

/-! ## Other spellings -/

section Spelling

variable {τ : Type}

/-- The spelling does not show in the balance: the flows that it swaps, or those
that it keeps, send as much one way as the other. The last two cases need packets
with a negative number of bytes. -/
def BalanceKept (spell : String → String) (udpPackets : List (PacketRecord τ)) : Prop :=
  netSwapped udpPackets spell = 0 ∨ netKept udpPackets spell = 0 ∨
    (totalBytes udpPackets = 0 ∧ netBytes udpPackets ≠ 0 ∧
      netKept udpPackets spell - netSwapped udpPackets spell ≠ 0) ∨
    (totalBytes udpPackets + |netBytes udpPackets| ≤ 0 ∧
      totalBytes udpPackets + |netKept udpPackets spell - netSwapped udpPackets spell| ≤ 0)

theorem byteBalance_rename_iff (spell : String → String) (udpPackets : List (PacketRecord τ)) :
    byteBalance (directionTotals (udpPackets.map (·.rename spell))) =
      byteBalance (directionTotals udpPackets) ↔ BalanceKept spell udpPackets := by
  have hadd := directionTotals_add udpPackets
  have hsub := directionTotals_sub udpPackets
  have hadd' := directionTotals_add (udpPackets.map (·.rename spell))
  have hsub' := directionTotals_sub (udpPackets.map (·.rename spell))
  rw [totalBytes_rename] at hadd'
  rw [netBytes_rename] at hsub'
  have hparts : |netBytes udpPackets| = |netKept udpPackets spell - netSwapped udpPackets spell| ↔
      netSwapped udpPackets spell = 0 ∨ netKept udpPackets spell = 0 := by
    rw [netBytes_split udpPackets spell, abs_eq_abs]
    omega
  rw [eq_comm, ← Prod.eta (directionTotals udpPackets),
    ← Prod.eta (directionTotals (udpPackets.map _)), byteBalance_eq_iff (hadd.trans hadd'.symm),
    hadd, hsub, hsub', BalanceKept, hparts, or_assoc]

theorem length_dedup_map {α β : Type} [DecidableEq α] [DecidableEq β] {f : α → β} {xs : List α}
    (h : ∀ a ∈ xs, ∀ b ∈ xs, f a = f b → a = b) :
    (xs.map f).dedup.length = xs.dedup.length := by
  have himage : (xs.map f).toFinset = xs.toFinset.image f := by
    ext b
    simp
  rw [← List.card_toFinset, ← List.card_toFinset, himage]
  refine Finset.card_image_of_injOn fun a ha b hb hab => ?_
  exact h a (List.mem_toFinset.mp ha) b (List.mem_toFinset.mp hb) hab

theorem length_flowDirections_rename {spell : String → String} (h : Function.Injective spell)
    (udpPackets : List (PacketRecord τ)) :
    (flowDirections (udpPackets.map (·.rename spell))).length =
      (flowDirections udpPackets).length := by
  have hkeys : (udpPackets.map (·.rename spell)).filterMap (·.flowKey) =
      (udpPackets.filterMap (·.flowKey)).map (FlowKey.rename spell) := by
    rw [List.filterMap_map, List.map_filterMap]
    exact List.filterMap_congr fun p _ => p.flowKey_rename spell
  rw [flowDirections, flowDirections, Dict.totals, Dict.totals, Dict.length_collect,
    Dict.length_collect, hkeys]
  refine length_dedup_map fun k hk k' hk' heq => ?_
  obtain ⟨p, -, hp⟩ := List.mem_filterMap.mp hk
  obtain ⟨q, -, hq⟩ := List.mem_filterMap.mp hk'
  exact PacketRecord.flowKey_rename_inj h hp hq heq

/-- Everything but the balance is spelled away. -/
theorem udpMetrics_rename {spell : String → String} (h : Function.Injective spell)
    (udpPackets : List (PacketRecord τ)) :
    udpMetrics (udpPackets.map (·.rename spell)) =
      { udpMetrics udpPackets with
        udpBidirectionalByteRatio :=
          byteBalance (directionTotals (udpPackets.map (·.rename spell))) } := by
  have hnetwork : networkBytes (udpPackets.map (·.rename spell)) = networkBytes udpPackets := by
    rw [networkBytes, List.map_map]
    rfl
  have hpayload : payloadBytes (udpPackets.map (·.rename spell)) = payloadBytes udpPackets := by
    rw [payloadBytes, List.map_map]
    rfl
  have hsizes : payloadSizes (udpPackets.map (·.rename spell)) = payloadSizes udpPackets := by
    rw [payloadSizes, List.map_map]
    rfl
  simp only [udpMetrics, length_flowDirections_rename h, List.length_map, hnetwork, hpayload,
    hsizes]

theorem aggregateUdp_rename_iff {spell : String → String} (h : Function.Injective spell)
    (packets : List (PacketRecord τ)) :
    aggregateUdp (packets.map (·.rename spell)) = aggregateUdp packets ↔
      BalanceKept spell (packets.filter (·.isOtherUdp)) := by
  have hudp : (packets.map (·.rename spell)).filter (·.isOtherUdp) =
      (packets.filter (·.isOtherUdp)).map (·.rename spell) := List.filter_map
  simp only [aggregateUdp, hudp, List.map_eq_nil_iff]
  split
  · rename_i hnil
    rw [hnil]
    exact iff_of_true rfl (Or.inl rfl)
  · rw [Option.some.injEq, udpMetrics_rename h, ← byteBalance_rename_iff]
    constructor
    · intro heq
      exact congrArg UdpMetrics.udpBidirectionalByteRatio heq
    · intro heq
      rw [heq]
      rfl

end Spelling

/-! ## One sender -/

section OneSender

variable {τ : Type} {udpPackets : List (PacketRecord τ)}

/-- Every flow carries bytes in one direction only, and `host` sends all of them. -/
structure OneWay (host : String) (udpPackets : List (PacketRecord τ)) : Prop where
  nonneg : ∀ p ∈ udpPackets, 0 ≤ p.flowBytes
  carried : ∃ p ∈ udpPackets, 0 < p.flowBytes
  sender : ∀ p ∈ udpPackets, 0 < p.flowBytes → p.srcIp = some host
  direction : ∀ p ∈ udpPackets, ∀ q ∈ udpPackets, p.flowKey = q.flowKey → 0 < p.flowBytes →
    0 < q.flowBytes → p.source = q.source

/-- All bytes are sent by the endpoint that its flow's key names first, or all by
the other. -/
def OnOneSide (udpPackets : List (PacketRecord τ)) : Prop :=
  (∀ p ∈ udpPackets, 0 < p.flowBytes → p.sentByFirst = true) ∨
    ∀ p ∈ udpPackets, 0 < p.flowBytes → p.sentByFirst = false

theorem directionTotals_fst (udpPackets : List (PacketRecord τ)) :
    (directionTotals udpPackets).1 = totalBytes (udpPackets.filter (·.sentByFirst)) := by
  rw [directionTotals_eq, totalBytes]
  induction udpPackets with
  | nil => rfl
  | cons p udpPackets ih =>
      rw [List.map_cons, List.sum_cons, Prod.fst_add, ih, p.directionalBytes_eq, List.filter_cons]
      split <;> simp

theorem directionTotals_snd (udpPackets : List (PacketRecord τ)) :
    (directionTotals udpPackets).2 = totalBytes (udpPackets.filter (!·.sentByFirst)) := by
  rw [directionTotals_eq, totalBytes]
  induction udpPackets with
  | nil => rfl
  | cons p udpPackets ih =>
      rw [List.map_cons, List.sum_cons, Prod.snd_add, ih, p.directionalBytes_eq, List.filter_cons]
      by_cases hfirst : p.sentByFirst = true <;> simp [hfirst]

theorem totalBytes_nonneg (h : ∀ p ∈ udpPackets, 0 ≤ p.flowBytes) : 0 ≤ totalBytes udpPackets := by
  refine List.sum_nonneg fun n hn => ?_
  obtain ⟨p, hp, rfl⟩ := List.mem_map.mp hn
  exact h p hp

theorem totalBytes_eq_zero_iff (h : ∀ p ∈ udpPackets, 0 ≤ p.flowBytes) :
    totalBytes udpPackets = 0 ↔ ∀ p ∈ udpPackets, ¬0 < p.flowBytes := by
  induction udpPackets with
  | nil => simp [totalBytes]
  | cons p udpPackets ih =>
      have hp := h p (List.mem_cons_self ..)
      have htail : ∀ q ∈ udpPackets, 0 ≤ q.flowBytes :=
        fun q hq => h q (List.mem_cons_of_mem _ hq)
      have hcons : totalBytes (p :: udpPackets) = p.flowBytes + totalBytes udpPackets := by
        simp [totalBytes]
      have hnonneg := totalBytes_nonneg htail
      rw [List.forall_mem_cons, ← ih htail, hcons]
      omega

theorem byteBalance_eq_zero_iff {a b : ℤ} (ha : 0 ≤ a) (hb : 0 ≤ b) (hpos : 0 < a + b) :
    byteBalance (a, b) = some 0 ↔ a = 0 ∨ b = 0 := by
  have hmax : 0 < max a b := by omega
  have hmax' : ((max a b : ℤ) : ℚ) ≠ 0 := by exact_mod_cast hmax.ne'
  have hzero : byteBalance (a, b) = some 0 ↔ min a b = 0 := by
    simp only [byteBalance, if_pos hmax, Option.some.injEq]
    rw [div_eq_zero_iff, or_iff_left hmax', Int.cast_eq_zero]
  rw [hzero]
  omega

theorem oneWay_balance_iff {host : String} (h : OneWay host udpPackets) :
    byteBalance (directionTotals udpPackets) = some 0 ↔ OnOneSide udpPackets := by
  obtain ⟨hnonneg, ⟨p, hp, hbytes⟩, -, -⟩ := h
  have hnonneg' : ∀ f : PacketRecord τ → Bool, ∀ p ∈ udpPackets.filter f, 0 ≤ p.flowBytes :=
    fun f p hp => hnonneg p (List.mem_of_mem_filter hp)
  have htotal : 0 < totalBytes udpPackets := by
    refine lt_of_le_of_ne (totalBytes_nonneg hnonneg) fun heq => ?_
    exact (totalBytes_eq_zero_iff hnonneg).mp heq.symm p hp hbytes
  have hsum := directionTotals_add udpPackets
  rw [← Prod.eta (directionTotals udpPackets), directionTotals_fst, directionTotals_snd] at *
  rw [byteBalance_eq_zero_iff (totalBytes_nonneg (hnonneg' _)) (totalBytes_nonneg (hnonneg' _))
    (by omega), totalBytes_eq_zero_iff (hnonneg' _),
    totalBytes_eq_zero_iff (hnonneg' _), or_comm, OnOneSide]
  refine or_congr ?_ ?_
  · simp only [List.mem_filter, and_imp, Bool.not_eq_true']
    refine forall₂_congr fun q hq => ?_
    cases q.sentByFirst <;> simp
  · simp only [List.mem_filter, and_imp]
    refine forall₂_congr fun q hq => ?_
    cases q.sentByFirst <;> simp

end OneSender

/-- Another spelling of the addresses leaves the metrics as they are exactly when it
keeps the balance, and a host that only sends has a balance of 0 exactly when its
endpoints stand on one side of all its flows. -/
theorem udp_spelling_iff {τ : Type} (packets : List (PacketRecord τ)) :
    (∀ spell : String → String, Function.Injective spell →
      (aggregateUdp (packets.map (·.rename spell)) = aggregateUdp packets ↔
        BalanceKept spell (packets.filter (·.isOtherUdp)))) ∧
    ∀ host, OneWay host (packets.filter (·.isOtherUdp)) →
      ((aggregateUdp packets).bind (·.udpBidirectionalByteRatio) = some 0 ↔
        OnOneSide (packets.filter (·.isOtherUdp))) := by
  refine ⟨fun spell hinj => aggregateUdp_rename_iff hinj packets, fun host h => ?_⟩
  obtain ⟨p, hp, -⟩ := h.carried
  rw [← oneWay_balance_iff h, aggregateUdp, if_neg (List.ne_nil_of_mem hp)]
  rfl

/-- For packets whose sizes are not negative, the balance is kept when the swapped
flows or the others are even. -/
theorem balanceKept_iff_of_nonneg {τ : Type} {udpPackets : List (PacketRecord τ)}
    (h : ∀ p ∈ udpPackets, 0 ≤ p.networkBytes) (spell : String → String) :
    BalanceKept spell udpPackets ↔
      netSwapped udpPackets spell = 0 ∨ netKept udpPackets spell = 0 := by
  have hflow : ∀ p ∈ udpPackets, 0 ≤ p.flowBytes := by
    intro p hp
    rw [PacketRecord.flowBytes]
    split
    · exact h p hp
    · exact le_rfl
  have hnonneg := totalBytes_nonneg hflow
  have heven : totalBytes udpPackets = 0 → netBytes udpPackets = 0 := by
    intro hzero
    have hnone := (totalBytes_eq_zero_iff hflow).mp hzero
    refine List.sum_eq_zero fun n hn => ?_
    obtain ⟨p, hp, rfl⟩ := List.mem_map.mp hn
    have hbytes : p.flowBytes = 0 := le_antisymm (not_lt.mp (hnone p hp)) (hflow p hp)
    simp [PacketRecord.signedBytes, hbytes]
  refine ⟨?_, fun hk => hk.elim Or.inl fun hk => Or.inr (Or.inl hk)⟩
  have habs := abs_nonneg (netBytes udpPackets)
  have habs' := abs_nonneg (netKept udpPackets spell - netSwapped udpPackets spell)
  rintro (hs | hk | ⟨hzero, hne, -⟩ | ⟨hle, hle'⟩)
  · exact Or.inl hs
  · exact Or.inr hk
  · exact absurd (heven hzero) hne
  · have hnet := heven (by omega)
    rw [netBytes_split udpPackets spell] at hnet
    have hdiff := abs_nonpos_iff.mp
      (show |netKept udpPackets spell - netSwapped udpPackets spell| ≤ 0
      by omega)
    exact Or.inl (by omega)

namespace Sample

/-- A datagram of 100 bytes. -/
def datagram (srcIp dstIp : String) : PacketRecord ℚ where
  timestamp := 0
  frameLen := 114
  capturedLen := 114
  direction := some .tx
  ipVersion := some 4
  networkBytes := 100
  srcIp := some srcIp
  dstIp := some dstIp
  srcPort := some 40000
  dstPort := some 9000
  transport := .udp
  l4PayloadBytes := 72

/-- A host that sends one datagram to each of two servers. -/
def twoServers : List (PacketRecord ℚ) :=
  [datagram "10.0.0.5" "10.0.0.1", datagram "10.0.0.5" "10.0.0.9"]

end Sample

open Sample in
theorem twoServers_oneWay : OneWay "10.0.0.5" (twoServers.filter (·.isOtherUdp)) := by
  refine ⟨?_, ⟨datagram "10.0.0.5" "10.0.0.1", ?_, ?_⟩, ?_, ?_⟩ <;> decide +kernel

open Sample in
/-- The host only sends, yet its balance is 1; with the first server's address
spelled "10.0.0.8" it is 0. -/
theorem twoServers_unbalanced : Function.Injective (Equiv.swap "10.0.0.1" "10.0.0.8") ∧
    OneWay "10.0.0.5" (twoServers.filter (·.isOtherUdp)) ∧
    (aggregateUdp twoServers).bind (·.udpBidirectionalByteRatio) = some 1 ∧
    (aggregateUdp (twoServers.map (·.rename (Equiv.swap "10.0.0.1" "10.0.0.8")))).bind
      (·.udpBidirectionalByteRatio) = some 0 ∧
    aggregateUdp (twoServers.map (·.rename (Equiv.swap "10.0.0.1" "10.0.0.8"))) ≠
      aggregateUdp twoServers := by
  refine ⟨Equiv.injective _, twoServers_oneWay, ?_, ?_, ?_⟩ <;> decide +kernel

open Sample in
theorem udp_spelling_iff_twoServers :
    ¬BalanceKept (Equiv.swap "10.0.0.1" "10.0.0.8") (twoServers.filter (·.isOtherUdp)) ∧
      aggregateUdp (twoServers.map (·.rename (Equiv.swap "10.0.0.7" "10.0.0.8"))) =
        aggregateUdp twoServers ∧
      ¬OnOneSide (twoServers.filter (·.isOtherUdp)) := by
  obtain ⟨hspell, hside⟩ := udp_spelling_iff twoServers
  refine ⟨fun hkept => ?_, ?_, fun hone => ?_⟩
  · have := (hspell _ (Equiv.injective _)).mpr hkept
    revert this
    decide +kernel
  · refine (hspell _ (Equiv.injective _)).mpr (Or.inl ?_)
    decide +kernel
  · have := (hside "10.0.0.5" twoServers_oneWay).mpr hone
    revert this
    decide +kernel

end Sahabino
