import Sahabino.TsharkRow

/-!
# Spellings of a cell

TShark prints an integer in decimal or, for some columns and versions, in
hexadecimal, and a boolean as `1` or as `True`. `_integer` reads both
integers and neither of the booleans' names; `_flag` compares texts, so
that `0x0` is set; `_direction` knows two decimal texts. What a row's
packet takes from a cell is said by `SameReading`, and two rows that agree
there have the same packet (`packet_congr`).
-/

namespace Sahabino

/-! ## What a cell is read for -/

inductive Reading where
  | number
  | numberOrPresence
  | presence
  | flag
  | direction
  | time
  | text
  | protocols
deriving DecidableEq

def FieldName.reading : FieldName → Reading
  | frameTimeEpoch | tcpAnalysisInitialRtt | tcpAnalysisAckRtt | dnsTime => .time
  | framePacketFlagsDirection => .direction
  | frameProtocols => .protocols
  | ipSrc | ipDst | ipv6Src | ipv6Dst | quicVersion | quicLongPacketType => .text
  | ipv6FraghdrOffset => .presence
  | quicSpinBit => .numberOrPresence
  | ipFlagsMf | tcpFlagsSyn | tcpFlagsAck | tcpFlagsReset | tcpAnalysisRetransmission
  | tcpAnalysisFastRetransmission | tcpAnalysisSpuriousRetransmission | tcpAnalysisZeroWindow
  | tcpAnalysisWindowFull | tcpAnalysisOutOfOrder | tcpAnalysisDuplicateAck
  | tcpAnalysisLostSegment => .flag
  | frameLen | frameCapLen | ipLen | ipFragOffset | ipDsfieldEcn | ipv6Plen | ipv6Tclass
  | tcpSrcport | tcpDstport | tcpStream | tcpLen | tcpWindowSizeValue | udpSrcport | udpDstport
  | udpLength | dnsFlagsResponse | dnsFlagsRcode | icmpType | icmpv6Type => .number

/-- The two cells are read alike. -/
def SameReading (a b : Option String) : Reading → Prop
  | .number => integer a = integer b
  | .numberOrPresence => integer a = integer b ∧ (first a).isSome = (first b).isSome
  | .presence => (first a).isSome = (first b).isSome
  | .flag => Sahabino.flag a = Sahabino.flag b
  | .direction => Sahabino.direction a = Sahabino.direction b
  | .time => floatCell a = floatCell b
  | .text => first a = first b
  | .protocols => a = b

theorem SameReading.refl (a : Option String) (r : Reading) : SameReading a a r := by
  cases r with
  | numberOrPresence => exact ⟨rfl, rfl⟩
  | _ => exact rfl

/-- The rows are read alike but for the flag of a fragment, which is not the only
sign of one. -/
def Agree (row row' : Row) : Prop :=
  ∀ c : FieldName, c ≠ .ipFlagsMf → SameReading (row c) (row' c) c.reading

theorem ipHeader_congr {row row' : Row} (h : Agree row row') :
    row.ipHeader = row'.ipHeader := by
  have hlen : integer (row .ipLen) = integer (row' .ipLen) := h .ipLen nofun
  have hplen : integer (row .ipv6Plen) = integer (row' .ipv6Plen) := h .ipv6Plen nofun
  have hsrc : first (row .ipSrc) = first (row' .ipSrc) := h .ipSrc nofun
  have hdst : first (row .ipDst) = first (row' .ipDst) := h .ipDst nofun
  have hecn : integer (row .ipDsfieldEcn) = integer (row' .ipDsfieldEcn) := h .ipDsfieldEcn nofun
  have hsrc6 : first (row .ipv6Src) = first (row' .ipv6Src) := h .ipv6Src nofun
  have hdst6 : first (row .ipv6Dst) = first (row' .ipv6Dst) := h .ipv6Dst nofun
  have hclass : integer (row .ipv6Tclass) = integer (row' .ipv6Tclass) := h .ipv6Tclass nofun
  simp only [Row.ipHeader, hlen, hplen, hsrc, hdst, hecn, hsrc6, hdst6, hclass]

theorem transportHeader_congr {row row' : Row} (h : Agree row row') :
    row.transportHeader = row'.transportHeader := by
  have htcpSrc : integer (row .tcpSrcport) = integer (row' .tcpSrcport) := h .tcpSrcport nofun
  have htcpDst : integer (row .tcpDstport) = integer (row' .tcpDstport) := h .tcpDstport nofun
  have htcpLen : integer (row .tcpLen) = integer (row' .tcpLen) := h .tcpLen nofun
  have hudpSrc : integer (row .udpSrcport) = integer (row' .udpSrcport) := h .udpSrcport nofun
  have hudpDst : integer (row .udpDstport) = integer (row' .udpDstport) := h .udpDstport nofun
  have hudpLen : integer (row .udpLength) = integer (row' .udpLength) := h .udpLength nofun
  simp only [Row.transportHeader, htcpSrc, htcpDst, htcpLen, hudpSrc, hudpDst, hudpLen]

theorem isQuic_congr {row row' : Row} (h : Agree row row') : row.isQuic = row'.isQuic := by
  have hprotocols : row .frameProtocols = row' .frameProtocols := h .frameProtocols nofun
  have hversion : first (row .quicVersion) = first (row' .quicVersion) := h .quicVersion nofun
  have htype : first (row .quicLongPacketType) = first (row' .quicLongPacketType) :=
    h .quicLongPacketType nofun
  have hspin : (first (row .quicSpinBit)).isSome = (first (row' .quicSpinBit)).isSome :=
    (h .quicSpinBit nofun).2
  simp only [Row.isQuic, hprotocols, hversion, htype, hspin]

theorem hasFragmentOffset_congr {row row' : Row} (h : Agree row row') :
    row.hasFragmentOffset = row'.hasFragmentOffset := by
  have hoffset : integer (row .ipFragOffset) = integer (row' .ipFragOffset) := h .ipFragOffset nofun
  have hheader : (first (row .ipv6FraghdrOffset)).isSome =
      (first (row' .ipv6FraghdrOffset)).isSome :=
    h .ipv6FraghdrOffset nofun
  simp only [Row.hasFragmentOffset, hoffset, hheader]

/-- The packet is a fragment. -/
def Row.isFragment (row : Row) : Bool := flag (row .ipFlagsMf) || row.hasFragmentOffset

theorem record_congr {row row' : Row} (h : Agree row row')
    (hfragment : row.isFragment = row'.isFragment) (timestamp : Rel.Double)
    (frameLen capturedLen : ℤ) :
    row.record timestamp frameLen capturedLen = row'.record timestamp frameLen capturedLen := by
  have number : ∀ c : FieldName, c.reading = .number → integer (row c) = integer (row' c) := by
    intro c hc
    have hcell := h c (by rintro rfl; cases hc)
    rwa [hc] at hcell
  have flags : ∀ c : FieldName, c.reading = .flag → c ≠ .ipFlagsMf →
      flag (row c) = flag (row' c) := by
    intro c hc hne
    have hcell := h c hne
    rwa [hc] at hcell
  have times : ∀ c : FieldName, c.reading = .time → floatCell (row c) = floatCell (row' c) := by
    intro c hc
    have hcell := h c (by rintro rfl; cases hc)
    rwa [hc] at hcell
  have texts : ∀ c : FieldName, c.reading = .text → first (row c) = first (row' c) := by
    intro c hc
    have hcell := h c (by rintro rfl; cases hc)
    rwa [hc] at hcell
  have hdirection : direction (row .framePacketFlagsDirection) =
      direction (row' .framePacketFlagsDirection) := h .framePacketFlagsDirection nofun
  have hspin : integer (row .quicSpinBit) = integer (row' .quicSpinBit) := (h .quicSpinBit nofun).1
  unfold Row.isFragment at hfragment
  simp only [Row.record, hdirection, ipHeader_congr h, transportHeader_congr h, isQuic_congr h,
    hfragment, hspin, number .tcpStream rfl, number .icmpType rfl, number .icmpv6Type rfl,
    number .tcpWindowSizeValue rfl, number .dnsFlagsResponse rfl, number .dnsFlagsRcode rfl,
    flags .tcpFlagsSyn rfl nofun, flags .tcpFlagsAck rfl nofun, flags .tcpFlagsReset rfl nofun,
    flags .tcpAnalysisRetransmission rfl nofun, flags .tcpAnalysisFastRetransmission rfl nofun,
    flags .tcpAnalysisSpuriousRetransmission rfl nofun, flags .tcpAnalysisZeroWindow rfl nofun,
    flags .tcpAnalysisWindowFull rfl nofun, flags .tcpAnalysisOutOfOrder rfl nofun,
    flags .tcpAnalysisDuplicateAck rfl nofun, flags .tcpAnalysisLostSegment rfl nofun,
    times .tcpAnalysisInitialRtt rfl, times .tcpAnalysisAckRtt rfl, times .dnsTime rfl,
    texts .quicVersion rfl, texts .quicLongPacketType rfl]

/-- Rows whose cells are read alike have the same packet. -/
theorem packet_congr {row row' : Row} (h : Agree row row')
    (hfragment : row.isFragment = row'.isFragment) : row.packet = row'.packet := by
  have htime : floatCell (row .frameTimeEpoch) = floatCell (row' .frameTimeEpoch) :=
    h .frameTimeEpoch nofun
  have hlen : integer (row .frameLen) = integer (row' .frameLen) := h .frameLen nofun
  have hcap : integer (row .frameCapLen) = integer (row' .frameCapLen) := h .frameCapLen nofun
  simp only [Row.packet, htime, hlen, hcap, record_congr h hfragment]

/-- The row with another text in one cell. -/
def Row.set (row : Row) (c : FieldName) (s : String) : Row := Function.update row c (some s)

theorem set_self (row : Row) (c : FieldName) (s : String) : row.set c s c = some s :=
  Function.update_self ..

theorem set_of_ne (row : Row) {c c' : FieldName} (h : c' ≠ c) (s : String) :
    row.set c s c' = row c' :=
  Function.update_of_ne h ..

theorem agree_set (row : Row) {c : FieldName} {a b : String}
    (h : c ≠ .ipFlagsMf → SameReading (some a) (some b) c.reading) :
    Agree (row.set c a) (row.set c b) := by
  intro c' hc'
  by_cases hc : c' = c
  · subst hc
    rw [set_self, set_self]
    exact h hc'
  · rw [set_of_ne row hc, set_of_ne row hc]
    exact SameReading.refl _ _

theorem packet_set_congr (row : Row) {c : FieldName} {a b : String}
    (h : SameReading (some a) (some b) c.reading) :
    (row.set c a).packet = (row.set c b).packet := by
  have hagree : Agree (row.set c a) (row.set c b) := agree_set row fun _ => h
  refine packet_congr hagree ?_
  unfold Row.isFragment
  rw [hasFragmentOffset_congr hagree]
  by_cases hc : .ipFlagsMf = c
  · subst hc
    have hflag : flag (some a) = flag (some b) := h
    rw [set_self, set_self, hflag]
  · rw [set_of_ne row hc, set_of_ne row hc]

/-! ## Texts of integers -/

def withoutSign : List Char → List Char
  | '+' :: s | '-' :: s => s
  | s => s

/-- A decimal integer, with blanks around it. -/
def isDecimalText (s : String) : Bool :=
  let digits := withoutSign (Py.strip s.toList)
  !digits.isEmpty && digits.all Char.isDigit

/-- The letters and digits after `0x`. -/
def hexDigits : List Char → Option (List Char)
  | '0' :: 'x' :: s | '0' :: 'X' :: s => some s
  | _ => none

def isHexDigit (c : Char) : Bool := (Py.digitValue 16 c).isSome

/-- A hexadecimal integer, with blanks around it. -/
def isHexText (s : String) : Bool :=
  (hexDigits (withoutSign (Py.strip s.toList))).any fun digits =>
    !digits.isEmpty && digits.all isHexDigit

theorem mem_withoutSign {s : List Char} {c : Char} (h : c ∈ s) :
    c ∈ withoutSign s ∨ c = '+' ∨ c = '-' := by
  unfold withoutSign
  split
  · rcases List.mem_cons.mp h with rfl | h
    · exact Or.inr (Or.inl rfl)
    · exact Or.inl h
  · rcases List.mem_cons.mp h with rfl | h
    · exact Or.inr (Or.inr rfl)
    · exact Or.inl h
  · exact Or.inl h

theorem mem_of_mem_withoutSign {s : List Char} {c : Char} (h : c ∈ withoutSign s) : c ∈ s := by
  unfold withoutSign at h
  split at h
  · exact List.mem_cons_of_mem _ h
  · exact List.mem_cons_of_mem _ h
  · exact h

theorem decimal_chars {s : String} (h : isDecimalText s = true) {c : Char}
    (hc : c ∈ Py.strip s.toList) : c.isDigit = true ∨ c = '+' ∨ c = '-' := by
  rw [isDecimalText, Bool.and_eq_true, List.all_eq_true] at h
  exact (mem_withoutSign hc).imp_left (h.2 c)

theorem decimal_ne_nil {s : String} (h : isDecimalText s = true) : Py.strip s.toList ≠ [] := by
  intro hnil
  rw [isDecimalText, hnil] at h
  cases h

/-- What stands after the sign of a hexadecimal text. -/
theorem hex_eq {s : String} (h : isHexText s = true) : ∃ x digits, (x = 'x' ∨ x = 'X') ∧
    withoutSign (Py.strip s.toList) = '0' :: x :: digits ∧
    ∀ c ∈ digits, isHexDigit c = true := by
  rw [isHexText, Option.any_eq_true] at h
  obtain ⟨digits, hdigits, hall⟩ := h
  rw [Bool.and_eq_true, List.all_eq_true] at hall
  unfold hexDigits at hdigits
  split at hdigits
  · rename_i s' heq
    obtain rfl := Option.some.inj hdigits
    exact ⟨'x', _, Or.inl rfl, heq, hall.2⟩
  · rename_i s' heq
    obtain rfl := Option.some.inj hdigits
    exact ⟨'X', _, Or.inr rfl, heq, hall.2⟩
  · cases hdigits

theorem toList_lower_stripped (s : String) :
    (lower (stripped s)).toList = (Py.strip s.toList).map Char.toLower := by
  simp [lower, stripped]

/-- A hexadecimal text has an `x` in it. -/
theorem hex_has_x {s : String} (h : isHexText s = true) : 'x' ∈ (lower (stripped s)).toList := by
  obtain ⟨x, digits, hx, heq, -⟩ := hex_eq h
  have hmem : x ∈ Py.strip s.toList := mem_of_mem_withoutSign (by rw [heq]; simp)
  rw [toList_lower_stripped, List.mem_map]
  refine ⟨x, hmem, ?_⟩
  rcases hx with rfl | rfl <;> rfl

theorem hex_not_mem {s : String} {words : List String} (h : isHexText s = true)
    (hwords : ∀ w ∈ words, 'x' ∉ w.toList) : lower (stripped s) ∉ words :=
  fun hmem => hwords _ hmem (hex_has_x h)

theorem flag_hex {s : String} (h : isHexText s = true) : flag (some s) = true := by
  rw [flag, Option.any_some, decide_eq_true_eq]
  exact hex_not_mem h (by decide)

theorem direction_hex {s : String} (h : isHexText s = true) : direction (some s) = none := by
  rw [direction, Option.getD_some, if_neg (hex_not_mem h (by decide)),
    if_neg (hex_not_mem h (by decide))]

theorem toLower_of_isDigit {c : Char} (h : c.isDigit = true) : c.toLower = c := by
  have hle : c.val ≤ '9'.val := by
    rw [Char.isDigit, Bool.and_eq_true, decide_eq_true_eq, decide_eq_true_eq] at h
    exact h.2
  refine dif_neg fun hupper => ?_
  exact absurd (UInt32.le_trans hupper.1 hle) (by decide)

/-- Lower case leaves a decimal text as it is. -/
theorem lower_decimal {s : String} (h : isDecimalText s = true) :
    lower (stripped s) = stripped s := by
  refine String.toList_inj.mp ?_
  rw [toList_lower_stripped, stripped, String.toList_ofList]
  have hfixed : ∀ c ∈ Py.strip s.toList, c.toLower = id c := by
    intro c hc
    rcases decimal_chars h hc with hdigit | rfl | rfl
    · exact toLower_of_isDigit hdigit
    · rfl
    · rfl
  rw [List.map_congr_left hfixed, List.map_id]

/-- A decimal text is none of the words. -/
theorem decimal_ne_word {s w : String} (h : isDecimalText s = true) {c : Char}
    (hc : c ∈ w.toList) (hword : ¬(c.isDigit = true ∨ c = '+' ∨ c = '-')) : stripped s ≠ w := by
  rintro rfl
  rw [stripped, String.toList_ofList] at hc
  exact hword (decimal_chars h hc)

theorem stripped_ne_empty {s : String} (h : isDecimalText s = true) : stripped s ≠ "" := by
  intro heq
  have hlist := congrArg String.toList heq
  rw [stripped, String.toList_ofList] at hlist
  exact decimal_ne_nil h hlist

/-- Of the decimal texts only `0` is an unset flag. -/
theorem flag_decimal {s : String} (h : isDecimalText s = true) :
    flag (some s) = decide (stripped s ≠ "0") := by
  have hfalse : stripped s ≠ "false" := decimal_ne_word h (c := 'f') (by decide) (by decide)
  have hno : stripped s ≠ "no" := decimal_ne_word h (c := 'n') (by decide) (by decide)
  rw [flag, Option.any_some, lower_decimal h]
  simp [stripped_ne_empty h, hfalse, hno]

/-- Of the decimal texts `1` and `2` are directions. -/
theorem direction_decimal {s : String} (h : isDecimalText s = true) :
    direction (some s) = none ↔ stripped s ≠ "1" ∧ stripped s ≠ "2" := by
  have houtbound : stripped s ≠ "outbound" := decimal_ne_word h (c := 'o') (by decide) (by decide)
  have hsent : stripped s ≠ "sent" := decimal_ne_word h (c := 's') (by decide) (by decide)
  have hinbound : stripped s ≠ "inbound" := decimal_ne_word h (c := 'i') (by decide) (by decide)
  have hreceived : stripped s ≠ "received" := decimal_ne_word h (c := 'r') (by decide) (by decide)
  rw [direction, Option.getD_some, lower_decimal h]
  simp only [List.mem_cons, List.not_mem_nil, or_false, houtbound, hsent, hinbound, hreceived]
  split
  · rename_i htx
    simp [htx]
  · rename_i htx
    split
    · rename_i hrx
      simp [hrx]
    · rename_i hrx
      simp [htx, hrx]

theorem first_isSome {s : String} (hcomma : ',' ∉ Py.strip s.toList)
    (hne : Py.strip s.toList ≠ []) : (first (some s)).isSome = true := by
  rw [first, Option.bind_some, Py.beforeComma_eq_self hcomma, if_neg hne]
  rfl

theorem first_decimal {s : String} (h : isDecimalText s = true) :
    (first (some s)).isSome = true := by
  refine first_isSome (fun hcomma => ?_) (decimal_ne_nil h)
  exact absurd (decimal_chars h hcomma) (by decide)

theorem first_hex {s : String} (h : isHexText s = true) : (first (some s)).isSome = true := by
  obtain ⟨x, digits, hx, heq, hdigits⟩ := hex_eq h
  refine first_isSome (fun hcomma => ?_) (fun hnil => ?_)
  · rcases mem_withoutSign hcomma with hmem | hsign
    · rw [heq] at hmem
      simp only [List.mem_cons] at hmem
      rcases hmem with h0 | hx' | hmem
      · exact absurd h0 (by decide)
      · rcases hx with rfl | rfl
        · exact absurd hx' (by decide)
        · exact absurd hx' (by decide)
      · exact absurd (hdigits _ hmem) (by decide)
    · exact absurd hsign (by decide)
  · rw [hnil] at heq
    cases heq

/-! ## Rows that spell a cell differently -/

/-- The cells that hold an integer, or a flag that may be written as one. -/
def FieldName.isNumeric (c : FieldName) : Bool :=
  c.reading ∈ [.number, .numberOrPresence, .presence, .flag, .direction]

/-- The cells that hold a boolean. -/
def FieldName.isBoolean (c : FieldName) : Bool :=
  c.reading = .flag || c = .dnsFlagsResponse || c = .quicSpinBit

/-- A decimal integer and the hexadecimal text of the same integer. -/
structure SameInteger (a b : String) : Prop where
  decimal : isDecimalText a = true
  hex : isHexText b = true
  value : integer (some a) = integer (some b)

/-- A boolean as a digit and as a word. -/
def SameBoolean (a b : String) : Prop := (a = "1" ∧ b = "True") ∨ (a = "0" ∧ b = "False")

/-- The hexadecimal text is read as something else: a direction is none, and a flag
that is not set becomes one that is. -/
def Row.misreadsHex (row : Row) (c : FieldName) (a : String) : Bool :=
  (c = .framePacketFlagsDirection && (stripped a = "1" || stripped a = "2"))
    || (c.reading = .flag && stripped a = "0" && !(c = .ipFlagsMf && row.hasFragmentOffset))

/-- The boolean is read as an integer, which its word is not. -/
def FieldName.misreadsWord (c : FieldName) : Bool := c = .dnsFlagsResponse || c = .quicSpinBit

/-- The cells without which a row has no packet. -/
def FieldName.isRequired (c : FieldName) : Bool :=
  c = .frameTimeEpoch || c = .frameLen || c = .frameCapLen

theorem packet_set {c : FieldName} (hc : c.isRequired = false) (row : Row) (s : String) :
    (row.set c s).packet =
      match floatCell (row .frameTimeEpoch), integer (row .frameLen),
        integer (row .frameCapLen) with
      | some timestamp, some frameLen, some capturedLen =>
          some ((row.set c s).record timestamp frameLen capturedLen)
      | _, _, _ => none := by
  simp only [FieldName.isRequired, Bool.or_eq_false_iff, decide_eq_false_iff_not] at hc
  rw [← set_of_ne row (Ne.symm hc.1.1) s, ← set_of_ne row (Ne.symm hc.1.2) s,
    ← set_of_ne row (Ne.symm hc.2) s]
  rfl

/-- Without a packet there is nothing to see. -/
theorem packet_set_of_not_readable {c : FieldName} (hc : c.isRequired = false) {row : Row}
    (h : row.readable = false) (s : String) : (row.set c s).packet = none := by
  rw [packet_set hc]
  split
  · rename_i htime hlen hcap
    rw [Row.readable, htime, hlen, hcap] at h
    cases h
  · rfl

/-- A readable row's packets differ when a field does. -/
theorem packet_set_ne {c : FieldName} (hc : c.isRequired = false) {row : Row}
    (h : row.readable = true) {β : Type} (field : PacketRecord Rel.Double → β) {a b : String}
    (hfield : ∀ t n m, field ((row.set c a).record t n m) ≠ field ((row.set c b).record t n m)) :
    (row.set c a).packet ≠ (row.set c b).packet := by
  simp only [Row.readable, Bool.and_eq_true, Option.isSome_iff_exists] at h
  obtain ⟨⟨⟨t, htime⟩, ⟨n, hlen⟩⟩, ⟨m, hcap⟩⟩ := h
  rw [packet_set hc, packet_set hc, htime, hlen, hcap]
  intro heq
  exact hfield t n m (congrArg field (Option.some.inj heq))

/-- The field that a flag's cell is read into, the flag of fragments apart. -/
def flagField : FieldName → PacketRecord Rel.Double → Bool
  | .tcpFlagsSyn => (·.tcpSyn)
  | .tcpFlagsAck => (·.tcpAck)
  | .tcpFlagsReset => (·.tcpRst)
  | .tcpAnalysisRetransmission => (·.tcpRetransmission)
  | .tcpAnalysisFastRetransmission => (·.tcpFastRetransmission)
  | .tcpAnalysisSpuriousRetransmission => (·.tcpSpuriousRetransmission)
  | .tcpAnalysisZeroWindow => (·.tcpZeroWindow)
  | .tcpAnalysisWindowFull => (·.tcpWindowFull)
  | .tcpAnalysisOutOfOrder => (·.tcpOutOfOrder)
  | .tcpAnalysisDuplicateAck => (·.tcpDuplicateAck)
  | .tcpAnalysisLostSegment => (·.tcpLostSegment)
  | _ => fun _ => false

theorem flagField_record {c : FieldName} (hc : c.reading = .flag) (hne : c ≠ .ipFlagsMf)
    (row : Row) (t : Rel.Double) (n m : ℤ) : flagField c (row.record t n m) = flag (row c) := by
  cases c with
  | ipFlagsMf => exact absurd rfl hne
  | tcpFlagsSyn | tcpFlagsAck | tcpFlagsReset | tcpAnalysisRetransmission
  | tcpAnalysisFastRetransmission | tcpAnalysisSpuriousRetransmission | tcpAnalysisZeroWindow
  | tcpAnalysisWindowFull | tcpAnalysisOutOfOrder | tcpAnalysisDuplicateAck
  | tcpAnalysisLostSegment => rfl
  | _ => cases hc

theorem hasFragmentOffset_set (row : Row) (s : String) :
    (row.set .ipFlagsMf s).hasFragmentOffset = row.hasFragmentOffset := by
  unfold Row.hasFragmentOffset
  rw [set_of_ne row (by decide), set_of_ne row (by decide)]

theorem not_required_of_flag {c : FieldName} (hc : c.reading = .flag) : c.isRequired = false := by
  cases c with
  | frameTimeEpoch | frameLen | frameCapLen => cases hc
  | _ => rfl

/-- Where a row has no packet, the spelling of such a cell makes no difference. -/
theorem iff_of_not_readable {c : FieldName} (hrequired : c.isRequired = false) {row : Row}
    (hread : row.readable = false) (a b : String) {misread : Prop} :
    (row.set c a).packet = (row.set c b).packet ↔ ¬(row.readable = true ∧ misread) := by
  refine iff_of_true ?_ fun hboth => Bool.false_ne_true (hread.symm.trans hboth.1)
  rw [packet_set_of_not_readable hrequired hread, packet_set_of_not_readable hrequired hread]

/-- A flag cell whose two spellings are read differently shows, unless it is about
fragments and there is another sign of one. -/
theorem flag_shows_iff {c : FieldName} (hc : c.reading = .flag) {row : Row}
    (h : row.readable = true) {a b : String} (hab : flag (some a) ≠ flag (some b)) :
    (row.set c a).packet = (row.set c b).packet ↔
      c = .ipFlagsMf ∧ row.hasFragmentOffset = true := by
  have hrequired := not_required_of_flag hc
  by_cases hmf : c = .ipFlagsMf
  · subst hmf
    rw [and_iff_right rfl]
    constructor
    · intro heq
      by_contra hoffset
      rw [Bool.not_eq_true] at hoffset
      refine packet_set_ne hrequired h (·.ipFragment) (fun t n m hfragment => ?_) heq
      simp only [Row.record, set_self, hasFragmentOffset_set, hoffset, Bool.or_false] at hfragment
      exact hab hfragment
    · intro hoffset
      refine packet_congr (agree_set row fun hne => absurd rfl hne) ?_
      rw [Row.isFragment, Row.isFragment, hasFragmentOffset_set, hasFragmentOffset_set, hoffset,
        Bool.or_true, Bool.or_true]
  · refine iff_of_false (packet_set_ne hrequired h (flagField c) fun t n m hfield => ?_)
      fun hboth => hmf hboth.1
    rw [flagField_record hc hmf, flagField_record hc hmf, set_self, set_self] at hfield
    exact hab hfield

theorem respell_direction_iff (row : Row) {a b : String} (ha : isDecimalText a = true)
    (hb : isHexText b = true) :
    (row.set .framePacketFlagsDirection a).packet = (row.set .framePacketFlagsDirection b).packet ↔
      ¬(row.readable = true ∧ (stripped a = "1" ∨ stripped a = "2")) := by
  have hrequired : FieldName.framePacketFlagsDirection.isRequired = false := rfl
  cases hread : row.readable with
  | false => exact hread ▸ iff_of_not_readable hrequired hread a b
  | true =>
      rw [and_iff_right rfl, not_or]
      constructor
      · intro heq
        rw [← direction_decimal ha]
        by_contra hdirection
        refine packet_set_ne hrequired hread (·.direction) (fun t n m hfield => ?_) heq
        simp only [Row.record, set_self, direction_hex hb] at hfield
        exact hdirection hfield
      · intro hne
        refine packet_set_congr row ?_
        show direction (some a) = direction (some b)
        rw [(direction_decimal ha).mpr hne, direction_hex hb]

theorem respell_flag_iff (row : Row) {c : FieldName} (hc : c.reading = .flag) {a b : String}
    (ha : isDecimalText a = true) (hb : isHexText b = true) :
    (row.set c a).packet = (row.set c b).packet ↔ ¬(row.readable = true ∧ stripped a = "0" ∧
      ¬(c = .ipFlagsMf ∧ row.hasFragmentOffset = true)) := by
  have hrequired := not_required_of_flag hc
  by_cases hzero : stripped a = "0"
  · have hab : flag (some a) ≠ flag (some b) := by simp [flag_decimal ha, flag_hex hb, hzero]
    cases hread : row.readable with
    | false => exact hread ▸ iff_of_not_readable hrequired hread a b
    | true =>
        rw [flag_shows_iff hc hread hab, and_iff_right rfl, and_iff_right hzero, not_not]
  · refine iff_of_true (packet_set_congr row ?_) fun hboth => hzero hboth.2.1
    rw [hc]
    show flag (some a) = flag (some b)
    simp [flag_decimal ha, flag_hex hb, hzero]

theorem respell_hex_iff (row : Row) {c : FieldName} (hc : c.isNumeric = true) {a b : String}
    (h : SameInteger a b) : (row.set c a).packet = (row.set c b).packet ↔
      ¬(row.readable = true ∧ row.misreadsHex c a = true) := by
  obtain ⟨hdecimal, hhex, hvalue⟩ := h
  have hpresent : (first (some a)).isSome = (first (some b)).isSome := by
    rw [first_decimal hdecimal, first_hex hhex]
  -- The cells that are read as integers or only looked for.
  have hsame : c.reading ≠ .flag → c ≠ .framePacketFlagsDirection →
      SameReading (some a) (some b) c.reading → ((row.set c a).packet = (row.set c b).packet ↔
        ¬(row.readable = true ∧ row.misreadsHex c a = true)) := by
    intro hflag hdirection hreading
    refine iff_of_true (packet_set_congr row hreading) fun hboth => ?_
    simp [Row.misreadsHex, hflag, hdirection] at hboth
  cases hreading : c.reading with
  | number =>
      refine hsame (by simp [hreading]) (by rintro rfl; cases hreading) ?_
      rw [hreading]
      exact hvalue
  | numberOrPresence =>
      refine hsame (by simp [hreading]) (by rintro rfl; cases hreading) ?_
      rw [hreading]
      exact ⟨hvalue, hpresent⟩
  | presence =>
      refine hsame (by simp [hreading]) (by rintro rfl; cases hreading) ?_
      rw [hreading]
      exact hpresent
  | direction =>
      obtain rfl : c = .framePacketFlagsDirection := by
        cases c with
        | framePacketFlagsDirection => rfl
        | _ => cases hreading
      rw [respell_direction_iff row hdecimal hhex]
      simp [Row.misreadsHex, FieldName.reading]
  | flag =>
      have hne : c ≠ .framePacketFlagsDirection := by
        rintro rfl
        cases hreading
      rw [respell_flag_iff row hreading hdecimal hhex]
      simp [Row.misreadsHex, hreading, hne]
  | time | text | protocols =>
      rw [FieldName.isNumeric, hreading] at hc
      cases hc

theorem respell_word_iff (row : Row) {c : FieldName} (hc : c.isBoolean = true) {a b : String}
    (h : SameBoolean a b) : (row.set c a).packet = (row.set c b).packet ↔
      ¬(row.readable = true ∧ c.misreadsWord = true) := by
  have hflag : flag (some a) = flag (some b) := by
    rcases h with ⟨rfl, rfl⟩ | ⟨rfl, rfl⟩ <;> decide +kernel
  have hinteger : (integer (some a)).isSome = true ∧ integer (some b) = none := by
    rcases h with ⟨rfl, rfl⟩ | ⟨rfl, rfl⟩ <;> decide +kernel
  have hne : integer (some a) ≠ integer (some b) := by
    intro heq
    rw [hinteger.2] at heq
    rw [heq] at hinteger
    cases hinteger.1
  -- The two cells that are read as integers.
  have hmisread : ∀ {β : Type} (field : PacketRecord Rel.Double → β), c.isRequired = false →
      c.misreadsWord = true → (∀ t n m, field ((row.set c a).record t n m) ≠
        field ((row.set c b).record t n m)) → ((row.set c a).packet = (row.set c b).packet ↔
          ¬(row.readable = true ∧ c.misreadsWord = true)) := by
    intro β field hrequired hword hfield
    cases hread : row.readable with
    | false => exact hread ▸ iff_of_not_readable hrequired hread a b
    | true =>
        refine iff_of_false (packet_set_ne hrequired hread field hfield) ?_
        simp [hword]
  by_cases hdns : c = .dnsFlagsResponse
  · subst hdns
    refine hmisread (·.dnsIsResponse) rfl rfl fun t n m hfield => ?_
    simp only [Row.record, set_self, hinteger.2, Option.map_none, Option.map_eq_none_iff] at hfield
    exact hne (hfield.trans hinteger.2.symm)
  · by_cases hspin : c = .quicSpinBit
    · subst hspin
      refine hmisread (·.quicSpinBit) rfl rfl fun t n m hfield => ?_
      simp only [Row.record, set_self] at hfield
      exact hne hfield
    · have hreading : c.reading = .flag := by simpa [FieldName.isBoolean, hdns, hspin] using hc
      refine iff_of_true (packet_set_congr row ?_) fun hboth => ?_
      · rw [hreading]
        exact hflag
      · simp [FieldName.misreadsWord, hdns, hspin] at hboth

/-- Spelling an integer in hexadecimal or a boolean as a word leaves the packet of a
row as it is, unless the row has one and the cell is misread. -/
theorem spelling_independent_iff (row : Row) (c : FieldName) (a b : String) :
    (c.isNumeric = true → SameInteger a b →
      ((row.set c a).packet = (row.set c b).packet ↔
        ¬(row.readable = true ∧ row.misreadsHex c a = true))) ∧
    (c.isBoolean = true → SameBoolean a b →
      ((row.set c a).packet = (row.set c b).packet ↔
        ¬(row.readable = true ∧ c.misreadsWord = true))) :=
  ⟨fun hc h => respell_hex_iff row hc h, fun hc h => respell_word_iff row hc h⟩

namespace Sample

/-- A segment that TShark reports as sent. -/
def sentRow : Row
  | .frameTimeEpoch => some "1.25"
  | .frameLen => some "200"
  | .frameCapLen => some "180"
  | .framePacketFlagsDirection => some "2"
  | .frameProtocols => some "eth:ip:tcp"
  | .ipLen => some "160"
  | .ipSrc => some "10.0.0.2"
  | .ipDst => some "203.0.113.1"
  | .tcpSrcport => some "50000"
  | .tcpDstport => some "443"
  | .tcpStream => some "7"
  | .tcpLen => some "100"
  | _ => none

end Sample

open Sample in
/-- The direction of a packet is lost when it is printed in hexadecimal, and that a
DNS message is a response when it is printed as a word. -/
theorem spelling_shows : SameInteger "2" "0x00000002" ∧ SameBoolean "1" "True" ∧
    sentRow.packet.bind (·.direction) = some .tx ∧
    (sentRow.set .framePacketFlagsDirection "0x00000002").packet.bind (·.direction) = none ∧
    (sentRow.set .framePacketFlagsDirection "2").packet ≠
      (sentRow.set .framePacketFlagsDirection "0x00000002").packet ∧
    (sentRow.set .dnsFlagsResponse "1").packet ≠ (sentRow.set .dnsFlagsResponse "True").packet := by
  refine ⟨⟨?_, ?_, ?_⟩, Or.inl ⟨rfl, rfl⟩, ?_, ?_, ?_, ?_⟩ <;> decide +kernel

open Sample in
theorem spelling_independent_iff_sentRow :
    (sentRow.set .tcpStream "7").packet = (sentRow.set .tcpStream "0x0007").packet ∧
      (sentRow.set .tcpFlagsSyn "0").packet = (sentRow.set .tcpFlagsSyn "False").packet := by
  constructor
  · refine ((spelling_independent_iff sentRow .tcpStream "7" "0x0007").1 rfl ?_).mpr ?_
    · exact ⟨by decide +kernel, by decide +kernel, by decide +kernel⟩
    · decide +kernel
  · refine ((spelling_independent_iff sentRow .tcpFlagsSyn "0" "False").2 rfl ?_).mpr ?_
    · exact Or.inr ⟨rfl, rfl⟩
    · decide +kernel

end Sahabino
