import Mathlib.Algebra.Group.Nat.Defs
import Mathlib.Data.List.Basic
import Sahabino.Lib.Table

/-!
# Network captures: the data model

The rows of `network_captures` and `network_capture_idempotency_keys`,
the create request as the API validates it, and the content-addressed
object key.

A `NetworkCapture` extends its `CaptureIdentity`, the columns that are
written by the insert and by no statement afterwards. Everything the
lifecycle moves is outside of it, so "this update leaves the identity
alone" is definitional for every update of the source. The unique
constraints of the table only mention identity columns; `CaptureClash`
is their disjunction.

Instants are microseconds since the epoch, as in `timestamptz`.
-/

namespace Sahabino

structure Uuid where
  bits : BitVec 128
deriving DecidableEq, Repr

/-- `str(uuid)`: the groups 8-4-4-4-12 of lowercase hexadecimal digits. -/
def Uuid.text (u : Uuid) : String :=
  let digits := ((List.range 32).map fun k => Nat.digitChar (u.bits.toNat / 16 ^ (31 - k) % 16))
  String.ofList (digits.take 8 ++ '-' :: (digits.drop 8).take 4 ++ '-' :: (digits.drop 12).take 4
    ++ '-' :: (digits.drop 16).take 4 ++ '-' :: digits.drop 20)

abbrev Timestamp := Int

/-- `timedelta(seconds=n)` on the microsecond scale. -/
def seconds (n : Nat) : Int := (n : Int) * 1000000

inductive Scenario where
  | upload
  | download
deriving DecidableEq, Repr

inductive CaptureFormat where
  | pcap
  | pcapng
deriving DecidableEq, Repr

def CaptureFormat.text : CaptureFormat → String
  | .pcap => "pcap"
  | .pcapng => "pcapng"

inductive CaptureStatus where
  | pendingUpload
  | uploaded
  | analyzing
  | analyzed
  | failed
  | expired
deriving DecidableEq, Repr

/-! ## Hashes and object keys -/

/-- The pattern `^[0-9a-f]{64}$`. -/
def isSha256 (s : String) : Bool :=
  s.toList.length == 64 && s.toList.all fun c => "0123456789abcdef".toList.contains c

structure Sha256 where
  hex : String
  wf : isSha256 hex = true
deriving DecidableEq

theorem Sha256.ext_hex {a b : Sha256} (h : a.hex = b.hex) : a = b := by
  cases a; cases b; cases h; rfl

theorem Sha256.length (a : Sha256) : a.hex.toList.length = 64 := by
  have h := a.wf
  simp only [isSha256, Bool.and_eq_true, beq_iff_eq] at h
  exact h.1

/-- `captures/sha256/<first two>/<sha256>.<format>`. -/
def objectKeyFor (sha256 : Sha256) (captureFormat : CaptureFormat) : String :=
  "captures/sha256/" ++ String.ofList (sha256.hex.toList.take 2) ++ "/" ++ sha256.hex
    ++ "." ++ captureFormat.text

theorem CaptureFormat.text_inj {f g : CaptureFormat} (h : f.text = g.text) : f = g := by
  cases f <;> cases g <;> first | rfl | exact absurd h (by decide)

theorem objectKeyFor_toList (a : Sha256) (f : CaptureFormat) :
    (objectKeyFor a f).toList = "captures/sha256/".toList ++ (a.hex.toList.take 2 ++
      ("/".toList ++ (a.hex.toList ++ (".".toList ++ f.text.toList)))) := by
  have htake : (String.ofList (a.hex.toList.take 2)).toList = a.hex.toList.take 2 :=
    String.toList_ofList
  unfold objectKeyFor
  simp only [String.toList_append, List.append_assoc]
  rw [htake]

/-- The key determines the hash and the format: both hashes are 64 characters
long, so the two texts split at the same places. -/
theorem objectKeyFor_inj {a b : Sha256} {f g : CaptureFormat}
    (h : objectKeyFor a f = objectKeyFor b g) : a = b ∧ f = g := by
  have hlist : (objectKeyFor a f).toList = (objectKeyFor b g).toList := by rw [h]
  rw [objectKeyFor_toList, objectKeyFor_toList] at hlist
  have htake : (a.hex.toList.take 2).length = (b.hex.toList.take 2).length := by
    rw [List.length_take, List.length_take, a.length, b.length]
  obtain ⟨-, h₂⟩ := List.append_inj (List.append_cancel_left hlist) htake
  obtain ⟨hhex, h₃⟩ := List.append_inj (List.append_cancel_left h₂)
    (a.length.trans b.length.symm)
  exact ⟨Sha256.ext_hex (String.toList_inj.mp hhex),
    CaptureFormat.text_inj (String.toList_inj.mp (List.append_cancel_left h₃))⟩

/-! ## The create request -/

/-- `PurePath(value).name`: the last component that is neither empty nor `.`. -/
def pathName (value : List Char) : List Char :=
  ((value.splitOn '/').filter fun part => !part.isEmpty && part != ['.']).getLast?.getD []

/-- `PurePath(value).suffix`: from the last dot on, unless that dot starts or
ends the name. -/
def pathSuffix (value : List Char) : List Char :=
  let name := pathName value
  let afterDot := (name.reverse.takeWhile fun c => c != '.').reverse
  if name.contains '.' && !afterDot.isEmpty && decide (afterDot.length + 1 < name.length) then
    '.' :: afterDot
  else []

/-- `PurePath(value).suffix.lower()`. Only ASCII letters matter: no other
character lowers into `.pcap` or `.pcapng`. -/
def lowerSuffix (filename : String) : List Char :=
  (pathSuffix filename.toList).map Char.toLower

/-- `CaptureCreate`, as it leaves validation. -/
structure CaptureCreate where
  applicationId : Uuid
  scenario : Scenario
  filename : String
  captureSizeBytes : Nat
  transferFileSizeBytes : Nat
  sha256 : Sha256
  filename_ok : lowerSuffix filename = ".pcap".toList ∨ lowerSuffix filename = ".pcapng".toList
  captureSize_pos : 0 < captureSizeBytes
  transferFileSize_pos : 0 < transferFileSizeBytes

namespace CaptureCreate

def captureFormat (data : CaptureCreate) : CaptureFormat :=
  if lowerSuffix data.filename = ".pcapng".toList then .pcapng else .pcap

def contentType (data : CaptureCreate) : String :=
  if data.captureFormat = .pcapng then "application/x-pcapng" else "application/vnd.tcpdump.pcap"

end CaptureCreate

/-- The dictionary `_request_fingerprint` serializes. -/
structure CanonicalRequest where
  applicationId : Uuid
  captureFormat : CaptureFormat
  captureSizeBytes : Nat
  expectedSha256 : Sha256
  originalFilename : String
  scenario : Scenario
  transferFileSizeBytes : Nat
deriving DecidableEq

def canonicalRequest (data : CaptureCreate) : CanonicalRequest where
  applicationId := data.applicationId
  captureFormat := data.captureFormat
  captureSizeBytes := data.captureSizeBytes
  expectedSha256 := data.sha256
  originalFilename := data.filename
  scenario := data.scenario
  transferFileSizeBytes := data.transferFileSizeBytes

/-- The settings the capture code reads. `hexdigest` is the SHA-256 of the
canonical JSON text of a request. -/
structure Settings where
  objectStorageMaxCaptureSizeBytes : Nat
  networkPendingUploadExpirySeconds : Nat
  networkStaleAnalysisSeconds : Nat
  objectStoragePresignExpirySeconds : Nat
  hexdigest : CanonicalRequest → String

def requestFingerprint (settings : Settings) (data : CaptureCreate) : String :=
  settings.hexdigest (canonicalRequest data)

/-! ## Rows -/

/-- The columns of `network_captures` that no statement changes after the
insert. -/
structure CaptureIdentity where
  id : Uuid
  applicationId : Uuid
  scenario : Scenario
  originalFilename : String
  captureFormat : CaptureFormat
  contentType : String
  objectKey : String
  expectedSha256 : Sha256
  captureSizeBytes : Nat
  transferFileSizeBytes : Nat
  readyEventId : Uuid
  analysisId : Uuid
  analysisEventId : Uuid
deriving DecidableEq

structure NetworkCapture extends CaptureIdentity where
  createdAt : Timestamp
  verifiedSha256 : Option Sha256
  status : CaptureStatus
  analysisAttemptCount : Nat
  uploadedAt : Option Timestamp
  analysisStartedAt : Option Timestamp
  analysisFinishedAt : Option Timestamp
  objectDeletedAt : Option Timestamp
  errorCode : Option String
  errorMessage : Option String
deriving DecidableEq

namespace NetworkCapture

/-- The columns of the logical identity. -/
def logical (c : NetworkCapture) : Uuid × Scenario × Sha256 :=
  (c.applicationId, c.scenario, c.expectedSha256)

/-- The values the columns can hold: `bigint` sizes and text without NUL. -/
def storable (c : NetworkCapture) : Bool :=
  decide (c.captureSizeBytes < 2 ^ 63) && decide (c.transferFileSizeBytes < 2 ^ 63)
    && !c.originalFilename.toList.contains (Char.ofNat 0)

end NetworkCapture

/-- The unique constraints of `network_captures`: the primary key, the three
event identities and the logical identity. -/
def CaptureClash (a b : NetworkCapture) : Prop :=
  a.id = b.id ∨ a.readyEventId = b.readyEventId ∨ a.analysisId = b.analysisId
    ∨ a.analysisEventId = b.analysisEventId ∨ a.logical = b.logical

instance : DecidableRel CaptureClash := fun a b => by
  unfold CaptureClash
  infer_instance

theorem CaptureClash.symm {a b : NetworkCapture} (h : CaptureClash a b) : CaptureClash b a := by
  rcases h with h | h | h | h | h
  · exact Or.inl h.symm
  · exact Or.inr (Or.inl h.symm)
  · exact Or.inr (Or.inr (Or.inl h.symm))
  · exact Or.inr (Or.inr (Or.inr (Or.inl h.symm)))
  · exact Or.inr (Or.inr (Or.inr (Or.inr h.symm)))

/-- A clash only depends on the identities. -/
theorem CaptureClash.of_identity {a b a' b' : NetworkCapture}
    (ha : a'.toCaptureIdentity = a.toCaptureIdentity)
    (hb : b'.toCaptureIdentity = b.toCaptureIdentity) (h : CaptureClash a' b') :
    CaptureClash a b := by
  unfold CaptureClash NetworkCapture.logical at *
  rwa [ha, hb] at h

structure NetworkCaptureIdempotencyKey where
  idempotencyKey : Uuid
  captureId : Uuid
  requestFingerprint : String
deriving DecidableEq

def KeyClash (a b : NetworkCaptureIdempotencyKey) : Prop :=
  a.idempotencyKey = b.idempotencyKey

instance : DecidableRel KeyClash := fun a b => by
  unfold KeyClash
  infer_instance

abbrev CaptureTable := Rel.Table NetworkCapture CaptureClash

abbrev KeyTable := Rel.Table NetworkCaptureIdempotencyKey KeyClash

theorem CaptureTable.eq_of_id (t : CaptureTable) {a b : NetworkCapture} (ha : a ∈ t.rows)
    (hb : b ∈ t.rows) (h : a.id = b.id) : a = b :=
  t.eq_of_clash CaptureClash.symm ha hb (Or.inl h)

/-- A stored row is found by its primary key. -/
theorem CaptureTable.find_id (t : CaptureTable) {c : NetworkCapture} (hc : c ∈ t.rows) :
    t.rows.find? (fun r => r.id = c.id) = some c := by
  cases hf : t.rows.find? fun r => r.id = c.id with
  | none =>
      have hno := List.find?_eq_none.mp hf c hc
      simp at hno
  | some r =>
      have hid : r.id = c.id := by simpa using List.find?_some hf
      rw [t.eq_of_id (List.mem_of_find?_eq_some hf) hc hid]

/-- An `UPDATE` of mutable columns; it cannot violate a unique constraint. -/
def CaptureTable.update (t : CaptureTable) (f : NetworkCapture → NetworkCapture)
    (hf : ∀ c, (f c).toCaptureIdentity = c.toCaptureIdentity) : CaptureTable :=
  t.modify f fun a b => CaptureClash.of_identity (hf a) (hf b)

@[simp] theorem CaptureTable.rows_update (t : CaptureTable) (f : NetworkCapture → NetworkCapture)
    (hf : ∀ c, (f c).toCaptureIdentity = c.toCaptureIdentity) :
    (t.update f hf).rows = t.rows.map f := rfl

theorem KeyTable.eq_of_key (t : KeyTable) {a b : NetworkCaptureIdempotencyKey}
    (ha : a ∈ t.rows) (hb : b ∈ t.rows) (h : a.idempotencyKey = b.idempotencyKey) : a = b :=
  t.eq_of_clash Eq.symm ha hb h

theorem KeyTable.find_key (t : KeyTable) {k : NetworkCaptureIdempotencyKey} (hk : k ∈ t.rows) :
    t.rows.find? (fun m => m.idempotencyKey = k.idempotencyKey) = some k := by
  cases hf : t.rows.find? fun m => m.idempotencyKey = k.idempotencyKey with
  | none =>
      have hno := List.find?_eq_none.mp hf k hk
      simp at hno
  | some m =>
      have hkey : m.idempotencyKey = k.idempotencyKey := by simpa using List.find?_some hf
      rw [t.eq_of_key (List.mem_of_find?_eq_some hf) hk hkey]

end Sahabino
