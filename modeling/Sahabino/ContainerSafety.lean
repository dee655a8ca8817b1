import Sahabino.Lib.Table
import Sahabino.ReleaseContainers

/-!
# What the container tool may do

Removing, stopping and starting containers, and bringing up a service,
each need evidence that the same run has collected before. The evidence
is read off the transcript; nothing is assumed about Docker or the disk,
so a daemon that answers anything at all cannot make the tool remove or
create something without it.
-/

namespace Sahabino

namespace Deploy

open Py (JsonVal)
open Conc (Prog Audit Said Grown Steps Evident evident_said)
open ReleaseBackup (CompletedProcess)

/-! ## Evidence -/

section

variable {W : Type} (lib : Stdlib) (loads : String → Except Py.Exc JsonVal) (project : String)

/-- The containers of a service, by the ids listed under its label and their inspection. -/
def Found (service : String) (found : JsonVal) (s : HostState W) : Prop :=
  ∃ r, Told (.psService project service) r s ∧ r.returncode = 0 ∧
    ((Py.textLines (ReleaseBackup.stripped r.stdout) = [] ∧ found = .arr []) ∨
      ∃ id r', Py.textLines (ReleaseBackup.stripped r.stdout) = [id] ∧ Told (.inspect [id]) r' s ∧
        r'.returncode = 0 ∧ loads (ReleaseBackup.stripped r'.stdout) = .ok found)

/-- `item` is among the containers found for a service. -/
def FoundItem (service : String) (item : JsonVal) (s : HostState W) : Prop :=
  ∃ found items, Found loads project service found s ∧ found.elements = .ok items ∧ item ∈ items

/-- The image of the container was not there. -/
def ImageGone (item : JsonVal) (s : HostState W) : Prop :=
  ∃ image r, item.index "Image" = .ok (.str image) ∧ Told (.imageInspect image) r s ∧
    r.returncode ≠ 0

/-- What the inspection says about running. -/
def Running (item : JsonVal) (b : Bool) : Prop :=
  ∃ state value, item.index "State" = .ok state ∧ state.index "Running" = .ok value ∧
    value.truthy = b

/-- An application container that may be removed: not running, nothing mounted, and its image is
gone. -/
structure StaleApplication (id : String) (s : HostState W) : Prop where
  exists_item : ∃ service ∈ APPLICATION, ∃ item, FoundItem loads project service item s ∧
    item.index "Id" = .ok (.str id) ∧ ImageGone item s ∧ Running item false ∧
    ∃ mounts, item.get "Mounts" = .ok mounts ∧ mounts.truthy = false

/-- The manifest of a backup, as it was read. -/
structure BackupOf (path : HostPath) (manifest : JsonVal) (s : HostState W) : Prop where
  read : ∃ text, Saw (.readText path) text s ∧ loads text = .ok manifest
  ours : ∃ name, manifest.get "project" = .ok name ∧ name.Equal (.str project)
  local_only : manifest.get "local_only" = .ok (.bool true)

/-- The archive of a service is there, and has the checksum that the manifest records. -/
def ArchiveVerified (path : HostPath) (manifest : JsonVal) (service : String)
    (s : HostState W) : Prop :=
  ∃ volumes record file digest recorded, manifest.getOr "volumes" (.obj []) = .ok volumes ∧
    volumes.get service = .ok record ∧ record.index "file" = .ok (.str file) ∧
    Saw (.isFile (.join (.parent path) file)) true s ∧
    Saw (.sha256 (.join (.parent path) file)) digest s ∧
    record.index "sha256" = .ok recorded ∧ (JsonVal.str digest).Equal recorded

/-- The named volume is mounted in the container. -/
def HasVolume (name : String) (item : JsonVal) : Prop :=
  ∃ mounts, mountsOf item = .ok mounts ∧ anyMount (isVolumeNamed name) mounts = .ok true

/-- A container whose data is in a volume, and the volume in a verified backup. -/
structure BackedUp (path : HostPath) (service : String) (item : JsonVal) (s : HostState W) :
    Prop where
  service_mem : service ∈ ["seaweedfs", "loki", "grafana", "alloy"]
  found : FoundItem loads project service item s
  gone : ImageGone item s
  volume : HasVolume (project ++ "_" ++ service ++ "_data") item
  backup : ∃ manifest, BackupOf loads project path manifest s ∧
    ArchiveVerified path manifest service s

/-- A container of that kind that may be removed. -/
def StalePersisted (path : HostPath) (id : String) (s : HostState W) : Prop :=
  ∃ service item, BackedUp loads project path service item s ∧
    item.index "Id" = .ok (.str id) ∧
    (Running item false ∨ ∃ r, Told (.stop id) r s ∧ r.returncode = 0)

/-- Docker said that there is no such volume. -/
def VolumeAbsent (name : String) (s : HostState W) : Prop :=
  ∃ r, Told (.volumeInspect name) r s ∧ r.returncode ≠ 0 ∧
    (contains "No such volume" r.stderr ∨ contains "no such volume" (lib.lower r.stderr))

/-- The volume of a service is there, local, and ours. -/
def VolumeAt (name : String) (mount : HostPath) (s : HostState W) : Prop :=
  ∃ r records record text, Told (.volumeInspect name) r s ∧ r.returncode = 0 ∧
    loads r.stdout = .ok records ∧ firstOf records = .ok record ∧
    isOtherVolume project name record = .ok false ∧
    record.index "Mountpoint" = .ok (.str text) ∧ mount = .of text ∧
    Saw (.isSymlink mount) false s ∧ Saw (.isDir mount) true s

/-- No container was found for a service. -/
def NoContainer (service : String) (s : HostState W) : Prop :=
  ∃ found, Found loads project service found s ∧ found.truthy = false

def partnerOf (service : String) : String := if service = "postgres" then "kafka" else "postgres"

/-- Nothing of an earlier installation: neither of the two data volumes, no container of either
service, no capture volume. -/
structure NothingStored (service : String) (m m' : VolumeMount) (s : HostState W) : Prop where
  own_container : NoContainer loads project service s
  own_volume : VolumeAbsent lib (volumeName project m) s
  partner_container : NoContainer loads project (partnerOf service) s
  partner_volume : VolumeAbsent lib (volumeName project m') s
  captures : VolumeAbsent lib (project ++ "_seaweedfs_data") s

/-- A copy of the volume whose table of contents was read back, and whose checksum is in its
manifest. -/
def ColdCopy (quote : String → String) (service : String) (mount bundle : HostPath)
    (s : HostState W) : Prop :=
  ∃ (names : List String) (sha : String),
    Saw (.change (.writeTar mount (bundle.join (service ++ ".tar.partial")))) () s ∧
    Saw (.tarNames (bundle.join (service ++ ".tar.partial"))) names s ∧
    "data" ∈ names ∧ memberOf service ∈ names ∧
    Saw (.change (.replace (bundle.join (service ++ ".tar.partial"))
      (bundle.join (service ++ ".tar")))) () s ∧
    Saw (.sha256 (bundle.join (service ++ ".tar"))) sha s ∧
    Saw (.change (.writeText (bundle.join "manifest.json")
      (coldManifest quote project service sha))) () s

/-- A regular file that is not empty. -/
def Filled (p : HostPath) (s : HostState W) : Prop :=
  Saw (.isSymlink p) false s ∧ Saw (.isFile p) true s ∧ ∃ n : Nat, n ≠ 0 ∧ Saw (.size p) n s

/-- The volume has a complete cluster of the configured major version, or the metadata of the
configured Kafka node. -/
def DataFits (service : String) (mount : HostPath) (configured : JsonVal) (s : HostState W) :
    Prop :=
  if service = "postgres" then
    Filled (mount.join "PG_VERSION") s ∧ Filled ((mount.join "global").join "pg_control") s ∧
      (∀ p ∈ [mount.join "global", mount.join "base", mount.join "pg_wal"],
        Saw (.isSymlink p) false s ∧ Saw (.isDir p) true s) ∧
      ∃ image text, configured.getOr "image" (.str "") = .ok (.str image) ∧
        Saw (.readText (mount.join "PG_VERSION")) text s ∧
        postgresMajor image = some (ReleaseBackup.stripped text)
  else
    Filled (mount.join "meta.properties") s ∧
      ∃ text environment cluster node, Saw (.readText (mount.join "meta.properties")) text s ∧
        configured.get "environment" = .ok environment ∧
        (environment.orElse (.obj [])).getOr "CLUSTER_ID" (.str "") = .ok cluster ∧
        (environment.orElse (.obj [])).getOr "KAFKA_NODE_ID" (.str "") = .ok node ∧
        (properties text).lookup "cluster.id" = some (lib.str cluster) ∧
        (properties text).lookup "node.id" = some (lib.str node) ∧ lib.str cluster ≠ "" ∧
        ∃ image, configured.get "image" = .ok image ∧ image.Equal (.str "apache/kafka:4.3.1")

/-- The configuration attaches the expected volume to the service. -/
def Attaches (service : String) (m : VolumeMount) (model configured : JsonVal) : Prop :=
  ∃ services mounts, model.getOr "services" (.obj []) = .ok services ∧
    services.get service = .ok configured ∧
    (do (← configured.getOr "volumes" (.arr [])).elements) = .ok mounts ∧
    anyMount (isAttached m) mounts = .ok true

/-- A filled volume without a container that may be attached again. -/
structure Reattachable (quote : String → String) (service : String) (m : VolumeMount)
    (s : HostState W) : Prop where
  no_container : NoContainer loads project service s
  exists_mount : ∃ mount bundle model configured,
    VolumeAt loads project (volumeName project m) mount s ∧
    Attaches service m model configured ∧ DataFits lib service mount configured s ∧
    (∃ r, Told (.psVolume (volumeName project m)) r s ∧ r.returncode = 0 ∧
      ReleaseBackup.stripped r.stdout = "") ∧
    ColdCopy project quote service mount bundle s

/-- The data of the container is in its own named volume, and writable. -/
def MountVerified (m : VolumeMount) (item : JsonVal) : Prop :=
  ∃ mounts x, mountsOf item = .ok mounts ∧
    keepMounts (fun y => do pure (decide ((← y.get "Destination").Equal (.str m.target)))) mounts =
      .ok [x] ∧ isUnsafeMount (volumeName project m) x = .ok false

/-- A container of the service that is bound to its own data. -/
def Bound (service : String) (m : VolumeMount) (item : JsonVal) (s : HostState W) : Prop :=
  ∃ found, Found loads project service found s ∧ found.truthy = true ∧ firstOf found = .ok item ∧
    MountVerified project m item

/-- What must be known before a service is brought up. -/
def MayBringUp (quote : String → String) (service : String) (s : HostState W) : Prop :=
  match databaseVolume service with
  | none => NoContainer loads project service s
  | some m =>
      (∃ m', databaseVolume (partnerOf service) = some m' ∧
        NothingStored lib loads project service m m' s) ∨
      Reattachable lib loads project quote service m s ∨
        ∃ item, Bound loads project service m item s

/-- What a mode of the tool owes before a command. -/
def Earned (quote : String → String) : Mode → HostCommand → HostState W → Prop
  | .stopApp, .docker (.stop id), s =>
      ∃ service ∈ APPLICATION, ∃ item, FoundItem loads project service item s ∧
        item.index "Id" = .ok (.str id) ∧ Running item true
  | .removeStale, .docker (.rm id), s => StaleApplication loads project id s
  | .removeStalePersisted (some path), .docker (.stop id), s =>
      ∃ service item, BackedUp loads project path service item s ∧
        item.index "Id" = .ok (.str id)
  | .removeStalePersisted (some path), .docker (.rm id), s =>
      StalePersisted loads project path id s
  | .ensure service, .docker (.start id), s =>
      ∃ m item, persistentMount service = some m ∧ Bound loads project service m item s ∧
        item.index "Id" = .ok (.str id) ∧ Running item false
  | .ensure service, .docker (.up _ _ service'), s =>
      service' = service ∧ service ∈ ["postgres", "kafka", "seaweedfs"] ∧
        MayBringUp lib loads project quote service s
  | .recoverMissing service _, .docker (.up _ _ service'), s =>
      service' = service ∧ service ∈ ["postgres", "kafka", "seaweedfs"] ∧
        MayBringUp lib loads project quote service s
  | _, c, _ => c.isQuiet = true

end

/-! ## Evidence stays -/

section

variable {W : Type} {lib : Stdlib} {loads : String → Except Py.Exc JsonVal} {project : String}

theorem evident_found {service : String} {found : JsonVal} :
    Evident (Found (W := W) loads project service found) := by
  refine .exists_ fun r => .and evident_told (.and (.const _) (.or (.const _) ?_))
  exact .exists_ fun id => .exists_ fun r' => .and (.const _) (.and evident_told (.const _))

theorem evident_foundItem {service : String} {item : JsonVal} :
    Evident (FoundItem (W := W) loads project service item) :=
  .exists_ fun _ => .exists_ fun _ => .and evident_found (.const _)

theorem evident_imageGone {item : JsonVal} : Evident (ImageGone (W := W) item) :=
  .exists_ fun _ => .exists_ fun _ => .and (.const _) (.and evident_told (.const _))

theorem evident_noContainer {service : String} :
    Evident (NoContainer (W := W) loads project service) :=
  .exists_ fun _ => .and evident_found (.const _)

theorem evident_volumeAbsent {name : String} : Evident (VolumeAbsent (W := W) lib name) :=
  .exists_ fun _ => .and evident_told (.const _)

theorem evident_volumeAt {name : String} {mount : HostPath} :
    Evident (VolumeAt (W := W) loads project name mount) := by
  refine .exists_ fun r => .exists_ fun records => .exists_ fun record => .exists_ fun text => ?_
  refine .and evident_told (.and (.const _) (.and (.const _) (.and (.const _)
    (.and (.const _) ?_))))
  exact .and (.const _) (.and (.const _) (.and evident_saw evident_saw))

theorem evident_backedUp {path : HostPath} {service : String} {item : JsonVal} :
    Evident (BackedUp (W := W) loads project path service item) := by
  intro s s' hs h
  obtain ⟨manifest, hbackup, harchive⟩ := h.backup
  refine ⟨h.service_mem, evident_foundItem s s' hs h.found, evident_imageGone s s' hs h.gone,
    h.volume, manifest, ⟨?_, hbackup.ours, hbackup.local_only⟩, ?_⟩
  · obtain ⟨text, htext, hloads⟩ := hbackup.read
    exact ⟨text, evident_saw s s' hs htext, hloads⟩
  · obtain ⟨volumes, record, file, digest, recorded, hv, hr, hf, hfile, hsha, hrecorded⟩ := harchive
    exact ⟨volumes, record, file, digest, recorded, hv, hr, hf, evident_saw s s' hs hfile,
      evident_saw s s' hs hsha, hrecorded⟩

end

/-! ## The parts of the tool -/

section

variable {W : Type} {lib : Stdlib} {loads : String → Except Py.Exc JsonVal} {project : String}
  {A : Audit HostCommand HostReply ToolRaise W} {α β : Type} {s : HostState W}

theorem safe_containers (hA : Lenient A) {service : String} {Q : JsonVal → HostState W → Prop}
    (h : ∀ found t, Later s t → Found loads project service found t → Q found t) :
    Safe A (containers loads project service) Q s := by
  refine Audit.meets_seq (safe_command (hA _ _ rfl) fun r t ht htold hcode => ?_)
  cases hids : Py.textLines (ReleaseBackup.stripped r.stdout) with
  | nil => exact h _ t ht ⟨r, htold, hcode, Or.inl ⟨hids, rfl⟩⟩
  | cons id rest =>
      cases rest with
      | cons id' rest => exact safe_fail
      | nil =>
          refine Audit.meets_seq (safe_command (hA _ _ rfl) fun r' t' ht' htold' hcode' => ?_)
          refine safe_py fun found hfound => h found t' (ht.trans ht') ?_
          exact ⟨r, evident_told t t' ht' htold, hcode,
            Or.inr ⟨id, r', hids, htold', hcode', hfound⟩⟩

theorem safe_imageExists (hA : Lenient A) {image : String} {Q : Bool → HostState W → Prop}
    (h : ∀ r t, Later s t → Told (.imageInspect image) r t → Q (r.returncode = 0) t) :
    Safe A (imageExists image) Q s :=
  Audit.meets_seq (safe_quiet hA rfl fun r t ht hsaw => h r t ht hsaw)

theorem safe_isRunning {item : JsonVal} {Q : Bool → HostState W → Prop}
    (h : ∀ b, Running item b → Q b s) : Safe A (isRunning item) Q s := by
  refine Audit.meets_seq (safe_py fun state hstate =>
    Audit.meets_seq (safe_py fun value hvalue => ?_))
  exact h _ ⟨state, value, hstate, hvalue, rfl⟩

theorem safe_argumentAt {item : JsonVal} {name : String} {Q : String → HostState W → Prop}
    (h : ∀ text, item.index name = .ok (.str text) → Q text s) :
      Safe A (argumentAt item name) Q s :=
  Audit.meets_seq (safe_py fun _ hx => safe_asArgument fun text htext => h text (htext ▸ hx))

/-- A loop over the containers of some services. -/
theorem safe_overContainers (hA : Lenient A) {body : String → JsonVal → Tool Bool}
    {services : List String}
    (hbody : ∀ service ∈ services, ∀ item t, Later s t → FoundItem loads project service item t →
      Safe A (body service item) (fun _ _ => True) t) :
    Safe A (overContainers loads project body services) (fun _ _ => True) s := by
  induction services generalizing s with
  | nil => trivial
  | cons service services ih =>
      refine Audit.meets_seq (safe_containers hA fun found t ht hfound => ?_)
      refine Audit.meets_seq (safe_py fun items hitems => ?_)
      have hcollect : ∀ rest t', (∀ item ∈ rest, item ∈ items) → Later t t' →
          Safe A (collect (body service) service rest) (fun _ t'' => Later t' t'') t' := by
        intro rest
        induction rest with
        | nil => exact fun t' _ _ => Audit.meets_pure .refl
        | cons item rest ihrest =>
            intro t' hrest ht'
            have hfound' := evident_found t t' ht' hfound
            have hitem : FoundItem loads project service item t' :=
              ⟨found, items, hfound', hitems, hrest item (List.mem_cons_self ..)⟩
            have hhere := hbody service (List.mem_cons_self ..) item t' (ht.trans ht') hitem
            refine Audit.meets_seq (((Audit.meets_only (Prog.only_true _) .refl hhere)).mono
              (fun did t'' h'' => ?_) fun _ _ _ => trivial)
            have hlater := ihrest t'' (fun x hx => hrest x (List.mem_cons_of_mem item hx))
              (ht'.trans h''.2)
            refine Audit.meets_seq (hlater.mono (fun others t₃ h₃ => ?_) fun _ _ _ => trivial)
            exact h''.2.trans h₃
      refine Audit.meets_seq ((hcollect items t (fun _ h => h) .refl).mono (fun here t' ht' => ?_)
        fun _ _ _ => trivial)
      refine Audit.meets_seq ((ih fun service' hservice' item t'' ht'' => ?_).mono
        (fun _ _ _ => trivial) fun _ _ _ => trivial)
      exact hbody service' (List.mem_cons_of_mem service hservice') item t''
        ((ht.trans ht').trans ht'')

theorem safe_stopItem {service : String} {item : JsonVal}
    (hs : FoundItem loads project service item s)
    (hstop : ∀ id s, FoundItem loads project service item s → item.index "Id" = .ok (.str id) →
      Running item true → A.pre (.docker (.stop id)) s) :
    Safe A (stopItem item) (fun _ _ => True) s := by
  refine Audit.meets_seq (safe_isRunning fun b hrunning => ?_)
  split
  · rename_i hb
    subst hb
    refine Audit.meets_seq (safe_argumentAt fun id hid => ?_)
    exact Audit.meets_seq (safe_command (hstop id s hs hid hrunning) fun _ _ _ _ _ => trivial)
  · trivial

theorem safe_removeStaleItem (hA : Lenient A) {service : String} {item : JsonVal}
    (hservice : service ∈ APPLICATION) (hs : FoundItem loads project service item s)
    (hrm : ∀ id s, StaleApplication loads project id s → A.pre (.docker (.rm id)) s) :
    Safe A (removeStaleItem lib service item) (fun _ _ => True) s := by
  refine Audit.meets_seq (safe_py fun ident hident => ?_)
  refine Audit.meets_seq (safe_argumentAt fun image himage => ?_)
  refine Audit.meets_seq (safe_imageExists hA fun r t ht htold => ?_)
  split
  · trivial
  · rename_i hcode
    refine Audit.meets_seq (safe_isRunning fun b hrunning => ?_)
    split
    · exact safe_fail
    · rename_i hb
      refine Audit.meets_seq (safe_py fun mounts hmounts => ?_)
      split
      · exact safe_fail
      · rename_i hempty
        refine Audit.meets_seq (safe_asArgument fun id hid => ?_)
        have hstale : StaleApplication loads project id t :=
          ⟨service, hservice, item, evident_foundItem s t ht hs, by rw [hident, hid],
            ⟨image, r, himage, htold, by simpa using hcode⟩,
            by simpa only [Bool.not_eq_true] using (Bool.eq_false_iff.mpr hb) ▸ hrunning,
            mounts, hmounts, Bool.eq_false_iff.mpr hempty⟩
        exact Audit.meets_seq (safe_command (hrm id t hstale) fun _ _ _ _ _ => trivial)

theorem safe_removePersistedItem (hA : Lenient A) {path : HostPath} {manifest : JsonVal}
    {service : String} {item : JsonVal}
    (hservice : service ∈ ["seaweedfs", "loki", "grafana", "alloy"])
    (hs : FoundItem loads project service item s)
    (hbackup : ∀ t, Later s t → BackupOf loads project path manifest t)
    (hstop : ∀ id s, BackedUp loads project path service item s → item.index "Id" = .ok (.str id) →
      A.pre (.docker (.stop id)) s)
    (hrm : ∀ id s, StalePersisted loads project path id s → A.pre (.docker (.rm id)) s) :
    Safe A (removePersistedItem project manifest path service item) (fun _ _ => True) s := by
  refine Audit.meets_seq (safe_argumentAt fun image himage => ?_)
  refine Audit.meets_seq (safe_imageExists hA fun r t ht htold => ?_)
  split
  · trivial
  rename_i hcode
  refine Audit.meets_seq (safe_py fun hasVolume hvolume => ?_)
  split
  · exact safe_fail
  rename_i hhas
  refine Audit.meets_seq (safe_py fun record hrecord => ?_)
  split
  · exact safe_fail
  refine Audit.meets_seq (safe_argumentAt fun file hfile => ?_)
  refine Audit.meets_seq (safe_quiet hA rfl fun there t₁ ht₁ hthere => ?_)
  split
  · exact safe_fail
  rename_i hpresent
  refine Audit.meets_seq (safe_quiet hA rfl fun digest t₂ ht₂ hdigest => ?_)
  refine Audit.meets_seq (safe_py fun recorded hrecorded => ?_)
  split
  · exact safe_fail
  rename_i hequal
  obtain ⟨volumes, hvolumes, hrecord⟩ := Rel.bind_eq_ok hrecord
  obtain ⟨mounts, hmounts, hany⟩ := Rel.bind_eq_ok hvolume
  have hlater := (ht.trans ht₁).trans ht₂
  have hhas : hasVolume = true := by simpa using hhas
  have hthere : Saw (.isFile (.join (.parent path) file)) true t₁ := by
    cases there with
    | false => exact absurd rfl hpresent
    | true => exact hthere
  have hback : BackedUp loads project path service item t₂ :=
    ⟨hservice, evident_foundItem s t₂ hlater hs,
      ⟨image, r, himage, evident_told t t₂ (ht₁.trans ht₂) htold, by simpa using hcode⟩,
      ⟨mounts, hmounts, hhas ▸ hany⟩,
      manifest, hbackup t₂ hlater,
      volumes, record, file, digest, recorded, hvolumes, hrecord, hfile,
        evident_saw t₁ t₂ ht₂ hthere, hdigest, hrecorded, not_not.mp hequal⟩
  refine Audit.meets_seq (safe_isRunning fun b hrunning => ?_)
  split
  · refine Audit.meets_seq (safe_argumentAt fun id hid => ?_)
    refine Audit.meets_seq (safe_command (hstop id t₂ hback hid) fun r' t₃ ht₃ htold' hcode' => ?_)
    refine Audit.meets_seq (safe_argumentAt fun id' hid' => ?_)
    obtain rfl : id = id' := by
      have hids := Except.ok.inj (hid.symm.trans hid')
      injection hids
    have hstale : StalePersisted loads project path id t₃ :=
      ⟨service, item, evident_backedUp t₂ t₃ ht₃ hback, hid, Or.inr ⟨r', htold', hcode'⟩⟩
    exact Audit.meets_seq (safe_command (hrm id t₃ hstale) fun _ _ _ _ _ => trivial)
  · rename_i hb
    refine Audit.meets_seq (safe_argumentAt fun id hid => ?_)
    have hstale : StalePersisted loads project path id t₂ :=
      ⟨service, item, hback, hid, Or.inl (Bool.eq_false_iff.mpr hb ▸ hrunning)⟩
    exact Audit.meets_seq (safe_command (hrm id t₂ hstale) fun _ _ _ _ _ => trivial)

/-! ### Volumes and data -/

theorem databaseVolume_cases {service : String} {m : VolumeMount}
    (h : databaseVolume service = some m) : service = "postgres" ∨ service = "kafka" := by
  unfold databaseVolume at h
  split at h
  · exact Or.inl rfl
  · exact Or.inr rfl
  · cases h

theorem safe_tableAt {entry : Option VolumeMount} {Q : VolumeMount → HostState W → Prop}
    (h : ∀ m, entry = some m → Q m s) : Safe A (tableAt entry) Q s := by
  cases entry with
  | none => exact safe_raise
  | some m => exact h m rfl

theorem safe_orphanVolume (hA : Lenient A) {service : String} {m : VolumeMount}
    (hm : databaseVolume service = some m) {Q : Option HostPath → HostState W → Prop}
    (hnone : ∀ t, Later s t → VolumeAbsent lib (volumeName project m) t → Q none t)
    (hsome : ∀ mount t, Later s t → VolumeAt loads project (volumeName project m) mount t →
      Q (some mount) t) :
    Safe A (orphanVolume lib loads project service) Q s := by
  refine Audit.meets_seq (safe_tableAt fun m' hm' => ?_)
  obtain rfl : m = m' := Option.some.inj (hm.symm.trans hm')
  refine Audit.meets_seq (safe_quiet hA rfl fun r t ht htold => ?_)
  split
  · rename_i hcode
    split
    · rename_i habsent
      exact hnone t ht ⟨r, htold, hcode, habsent⟩
    · exact safe_fail
  rename_i hcode
  refine Audit.meets_seq (safe_py fun records hrecords => Audit.meets_seq (safe_py fun n _ => ?_))
  split
  · exact safe_fail
  refine Audit.meets_seq (safe_py fun record hrecord =>
    Audit.meets_seq (safe_py fun other hother => ?_))
  split
  · exact safe_fail
  rename_i hours
  refine Audit.meets_seq (safe_argumentAt fun text htext => ?_)
  split
  · exact safe_fail
  refine Audit.meets_seq (safe_quiet hA rfl fun link t₁ ht₁ hlink => ?_)
  split
  · exact safe_fail
  rename_i hnolink
  refine Audit.meets_seq (safe_quiet hA rfl fun dir t₂ ht₂ hdir => ?_)
  split
  · exact safe_fail
  rename_i hisdir
  cases link with
  | true => exact absurd rfl hnolink
  | false =>
      cases dir with
      | false => exact absurd rfl hisdir
      | true =>
          refine hsome (.of text) t₂ ((ht.trans ht₁).trans ht₂) ?_
          exact ⟨r, records, record, text, evident_told t t₂ (ht₁.trans ht₂) htold,
            not_not.mp hcode, hrecords, hrecord, hother.trans (by rw [Bool.eq_false_iff.mpr hours]),
            htext, rfl, evident_saw t₁ t₂ ht₂ hlink, hdir⟩

theorem safe_isAbsentOrEmpty (hA : Lenient A) {p : HostPath} {Q : Bool → HostState W → Prop}
    (htrue : ∀ t, Q true t) (hfalse : ∀ t, Later s t → Filled p t → Q false t) :
    Safe A (isAbsentOrEmpty p) Q s := by
  refine Audit.meets_seq (safe_quiet hA rfl fun link t ht hlink => ?_)
  split
  · exact htrue t
  rename_i hnolink
  refine Audit.meets_seq (safe_quiet hA rfl fun file t₁ ht₁ hfile => ?_)
  split
  · exact htrue t₁
  rename_i hisfile
  refine Audit.meets_seq (safe_quiet hA rfl fun (n : Nat) t₂ ht₂ hsize => ?_)
  cases link with
  | true => exact absurd rfl hnolink
  | false =>
      cases file with
      | false => exact absurd rfl hisfile
      | true =>
          by_cases hn : n = 0
          · rw [decide_eq_true hn]
            exact htrue t₂
          · rw [decide_eq_false hn]
            exact hfalse t₂ ((ht.trans ht₁).trans ht₂) ⟨evident_saw t t₂ (ht₁.trans ht₂) hlink,
              evident_saw t₁ t₂ ht₂ hfile, n, hn, hsize⟩

theorem safe_directories (hA : Lenient A) {paths : List HostPath} {Q : Bool → HostState W → Prop}
    (htrue : ∀ t, Q true t)
    (hfalse : ∀ t, Later s t →
      (∀ p ∈ paths, Saw (.isSymlink p) false t ∧ Saw (.isDir p) true t) → Q false t) :
    Safe A (anyTool isNotDirectory paths) Q s := by
  induction paths generalizing s with
  | nil => exact hfalse s .refl fun p hp => by cases hp
  | cons p paths ih =>
      refine Audit.meets_seq (Audit.meets_seq (safe_quiet hA rfl fun link t ht hlink => ?_))
      split
      · exact htrue t
      rename_i hnolink
      refine Audit.meets_seq (safe_quiet hA rfl fun dir t₁ ht₁ hdir => ?_)
      cases link with
      | true => exact absurd rfl hnolink
      | false =>
          cases dir with
          | false => exact htrue t₁
          | true =>
              refine ih fun t₂ ht₂ hrest => hfalse t₂ ((ht.trans ht₁).trans ht₂) fun q hq => ?_
              rcases List.mem_cons.mp hq with rfl | hq
              · exact ⟨evident_saw t t₂ (ht₁.trans ht₂) hlink, evident_saw t₁ t₂ ht₂ hdir⟩
              · exact hrest q hq

theorem evident_filled {p : HostPath} : Evident (Filled (W := W) p) :=
  .and evident_saw (.and evident_saw (.exists_ fun _ => .and (.const _) evident_saw))

theorem safe_validatePostgres (hA : Lenient A) {mount : HostPath} {configured : JsonVal}
    {Q : Unit → HostState W → Prop}
    (h : ∀ t, Later s t → DataFits lib "postgres" mount configured t → Q () t) :
    Safe A (validatePostgres mount configured) Q s := by
  refine Audit.meets_seq (safe_isAbsentOrEmpty hA (fun t => safe_fail) fun t ht hversion => ?_)
  refine Audit.meets_seq (safe_isAbsentOrEmpty hA (fun t => safe_fail) fun t₁ ht₁ hcontrol => ?_)
  refine Audit.meets_seq (safe_directories hA (fun t => safe_fail) fun t₂ ht₂ hdirs => ?_)
  refine Audit.meets_seq (safe_py fun value hvalue =>
    Audit.meets_seq (safe_asArgument fun image himage => ?_))
  split
  · exact safe_fail
  rename_i major hmajor
  refine Audit.meets_seq (safe_quiet hA rfl fun text t₃ ht₃ htext => ?_)
  split
  · exact safe_fail
  rename_i hsame
  refine h t₃ (((ht.trans ht₁).trans ht₂).trans ht₃) ?_
  rw [DataFits, if_pos rfl]
  refine ⟨evident_filled t t₃ ((ht₁.trans ht₂).trans ht₃) hversion,
    evident_filled t₁ t₃ (ht₂.trans ht₃) hcontrol, fun p hp => ?_, image, text, himage ▸ hvalue,
      htext, ?_⟩
  · obtain ⟨hlink, hdir⟩ := hdirs p hp
    exact ⟨evident_saw t₂ t₃ ht₃ hlink, evident_saw t₂ t₃ ht₃ hdir⟩
  · rw [hmajor, not_not.mp hsame]

theorem safe_validateKafka (hA : Lenient A) {mount : HostPath} {configured : JsonVal}
    {Q : Unit → HostState W → Prop}
    (h : ∀ t, Later s t → DataFits lib "kafka" mount configured t → Q () t) :
    Safe A (validateKafka lib mount configured) Q s := by
  refine Audit.meets_seq (safe_isAbsentOrEmpty hA (fun t => safe_fail) fun t ht hfilled => ?_)
  refine Audit.meets_seq (safe_quiet hA rfl fun text t₁ ht₁ htext => ?_)
  refine Audit.meets_seq (safe_py fun environment henvironment => ?_)
  split
  · exact safe_fail
  rename_i hnonempty
  refine Audit.meets_seq (safe_py fun cluster hcluster => ?_)
  split
  · exact safe_fail
  rename_i hsame
  refine Audit.meets_seq (safe_py fun node hnode => ?_)
  split
  · exact safe_fail
  rename_i hsame'
  refine Audit.meets_seq (safe_py fun image himage => ?_)
  split
  · exact safe_fail
  rename_i hpinned
  refine h t₁ (ht.trans ht₁) ?_
  rw [DataFits, if_neg (by decide)]
  refine ⟨evident_filled t t₁ ht₁ hfilled, text, environment, cluster, node, htext, henvironment,
    hcluster, hnode, not_not.mp hsame, not_not.mp hsame', fun hempty => hnonempty ?_, image, himage,
    not_not.mp hpinned⟩
  rw [not_not.mp hsame, hempty]
  rfl

theorem safe_validateOrphanData (hA : Lenient A) {service : String} {m : VolumeMount}
    (hm : databaseVolume service = some m) {mount : HostPath} {configured : JsonVal}
    {Q : Unit → HostState W → Prop}
    (h : ∀ t, Later s t → DataFits lib service mount configured t → Q () t) :
    Safe A (validateOrphanData lib service mount configured) Q s := by
  rcases databaseVolume_cases hm with rfl | rfl
  · exact safe_validatePostgres hA h
  · exact safe_validateKafka hA h

theorem safe_checkedComposeService (hA : Lenient A) {service : String} {m : VolumeMount}
    (hm : databaseVolume service = some m) {compose : List String}
    {Q : JsonVal → HostState W → Prop}
    (h : ∀ model configured t, Later s t → Attaches service m model configured → Q configured t) :
    Safe A (checkedComposeService lib loads project service compose) Q s := by
  rw [checkedComposeService]
  split
  · exact safe_fail
  split
  · exact safe_fail
  refine Audit.meets_seq (safe_command (hA _ _ rfl) fun r t ht _ _ => ?_)
  refine Audit.meets_seq (safe_py fun model _ =>
    Audit.meets_seq (safe_py fun configured hconfigured => ?_))
  split
  · refine Audit.meets_seq (safe_tableAt fun m' hm' => ?_)
    obtain rfl : m = m' := Option.some.inj (hm.symm.trans hm')
    refine Audit.meets_seq (safe_py fun mounts hmounts => ?_)
    refine Audit.meets_seq (safe_py fun attached hattached => ?_)
    split
    · exact safe_fail
    rename_i hisattached
    refine Audit.meets_seq (safe_py fun volume _ => Audit.meets_seq (safe_py fun name _ => ?_))
    split
    · exact safe_fail
    refine Audit.meets_seq (safe_py fun environment _ =>
      Audit.meets_seq (safe_py fun lacks _ => ?_))
    split
    · exact safe_fail
    obtain ⟨services, hservices, hget⟩ := Rel.bind_eq_ok hconfigured
    refine h model _ t ht ⟨services, mounts, hservices, hget, hmounts, ?_⟩
    cases attached with
    | false => exact absurd rfl hisattached
    | true => exact hattached
  · exact safe_fail

theorem safe_writeColdCopy (hA : Lenient A) {quote : String → String} {service : String}
    {mount bundle : HostPath} {Q : HostPath → HostState W → Prop}
    (h : ∀ manifest t, Later s t → ColdCopy project quote service mount bundle t → Q manifest t) :
    Safe A (writeColdCopy quote project service mount bundle) Q s := by
  refine Audit.meets_seq (safe_quiet hA rfl fun _ t ht htar => ?_)
  refine Audit.meets_seq (safe_quiet hA rfl fun _ t₁ ht₁ _ => ?_)
  refine Audit.meets_seq (safe_quiet hA rfl fun (names : List String) t₂ ht₂ hnames => ?_)
  split
  · exact safe_fail
  rename_i hmembers
  rw [not_or, not_not, not_not] at hmembers
  refine Audit.meets_seq (safe_quiet hA rfl fun _ t₃ ht₃ hreplace => ?_)
  refine Audit.meets_seq (safe_quiet hA rfl fun sha t₄ ht₄ hsha => ?_)
  refine Audit.meets_seq (safe_quiet hA rfl fun _ t₅ ht₅ hwrite => ?_)
  refine Audit.meets_seq (safe_quiet hA rfl fun _ t₆ ht₆ _ => ?_)
  have h₅ := ht₅.trans ht₆
  have h₄ := ht₄.trans h₅
  have h₃ := ht₃.trans h₄
  refine h _ t₆ ((ht.trans ht₁).trans (ht₂.trans h₃)) ⟨names, sha, ?_⟩
  exact ⟨evident_saw t t₆ (ht₁.trans (ht₂.trans h₃)) htar, evident_saw t₂ t₆ h₃ hnames, hmembers.1,
    hmembers.2, evident_saw t₃ t₆ h₄ hreplace, evident_saw t₄ t₆ h₅ hsha,
    evident_saw t₅ t₆ ht₆ hwrite⟩

theorem safe_coldRecoverySnapshot (hA : Lenient A) {quote : String → String} {service : String}
    {mount root : HostPath} {Q : HostPath → HostState W → Prop}
    (h : ∀ manifest bundle t, Later s t → ColdCopy project quote service mount bundle t →
      Q manifest t) :
    Safe A (coldRecoverySnapshot quote project service mount root) Q s := by
  refine Audit.meets_seq (safe_quiet hA rfl fun (_ : Nat) t ht _ => ?_)
  split
  · exact safe_fail
  refine Audit.meets_seq (safe_quiet hA rfl fun (_ : Bool) t₁ ht₁ _ => ?_)
  split
  · exact safe_fail
  refine Audit.meets_seq (safe_quiet hA rfl fun _ t₂ ht₂ _ => ?_)
  refine Audit.meets_seq (safe_quiet hA rfl fun (_ : Bool) t₃ ht₃ _ => ?_)
  split
  · exact safe_fail
  refine Audit.meets_seq (safe_quiet hA rfl fun (_ : Nat) t₄ ht₄ _ => ?_)
  split
  · exact safe_fail
  refine Audit.meets_seq (safe_quiet hA rfl fun _ t₅ ht₅ _ => ?_)
  refine Audit.meets_seq (safe_quiet hA rfl fun (_ : Nat) t₆ ht₆ _ => ?_)
  refine Audit.meets_seq (safe_quiet hA rfl fun (_ : Nat) t₇ ht₇ _ => ?_)
  dsimp only
  split
  · exact safe_fail
  refine Audit.meets_seq (safe_quiet hA rfl fun _ t₈ ht₈ _ => ?_)
  refine Audit.meets_seq (safe_quiet hA rfl fun _ t₉ ht₉ _ => ?_)
  have hlater : Later s t₉ := (((ht.trans ht₁).trans (ht₂.trans ht₃)).trans
    ((ht₄.trans ht₅).trans (ht₆.trans ht₇))).trans (ht₈.trans ht₉)
  refine Conc.Proto.wp_tryCatch.mpr ?_
  refine Audit.Meets.mono (safe_writeColdCopy hA fun manifest t' ht' hcopy => ?_) (fun _ _ h => h)
    fun e t' _ => ?_
  · exact h manifest _ t' (hlater.trans ht') hcopy
  · refine Audit.meets_seq (safe_quiet hA rfl fun _ _ _ _ => ?_)
    exact Audit.meets_seq (safe_quiet hA rfl fun _ _ _ _ => safe_raise)

theorem safe_verifyExistingPersistentMount {service : String} {m : VolumeMount}
    (hm : persistentMount service = some m) {item : JsonVal} {Q : Unit → HostState W → Prop}
    (h : MountVerified project m item → Q () s) :
    Safe A (verifyExistingPersistentMount project service item) Q s := by
  refine Audit.meets_seq (safe_tableAt fun m' hm' => ?_)
  obtain rfl : m = m' := Option.some.inj (hm.symm.trans hm')
  refine Audit.meets_seq (safe_py fun mounted hmounted => ?_)
  obtain ⟨mounts, hmounts, hkept⟩ := Rel.bind_eq_ok hmounted
  match mounted with
  | [] => exact safe_fail
  | _ :: _ :: _ => exact safe_fail
  | [x] =>
      refine Audit.meets_seq (safe_py fun unsafeMount hunsafe => ?_)
      dsimp only
      split
      · exact safe_fail
      rename_i hsafe
      exact h ⟨mounts, x, hmounts, hkept, hunsafe.trans (by rw [Bool.eq_false_iff.mpr hsafe])⟩

theorem safe_checkNewInstall (hA : Lenient A) {service : String} {m m' : VolumeMount}
    (hm' : databaseVolume (partnerOf service) = some m')
    (hown : NoContainer loads project service s)
    (habsent : VolumeAbsent lib (volumeName project m) s)
    {Q : RecoveryStatus → HostState W → Prop}
    (h : ∀ t, Later s t → NothingStored lib loads project service m m' t → Q .newInstall t) :
    Safe A (checkNewInstall lib loads project service) Q s := by
  refine Audit.meets_seq (safe_orphanVolume hA hm' (fun t ht hpartner => ?_) fun mount t ht _ =>
    safe_fail)
  refine Audit.meets_seq (safe_containers hA fun found t₁ ht₁ hfound => ?_)
  split
  · exact safe_fail
  rename_i hempty
  refine Audit.meets_seq (safe_quiet hA rfl fun r t₂ ht₂ htold => ?_)
  split
  · exact safe_fail
  rename_i hcode
  split
  · exact safe_fail
  rename_i hsaid
  have h₂ := (ht.trans ht₁).trans ht₂
  refine h t₂ h₂ ⟨evident_noContainer s t₂ h₂ hown, evident_volumeAbsent s t₂ h₂ habsent,
    ?_, ?_, ?_⟩
  · exact evident_noContainer t₁ t₂ ht₂ ⟨found, hfound, Bool.eq_false_iff.mpr hempty⟩
  · exact evident_volumeAbsent t t₂ (ht₁.trans ht₂) hpartner
  · exact ⟨r, htold, hcode, Or.inr (by simpa using hsaid)⟩

theorem safe_ensureImage (hA : Lenient A) {compose : List String} {service image : String}
    {Q : Unit → HostState W → Prop} (h : ∀ t, Later s t → Q () t) :
    Safe A (ensureImage compose service image) Q s := by
  refine Audit.meets_seq (safe_imageExists hA fun r t ht _ => ?_)
  split
  · exact h t ht
  refine Audit.meets_seq (safe_command (hA _ _ rfl) fun r' t₁ ht₁ _ _ => ?_)
  refine Audit.meets_seq (safe_imageExists hA fun r'' t₂ ht₂ _ => ?_)
  split
  · exact h t₂ ((ht.trans ht₁).trans ht₂)
  · exact safe_fail

theorem evident_coldCopy {quote : String → String} {service : String} {mount bundle : HostPath} :
    Evident (ColdCopy (W := W) project quote service mount bundle) := by
  refine .exists_ fun _ => .exists_ fun _ => .and evident_saw (.and evident_saw ?_)
  exact .and (.const _) (.and (.const _) (.and evident_saw (.and evident_saw evident_saw)))

theorem evident_dataFits {service : String} {mount : HostPath} {configured : JsonVal} :
    Evident (DataFits (W := W) lib service mount configured) := by
  intro t t' ht h
  unfold DataFits at h ⊢
  split
  · rename_i hservice
    rw [if_pos hservice] at h
    obtain ⟨hversion, hcontrol, hdirs, image, text, himage, htext, hmajor⟩ := h
    refine ⟨evident_filled t t' ht hversion, evident_filled t t' ht hcontrol, fun p hp => ?_,
      image, text, himage, evident_saw t t' ht htext, hmajor⟩
    exact ⟨evident_saw t t' ht (hdirs p hp).1, evident_saw t t' ht (hdirs p hp).2⟩
  · rename_i hservice
    rw [if_neg hservice] at h
    obtain ⟨hfilled, text, environment, cluster, node, htext, hrest⟩ := h
    exact ⟨evident_filled t t' ht hfilled, text, environment, cluster, node,
      evident_saw t t' ht htext, hrest⟩

/-- How `recover_missing_database` ends, if it does not raise. -/
def Recovered (lib : Stdlib) (loads : String → Except Py.Exc JsonVal) (project service : String)
    (m m' : VolumeMount) (status : RecoveryStatus) (s : HostState W) : Prop :=
  match status with
  | .existing => ∃ item, Bound loads project service m item s
  | .newInstall => NothingStored lib loads project service m m' s
  | .recovered _ => True

theorem safe_reattach (hA : Lenient A) {quote : String → String} {service : String}
    {m : VolumeMount}
    (hm : databaseVolume service = some m) {compose : List String} {root mount : HostPath}
    (hown : NoContainer loads project service s)
    (hat : VolumeAt loads project (volumeName project m) mount s)
    (hup : ∀ t, Reattachable lib loads project quote service m t →
      A.pre (.docker (.up compose false service)) t)
    {Q : RecoveryStatus → HostState W → Prop} (h : ∀ manifest t, Q (.recovered manifest) t) :
    Safe A (reattach lib loads quote project service compose root mount m) Q s := by
  refine Audit.meets_seq (safe_quiet hA rfl fun (_ : Nat) t ht _ => ?_)
  split
  · exact safe_fail
  refine Audit.meets_seq (safe_checkedComposeService hA hm
    fun model configured t₁ ht₁ hattaches => ?_)
  refine Audit.meets_seq (safe_validateOrphanData hA hm fun t₂ ht₂ hdata => ?_)
  refine Audit.meets_seq (safe_command (hA _ _ rfl) fun r t₃ ht₃ htold hcode => ?_)
  split
  · exact safe_fail
  rename_i hunattached
  refine Audit.meets_seq (safe_coldRecoverySnapshot hA fun manifest bundle t₄ ht₄ hcopy => ?_)
  refine Audit.meets_seq (safe_py fun value _ => ?_)
  dsimp only
  split
  · exact safe_fail
  refine Audit.meets_seq (safe_ensureImage hA fun t₅ ht₅ => ?_)
  have h₅ : Later s t₅ := (((ht.trans ht₁).trans ht₂).trans ht₃).trans (ht₄.trans ht₅)
  have hready : Reattachable lib loads project quote service m t₅ :=
    ⟨evident_noContainer s t₅ h₅ hown, mount, bundle, model, configured,
      evident_volumeAt s t₅ h₅ hat,
      hattaches, evident_dataFits t₂ t₅ (ht₃.trans (ht₄.trans ht₅)) hdata,
      ⟨r, evident_told t₃ t₅ (ht₄.trans ht₅) htold, hcode, not_not.mp hunattached⟩,
      evident_coldCopy t₄ t₅ ht₅ hcopy⟩
  refine Audit.meets_seq (safe_command (hup t₅ hready) fun _ t₆ _ _ _ => ?_)
  refine Audit.meets_seq (safe_containers hA fun found t₇ _ _ => ?_)
  refine Audit.meets_seq (safe_py fun n _ => ?_)
  split
  · exact safe_fail
  refine Audit.meets_seq (safe_py fun attached _ => ?_)
  split
  · exact h manifest t₇
  · exact safe_fail

theorem partner_volume {service : String} {m : VolumeMount} (hm : databaseVolume service = some m) :
    ∃ m', databaseVolume (partnerOf service) = some m' := by
  rcases databaseVolume_cases hm with rfl | rfl
  · exact ⟨_, rfl⟩
  · exact ⟨_, rfl⟩

theorem persistentMount_of_database {service : String} {m : VolumeMount}
    (hm : databaseVolume service = some m) : persistentMount service = some m := by
  rcases databaseVolume_cases hm with rfl | rfl
  · exact hm
  · exact hm

theorem safe_recoverMissingDatabase (hA : Lenient A) {quote : String → String} {service : String}
    {m m' : VolumeMount} (hm : databaseVolume service = some m)
    (hm' : databaseVolume (partnerOf service) = some m') {compose : List String} {root : HostPath}
    (hup : ∀ t, Reattachable lib loads project quote service m t →
      A.pre (.docker (.up compose false service)) t)
    {Q : RecoveryStatus → HostState W → Prop}
    (h : ∀ status t, Recovered lib loads project service m m' status t → Q status t) :
    Safe A (recoverMissingDatabase lib loads quote project service compose root) Q s := by
  rw [recoverMissingDatabase, hm]
  refine Audit.meets_seq (safe_containers hA fun found t ht hfound => ?_)
  split
  · rename_i hsome
    refine Audit.meets_seq (safe_py fun item hitem => ?_)
    refine Audit.meets_seq (safe_verifyExistingPersistentMount (persistentMount_of_database hm)
      fun hverified => ?_)
    exact h .existing t ⟨item, found, hfound, hsome, hitem, hverified⟩
  · rename_i hempty
    have hown : NoContainer loads project service t := ⟨found, hfound, Bool.eq_false_iff.mpr hempty⟩
    refine Audit.meets_seq (safe_orphanVolume hA hm (fun t₁ ht₁ habsent => ?_)
      fun mount t₁ ht₁ hat => ?_)
    · have hown₁ := evident_noContainer t t₁ ht₁ hown
      exact safe_checkNewInstall hA hm' hown₁ habsent fun t₂ _ hnothing => h .newInstall t₂ hnothing
    · have hown₁ := evident_noContainer t t₁ ht₁ hown
      exact safe_reattach hA hm hown₁ hat hup fun manifest t₂ => h (.recovered manifest) t₂ trivial

theorem safe_ensureInfrastructure (hA : Lenient A) {quote : String → String} {service : String}
    {compose : List String}
    (hup : ∀ recreate t, service ∈ ["postgres", "kafka", "seaweedfs"] →
      MayBringUp lib loads project quote service t →
      A.pre (.docker (.up compose recreate service)) t)
    (hstart : ∀ m item id t, persistentMount service = some m →
      Bound loads project service m item t →
      item.index "Id" = .ok (.str id) → Running item false → A.pre (.docker (.start id)) t) :
    Safe A (ensureInfrastructure lib loads quote project service compose) (fun _ _ => True) s := by
  rw [ensureInfrastructure]
  split
  · exact safe_fail
  rename_i hservice
  have hservice := not_not.mp hservice
  refine Audit.meets_seq (safe_containers hA fun found t ht hfound => ?_)
  split
  · rename_i hempty
    have hown : NoContainer loads project service t :=
      ⟨found, hfound, by simpa using hempty⟩
    rw [createInfrastructure]
    split
    · exact safe_fail
    cases hdb : databaseVolume service with
    | none =>
        refine Audit.meets_seq (Audit.meets_pure ?_)
        refine Audit.meets_seq (safe_command (hup true t hservice ?_) fun _ _ _ _ _ => trivial)
        rw [MayBringUp, hdb]
        exact hown
    | some m =>
        obtain ⟨m', hm'⟩ := partner_volume hdb
        have hone : ∀ t', Reattachable lib loads project quote service m t' →
            A.pre (.docker (.up compose false service)) t' := fun t' hready => by
          refine hup false t' hservice ?_
          rw [MayBringUp, hdb]
          exact Or.inr (Or.inl hready)
        refine Audit.meets_seq (safe_recoverMissingDatabase hA hdb hm' hone
          fun status t₁ hstatus => ?_)
        cases status with
        | recovered manifest => trivial
        | existing =>
            refine Audit.meets_seq (safe_command (hup true t₁ hservice ?_) fun _ _ _ _ _ => trivial)
            rw [MayBringUp, hdb]
            exact Or.inr (Or.inr hstatus)
        | newInstall =>
            refine Audit.meets_seq (safe_command (hup true t₁ hservice ?_) fun _ _ _ _ _ => trivial)
            rw [MayBringUp, hdb]
            exact Or.inl ⟨m', hm', hstatus⟩
  · rename_i hsome
    refine Audit.meets_seq (safe_py fun item hitem => ?_)
    obtain ⟨m, hm⟩ : ∃ m, persistentMount service = some m := by
      rcases List.mem_cons.mp hservice with rfl | hservice
      · exact ⟨_, rfl⟩
      rcases List.mem_cons.mp hservice with rfl | hservice
      · exact ⟨_, rfl⟩
      · rw [List.mem_singleton.mp hservice]
        exact ⟨_, rfl⟩
    refine Audit.meets_seq (safe_verifyExistingPersistentMount hm fun hverified => ?_)
    refine Audit.meets_seq (safe_isRunning fun b hrunning => ?_)
    split
    · trivial
    rename_i hb
    refine Audit.meets_seq (safe_argumentAt fun id hid => ?_)
    have hbound : Bound loads project service m item t :=
      ⟨found, hfound, by simpa using hsome, hitem, hverified⟩
    exact Audit.meets_seq (safe_command (hstart m item id t hm hbound hid
      (Bool.eq_false_iff.mpr hb ▸ hrunning)) fun _ _ _ _ _ => trivial)

theorem safe_removeStalePersisted (hA : Lenient A) {path : HostPath}
    (hstop : ∀ service item id s, BackedUp loads project path service item s →
      item.index "Id" = .ok (.str id) → A.pre (.docker (.stop id)) s)
    (hrm : ∀ id s, StalePersisted loads project path id s → A.pre (.docker (.rm id)) s) :
    Safe A (removeStalePersisted loads project path) (fun _ _ => True) s := by
  refine Audit.meets_seq (safe_quiet hA rfl fun (text : String) t ht htext => ?_)
  refine Audit.meets_seq (safe_py fun manifest hmanifest => ?_)
  refine Audit.meets_seq (safe_py fun name hname =>
    Audit.meets_seq (safe_py fun isLocal hlocal => ?_))
  split
  · exact safe_fail
  rename_i hours
  rw [not_or, not_not, not_not] at hours
  have hbackup : ∀ t', Later t t' → BackupOf loads project path manifest t' := fun t' ht' =>
    ⟨⟨text, evident_saw t t' ht' htext, hmanifest⟩, ⟨name, hname, hours.1⟩, hours.2 ▸ hlocal⟩
  refine safe_overContainers hA fun service hservice item t' ht' hitem => ?_
  exact safe_removePersistedItem hA hservice hitem (fun t'' ht'' => hbackup t'' (ht'.trans ht''))
    (hstop service item) hrm

/-- The one container of the service runs, from the image that was built for the revision. -/
def VerifiedService (loads : String → Except Py.Exc JsonVal) (project revision service : String)
    (s : HostState W) : Prop :=
  ∃ found item image r, Found loads project service found s ∧ lengthOf found = .ok 1 ∧
    firstOf found = .ok item ∧ Running item true ∧
    Told (.imageId (project ++ "-" ++ service ++ ":" ++ revision)) r s ∧ r.returncode = 0 ∧
    item.index "Image" = .ok image ∧ image.Equal (.str (ReleaseBackup.stripped r.stdout))

theorem evident_verifiedService {revision service : String} :
    Evident (VerifiedService (W := W) loads project revision service) := by
  refine .exists_ fun _ => .exists_ fun _ => .exists_ fun _ => .exists_ fun _ =>
    .and evident_found ?_
  exact .and (.const _) (.and (.const _) (.and (.const _) (.and evident_told (.const _))))

theorem safe_verifyService (hA : Lenient A) {revision service : String} :
    Safe A (verifyService loads project revision service)
      (fun _ t => Later s t ∧ VerifiedService loads project revision service t) s := by
  refine Audit.meets_seq (safe_containers hA fun found t ht hfound => ?_)
  refine Audit.meets_seq (safe_py fun n hlength => ?_)
  split
  · exact safe_fail
  rename_i hone
  refine Audit.meets_seq (safe_py fun item hitem =>
    Audit.meets_seq (safe_isRunning fun b hrunning => ?_))
  split
  · exact safe_fail
  rename_i hb
  refine Audit.meets_seq (safe_command (hA _ _ rfl) fun r t₁ ht₁ htold hcode => ?_)
  refine Audit.meets_seq (safe_py fun image himage => ?_)
  split
  · exact safe_fail
  rename_i hequal
  have hb : b = true := by simpa using hb
  exact ⟨ht.trans ht₁, found, item, image, r, evident_found t t₁ ht₁ hfound,
    hlength.trans (by rw [not_not.mp hone]), hitem, hb ▸ hrunning, htold, hcode, himage,
    not_not.mp hequal⟩

theorem safe_verifyServices (hA : Lenient A) {revision : String} {services : List String} :
    Safe A (forEach (verifyService loads project revision) services)
      (fun _ t => Later s t ∧
        ∀ service ∈ services, VerifiedService loads project revision service t) s := by
  induction services generalizing s with
  | nil => exact ⟨.refl, fun service hservice => by cases hservice⟩
  | cons service services ih =>
      refine Audit.meets_seq ((safe_verifyService hA).mono (fun _ t ht => ?_) fun _ _ _ => trivial)
      refine ih.mono (fun _ t' ht' => ⟨ht.1.trans ht'.1, fun service' hservice' => ?_⟩)
        fun _ _ _ => trivial
      rcases List.mem_cons.mp hservice' with rfl | hservice'
      · exact evident_verifiedService t t' ht'.1 ht.2
      · exact ht'.2 service' hservice'

/-! ## The whole tool -/

/-- Docker and the disk answer whatever they like. -/
def guarded (lib : Stdlib) (loads : String → Except Py.Exc JsonVal) (project : String)
    (quote : String → String) (mode : Mode) : Audit HostCommand HostReply ToolRaise W where
  pre := Earned lib loads project quote mode
  allow _ _ _ := True

theorem lenient_guarded {quote : String → String} {mode : Mode} :
    Lenient (guarded (W := W) lib loads project quote mode) := by
  intro c s hc
  show Earned lib loads project quote mode c s
  unfold Earned
  split <;> first | exact hc | cases hc

/-- Whatever the mode, every command has been earned. -/
theorem main_guarded {quote : String → String} {mode : Mode} {compose : List String} :
    Safe (guarded lib loads project quote mode) (main lib loads quote project mode compose)
      (fun _ _ => ¬(project = "" ∨ ¬project.toList.all isProjectChar = true)) s := by
  have hA : Lenient (guarded (W := W) lib loads project quote mode) := lenient_guarded
  unfold main
  split
  · exact safe_fail
  rename_i hname
  refine Audit.Meets.mono (Q := fun _ _ => True) ?_ (fun _ _ _ => hname) fun _ _ h => h
  split
  · refine Audit.meets_seq (safe_overContainers hA fun service hservice item t _ hitem => ?_)
    exact safe_stopItem hitem fun id t' hitem' hid hrunning =>
      ⟨service, hservice, item, hitem', hid, hrunning⟩
  · refine Audit.meets_seq (safe_overContainers hA fun service hservice item t _ hitem => ?_)
    exact safe_removeStaleItem hA hservice hitem fun id t' hstale => hstale
  · exact safe_fail
  · rename_i path
    refine Audit.meets_seq (safe_quiet hA rfl fun (_ : Bool) t _ _ => ?_)
    split
    · exact safe_fail
    refine Audit.meets_seq (safe_removeStalePersisted hA (fun service item id t' hback hid => ?_)
      fun id t' hstale => hstale)
    exact ⟨service, item, hback, hid⟩
  · rename_i service
    exact safe_ensureInfrastructure hA (fun recreate t hservice hup => ⟨rfl, hservice, hup⟩)
      fun m item id t hm hbound hid hrunning => ⟨m, item, hm, hbound, hid, hrunning⟩
  · rename_i service root
    split
    · exact safe_fail
    rename_i hdb
    obtain ⟨m, hm⟩ := Option.ne_none_iff_exists'.mp fun h => hdb (Option.isNone_iff_eq_none.mpr h)
    obtain ⟨m', hm'⟩ := partner_volume hm
    refine Audit.meets_seq (safe_recoverMissingDatabase hA hm hm' (fun t hready => ?_)
      fun _ _ _ => trivial)
    refine ⟨rfl, ?_, ?_⟩
    · rcases databaseVolume_cases hm with rfl | rfl <;> simp
    · rw [MayBringUp, hm]
      exact Or.inr (Or.inl hready)
  · split
    · exact safe_fail
    · exact (safe_verifyServices hA).mono (fun _ _ _ => trivial) fun _ _ _ => trivial

/-- Whatever Docker and the disk answer, only the two cleaning modes remove a container: the one
after having seen it listed under the label of an application service of the project, stopped,
with nothing mounted and its image gone; the other, of a storage or observability service, with
its image gone, its own volume mounted, that volume's archive present with the checksum that the
given local backup manifest of the project records, and the container stopped. -/
theorem removes_only_stale {quote : String → String} {mode : Mode} {compose : List String} {w : W}
    {id : String} {k : Except ToolRaise CompletedProcess → Tool Unit}
    (hrun : Steps Conc.recording (fun _ _ _ => True) 0 (main lib loads quote project mode compose)
      ⟨w, []⟩ (.call (.docker (.rm id)) k) s) :
    (mode = .removeStale ∧ StaleApplication loads project id s) ∨
      ∃ path, mode = .removeStalePersisted (some path) ∧
        StalePersisted loads project path id s := by
  have howed : Earned lib loads project quote mode (.docker (.rm id)) s := main_guarded.owed hrun
  cases mode with
  | removeStale => exact Or.inl ⟨rfl, howed⟩
  | removeStalePersisted manifest =>
      cases manifest with
      | none => cases howed
      | some path => exact Or.inr ⟨path, rfl, howed⟩
  | _ => cases howed

/-- A service is only brought up to ensure or recover just that one, one of the persistent
infrastructure. If its data is no database, the run found no container of it. For a database,
either nothing of an earlier installation is left on the host; or its own volume is there, filled
and fitting the configuration, attached to nothing and copied away first; or there is a container
that is bound to that volume. -/
theorem bringsUp_safely {quote : String → String} {mode : Mode} {compose argv : List String}
    {recreate : Bool} {service : String} {w : W}
    {k : Except ToolRaise CompletedProcess → Tool Unit}
    (hrun : Steps Conc.recording (fun _ _ _ => True) 0 (main lib loads quote project mode compose)
      ⟨w, []⟩ (.call (.docker (.up argv recreate service)) k) s) :
    (mode = .ensure service ∨ ∃ root, mode = .recoverMissing service root) ∧
      service ∈ ["postgres", "kafka", "seaweedfs"] ∧
        MayBringUp lib loads project quote service s := by
  have howed : Earned lib loads project quote mode (.docker (.up argv recreate service)) s :=
    main_guarded.owed hrun
  cases mode with
  | ensure service' =>
      obtain ⟨rfl, howed⟩ := howed
      exact ⟨Or.inl rfl, howed⟩
  | recoverMissing service' root =>
      obtain ⟨rfl, howed⟩ := howed
      exact ⟨Or.inr ⟨root, rfl⟩, howed⟩
  | removeStalePersisted manifest =>
      cases manifest with
      | none => cases howed
      | some path => cases howed
  | _ => cases howed

end

/-! ## A host with one stale container, and an empty one -/

def sampleInspection : JsonVal :=
  .arr [.obj [("Id", .str "c1"), ("Image", .str "gone"),
    ("State", .obj [("Running", .bool false)]), ("Mounts", .arr [])]]

def sampleLoads (text : String) : Except Py.Exc JsonVal :=
  if text = "inspection" then .ok sampleInspection else .error .valueError

/-- Docker on a host with the container `c1` and nothing else, or with nothing. -/
def sampleDocker (empty : Bool) : DockerCommand → CompletedProcess
  | .psService _ _ => ⟨0, if empty then "" else "c1\n", ""⟩
  | .inspect _ => ⟨0, "inspection", ""⟩
  | .volumeInspect _ => ⟨1, "", "Error: No such volume"⟩
  | _ => ⟨1, "", "Error: No such object"⟩

def sampleReaction (empty : Bool) : Conc.Reaction HostCommand HostReply ToolRaise Unit :=
  ⟨fun c => .ok (bareReply (sampleDocker empty) 0 c), ()⟩

/-- Texts of the sample are lower case already. -/
def sampleLib : Stdlib :=
  ⟨fun _ => none, fun _ => none, fun _ => none, fun _ _ => Fin.last 15,
    fun text => if text = "Error: No such volume" then "error: no such volume" else text,
      fun _ => ""⟩

set_option maxRecDepth 4000 in
theorem stale_container_removed :
    ∃ k s, Steps Conc.recording (fun _ _ _ => True) 0
      (main sampleLib sampleLoads id "p" .removeStale [])
      ⟨(), []⟩ (.call (.docker (.rm "c1")) k) s ∧
      ((Mode.removeStale = .removeStale ∧ StaleApplication sampleLoads "p" "c1" s) ∨
        ∃ path, Mode.removeStale = .removeStalePersisted (some path) ∧
          StalePersisted sampleLoads "p" path "c1" s) := by
  have hrun : ∃ k s, Steps Conc.recording (fun _ _ _ => True) 0
      (main sampleLib sampleLoads id "p" .removeStale []) ⟨(), []⟩
        (.call (.docker (.rm "c1")) k) s :=
    ⟨_, _, Steps.recorded (List.replicate 3 (sampleReaction false)) (fun _ _ _ => trivial) rfl⟩
  obtain ⟨k, s, hrun⟩ := hrun
  exact ⟨k, s, hrun, removes_only_stale hrun⟩

set_option maxRecDepth 4000 in
theorem first_postgres_brought_up :
    ∃ k s, Steps Conc.recording (fun _ _ _ => True) 0
        (main sampleLib sampleLoads id "p" (.ensure "postgres") ["docker", "compose"]) ⟨(), []⟩
        (.call (.docker (.up ["docker", "compose"] true "postgres")) k) s ∧
      (Mode.ensure "postgres" = .ensure "postgres" ∨
        ∃ root, Mode.ensure "postgres" = .recoverMissing "postgres" root) ∧
      "postgres" ∈ ["postgres", "kafka", "seaweedfs"] ∧
      MayBringUp sampleLib sampleLoads "p" id "postgres" s := by
  have hrun : ∃ k s, Steps Conc.recording (fun _ _ _ => True) 0
      (main sampleLib sampleLoads id "p" (.ensure "postgres") ["docker", "compose"]) ⟨(), []⟩
      (.call (.docker (.up ["docker", "compose"] true "postgres")) k) s :=
    ⟨_, _, Steps.recorded (List.replicate 6 (sampleReaction true)) (fun _ _ _ => trivial) rfl⟩
  obtain ⟨k, s, hrun⟩ := hrun
  exact ⟨k, s, hrun, bringsUp_safely hrun⟩

end Deploy

end Sahabino
