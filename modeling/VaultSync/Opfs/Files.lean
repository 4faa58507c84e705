import VaultSync.Async.Sequential
import VaultSync.Error
import VaultSync.Oplog.Entry
import VaultSync.Opfs.Manifest
import VaultSync.Opfs.PageCache

/-! The directory of a page store, and the file operations its functions await. -/

namespace VaultSync.Opfs

open Async

/-! ## Page files -/

structure PageHeader where
  version : UInt8
  checksum : UInt32
  flags : UInt8
  dataLen : UInt32
  deriving DecidableEq

def PageHeader.tombstoned (h : PageHeader) : Bool := h.flags &&& 0x02 != 0

structure DocEntry (B : Type) where
  docId : String
  recordId : String
  bytes : B
  deriving DecidableEq

def DocEntry.key {B : Type} (e : DocEntry B) : Key := ⟨e.docId, e.recordId⟩

/-- The bytes `F` of page files and the data `D` of pages, with the page format and the
encodings of the documents and oplog entries over byte strings `B`. The decoders take any
bytes, those of older formats and damaged ones too; the laws are about what the current
encoders write. -/
structure PageLib (F D B : Type) where
  encode : PageHeader → D → F
  isEmpty : F → Bool
  isJson : F → Bool
  decodePageHeader : F → Except VaultSyncError PageHeader
  extractPageData : F → Except VaultSyncError D
  decodePage : F → Except VaultSyncError (PageHeader × D)
  crc32 : D → UInt32
  len : D → ℕ
  decodeDoc : D → Option (DocEntry B)
  decodeOplog : D → Option (List (OplogEntry B))
  decodeEntry : D → Option (OplogEntry B)
  encodeOplog : List (OplogEntry B) → D
  len_lt : ∀ d, len d < 2 ^ 32
  isEmpty_encode : ∀ h d, isEmpty (encode h d) = false
  isJson_encode : ∀ h d, isJson (encode h d) = false
  decodePageHeader_encode : ∀ h d, h.version = 1 → decodePageHeader (encode h d) = .ok h
  decodePage_encode : ∀ h d, h.version = 1 → decodePage (encode h d) = .ok (h, d)
  extractPageData_encode : ∀ h d, h.version = 1 → h.dataLen.toNat = len d →
    extractPageData (encode h d) = .ok d
  decodeOplog_encodeOplog : ∀ l, decodeOplog (encodeOplog l) = some l

variable {F D B : Type}

namespace PageLib

variable (lib : PageLib F D B)

def encodeV3Page (data : D) (flags : UInt8) : F :=
  lib.encode
    { version := 1
      checksum := lib.crc32 data
      flags := flags
      dataLen := UInt32.ofNat (lib.len data) } data

variable (id : ℕ)

def pageFilename : String := s!"{id}.page"

def readPageHeader (f : F) : Except VaultSyncError PageHeader :=
  if lib.isEmpty f then .error (.storage s!"empty page {pageFilename id}")
  else lib.decodePageHeader f

def readPageFile (f : F) : Except VaultSyncError (PageHeader × D) :=
  if lib.isEmpty f then .error (.storage s!"empty page {pageFilename id}")
  else
    match lib.decodePage f with
    | .error e => .error e
    | .ok (header, data) =>
      if 1 ≤ header.version ∧ UInt32.ofNat (lib.len data) ≠ header.dataLen then
        .error (.storage
          s!"page data len mismatch: header {header.dataLen} actual {lib.len data}")
      else .ok (header, data)

variable {lib}

lemma extractPageData_encodeV3Page (data : D) (flags : UInt8) :
    lib.extractPageData (lib.encodeV3Page data flags) = .ok data := by
  refine lib.extractPageData_encode _ _ rfl ?_
  simpa using lib.len_lt data

def v3Header (lib : PageLib F D B) (data : D) (flags : UInt8) : PageHeader where
  version := 1
  checksum := lib.crc32 data
  flags := flags
  dataLen := UInt32.ofNat (lib.len data)

variable {data : D}

lemma v3Header_live : (lib.v3Header data 0).tombstoned = false := by
  change ((0 : UInt8) &&& 0x02 != 0) = false
  decide

lemma v3Header_tombstoned : (lib.v3Header data 0x02).tombstoned = true := by
  change ((0x02 : UInt8) &&& 0x02 != 0) = true
  decide

lemma readPageHeader_encodeV3Page (data : D) (flags : UInt8) :
    lib.readPageHeader id (lib.encodeV3Page data flags) = .ok (lib.v3Header data flags) := by
  simp only [readPageHeader, encodeV3Page, lib.isEmpty_encode, Bool.false_eq_true, if_false]
  exact lib.decodePageHeader_encode _ _ rfl

lemma readPageFile_encodeV3Page (data : D) (flags : UInt8) :
    lib.readPageFile id (lib.encodeV3Page data flags) = .ok (lib.v3Header data flags, data) := by
  simp only [readPageFile, encodeV3Page, lib.isEmpty_encode, Bool.false_eq_true, if_false]
  rw [lib.decodePage_encode _ _ rfl]
  simp [v3Header]

end PageLib

/-! ## File operations -/

inductive FileError where
  | notFound
  | notReadable
  | other (msg : String)
  deriving DecidableEq

def FileError.toError : FileError → VaultSyncError
  | notFound => .storage "NotFoundError"
  | notReadable => .storage "NotReadableError"
  | other msg => .storage msg

/-- The manifest file. One that does not decode or does not match its checksum is corrupt. -/
inductive ManifestFile where
  | missing
  | corrupt
  | valid (m : StoreManifest)

def ManifestFile.verified : ManifestFile → Option StoreManifest
  | valid m => some m
  | _ => none

lemma ManifestFile.verified_eq_some {f : ManifestFile} {m : StoreManifest} :
    f.verified = some m ↔ f = .valid m := by
  cases f <;> simp [verified]

structure Directory (F : Type) where
  pages : Finmap fun _ : ℕ => F
  manifest : ManifestFile

/-- What is awaited. The two sections that hand out page ids under the manifest's mutex are
operations as well, so that the state can keep the ids. -/
inductive FileOp (F : Type) where
  | readManifest
  | writeManifest (m : StoreManifest)
  | readFile (id : ℕ)
  | writeFile (id : ℕ) (f : F)
  | removeFile (id : ℕ)
  | entries
  | allocatePageId
  | allocateAndRotate

def FileOp.Ans : FileOp F → Type
  | readManifest => ManifestFile
  | writeManifest _ => Except FileError Unit
  | readFile _ => Except FileError F
  | writeFile _ _ => Except FileError Unit
  | removeFile _ => Except FileError Unit
  | entries => List ℕ
  | allocatePageId => ℕ × StoreManifest
  | allocateAndRotate => (ℕ × ℕ) × StoreManifest

abbrev FileOps (F : Type) : Signature := ⟨FileOp F, FileOp.Ans⟩

structure PageStore (D : Type) where
  manifest : StoreManifest
  pageCache : PageCache D
  gcNeeded : Bool
  splitPending : Bool
  cachedPendingCount : ℕ

abbrev PageFn (F D : Type) := Prog (FileOps F) (PageStore D) VaultSyncError

abbrev Order {α : Type} (l : List α) := { l' : List α // l'.Perm l }

structure Env (B : Type) where
  dirOrder : (ids : List ℕ) → Order ids
  hashOrder : (entries : List (OplogEntry B)) → Order entries

instance : Inhabited (Env B) :=
  ⟨{ dirOrder := fun ids => ⟨ids, .refl _⟩
     hashOrder := fun entries => ⟨entries, .refl _⟩ }⟩

/-- A page store, its directory, and the page ids handed out so far, the latest first. -/
structure StoreState (F D : Type) where
  memory : PageStore D
  dir : Directory F
  handedOut : List ℕ

namespace StoreState

variable (s : StoreState F D)

def setManifest (m : StoreManifest) : StoreState F D :=
  { s with memory := { s.memory with manifest := m } }

def setManifestFile (f : ManifestFile) : StoreState F D :=
  { s with dir := { s.dir with manifest := f } }

def putFile (id : ℕ) (f : F) : StoreState F D :=
  { s with dir := { s.dir with pages := s.dir.pages.insert id f } }

def dropFile (id : ℕ) : StoreState F D :=
  { s with dir := { s.dir with pages := s.dir.pages.erase id } }

def handOut (id : ℕ) : StoreState F D :=
  { s with handedOut := id :: s.handedOut }

def fileAt (id : ℕ) : Except FileError F :=
  match s.dir.pages.lookup id with
  | some f => .ok f
  | none => .error .notFound

/-- Every file operation succeeds; a file that is not there is reported as such. -/
def handle : (op : FileOp F) → Env B → StoreState F D → op.Ans × StoreState F D
  | .readManifest, _, s => (s.dir.manifest, s)
  | .writeManifest m, _, s => (.ok (), s.setManifestFile (.valid m))
  | .readFile id, _, s => (s.fileAt id, s)
  | .writeFile id f, _, s => (.ok (), s.putFile id f)
  | .removeFile id, _, s =>
    if id ∈ s.dir.pages then (.ok (), s.dropFile id) else (.error .notFound, s)
  | .entries, e, s => ((e.dirOrder (ascending s.dir.pages.keys)).1, s)
  | .allocatePageId, _, s =>
    let r := s.memory.manifest.allocatePageId
    (r, (s.setManifest r.2).handOut r.1)
  | .allocateAndRotate, _, s =>
    let r := s.memory.manifest.allocateAndRotate
    (r, (s.setManifest r.2).handOut r.1.1)

def machine (B : Type) : Machine (FileOps F) (PageStore D) (Env B) (StoreState F D) where
  handle := handle
  allow _ _ _ := True
  memory s := s.memory
  setMemory p s := { s with memory := p }

end StoreState

end VaultSync.Opfs
