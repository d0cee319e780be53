import SharedBike.Ipc.SpscRing

/-!
# The shared memory region

`shm_layout.hpp` and `shm_region.cpp`. Two files lie in shared memory: `req`
with one request ring for each gateway worker, `rsp` with the response ring.
A file begins with its own header and the headers of its rings; besides the
two counters a ring's header has a process id and a heartbeat for each side.

Dispatch creates the files or recovers what an earlier run has left
(`createOrRecover`); the gateway only opens them. What the system decides is
input: which processes exist, the clock, and how each system call ends. A
file is its size, its header and the headers behind it; what its slots hold
is never read here. The file keeps its state when a call fails, so a failure
comes with the files as they are then.
-/

namespace SharedBike.Ipc

open Function

/-! ## Layout -/

def kShmMagic : UInt32 := 0x454B4942

def kShmVersion : UInt32 := 1

def kPageAlign : Nat := 4096

def alignUp (v align : Nat) : Nat := (v + align - 1) / align * align

structure RingFileLayout where
  headersOffset : Nat
  slotsOffset : Nat
  ringStride : Nat
  totalBytes : Nat

/-- The file header and a ring header take 128 bytes each. -/
def computeFileLayout (ringCount bytesPerRing : Nat) : RingFileLayout :=
  let slotsOffset := alignUp (128 + ringCount * 128) kPageAlign
  ⟨128, slotsOffset, bytesPerRing, slotsOffset + ringCount * bytesPerRing⟩

structure ShmFileHeader where
  magic : UInt32
  version : UInt32
  ringCount : UInt32
  slotCount : UInt32
  slotSize : UInt32
  totalBytes : Nat
  createdNs : UInt64
  deriving DecidableEq

/-- A `RingHeader` with everything that is in it. -/
structure SharedHeader extends RingHeader where
  producerPid : UInt32
  producerHeartbeatNs : UInt64
  consumerPid : UInt32
  consumerHeartbeatNs : UInt64
  deriving DecidableEq

/-- A header as its default constructor makes it. -/
def SharedHeader.zero : SharedHeader := ⟨⟨0, 0⟩, 0, 0, 0, 0⟩

@[ext]
structure ShmFile where
  size : Nat
  header : ShmFileHeader
  rings : Nat → SharedHeader

/-! ## The two files -/

inductive FileId where
  | req
  | rsp
  deriving DecidableEq

/-- `ShmRegion::Params`, as far as the files depend on them. -/
structure Params where
  shmPrefix : String := "bike"
  instanceNo : Int := 0
  workers : UInt32 := 8

namespace Params

def shmName (P : Params) (f : FileId) : String :=
  "/" ++ P.shmPrefix ++ toString P.instanceNo ++ match f with
    | .req => "_req"
    | .rsp => "_rsp"

def ringCount (P : Params) : FileId → UInt32
  | .req => P.workers
  | .rsp => 1

end Params

namespace FileId

def shape : FileId → RingShape
  | .req => ReqRing
  | .rsp => RspRing

/-- The gateway writes requests and reads responses. -/
def peerIsProducer : FileId → Bool
  | .req => true
  | .rsp => false

end FileId

/-- `req_total_bytes` and `rsp_total_bytes` -/
def totalBytes (P : Params) (f : FileId) : Nat :=
  (computeFileLayout (P.ringCount f).toNat (f.shape.slotSize * f.shape.kSlotCount.toNat)).totalBytes

/-! ## What the system answers -/

/-- The processes that exist and the clock. -/
structure Host where
  exists_ : UInt32 → Bool
  nowNs : UInt64

/-- How `flock` ends. -/
inductive Flock where
  | taken
  | held
  | failed (why : String)
  deriving DecidableEq

/-- How the system calls on a file end: `none` is success, otherwise the text of
the error. `map` and `remap` are the two calls of `mmap`. -/
structure SysCalls where
  create : Option String := none
  truncate : Option String := none
  openExisting : Option String := none
  stat : Option String := none
  map : Option String := none
  remap : Option String := none
  lock : Flock := .taken

/-- Why a file is given up. -/
inductive ShmError where
  | create (why : String)
  | truncate (total : Nat) (why : String)
  | openExisting (why : String)
  | stat (why : String)
  | mmap (why : String)
  | locked
  | flock (why : String)
  | reinitTruncate (why : String)
  | peerAlive
  | mismatch
  deriving DecidableEq

/-- The text of the exception. -/
def ShmError.what (P : Params) (f : FileId) (e : ShmError) : String :=
  let name := P.shmName f
  "ipc shm: " ++ match e with
    | .create why => name ++ " shm_open(O_CREAT|O_EXCL) failed: " ++ why
    | .truncate total why => name ++ " ftruncate(" ++ toString total ++ ") failed: " ++ why
    | .openExisting why => name ++ " shm_open(O_RDWR) failed: " ++ why
    | .stat why => name ++ " fstat failed: " ++ why
    | .mmap why => "mmap failed: " ++ why
    | .locked => name ++ " is locked by another creator (parallel startup?)"
    | .flock why => name ++ " flock failed: " ++ why
    | .reinitTruncate why => name ++ " reinit ftruncate failed: " ++ why
    | .peerAlive => name ++ " peer (gateway) alive with fresh heartbeat; " ++
        "refusing rebuild, will retry after it exits"
    | .mismatch => name ++ match f with
        | .req => " header mismatch (size/magic/version/ring_count)"
        | .rsp => " header mismatch (size/magic/version)"

/-! ## One file -/

def kInUseHbLimitNs : UInt64 := 3 * 1000000000

def pidAlive (host : Host) (pid : UInt32) : Bool := if pid = 0 then false else host.exists_ pid

/-- The process id of the gateway in a ring's header. -/
def SharedHeader.gatewayPid (f : FileId) (h : SharedHeader) : UInt32 :=
  if f.peerIsProducer then h.producerPid else h.consumerPid

def SharedHeader.gatewayHeartbeatNs (f : FileId) (h : SharedHeader) : UInt64 :=
  if f.peerIsProducer then h.producerHeartbeatNs else h.consumerHeartbeatNs

/-- `peer_in_use` reads the header of ring 0; it is passed here. -/
def peerInUse (host : Host) (f : FileId) (h0 : SharedHeader) : Bool :=
  if !pidAlive host (h0.gatewayPid f) then false
  else
    let hb := h0.gatewayHeartbeatNs f
    if hb = 0 then false else host.nowNs - hb < kInUseHbLimitNs

def validateFile (P : Params) (f : FileId) (file : ShmFile) : Bool :=
  if file.size ≠ totalBytes P f then false
  else
    file.header.magic = kShmMagic && file.header.version = kShmVersion &&
      file.header.ringCount = P.ringCount f && file.header.slotCount = f.shape.kSlotCount &&
      file.header.slotSize = UInt32.ofNat f.shape.slotSize &&
      file.header.totalBytes = totalBytes P f

/-- The header that `write_headers` writes. -/
def freshHeader (P : Params) (f : FileId) (now : UInt64) : ShmFileHeader where
  magic := kShmMagic
  version := kShmVersion
  ringCount := P.ringCount f
  slotCount := f.shape.kSlotCount
  slotSize := UInt32.ofNat f.shape.slotSize
  totalBytes := totalBytes P f
  createdNs := now

def writeHeaders (P : Params) (f : FileId) (now : UInt64) (file : ShmFile) : ShmFile :=
  { file with
    header := freshHeader P f now
    rings := fun i => if i < (P.ringCount f).toNat then .zero else file.rings i }

/-- `ftruncate`: what lies beyond the old or the new end reads as zeros. -/
def ShmFile.resize (total : Nat) (file : ShmFile) : ShmFile :=
  { file with
    size := total
    rings := fun i => if 128 * (i + 2) ≤ min file.size total then file.rings i else .zero }

/-- A new file, all zeros. -/
def ShmFile.blank (total : Nat) : ShmFile := ⟨total, ⟨0, 0, 0, 0, 0, 0, 0⟩, fun _ => .zero⟩

/-- `mmap` of nothing fails. -/
def doMmap (bytes : Nat) (fault : Option String) : Option String :=
  if bytes = 0 then some "Invalid argument" else fault

/-- `shm_create` on a name that is free. A file that cannot be sized is unlinked
again; one that cannot be mapped stays. -/
def shmCreate (total : Nat) (k : SysCalls) : Option ShmFile × Option ShmError :=
  match k.create with
  | some why => (none, some (.create why))
  | none =>
    match k.truncate with
    | some why => (none, some (.truncate total why))
    | none => (some (.blank total), (doMmap total k.map).map .mmap)

def shmOpenExisting (k : SysCalls) (file : ShmFile) : Option ShmError :=
  match k.openExisting with
  | some why => some (.openExisting why)
  | none =>
    match k.stat with
    | some why => some (.stat why)
    | none => (doMmap file.size k.map).map .mmap

def lockFileExclusive (k : SysCalls) : Option ShmError :=
  match k.lock with
  | .taken => none
  | .held => some .locked
  | .failed why => some (.flock why)

def reinitFile (P : Params) (host : Host) (f : FileId) (k : SysCalls) (file : ShmFile) :
    Option ShmFile × Option ShmError :=
  match k.truncate with
  | some why => (some file, some (.reinitTruncate why))
  | none => (some (writeHeaders P f host.nowNs (file.resize (totalBytes P f))), none)

/-- The creator's half of `map_all` for one file, which is there or not. -/
def recoverFile (P : Params) (host : Host) (f : FileId) (k : SysCalls) :
    Option ShmFile → Option ShmFile × Option ShmError
  | none =>
    match shmCreate (totalBytes P f) k with
    | (x, some e) => (x, some e)
    | (x, none) =>
      match lockFileExclusive k with
      | some e => (x, some e)
      | none => (x.map (writeHeaders P f host.nowNs), none)
  | some file =>
    match shmOpenExisting k file with
    | some e => (some file, some e)
    | none =>
      match lockFileExclusive k with
      | some e => (some file, some e)
      | none =>
        if !validateFile P f file then
          -- a file of another size is mapped anew first
          match if file.size ≠ totalBytes P f then k.remap else none with
          | some why => (some file, some (.mmap why))
          | none => reinitFile P host f k file
        else if peerInUse host f (file.rings 0) then (some file, some .peerAlive)
        else reinitFile P host f k file

/-- The opener's half of `map_all` for one file. -/
def openFile (P : Params) (f : FileId) (k : SysCalls) : Option ShmFile → Option ShmError
  | none => some (.openExisting "No such file or directory")
  | some file =>
    match shmOpenExisting k file with
    | some e => some e
    | none => if validateFile P f file then none else some .mismatch

/-! ## Both files -/

/-- The files under their names. -/
abbrev Shm := FileId → Option ShmFile

/-- `create_or_recover`: the files afterwards, and the exception if there is one.
Locking the pages does not fail the call. -/
def createOrRecover (P : Params) (host : Host) (calls : FileId → SysCalls) (s : Shm) :
    Shm × Option (FileId × ShmError) :=
  match recoverFile P host .req (calls .req) (s .req) with
  | (x, some e) => (update s .req x, some (.req, e))
  | (x, none) =>
    let s := update s .req x
    match recoverFile P host .rsp (calls .rsp) (s .rsp) with
    | (y, some e) => (update s .rsp y, some (.rsp, e))
    | (y, none) => (update s .rsp y, none)

end SharedBike.Ipc
