import SharedBike.Ipc.Recovery

/-!
# Dispatch and the gateway starting together

Both processes start on a region that an earlier run has left behind. Dispatch
goes through `create_or_recover`, attaches and registers; the gateway opens the
region, attaches, registers, and gives its first heartbeat only later. Nothing
orders the two. `Startup.machine` takes one step of one process at a time: a step
of `create_or_recover` checks a file, clears or fills its header, or resets one
ring; attaching and registering go ring by ring.

Once a process runs it also uses its rings. A push is one step, from `begin_write`
to `publish`, and so is a batch that is taken.

`dispatch_alone` ties the steps to `createOrRecover`: a Dispatch that nobody
disturbs leaves the files that it leaves.
-/

namespace SharedBike.Ipc

open SharedBike.Lib Function

/-! ## The rings and who uses them -/

/-- A ring by its file and its number there. -/
structure RingId where
  file : FileId
  no : Nat
  deriving DecidableEq

/-- The configuration has this ring. -/
def RingId.In (P : Params) (r : RingId) : Prop := r.no < (P.ringCount r.file).toNat

instance (P : Params) (r : RingId) : Decidable (r.In P) := inferInstanceAs (Decidable (_ < _))

/-- Where a loop over the rings of `req` and then of `rsp` goes on. -/
def RingId.next (P : Params) (r : RingId) : Option RingId :=
  if r.In P then some ⟨r.file, r.no + 1⟩
  else match r.file with
    | .req => some ⟨.rsp, 0⟩
    | .rsp => none

inductive Process where
  | gateway
  | dispatch
  deriving DecidableEq

/-- Who writes the rings of a file. -/
def FileId.producer : FileId → Process
  | .req => .gateway
  | .rsp => .dispatch

/-- Who reads them. -/
def FileId.consumer : FileId → Process
  | .req => .dispatch
  | .rsp => .gateway

/-! ## The two starts -/

/-- Where Dispatch is: in `create_or_recover` up to `reset`, then in `main`. -/
inductive DispatchAt where
  | check (f : FileId)
  | clear (f : FileId)
  | fill (f : FileId)
  | reset (r : RingId)
  | attach (r : RingId)
  | register (r : RingId)
  | running
  | refused
  deriving DecidableEq

/-- Where the gateway is: in `ShmRegion::open` while it validates, then in `main`. -/
inductive GatewayAt where
  | validate (f : FileId)
  | attach (r : RingId)
  | register (r : RingId)
  | running
  deriving DecidableEq

/-- The region, the views on its rings, and the two processes. -/
structure Startup where
  files : FileId → ShmFile
  prods : RingId → Option Producer
  cons : RingId → Option Consumer
  dispatch : DispatchAt
  gateway : GatewayAt

/-- One step of one process. The machine's clock and process table come with a step
of Dispatch. -/
inductive StartupEvent where
  | dispatch (host : Host) (pid : UInt32)
  | gateway (pid : UInt32)
  | heartbeat (who : Process) (r : RingId) (now : UInt64)
  | push (r : RingId)
  | take (r : RingId) (max : UInt32)

namespace Startup

def ring (s : Startup) (r : RingId) : SharedHeader := (s.files r.file).rings r.no

def setRing (s : Startup) (r : RingId) (h : SharedHeader) : Startup :=
  { s with
    files := update s.files r.file
      { s.files r.file with rings := update (s.files r.file).rings r.no h } }

def setHeader (s : Startup) (f : FileId) (h : ShmFileHeader) : Startup :=
  { s with files := update s.files f { s.files f with header := h } }

/-- A process takes its view of a ring: the constructor copies a counter. -/
def attach (who : Process) (s : Startup) (r : RingId) : Startup :=
  if r.file.producer = who then
    { s with prods := update s.prods r (some (.attach (s.ring r).toRingHeader)) }
  else { s with cons := update s.cons r (some (.attach (s.ring r).toRingHeader)) }

/-- `register_pid` -/
def registerPid (who : Process) (pid : UInt32) (s : Startup) (r : RingId) : Startup :=
  s.setRing r
    (if r.file.producer = who then { s.ring r with producerPid := pid }
    else { s.ring r with consumerPid := pid })

/-- `heartbeat` of a view -/
def stamp (who : Process) (now : UInt64) (s : Startup) (r : RingId) : Startup :=
  s.setRing r
    (if r.file.producer = who then { s.ring r with producerHeartbeatNs := now }
    else { s.ring r with consumerHeartbeatNs := now })

/-- The process has a view of the ring. -/
def sees (s : Startup) (who : Process) (r : RingId) : Bool :=
  if r.file.producer = who then (s.prods r).isSome else (s.cons r).isSome

def runs (s : Startup) : Process → Bool
  | .gateway => s.gateway = .running
  | .dispatch => s.dispatch = .running

/-- The body of a loop over the rings, where the loop has not ended. -/
def within (P : Params) (r : RingId) (body : Startup → RingId → Startup) (s : Startup) : Startup :=
  if r.In P then body s r else s

/-- `create_or_recover` on files that are there and have their size, and the start of
`dispatch_main` behind it. -/
def dispatchStep (P : Params) (host : Host) (pid : UInt32) (s : Startup) : Option Startup :=
  match s.dispatch with
  | .check f =>
    some (if validateFile P f (s.files f) && peerInUse host f ((s.files f).rings 0) then
      { s with dispatch := .refused } else { s with dispatch := .clear f })
  -- `new (base) ShmFileHeader()` and the assignments after it
  | .clear f => some { s.setHeader f ⟨0, 0, 0, 0, 0, 0, 0⟩ with dispatch := .fill f }
  | .fill f => some { s.setHeader f (freshHeader P f host.nowNs) with dispatch := .reset ⟨f, 0⟩ }
  | .reset r =>
    some { s.within P r (fun s r => s.setRing r .zero) with
      dispatch :=
        if r.In P then .reset ⟨r.file, r.no + 1⟩
        else match r.file with
          | .req => .check .rsp
          | .rsp => .attach ⟨.req, 0⟩ }
  | .attach r =>
    some { s.within P r (attach .dispatch) with
      dispatch := match r.next P with
        | some r' => .attach r'
        | none => .register ⟨.req, 0⟩ }
  | .register r =>
    some { s.within P r (registerPid .dispatch pid) with
      dispatch := match r.next P with
        | some r' => .register r'
        | none => .running }
  | .running => none
  | .refused => none

/-- The start of the gateway in ring mode. A file that does not pass sends
`ShmRegion::open` back to its first file. -/
def gatewayStep (P : Params) (pid : UInt32) (s : Startup) : Option Startup :=
  match s.gateway with
  | .validate f =>
    some { s with
      gateway :=
        if (openFile P f {} (some (s.files f))).isNone then
          match f with
          | .req => .validate .rsp
          | .rsp => .attach ⟨.req, 0⟩
        else .validate .req }
  | .attach r =>
    some { s.within P r (attach .gateway) with
      gateway := match r.next P with
        | some r' => .attach r'
        | none => .register ⟨.req, 0⟩ }
  | .register r =>
    some { s.within P r (registerPid .gateway pid) with
      gateway := match r.next P with
        | some r' => .register r'
        | none => .running }
  | .running => none

/-- The writer of a ring appends one entry, unless the ring is full. -/
def push (s : Startup) (r : RingId) : Option Startup :=
  (s.prods r).bind fun p =>
    match p.beginWrite r.file.shape (s.ring r).toRingHeader with
    | none => some s
    | some (_, p') =>
      (p'.publish 1 (s.ring r).toRingHeader).map fun (q, h) =>
        { s.setRing r { s.ring r with toRingHeader := h } with
          prods := update s.prods r (some q) }

/-- The reader of a ring takes a batch and releases it. -/
def take (s : Startup) (r : RingId) (max : UInt32) : Option Startup :=
  (s.cons r).map fun c =>
    let n := c.popBatch r.file.shape (s.ring r).toRingHeader max
    let (c', h) := c.release n (s.ring r).toRingHeader
    { s.setRing r { s.ring r with toRingHeader := h } with
      cons := update s.cons r (some c') }

def next (P : Params) (s : Startup) : StartupEvent → Option Startup
  | .dispatch host pid => s.dispatchStep P host pid
  | .gateway pid => s.gatewayStep P pid
  | .heartbeat who r now => if r.In P ∧ s.runs who then some (s.stamp who now r) else none
  | .push r => if s.runs r.file.producer then s.push r else none
  | .take r max => if s.runs r.file.consumer then s.take r max else none

/-- Both processes before their first step, on a valid region. -/
def leftover (files : FileId → ShmFile) : Startup where
  files := files
  prods _ := none
  cons _ := none
  dispatch := .check .req
  gateway := .validate .req

/-- All interleavings of the two starts. -/
def machine (P : Params) : Machine Startup StartupEvent where
  init s := ∃ files, (∀ f, validateFile P f (files f) = true) ∧ s = leftover files
  next := next P

/-- Dispatch does not reset a ring of which the gateway has a view. -/
def resetsUnseen (s : Startup) : StartupEvent → Bool
  | .dispatch _ _ =>
    match s.dispatch with
    | .reset r => !s.sees .gateway r
    | _ => true
  | _ => true

end Startup

/-! ## Dispatch alone -/

/-- Two files that read the same. -/
def ShmFile.Same (a b : ShmFile) : Prop :=
  a.size = b.size ∧ a.header = b.header ∧ ∀ i, 128 * (i + 2) ≤ a.size → a.rings i = b.rings i

theorem validateFile_size {P : Params} {f : FileId} {file : ShmFile}
    (h : validateFile P f file = true) : file.size = totalBytes P f := by
  by_contra hne
  rw [validateFile, if_pos hne] at h
  cases h

theorem totalBytes_pos (P : Params) (f : FileId) : 0 < totalBytes P f := by
  simp only [totalBytes, computeFileLayout, alignUp, kPageAlign]
  omega

/-- Writing the headers of a file of the right size is all that its recovery does. -/
theorem writeHeaders_same {P : Params} {f : FileId} {file : ShmFile} (host : Host)
    (h : validateFile P f file = true) :
    (writeHeaders P f host.nowNs file).Same (rebuilt P host f (some file)) := by
  have hsize := validateFile_size h
  refine ⟨hsize, rfl, ?_⟩
  intro i hi
  have hi : 128 * (i + 2) ≤ min file.size (totalBytes P f) := by
    rw [← hsize, min_self]
    exact hi
  simp only [writeHeaders, rebuilt, ShmFile.resize, if_pos hi]

/-- With no failing call, a valid file is refused or rebuilt. -/
theorem recoverFile_of_valid {P : Params} (host : Host) {f : FileId} {file : ShmFile}
    (h : validateFile P f file = true) :
    recoverFile P host f {} (some file) =
      if peerInUse host f (file.rings 0) then (some file, some .peerAlive)
      else (some (rebuilt P host f (some file)), none) := by
  have hmap : doMmap file.size none = none := by
    rw [doMmap, if_neg]
    have := totalBytes_pos P f
    rw [validateFile_size h]
    omega
  have hbarred : ¬ Barred {} file := by
    simp [Barred, hmap]
  have hfails : ¬ Fails P f {} (some file) := by
    simp [Fails, hbarred, h]
  have hcases := recoverFile_cases P host f {} (some file)
  rcases hr : recoverFile P host f {} (some file) with ⟨y, _ | e⟩
  · rw [hr] at hcases
    rw [if_neg, hcases.rebuilds]
    intro hpeer
    exact hcases.not_stops (.inl ⟨hbarred, h, hpeer⟩)
  · rw [hr] at hcases
    have hrefuses := hcases.stops.resolve_right hfails
    rw [if_pos hrefuses.2.2, hcases.kept, hcases.peerAlive_iff.mpr hrefuses]

namespace Startup

variable {P : Params} {host : Host} {pid : UInt32}

/-- Where Dispatch goes when it is done with a file. -/
def afterFile : FileId → DispatchAt
  | .req => .check .rsp
  | .rsp => .attach ⟨.req, 0⟩

/-- The loop of `write_headers` from ring `i` on. -/
theorem play_reset (f : FileId) (n i : Nat) (hn : i + n = (P.ringCount f).toNat) (s : Startup)
    (hat : s.dispatch = .reset ⟨f, i⟩) :
    (machine P).play s (List.replicate (n + 1) (.dispatch host pid)) =
      some { s with
        dispatch := afterFile f
        files := update s.files f { s.files f with
          rings := fun k => if i ≤ k ∧ k < i + n then .zero else (s.files f).rings k } } := by
  induction n generalizing i s with
  | zero =>
    have hout : ¬ RingId.In P ⟨f, i⟩ := by
      simp only [RingId.In]
      omega
    have hrings : (fun k => if i ≤ k ∧ k < i + 0 then SharedHeader.zero else (s.files f).rings k) =
        (s.files f).rings := by
      funext k
      rw [if_neg (by omega)]
    rw [hrings]
    cases f <;>
      simp [Machine.play, machine, next, dispatchStep, hat, within, hout, afterFile,
        update_eq_self]
  | succ n ih =>
    have hin : RingId.In P ⟨f, i⟩ := by
      simp only [RingId.In]
      omega
    have hstep : (machine P).next s (.dispatch host pid) =
        some { s.setRing ⟨f, i⟩ .zero with dispatch := .reset ⟨f, i + 1⟩ } := by
      simp [machine, next, dispatchStep, hat, within, hin]
    rw [List.replicate_succ, Machine.play, hstep, Option.bind_some,
      ih (i + 1) (by omega) _ rfl]
    simp only [setRing, update_idem, update_self]
    congr 3
    congr 1
    funext k
    by_cases hk : k = i
    · subst hk
      simp
    · have hiff : (i + 1 ≤ k ∧ k < i + 1 + n) ↔ (i ≤ k ∧ k < i + (n + 1)) := by omega
      simp only [hiff, update_of_ne hk]

/-- All that Dispatch does about a file that nobody uses. -/
theorem play_file (f : FileId) (s : Startup) (hat : s.dispatch = .check f)
    (hpeer : peerInUse host f ((s.files f).rings 0) = false) :
    (machine P).play s (List.replicate ((P.ringCount f).toNat + 4) (.dispatch host pid)) =
      some { s with
        dispatch := afterFile f
        files := update s.files f (writeHeaders P f host.nowNs (s.files f)) } := by
  have hcheck : (machine P).next s (.dispatch host pid) = some { s with dispatch := .clear f } := by
    simp [machine, next, dispatchStep, hat, hpeer]
  have hclear : ∀ s : Startup, s.dispatch = .clear f → (machine P).next s (.dispatch host pid) =
      some { s.setHeader f ⟨0, 0, 0, 0, 0, 0, 0⟩ with dispatch := .fill f } := by
    intro s hat
    simp [machine, next, dispatchStep, hat]
  have hfill : ∀ s : Startup, s.dispatch = .fill f → (machine P).next s (.dispatch host pid) =
      some { s.setHeader f (freshHeader P f host.nowNs) with dispatch := .reset ⟨f, 0⟩ } := by
    intro s hat
    simp [machine, next, dispatchStep, hat]
  rw [List.replicate_succ, Machine.play, hcheck, Option.bind_some,
    List.replicate_succ, Machine.play, hclear _ rfl, Option.bind_some,
    List.replicate_succ, Machine.play, hfill _ rfl, Option.bind_some,
    play_reset f (P.ringCount f).toNat 0 (Nat.zero_add _) _ rfl]
  simp [setHeader, writeHeaders, update_idem]

/-- Dispatch alone with one file: it stops, or goes on, as `recoverFile` says. -/
theorem play_recoverFile (P : Params) (host : Host) (pid : UInt32) (f : FileId) (s : Startup)
    (hat : s.dispatch = .check f) (hvalid : validateFile P f (s.files f) = true) :
    ∃ n t file e, (machine P).play s (List.replicate n (.dispatch host pid)) = some t ∧
      recoverFile P host f {} (some (s.files f)) = (some file, e) ∧ (t.files f).Same file ∧
      (∀ g, g ≠ f → t.files g = s.files g) ∧
      t.dispatch = if e.isSome then .refused else afterFile f := by
  have hr := recoverFile_of_valid host hvalid
  by_cases hpeer : peerInUse host f ((s.files f).rings 0) = true
  · rw [if_pos hpeer] at hr
    have hstep : (machine P).next s (.dispatch host pid) =
        some { s with dispatch := .refused } := by
      simp [machine, next, dispatchStep, hat, hvalid, hpeer]
    refine ⟨1, { s with dispatch := .refused }, _, _, ?_, hr, ⟨rfl, rfl, fun _ _ => rfl⟩,
      fun _ _ => rfl, rfl⟩
    rw [List.replicate_one, Machine.play, hstep, Option.bind_some]
    rfl
  · rw [if_neg hpeer] at hr
    refine ⟨_, _, _, _, play_file f s hat (Bool.eq_false_of_not_eq_true hpeer), hr, ?_, ?_, rfl⟩
    · simp only [update_self]
      exact writeHeaders_same host hvalid
    · intro g hg
      exact update_of_ne hg _ _

/-- A Dispatch that runs alone on the leftover region stops where `create_or_recover`
throws, goes on where it returns, and leaves the same files. -/
theorem dispatch_alone (P : Params) (host : Host) (pid : UInt32) (files : FileId → ShmFile)
    (hvalid : ∀ f, validateFile P f (files f) = true) :
    ∃ n t, (machine P).play (leftover files) (List.replicate n (.dispatch host pid)) = some t ∧
      (∀ f, ∃ file,
        (createOrRecover P host (fun _ => {}) (fun f => some (files f))).1 f = some file ∧
          (t.files f).Same file) ∧
      t.dispatch =
        if (createOrRecover P host (fun _ => {}) (fun f => some (files f))).2.isSome then .refused
        else .attach ⟨.req, 0⟩ := by
  obtain ⟨n, t, file, e, hplay, hreq, hsame, hothers, hat⟩ :=
    play_recoverFile P host pid .req (leftover files) rfl (hvalid .req)
  cases e with
  | some e =>
    rw [createOrRecover_req hreq]
    refine ⟨n, t, hplay, ?_, hat⟩
    intro f
    cases f with
    | req => exact ⟨file, rfl, hsame⟩
    | rsp =>
      rw [hothers .rsp (by decide)]
      exact ⟨files .rsp, rfl, rfl, rfl, fun _ _ => rfl⟩
  | none =>
    have hrsp : t.files .rsp = files .rsp := hothers .rsp (by decide)
    obtain ⟨n', t', file', e', hplay', hrsp', hsame', hothers', hat'⟩ :=
      play_recoverFile P host pid .rsp t hat (by rw [hrsp]; exact hvalid .rsp)
    rw [hrsp] at hrsp'
    rw [createOrRecover_rsp hreq hrsp']
    refine ⟨n + n', t', ?_, ?_, ?_⟩
    · rw [List.replicate_add, Machine.play_append, hplay, Option.bind_some, hplay']
    · intro f
      cases f with
      | req =>
        rw [hothers' .req (by decide)]
        exact ⟨file, rfl, hsame⟩
      | rsp => exact ⟨file', rfl, hsame'⟩
    · rw [hat', Option.isSome_map]
      rfl

/-- Nobody is left of the last run of a region with one worker: both files are taken over. -/
theorem dispatch_alone_takenOver :
    ∃ n t, (machine { workers := 1 }).play
        (leftover fun f => ⟨totalBytes { workers := 1 } f, freshHeader { workers := 1 } f 1,
          fun _ => .zero⟩) (List.replicate n (.dispatch ⟨fun _ => false, 5⟩ 7)) = some t ∧
      t.dispatch = .attach ⟨.req, 0⟩ := by
  obtain ⟨n, t, hplay, -, hat⟩ := dispatch_alone { workers := 1 } ⟨fun _ => false, 5⟩ 7
    (fun f => ⟨totalBytes { workers := 1 } f, freshHeader { workers := 1 } f 1, fun _ => .zero⟩)
    (by intro f; cases f <;> decide +kernel)
  exact ⟨n, t, hplay, hat.trans (by decide +kernel)⟩

end Startup

end SharedBike.Ipc
