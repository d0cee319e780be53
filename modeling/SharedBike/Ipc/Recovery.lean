import SharedBike.Ipc.Region

/-!
# Recovery under a live gateway

Dispatch must not reset the rings a running gateway works on: the gateway
keeps its own counters, and would go on with them in a region that starts
from zero. `createOrRecover` looks for the gateway before it rewrites a file.
It looks at ring 0 only, only in a file whose header is valid, and at the
response file only after the request file has been rewritten.

`recoverFile_cases` says once how the recovery of one file ends; everything
about both files follows from it.
-/

namespace SharedBike.Ipc

open Function

variable (P : Params) (host : Host) {file : ShmFile}

/-! ## How the recovery of one file ends -/

/-- The file cannot be opened or locked. -/
def Barred (k : SysCalls) (file : ShmFile) : Prop :=
  k.openExisting.isSome ∨ k.stat.isSome ∨ (doMmap file.size k.map).isSome ∨ k.lock ≠ .taken

/-- The file is there, its header is valid, and ring 0 names a gateway that is alive. -/
def Refuses (f : FileId) (k : SysCalls) : Option ShmFile → Prop
  | none => False
  | some file => ¬ Barred k file ∧ validateFile P f file ∧ peerInUse host f (file.rings 0)

/-- A system call fails that the recovery of the file needs. -/
def Fails (f : FileId) (k : SysCalls) : Option ShmFile → Prop
  | none =>
    k.create.isSome ∨ k.truncate.isSome ∨ (doMmap (totalBytes P f) k.map).isSome ∨
      k.lock ≠ .taken
  | some file =>
    Barred k file ∨ (¬ validateFile P f file ∧ file.size ≠ totalBytes P f ∧ k.remap.isSome) ∨
      k.truncate.isSome

def Stops (f : FileId) (k : SysCalls) (x : Option ShmFile) : Prop :=
  Refuses P host f k x ∨ Fails P f k x

/-- The file after a recovery that goes through. -/
def rebuilt (f : FileId) : Option ShmFile → ShmFile
  | none => writeHeaders P f host.nowNs (.blank (totalBytes P f))
  | some file => writeHeaders P f host.nowNs (file.resize (totalBytes P f))

theorem lockFileExclusive_eq_none {k : SysCalls} :
    lockFileExclusive k = none ↔ k.lock = .taken := by
  unfold lockFileExclusive
  split <;> simp_all

theorem lockFileExclusive_ne_peerAlive (k : SysCalls) :
    lockFileExclusive k ≠ some .peerAlive := by
  unfold lockFileExclusive
  split <;> simp

theorem shmOpenExisting_eq_none {k : SysCalls} :
    shmOpenExisting k file = none ↔
      k.openExisting = none ∧ k.stat = none ∧ doMmap file.size k.map = none := by
  unfold shmOpenExisting
  split
  · simp_all
  · split <;> simp_all

theorem shmOpenExisting_ne_peerAlive (k : SysCalls) (file : ShmFile) :
    shmOpenExisting k file ≠ some .peerAlive := by
  unfold shmOpenExisting
  split
  · simp
  · split <;> simp

theorem not_barred_iff {k : SysCalls} :
    ¬ Barred k file ↔ shmOpenExisting k file = none ∧ lockFileExclusive k = none := by
  simp only [Barred, not_or, Bool.not_eq_true, Option.isSome_eq_false_iff,
    Option.isNone_iff_eq_none, not_not, shmOpenExisting_eq_none, lockFileExclusive_eq_none, and_assoc]

/-- How the recovery of a file ends: refused, failed, or with the rings reset. The
first two leave a file that is there as it is. -/
inductive Recovers (f : FileId) (k : SysCalls) :
    Option ShmFile → Option ShmFile × Option ShmError → Prop
  | refused {file : ShmFile} (h : Refuses P host f k (some file)) :
      Recovers f k (some file) (some file, some .peerAlive)
  | failed {x y : Option ShmFile} {e : ShmError} (hrefuses : ¬ Refuses P host f k x)
      (hfails : Fails P f k x) (he : e ≠ .peerAlive) (hkept : ∀ file, x = some file → y = x) :
      Recovers f k x (y, some e)
  | done {x : Option ShmFile} (h : ¬ Stops P host f k x) :
      Recovers f k x (some (rebuilt P host f x), none)

variable {P host} {f : FileId} {k : SysCalls}

/-- Creating fails for one of its three calls, or gives a file of zeros. -/
theorem shmCreate_cases (total : Nat) (k : SysCalls) :
    (∃ y e, shmCreate total k = (y, some e) ∧ e ≠ .peerAlive ∧
      (k.create.isSome ∨ k.truncate.isSome ∨ (doMmap total k.map).isSome)) ∨
    (shmCreate total k = (some (.blank total), none) ∧ k.create = none ∧ k.truncate = none ∧
      doMmap total k.map = none) := by
  unfold shmCreate
  split
  · rename_i why hcreate
    exact .inl ⟨_, _, rfl, by simp, .inl (by simp [hcreate])⟩
  · rename_i hcreate
    split
    · rename_i why htruncate
      exact .inl ⟨_, _, rfl, by simp, .inr (.inl (by simp [htruncate]))⟩
    · rename_i htruncate
      cases hmap : doMmap total k.map with
      | none => exact .inr ⟨rfl, hcreate, htruncate, rfl⟩
      | some why => exact .inl ⟨_, _, rfl, by simp, .inr (.inr rfl)⟩

/-- A name that is free. -/
theorem recoverFile_none : Recovers P host f k none (recoverFile P host f k none) := by
  have hrefuses : ¬ Refuses P host f k none := id
  simp only [recoverFile]
  rcases shmCreate_cases (totalBytes P f) k with
    ⟨y, e, heq, he, hcalls⟩ | ⟨heq, hcreate, htruncate, hmap⟩
  · simp only [heq]
    refine .failed hrefuses ?_ he (by simp)
    rcases hcalls with h | h | h
    · exact .inl h
    · exact .inr (.inl h)
    · exact .inr (.inr (.inl h))
  · simp only [heq]
    split
    · rename_i e hlock
      refine .failed hrefuses (.inr (.inr (.inr ?_))) ?_ (by simp)
      · intro htaken
        simp [lockFileExclusive_eq_none.mpr htaken] at hlock
      · rintro rfl
        exact lockFileExclusive_ne_peerAlive k hlock
    · rename_i hlock
      refine .done ?_
      rintro (h | h | h | h | h)
      · exact h
      · simp [hcreate] at h
      · simp [htruncate] at h
      · simp [hmap] at h
      · exact h (lockFileExclusive_eq_none.mp hlock)

/-- Writing the headers, once nothing has stopped the recovery before. -/
theorem reinitFile_recovers (hrefuses : ¬ Refuses P host f k (some file))
    (hbarred : ¬ Barred k file)
    (hremap : ¬ (¬ validateFile P f file ∧ file.size ≠ totalBytes P f ∧ k.remap.isSome)) :
    Recovers P host f k (some file) (reinitFile P host f k file) := by
  unfold reinitFile
  split
  · rename_i why htruncate
    exact .failed hrefuses (.inr (.inr (by simp [htruncate]))) (by simp) (by simp)
  · rename_i htruncate
    refine .done ?_
    rintro (h | h | h | h)
    · exact hrefuses h
    · exact hbarred h
    · exact hremap h
    · simp [htruncate] at h

/-- A file that an earlier run has left. -/
theorem recoverFile_some (file : ShmFile) :
    Recovers P host f k (some file) (recoverFile P host f k (some file)) := by
  simp only [recoverFile]
  split
  · rename_i e hopen
    have hbarred : Barred k file := by
      by_contra h
      simp [(not_barred_iff.mp h).1] at hopen
    refine .failed (fun h => h.1 hbarred) (.inl hbarred) ?_ (by simp)
    rintro rfl
    exact shmOpenExisting_ne_peerAlive k file hopen
  · rename_i hopen
    split
    · rename_i e hlock
      have hbarred : Barred k file := by
        by_contra h
        simp [(not_barred_iff.mp h).2] at hlock
      refine .failed (fun h => h.1 hbarred) (.inl hbarred) ?_ (by simp)
      rintro rfl
      exact lockFileExclusive_ne_peerAlive k hlock
    · rename_i hlock
      have hbarred : ¬ Barred k file := not_barred_iff.mpr ⟨hopen, hlock⟩
      split
      · -- the header does not fit, so nobody is asked for
        rename_i hvalid
        have hvalid : ¬ validateFile P f file := by simpa using hvalid
        have hrefuses : ¬ Refuses P host f k (some file) := fun h => hvalid h.2.1
        split
        · rename_i why hremap
          split at hremap
          · rename_i hsize
            exact .failed hrefuses (.inr (.inl ⟨hvalid, hsize, by simp [hremap]⟩)) (by simp)
              (by simp)
          · simp at hremap
        · rename_i hremap
          refine reinitFile_recovers hrefuses hbarred ?_
          rintro ⟨-, hsize, hfault⟩
          rw [if_pos hsize] at hremap
          simp [hremap] at hfault
      · rename_i hvalid
        have hvalid : validateFile P f file := by simpa using hvalid
        split
        · rename_i hpeer
          exact .refused ⟨hbarred, hvalid, hpeer⟩
        · rename_i hpeer
          exact reinitFile_recovers (fun h => hpeer h.2.2) hbarred (fun h => h.1 hvalid)

theorem recoverFile_cases (P : Params) (host : Host) (f : FileId) (k : SysCalls)
    (x : Option ShmFile) :
    Recovers P host f k x (recoverFile P host f k x) := by
  cases x with
  | none => exact recoverFile_none
  | some file => exact recoverFile_some file

namespace Recovers

variable {x y : Option ShmFile} {e : ShmError}

theorem stops (h : Recovers P host f k x (y, some e)) : Stops P host f k x := by
  cases h with
  | refused h => exact .inl h
  | failed _ hfails => exact .inr hfails

theorem kept (h : Recovers P host f k (some file) (y, some e)) :
    y = some file := by
  cases h with
  | refused => rfl
  | failed _ _ _ hkept => exact hkept file rfl

/-- The peer is named exactly when it is the reason. -/
theorem peerAlive_iff (h : Recovers P host f k x (y, some e)) :
    e = .peerAlive ↔ Refuses P host f k x := by
  cases h with
  | refused h => exact ⟨fun _ => h, fun _ => rfl⟩
  | failed hrefuses _ he => exact ⟨fun h => absurd h he, fun h => absurd h hrefuses⟩

theorem refused_kept (h : Recovers P host f k x (y, some .peerAlive)) : y = x := by
  cases h with
  | refused => rfl
  | failed _ _ he => exact absurd rfl he

theorem not_stops (h : Recovers P host f k x (y, none)) : ¬ Stops P host f k x := by
  cases h with
  | done h => exact h

theorem rebuilds (h : Recovers P host f k x (y, none)) : y = some (rebuilt P host f x) := by
  cases h with
  | done => rfl

end Recovers

/-! ## Both files -/

variable (P host)

/-- The header of ring `i` lies in the file. The rings are counted by the file's own
header or by the configuration. -/
def HasRing (f : FileId) (file : ShmFile) (i : Nat) : Prop :=
  (i < file.header.ringCount.toNat ∨ i < (P.ringCount f).toNat) ∧ 128 * (i + 2) ≤ file.size

/-- The gateway named in a ring's header exists and gave a sign less than 3 s ago. -/
def GatewayAlive (f : FileId) (h : SharedHeader) : Prop :=
  pidAlive host (h.gatewayPid f) ∧ h.gatewayHeartbeatNs f ≠ 0 ∧
    (h.gatewayHeartbeatNs f).toNat ≤ host.nowNs.toNat ∧
    host.nowNs.toNat - (h.gatewayHeartbeatNs f).toNat < 3000000000

/-- Some ring header of either file names a gateway that is alive. -/
def GatewayRecorded (s : Shm) : Prop :=
  ∃ f file i, s f = some file ∧ HasRing P f file i ∧ GatewayAlive host f (file.rings i)

/-- No ring header of a file that was there has changed. -/
def SameRings (s s' : Shm) : Prop :=
  ∀ f file, s f = some file →
    ∃ file', s' f = some file' ∧ ∀ i, HasRing P f file i → file'.rings i = file.rings i

variable (calls : FileId → SysCalls) (s : Shm)

/-- A live gateway stops the recovery with every ring as it was, and a recovery that
stops for it has changed nothing at all. -/
def RecoverySafe : Prop :=
  (GatewayRecorded P host s →
    (∃ t, (createOrRecover P host calls s).2 = some t) ∧
      SameRings P s (createOrRecover P host calls s).1) ∧
  (∀ f, (createOrRecover P host calls s).2 = some (f, .peerAlive) →
    (createOrRecover P host calls s).1 = s)

/-- A reset clears the header of ring `i`, or cuts it off. -/
def Clears (f : FileId) (i : Nat) : Prop :=
  i < (P.ringCount f).toNat ∨ totalBytes P f < 128 * (i + 2)

instance (f : FileId) (i : Nat) : Decidable (Clears P f i) := inferInstanceAs (Decidable (_ ∨ _))

/-- The request file has no ring header that a reset would change. -/
def ReqIdle : Prop :=
  ∀ file, s .req = some file →
    ∀ i, HasRing P .req file i → Clears P .req i → file.rings i = .zero

/-- The request file is what a reset at this moment would make of it. -/
def ReqFresh : Prop :=
  ∃ file, s .req = some file ∧ file.size = totalBytes P .req ∧
    file.header = freshHeader P .req host.nowNs ∧ ∀ i, Clears P .req i → file.rings i = .zero

/-- When a gateway is recorded, the request file stops the recovery, or the response
file does and the request file has nothing to lose; and a response file that refuses
is not reached with a request file that would change. -/
def Guarded : Prop :=
  (GatewayRecorded P host s →
    Stops P host .req (calls .req) (s .req) ∨
      (Stops P host .rsp (calls .rsp) (s .rsp) ∧ ReqIdle P s)) ∧
  (Refuses P host .rsp (calls .rsp) (s .rsp) →
    Stops P host .req (calls .req) (s .req) ∨ ReqFresh P host s)

variable {P host calls s}

theorem rebuilt_rings (f : FileId) (file : ShmFile) (i : Nat) :
    (rebuilt P host f (some file)).rings i =
      if Clears P f i ∨ file.size < 128 * (i + 2) then .zero else file.rings i := by
  simp only [rebuilt, writeHeaders, ShmFile.resize, Clears]
  by_cases hi : i < (P.ringCount f).toNat
  · simp [hi]
  · simp only [hi, if_false, false_or, le_min_iff]
    by_cases hfits : 128 * (i + 2) ≤ file.size ∧ 128 * (i + 2) ≤ totalBytes P f
    · rw [if_pos hfits, if_neg (by omega)]
    · rw [if_neg hfits, if_pos (by omega)]

theorem reqIdle_iff (host : Host) : ReqIdle P s ↔ ∀ file, s .req = some file →
    ∀ i, HasRing P .req file i → (rebuilt P host .req (some file)).rings i = file.rings i := by
  refine forall₂_congr fun file _ => forall₂_congr fun i hi => ?_
  have hfits : ¬ file.size < 128 * (i + 2) := Nat.not_lt.mpr hi.2
  rw [rebuilt_rings]
  simp only [hfits, or_false]
  split
  · rename_i hclears
    exact ⟨fun h => (h hclears).symm, fun h _ => h.symm⟩
  · rename_i hclears
    exact ⟨fun _ => rfl, fun _ h => absurd h hclears⟩

theorem reqFresh_iff : ReqFresh P host s ↔ s .req = some (rebuilt P host .req (s .req)) := by
  constructor
  · rintro ⟨file, hfile, hsize, hheader, hzero⟩
    rw [hfile, Option.some.injEq]
    ext1
    · exact hsize
    · exact hheader
    · funext i
      rw [rebuilt_rings, hsize]
      split
      · rename_i h
        exact hzero i (h.elim id .inr)
      · rfl
  · intro h
    cases hfile : s .req with
    | none =>
      rw [hfile] at h
      cases h
    | some file =>
      rw [hfile] at h
      have heq := Option.some.inj h
      refine ⟨file, hfile, ?_, ?_, ?_⟩
      · exact congrArg ShmFile.size heq
      · exact congrArg ShmFile.header heq
      · intro i hi
        rw [heq, rebuilt_rings, if_pos (.inl hi)]

theorem SameRings.update_of_kept {f : FileId} {y : Option ShmFile}
    (h : ∀ file, s f = some file → y = some file) : SameRings P s (update s f y) := by
  intro f' file hfile
  refine ⟨file, ?_, fun _ _ => rfl⟩
  by_cases hf : f' = f
  · subst hf
    rw [update_self]
    exact h file hfile
  · rw [update_of_ne hf]
    exact hfile

/-- The request file ends the call. -/
theorem createOrRecover_req {y : Option ShmFile} {e : ShmError}
    (h : recoverFile P host .req (calls .req) (s .req) = (y, some e)) :
    createOrRecover P host calls s = (update s .req y, some (.req, e)) := by
  simp only [createOrRecover, h]

/-- The response file ends the call; the request file is rebuilt by then. -/
theorem createOrRecover_rsp {x y : Option ShmFile} {e : Option ShmError}
    (hreq : recoverFile P host .req (calls .req) (s .req) = (x, none))
    (hrsp : recoverFile P host .rsp (calls .rsp) (s .rsp) = (y, e)) :
    createOrRecover P host calls s =
      (update (update s .req x) .rsp y, e.map (.rsp, ·)) := by
  have hrsp' : recoverFile P host .rsp (calls .rsp) (update s .req x .rsp) = (y, e) := hrsp
  simp only [createOrRecover, hreq, hrsp']
  cases e <;> rfl

/-- A call that ends with the request file is safe. -/
theorem recoverySafe_of_req {x : Option ShmFile} {e : ShmError}
    (h : recoverFile P host .req (calls .req) (s .req) = (x, some e)) :
    RecoverySafe P host calls s := by
  have hcases := recoverFile_cases P host .req (calls .req) (s .req)
  rw [h] at hcases
  rw [RecoverySafe, createOrRecover_req h]
  refine ⟨fun _ => ⟨⟨_, rfl⟩, SameRings.update_of_kept ?_⟩, ?_⟩
  · intro file hfile
    rw [hfile] at hcases
    exact hcases.kept
  · intro f hthrown
    obtain ⟨-, rfl⟩ := Prod.mk.inj (Option.some.inj hthrown)
    rw [hcases.refused_kept]
    exact update_eq_self _ _

theorem sameRings_rebuilt {y : Option ShmFile} (hrsp : ∀ file, s .rsp = some file → y = some file) :
    SameRings P s
        (update (update s .req (some (rebuilt P host .req (s .req)))) .rsp y) ↔
      ReqIdle P s := by
  rw [reqIdle_iff host]
  constructor
  · intro h file hfile i hi
    obtain ⟨file', hfile', hsame⟩ := h .req file hfile
    rw [update_of_ne (by decide), update_self, hfile] at hfile'
    rw [Option.some.inj hfile']
    exact hsame i hi
  · intro h f file hfile
    cases f with
    | req =>
      refine ⟨rebuilt P host .req (some file), ?_, h file hfile⟩
      rw [update_of_ne (by decide), update_self, hfile]
    | rsp =>
      refine ⟨file, ?_, fun _ _ => rfl⟩
      rw [update_self]
      exact hrsp file hfile

theorem update_rebuilt_eq {y : Option ShmFile} (hrsp : y = s .rsp) :
    update (update s .req (some (rebuilt P host .req (s .req)))) .rsp y = s ↔
      ReqFresh P host s := by
  rw [reqFresh_iff]
  constructor
  · intro h
    have hreq := congrFun h .req
    rw [update_of_ne (by decide), update_self] at hreq
    exact hreq.symm
  · intro h
    rw [← h, update_eq_self, hrsp, update_eq_self]

/-- `create_or_recover` keeps away from a live gateway in exactly the guarded cases. -/
theorem recovery_safe_iff (P : Params) (host : Host) (calls : FileId → SysCalls) (s : Shm) :
    RecoverySafe P host calls s ↔ Guarded P host calls s := by
  have hreq := recoverFile_cases P host .req (calls .req) (s .req)
  rcases hr : recoverFile P host .req (calls .req) (s .req) with ⟨x, _ | e⟩
  · -- the request file is rebuilt, so it all depends on the response file
    rw [hr] at hreq
    obtain rfl := hreq.rebuilds
    have hgoes := hreq.not_stops
    have hrsp := recoverFile_cases P host .rsp (calls .rsp) (s .rsp)
    rcases hs : recoverFile P host .rsp (calls .rsp) (s .rsp) with ⟨y, _ | e⟩
    all_goals
      rw [hs] at hrsp
      rw [RecoverySafe, createOrRecover_rsp hr hs, Guarded]
      simp only [hgoes, false_or, Option.map_none, Option.map_some]
    · have hstops := hrsp.not_stops
      have hrefuses : ¬ Refuses P host .rsp (calls .rsp) (s .rsp) := fun h => hstops (.inl h)
      simp [hstops, hrefuses]
    · have hstops := hrsp.stops
      have hkept : ∀ file, s .rsp = some file → y = some file := by
        intro file hfile
        rw [hfile] at hrsp
        exact hrsp.kept
      refine and_congr ?_ ?_
      · simp only [sameRings_rebuilt hkept, hstops, true_and, Option.some.injEq, exists_eq',
          true_and]
      · constructor
        · intro h hrefuses
          obtain rfl := hrsp.peerAlive_iff.mpr hrefuses
          exact (update_rebuilt_eq hrsp.refused_kept).mp (h .rsp rfl)
        · intro h f hthrown
          obtain ⟨-, rfl⟩ := Prod.mk.inj (Option.some.inj hthrown)
          exact (update_rebuilt_eq hrsp.refused_kept).mpr (h (hrsp.peerAlive_iff.mp rfl))
  · rw [hr] at hreq
    have hstops := hreq.stops
    refine ⟨fun _ => ⟨fun _ => .inl hstops, fun _ => .inl hstops⟩, fun _ => ?_⟩
    exact recoverySafe_of_req hr

/-! ## A refusal that comes too late -/

/-- A region whose gateway, process 42, is at work: the main thread gave a sign for the
response ring a second ago, the heartbeat thread its last one for the request rings
four seconds ago. -/
def slowHeartbeat : Shm
  | .req => some ⟨totalBytes {} .req, freshHeader {} .req 1,
      fun _ => ⟨⟨5, 5⟩, 42, 6000000000, 0, 0⟩⟩
  | .rsp => some ⟨totalBytes {} .rsp, freshHeader {} .rsp 1,
      fun _ => ⟨⟨5, 5⟩, 0, 0, 42, 9000000000⟩⟩

/-- Ten seconds on the clock; process 42 exists. -/
def tenSeconds : Host := ⟨fun pid => pid = 42, 10000000000⟩

/-- The response file refuses, and the head of request ring 0 has gone from 5 to 0. -/
theorem refusal_after_reset :
    (createOrRecover {} tenSeconds (fun _ => {}) slowHeartbeat).2 = some (.rsp, .peerAlive) ∧
      (slowHeartbeat .req).map (fun file => (file.rings 0).head) = some 5 ∧
      ((createOrRecover {} tenSeconds (fun _ => {}) slowHeartbeat).1 .req).map
        (fun file => (file.rings 0).head) = some 0 ∧
      ¬ RecoverySafe {} tenSeconds (fun _ => {}) slowHeartbeat := by
  have hthrown : (createOrRecover {} tenSeconds (fun _ => {}) slowHeartbeat).2 =
      some (.rsp, .peerAlive) := by decide +kernel
  have hbefore : (slowHeartbeat .req).map (fun file => (file.rings 0).head) = some 5 := by
    decide +kernel
  have hafter : ((createOrRecover {} tenSeconds (fun _ => {}) slowHeartbeat).1 .req).map
      (fun file => (file.rings 0).head) = some 0 := by decide +kernel
  refine ⟨hthrown, hbefore, hafter, fun h => ?_⟩
  rw [h.2 .rsp hthrown, hbefore] at hafter
  exact absurd hafter (by decide)

end SharedBike.Ipc
