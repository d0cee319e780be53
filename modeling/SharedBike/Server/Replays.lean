import SharedBike.Server.Touching
import SharedBike.Server.Isolation
import SharedBike.Server.AccountRefinement
import SharedBike.Server.Ledger

/-!
# A ride that has been ended stays ended

Over the in-memory repositories. The first `end_ride` of a ride settles it
from its live session, and every later one is answered from the archive: the
session is gone, `rideByNo` leads to the archived ride, and what was reported
is what the ride says. `Filed` is this state of affairs for one number. A step
of the server can end it in one way only, by an unlock that is given the
number again (`Filed.serveOne`), so it lasts through any run in between
(`end_ride_replays`).

The ids of the archived rides come from an `int` counter. Counting past its
largest value is undefined in the source, and such a step has no successor
here.
-/

namespace SharedBike.Server

open SharedBike.Common SharedBike.Lib Function

variable {P : Platform} {req : EndRideRequest} {e : Arrival} {res : EndRideResponse} {uid : Int32}

/-! ## The archive -/

namespace InMemory

/-- The archive is as it was: the rides, their index, their counter and their points. -/
structure SameRides (m m' : InMemory) : Prop where
  rides : m'.rides = m.rides
  index : m'.rideByNo = m.rideByNo
  counter : m'.nextRideId = m.nextRideId
  points : m'.points = m.points

theorem SameRides.refl (m : InMemory) : m.SameRides m := ⟨rfl, rfl, rfl, rfl⟩

theorem SameRides.trans {m m' m'' : InMemory} (h : m.SameRides m') (h' : m'.SameRides m'') :
    m.SameRides m'' :=
  ⟨h'.rides.trans h.rides, h'.index.trans h.index, h'.counter.trans h.counter,
    h'.points.trans h.points⟩

/-- Only `create_with_points` writes to the archive. -/
theorem sameRides_exec (env : Env) {c : RepoCall} (hc : ∀ inp, c ≠ .createWithPoints inp)
    (m : InMemory) : m.SameRides (exec env c m).2 := by
  have htargets : Table.ride ∉ c.targets ∧ Table.ridePosition ∉ c.targets := by
    cases c with
    | createWithPoints inp => exact absurd rfl (hc inp)
    | _ => simp [RepoCall.targets]
  obtain ⟨hrides, hindex⟩ := exec_sameIn env c m htargets.1
  exact ⟨hrides, hindex, (exec_counters env c m).2 hc, exec_sameIn env c m htargets.2⟩

/-- The rides have distinct ids below the counter, and every number leads to a ride. -/
structure Indexed (m : InMemory) : Prop where
  distinct : (m.rides.map (·.id)).Nodup
  below : ∀ r ∈ m.rides, r.id < m.nextRideId
  leads : ∀ no id, m.rideByNo no = some id → ∃ r ∈ m.rides, r.id = id

variable {m m' : InMemory}

theorem Indexed.same (h : m.Indexed) (hsame : m.SameRides m') : m'.Indexed where
  distinct := hsame.rides ▸ h.distinct
  below := by
    rw [hsame.rides, hsame.counter]
    exact h.below
  leads := by
    rw [hsame.rides, hsame.index]
    exact h.leads

/-- A new ride takes the id that the counter shows. -/
theorem Indexed.create (h : m.Indexed) (hcount : m.nextRideId < m.nextRideId + 1)
    (inp : CreateRideInput) : (m.createWithPoints inp).2.Indexed where
  distinct := by
    simp only [createWithPoints, List.map_append, List.map_cons, List.map_nil]
    refine List.nodup_append.mpr ⟨h.distinct, List.nodup_singleton _, ?_⟩
    rintro id hid _ hnew rfl
    obtain ⟨r, hr, rfl⟩ := List.mem_map.mp hid
    rw [List.mem_singleton] at hnew
    have hbelow := h.below r hr
    rw [hnew] at hbelow
    exact Int32.lt_irrefl hbelow
  below r hr := by
    rcases List.mem_append.mp hr with hold | hnew
    · exact Int32.lt_trans (h.below r hold) hcount
    · rw [List.mem_singleton.mp hnew]
      exact hcount
  leads no id hid := by
    simp only [createWithPoints] at hid ⊢
    by_cases hno : no = inp.rideNo
    · subst hno
      rw [CreateRideInput.toRide, update_self] at hid
      exact ⟨inp.toRide m.nextRideId, List.mem_append_right _ (List.mem_singleton.mpr rfl),
        Option.some.inj hid⟩
    · have hold : m.rideByNo no = some id := by
        rwa [CreateRideInput.toRide, update_of_ne hno] at hid
      obtain ⟨r, hr, hrid⟩ := h.leads no id hold
      exact ⟨r, List.mem_append_left _ hr, hrid⟩

theorem Indexed.find (h : m.Indexed) {r : Ride} (hr : r ∈ m.rides) {no : String}
    (hno : m.rideByNo no = some r.id) : m.findByNo no = some r := by
  have hfound : m.rides.find? (·.id = r.id) = some r :=
    (Keyed.find?_eq_some_iff h.distinct).mpr ⟨hr, rfl⟩
  rw [findByNo, hno, Option.map_some, hfound, Option.getD_some]

end InMemory

/-! ## What the handlers do to it -/

/-- What an `end_ride` reports, and what a ride in the archive says. -/
structure Receipt where
  owner : Int32
  durationSec : Int32
  distanceM : Int32
  amountCent : Int32
  deriving DecidableEq

def Ride.receipt (r : Ride) : Receipt := ⟨r.userId, r.durationSec, r.distanceM, r.amountCent⟩

def CreateRideInput.receipt (inp : CreateRideInput) : Receipt :=
  ⟨inp.userId, inp.durationSec, inp.distanceM, inp.amountCent⟩

/-- The answer to an `end_ride` that is Ok. -/
def Receipt.reply (rec : Receipt) (balance : Int32) : EndRideResponse :=
  ⟨ErrCode.ok.code, ErrCode.ok.toText, rec.durationSec, rec.distanceM, rec.amountCent, balance⟩

namespace World

variable {env : Env} {w w' : World P .inMemory} {no : String} {rec : Receipt}

/-- The ride of this number is over, and the archive has it. -/
structure Filed (no : String) (rec : Receipt) (w : World P .inMemory) : Prop where
  ended : w.sessions.find no = none
  row : ∃ r ∈ w.repos.rides, w.repos.rideByNo no = some r.id ∧ r.receipt = rec

/-- The answer from the archive. -/
theorem Filed.replay (h : w.Filed no rec) (hindexed : w.repos.Indexed) (uid : Int32) :
    World.run env (replayRide no uid) w =
      (.ok (if uid = rec.owner then rec.reply (w.repos.balance uid) else .fail .unauthorized),
        w) := by
  obtain ⟨r, hr, hno, rfl⟩ := h.row
  have hfind : World.exec env (.repo (.findByNo no)) w = (some r, w) := by
    simp only [World.exec, Deployment.exec, InMemory.exec, hindexed.find hr hno]
  simp only [World.run, replayRide, repo, Prog.ask_bind, Prog.run_call, hfind]
  by_cases huid : uid = r.userId
  · subst huid
    simp only [Ride.receipt, ne_eq, not_true_eq_false, if_true, if_false]
    rfl
  · have huid' : r.userId ≠ uid := fun heq => huid heq.symm
    simp only [Ride.receipt, huid, huid', ne_eq, not_false_eq_true, if_true, if_false]
    rfl

/-- Neither the archive nor the live rides have changed. -/
structure Idle (w w' : World P .inMemory) : Prop where
  rides : w.repos.SameRides w'.repos
  sessions : w'.sessions = w.sessions

theorem Idle.trans {w w' w'' : World P .inMemory} (h : Idle w w') (h' : Idle w' w'') :
    Idle w w'' :=
  ⟨h.rides.trans h'.rides, h'.sessions.trans h.sessions⟩

theorem idle_repo (env : Env) {c : RepoCall} (hc : ∀ inp, c ≠ .createWithPoints inp)
    (w : World P .inMemory) : Idle w (World.exec env (.repo c) w).2 :=
  ⟨InMemory.sameRides_exec env hc w.repos, rfl⟩

theorem idle_requireUser (env : Env) (token : String) (w : World P .inMemory) :
    Idle w (World.run env (requireUser token) w).2 := by
  refine requireUser_frame (R := Idle) Idle.trans ?_ ?_ token w
  · exact fun _ => idle_repo env (by simp)
  · exact fun _ => idle_repo env (by simp)

theorem Filed.same (h : w.Filed no rec) (hrides : w.repos.SameRides w'.repos)
    (hended : w'.sessions.find no = none) : w'.Filed no rec where
  ended := hended
  row := by
    rw [hrides.rides, hrides.index]
    exact h.row

theorem Filed.idle (h : w.Filed no rec) (hidle : Idle w w') : w'.Filed no rec :=
  h.same hidle.rides (hidle.sessions ▸ h.ended)

/-- Answering from the archive only reads. -/
theorem replayRide_reads (env : Env) (no : String) (uid : Int32) (w : World P .inMemory) :
    (World.run env (replayRide no uid) w).2 = w := by
  simp only [World.run, replayRide, repo, Prog.ask_bind, Prog.run_call]
  split
  · rfl
  · split <;> rfl

/-- The ride is archived under its number with its points, and its session is gone. -/
structure Archives (w : World P .inMemory) (inp : CreateRideInput) (w' : World P .inMemory) :
    Prop where
  rides : (w.repos.createWithPoints inp).2.SameRides w'.repos
  sessions : w'.sessions = w.sessions.remove inp.rideNo

theorem Archives.filed {inp : CreateRideInput} (h : w.Archives inp w') :
    w'.Filed inp.rideNo inp.receipt where
  ended := by
    rw [h.sessions]
    exact update_self ..
  row := by
    rw [h.rides.rides, h.rides.index]
    exact ⟨inp.toRide w.repos.nextRideId, List.mem_append_right _ (List.mem_singleton.mpr rfl),
      update_self .., rfl⟩

/-- The rides of other numbers stay. -/
theorem Filed.archives {inp : CreateRideInput} (h : w.Filed no rec) (hset : w.Archives inp w')
    (hno : no ≠ inp.rideNo) : w'.Filed no rec where
  ended := by
    rw [hset.sessions]
    exact (update_of_ne hno ..).trans h.ended
  row := by
    obtain ⟨r, hr, hindex, hrec⟩ := h.row
    rw [hset.rides.rides, hset.rides.index]
    exact ⟨r, List.mem_append_left _ hr, (update_of_ne hno ..).trans hindex, hrec⟩

/-- What an `end_ride` can come to. -/
inductive Closing (env : Env) (req : EndRideRequest) (w : World P .inMemory) :
    Outcome EndRideResponse × World P .inMemory → Prop
  /-- it changes no ride, and does not say Ok -/
  | refused {out} : (∀ res, out.1 = .ok res → res.code ≠ ErrCode.ok.code) → Idle w out.2 →
      Closing env req w out
  /-- it answers from the archive -/
  | replayed {uid w₁} : w.holder env req.sessionToken = some uid →
      w.sessions.find req.rideNo = none → Idle w w₁ →
      Closing env req w (World.run env (replayRide req.rideNo uid) w₁)
  /-- it settles the live ride -/
  | settled {sess w'} (amount balance : Int32) :
      w.holder env req.sessionToken = some sess.userId →
      w.sessions.find req.rideNo = some sess →
      w.Archives (archive P req sess sess.userId env.now amount) w' →
      Closing env req w
        (.ok ((archive P req sess sess.userId env.now amount).receipt.reply balance), w')

theorem Closing.fail {ec : ErrCode} (desc : String) (hec : ec.code ≠ ErrCode.ok.code)
    (h : Idle w w') :
    Closing env req w (.ok (.fail ec desc), w') := by
  refine .refused ?_ h
  rintro res ⟨⟩
  exact hec

theorem finishRide_archives (env : Env) (req : EndRideRequest) (sess : RideSession)
    (inp : CreateRideInput) (hno : inp.rideNo = sess.rideNo) (newBal : Int32)
    {w₁ : World P .inMemory} (h : Idle w w₁) :
    ∃ w', World.run env (finishRide req sess inp newBal) w₁ =
        (.ok (inp.receipt.reply newBal), w') ∧ w.Archives inp w' := by
  refine ⟨_, rfl, ?_, ?_⟩
  · have hparked := idle_repo env (c := .updateLocation sess.bikeId req.endLat req.endLng)
      (by simp) (World.exec env (.repo (.createWithPoints inp)) w₁).2
    have hfreed := hparked.trans (idle_repo env (c := .updateStatus sess.bikeId .idle)
      (by simp) _)
    refine InMemory.SameRides.trans ?_ hfreed.rides
    refine ⟨?_, ?_, ?_, ?_⟩ <;>
      simp only [World.exec, Deployment.exec, InMemory.exec, InMemory.createWithPoints,
        h.rides.rides, h.rides.index, h.rides.counter, h.rides.points]
  · rw [hno, ← h.sessions]
    rfl

theorem settleRide_closing (env : Env) (req : EndRideRequest) {sess : RideSession}
    (hcaller : w.holder env req.sessionToken = some sess.userId)
    (hfind : w.sessions.find req.rideNo = some sess) {w₁ : World P .inMemory} (h : Idle w w₁) :
    Closing env req w (World.run env (settleRide P req sess sess.userId) w₁) := by
  simp only [World.run, settleRide, nowUnix, repo, Prog.ask_bind, Prog.run_call, World.exec]
  split
  · exact .refused (by rintro _ ⟨⟩) h
  next amount _ =>
    have hpaid := h.trans (idle_repo env (c := .addBalance sess.userId .consume (-amount))
      (by simp) w₁)
    simp only [Prog.run_call]
    split
    · exact .fail _ (by decide) hpaid
    · obtain ⟨w', hrun, harchives⟩ := finishRide_archives env req sess
        (archive P req sess sess.userId env.now amount) rfl
        (World.exec env (.repo (.addBalance sess.userId .consume (-amount))) w₁).1 hpaid
      rw [World.run] at hrun
      rw [hrun]
      exact .settled amount _ hcaller hfind harchives

theorem endRide_closing (env : Env) (req : EndRideRequest) (w : World P .inMemory) :
    Closing env req w (World.run env (endRide P (some req)) w) := by
  have huser := idle_requireUser env req.sessionToken w
  simp only [World.run, endRide, Prog.run_bind]
  split
  · exact .fail _ (by decide) huser
  next uid hcaller =>
    split
    · exact .fail _ (by decide) huser
    · simp only [rideSessions, Prog.ask_bind, Prog.run_call, World.exec, RideSessionStore.exec]
      split
      next hfind => exact .replayed hcaller (huser.sessions ▸ hfind) huser
      next sess hfind =>
        split
        · exact .fail _ (by decide) huser
        next howner =>
          obtain rfl : sess.userId = uid := not_not.mp howner
          exact settleRide_closing env req hcaller (huser.sessions ▸ hfind) huser

/-- The reply and the state after a request. -/
abbrev serveOne (w : World P .inMemory) (e : Arrival) : Outcome Reply × World P .inMemory :=
  World.run e.env (dispatch P e.request) w

theorem serveOne_endRide (w : World P .inMemory) (env : Env) (req : EndRideRequest) :
    w.serveOne ⟨.endRide (some req), env⟩ =
      ((World.run env (endRide P (some req)) w).1.map .endRide,
        (World.run env (endRide P (some req)) w).2) :=
  run_answer ..

/-- The reply of the server is the answer of the handler. -/
theorem endRide_of_serveOne (h : (w.serveOne ⟨.endRide (some req), env⟩).1 = .ok (.endRide res)) :
    (World.run env (endRide P (some req)) w).1 = .ok res := by
  rw [serveOne_endRide] at h
  cases hrun : (World.run env (endRide P (some req)) w).1 with
  | error what =>
    rw [hrun] at h
    cases h
  | ok res' =>
    rw [hrun] at h
    cases h
    rfl

/-- An unlock creates a session only under the number that it returns. -/
theorem scanUnlock_issues (env : Env) (payload : Option ScanUnlockRequest)
    (w : World P .inMemory) :
    (w.serveOne ⟨.scanUnlock payload, env⟩).2.sessions = w.sessions ∨
      ∃ sess, returned (w.serveOne ⟨.scanUnlock payload, env⟩).1 = some sess.rideNo ∧
        (w.serveOne ⟨.scanUnlock payload, env⟩).2.sessions = w.sessions.create sess := by
  -- the same unlock, with the records of its effects
  let s : Rentals P .inMemory := ⟨w, 0, [], false, []⟩
  have hrun : World.run env (scanUnlock payload) w =
      (((scanUnlock payload).run (Rentals.exec env) s).1,
        ((scanUnlock payload).run (Rentals.exec env) s).2.toWorld) :=
    Prog.run_map (Rentals.exec env) (World.exec env) Rentals.toWorld (fun c s => rfl)
      (scanUnlock payload) s
  have hserve : w.serveOne ⟨.scanUnlock payload, env⟩ =
      ((World.run env (scanUnlock payload) w).1.map .scanUnlock,
        (World.run env (scanUnlock payload) w).2) :=
    run_answer ..
  rw [hserve, hrun]
  rcases Rentals.scanUnlock_cases env payload s with
    ⟨-, hquiet⟩ | ⟨req, -, sess, r, u, hquiet, -, -, hcode, hno, hout⟩
  · exact .inl hquiet.sessions
  · refine .inr ⟨sess, ?_, ?_⟩
    · rw [hout]
      exact (if_pos hcode).trans (congrArg some hno)
    · rw [hout, ← show u.sessions = w.sessions from hquiet.sessions]
      rfl

/-- Only `end_ride` archives a ride. -/
theorem sameRides_serveOne (w : World P .inMemory) (hend : ∀ no, ¬ e.request.ends no) :
    w.repos.SameRides (w.serveOne e).2.repos := by
  refine dispatch_keeps (I := fun w' : World P .inMemory => w.repos.SameRides w'.repos) ?_
    (.refl _)
  intro c w' hsame hc
  cases c with
  | repo c =>
    refine hsame.trans (InMemory.sameRides_exec e.env ?_ w'.repos)
    rintro inp rfl
    exact hend inp.rideNo hc
  | _ => exact hsame

/-- Only `scan_unlock` creates a session. -/
theorem ended_serveOne (hunlock : ∀ no, ¬ e.request.issues e.env.now no)
    (h : w.sessions.find no = none) : (w.serveOne e).2.sessions.find no = none := by
  refine dispatch_keeps (I := fun w' : World P .inMemory => w'.sessions.find no = none) ?_ h
  intro c w' hnone hc
  cases c with
  | ride c =>
    cases c with
    | create s => exact absurd hc (hunlock s.rideNo)
    | find rideNo => exact hnone
    | updatePos rideNo lat lng seq elapsedSec =>
      simp only [World.exec, RideSessionStore.exec, RideSessionStore.updatePos]
      split
      · exact hnone
      next s hs =>
        have hno : no ≠ (RideSessionStore.report s lat lng seq elapsedSec).rideNo := by
          rw [(RideSessionStore.report_frame s lat lng seq elapsedSec).1,
            w'.sessions.keyed rideNo s hs]
          rintro rfl
          exact absurd (hnone.symm.trans hs) (by simp)
        exact (update_of_ne hno ..).trans hnone
    | remove rideNo =>
      by_cases hno : no = rideNo
      · subst hno
        exact update_self ..
      · exact (update_of_ne hno ..).trans hnone
  | _ => exact hnone

/-- A settled ride stays settled until an unlock returns its number again. -/
theorem Filed.serveOne (h : w.Filed no rec) (hissue : returned (w.serveOne e).1 ≠ some no) :
    (w.serveOne e).2.Filed no rec := by
  obtain ⟨r, env⟩ := e
  cases r with
  | endRide payload =>
    cases payload with
    | none => exact h
    | some req =>
      rw [serveOne_endRide]
      have hclosing := endRide_closing env req w
      generalize World.run env (endRide P (some req)) w = out at hclosing ⊢
      cases hclosing with
      | refused _ hidle => exact h.idle hidle
      | replayed _ _ hidle =>
        rw [replayRide_reads]
        exact h.idle hidle
      | @settled sess _ amount balance _ hfind hset =>
        refine h.archives hset ?_
        rintro rfl
        have hkeyed : sess.rideNo = req.rideNo := w.sessions.keyed _ _ hfind
        rw [← hkeyed] at hfind
        exact absurd (h.ended.symm.trans hfind) (by simp)
  | scanUnlock payload =>
    refine h.same (w.sameRides_serveOne fun _ => id) ?_
    rcases scanUnlock_issues env payload w with hsame | ⟨sess, hreturned, hcreate⟩
    · rw [hsame]
      exact h.ended
    · rw [hcreate]
      refine (update_of_ne ?_ ..).trans h.ended
      rintro rfl
      exact hissue hreturned
  | _ => exact h.same (w.sameRides_serveOne fun _ => id) (ended_serveOne (fun _ => id) h.ended)

/-- The ids of the rides stay distinct while the counter counts. -/
theorem indexed_serveOne (h : w.repos.Indexed)
    (hcount : w.repos.nextRideId ≤ (w.serveOne e).2.repos.nextRideId) :
    (w.serveOne e).2.repos.Indexed := by
  obtain ⟨r, env⟩ := e
  cases r with
  | endRide payload =>
    cases payload with
    | none => exact h
    | some req =>
      rw [serveOne_endRide] at hcount ⊢
      have hclosing := endRide_closing env req w
      generalize World.run env (endRide P (some req)) w = out at hclosing hcount ⊢
      cases hclosing with
      | refused _ hidle => exact h.same hidle.rides
      | replayed _ _ hidle =>
        rw [replayRide_reads]
        exact h.same hidle.rides
      | settled amount balance _ _ hset =>
        refine (h.create ?_ _).same hset.rides
        rw [hset.rides.counter] at hcount
        exact Int32.lt_of_le_of_ne hcount (by simp)
  | _ => exact h.same (w.sameRides_serveOne fun _ => id)

/-- Every balance, record, ride, bike and session is as it was. -/
structure Unchanged (w w' : World P .inMemory) : Prop where
  tables : ∀ T, T ≠ Table.userinfo → w.repos.SameIn w'.repos T
  tokens : w'.repos.tokens = w.repos.tokens
  sessions : w'.sessions = w.sessions

/-- A token that is found only adds its user, if anything. -/
theorem requireUser_unchanged {token : String} (h : w.holder env token = some uid) :
    w.Unchanged (World.run env (requireUser token) w).2 := by
  simp only [World.holder, World.run, requireUser, repo, Prog.ask_bind, Prog.run_call] at h ⊢
  cases hlookup : (World.exec env (.repo (.lookupSession token)) w).1 with
  | none =>
    rw [hlookup] at h
    cases h
  | some mobile =>
    have hsame : (World.exec env (.repo (.lookupSession token)) w).2 = w := by
      simp only [World.exec, Deployment.exec, InMemory.exec] at hlookup ⊢
      rw [(InMemory.holder_of_lookup hlookup).1]
    simp only [hsame]
    refine ⟨fun T hT => ?_, ?_, rfl⟩
    · exact InMemory.exec_sameIn env (.findOrCreate mobile) w.repos
        (by simpa [RepoCall.targets] using hT)
    · show (InMemory.findOrCreate w.repos mobile).2.tokens = _
      unfold InMemory.findOrCreate
      split <;> rfl

/-- An Ok from the archive is about a ride of the caller. -/
theorem row_of_replay (hindexed : w.repos.Indexed)
    (hok : (World.run env (replayRide no uid) w).1 = .ok res) (hcode : res.code = ErrCode.ok.code) :
    ∃ r ∈ w.repos.rides, w.repos.rideByNo no = some r.id ∧ r.userId = uid ∧
      ∃ balance, res = r.receipt.reply balance := by
  simp only [World.run, replayRide, repo, Prog.ask_bind, Prog.run_call] at hok
  split at hok
  · cases hok
    exact absurd hcode (by decide)
  next row hrow =>
    obtain ⟨id, hid, -⟩ := Option.map_eq_some_iff.mp hrow
    obtain ⟨r, hr, rfl⟩ := hindexed.leads no id hid
    obtain rfl : r = row := Option.some.inj ((hindexed.find hr hid).symm.trans hrow)
    split at hok
    · cases hok
      exact absurd hcode (by decide)
    next huid =>
      cases hok
      exact ⟨r, hr, hid, not_not.mp huid, _, rfl⟩

/-- An `end_ride` that says Ok, from a live session or from the archive. -/
theorem filed_of_ok (hindexed : w.repos.Indexed)
    (hok : (World.run env (endRide P (some req)) w).1 = .ok res)
    (hcode : res.code = ErrCode.ok.code) {owner : Int32}
    (howner : w.holder env req.sessionToken = some owner) :
    ∃ rec : Receipt, rec.owner = owner ∧ (∃ balance, res = rec.reply balance) ∧
      (World.run env (endRide P (some req)) w).2.Filed req.rideNo rec := by
  have hclosing := endRide_closing env req w
  generalize World.run env (endRide P (some req)) w = out at hclosing hok ⊢
  cases hclosing with
  | refused hrefused _ => exact absurd hcode (hrefused res hok)
  | replayed hcaller hended hidle =>
    obtain ⟨r, hr, hid, hr_user, hres⟩ := row_of_replay (hindexed.same hidle.rides) hok hcode
    rw [replayRide_reads]
    refine ⟨r.receipt, ?_, hres, hidle.sessions ▸ hended, r, hr, hid, rfl⟩
    exact hr_user.trans (Option.some.inj (hcaller.symm.trans howner))
  | @settled sess _ amount balance hcaller hfind hset =>
    cases hok
    rw [hcaller] at howner
    cases howner
    have hkeyed : sess.rideNo = req.rideNo := w.sessions.keyed _ _ hfind
    exact ⟨_, rfl, ⟨balance, rfl⟩, hkeyed ▸ hset.filed⟩

/-- The request of an ended ride is answered from the archive. -/
theorem Filed.endRide (hindexed : w.repos.Indexed) (h : w.Filed req.rideNo rec)
    (hlat : validLat req.endLat = true) (hlng : validLng req.endLng = true)
    (huid : w.holder env req.sessionToken = some uid) :
    (World.run env (Server.endRide P (some req)) w).1 =
        .ok (if uid = rec.owner then rec.reply (w.repos.balance uid) else .fail .unauthorized) ∧
      w.Unchanged (World.run env (Server.endRide P (some req)) w).2 := by
  have hidle := idle_requireUser env req.sessionToken w
  have hsame := requireUser_unchanged huid
  have hvalid : (!validLat req.endLat || !validLng req.endLng) = false := by simp [hlat, hlng]
  have hbalance : (World.run env (requireUser req.sessionToken) w).2.repos.balance =
      w.repos.balance := by
    funext uid
    exact congrArg (fun b => (b uid).getD 0) (hsame.tables .account (by simp))
  have hrun : World.run env (Server.endRide P (some req)) w =
      World.run env (replayRide req.rideNo uid)
        (World.run env (requireUser req.sessionToken) w).2 := by
    have hended := (h.idle hidle).ended
    simp only [Server.endRide, run_user, huid, hvalid, Bool.false_eq_true, if_false]
    simp only [World.run] at hended
    simp only [World.run, rideSessions, Prog.ask_bind, Prog.run_call, World.exec,
      RideSessionStore.exec, hended]
  rw [hrun, (h.idle hidle).replay (hindexed.same hidle.rides), hbalance]
  exact ⟨rfl, hsame⟩

end World

/-! ## Runs -/

namespace World

/-- The server over the in-memory repositories, request after request. -/
def serving (P : Platform) (start : World P .inMemory → Prop) :
    Machine (World P .inMemory) Arrival where
  init := start
  next w e :=
    if w.repos.nextRideId ≤ (w.serveOne e).2.repos.nextRideId then some (w.serveOne e).2 else none

/-- No ride has been archived yet. -/
def Unfiled (w : World P .inMemory) : Prop :=
  w.repos.rides = [] ∧ ∀ no, w.repos.rideByNo no = none

/-- The request is answered with this number for a new ride. -/
def Issues (no : String) (w : World P .inMemory) (e : Arrival) : Prop :=
  returned (w.serveOne e).1 = some no

instance (no : String) (w : World P .inMemory) (e : Arrival) : Decidable (w.Issues no e) :=
  inferInstanceAs (Decidable (_ = _))

variable {env env' : Env} {w w₁ w₂ : World P .inMemory}

theorem next_serving {start : World P .inMemory → Prop} (h : (serving P start).next w e = some w₁) :
    w.repos.nextRideId ≤ (w.serveOne e).2.repos.nextRideId ∧ w₁ = (w.serveOne e).2 := by
  obtain ⟨hcount, hstate⟩ := Option.ite_none_right_eq_some.mp h
  exact ⟨hcount, (Option.some.inj hstate).symm⟩

theorem indexed_serving {start : World P .inMemory → Prop}
    (hstart : ∀ w, start w → w.repos.Indexed) {ok : World P .inMemory → Arrival → Prop}
    (h : (serving P start).ReachableWhile ok w) : w.repos.Indexed := by
  refine Machine.invariant (I := fun w : World P .inMemory => w.repos.Indexed) hstart ?_ h
  intro w e t hindexed _ hnext
  obtain ⟨hcount, rfl⟩ := next_serving hnext
  exact indexed_serveOne hindexed hcount

theorem indexed_of_unfiled (h : w.Unfiled) : w.repos.Indexed where
  distinct := by simp [h.1]
  below := by simp [h.1]
  leads no id hid := by
    rw [h.2 no] at hid
    cases hid

/-- **Retries replay the settled ride.** -/
theorem end_ride_replays {first retry : EndRideRequest} {res : EndRideResponse}
    {owner uid : Int32} (hw : (serving P Unfiled).Reachable w)
    (hfirst : (serving P Unfiled).next w ⟨.endRide (some first), env⟩ = some w₁)
    (hok : (w.serveOne ⟨.endRide (some first), env⟩).1 = .ok (.endRide res))
    (hcode : res.code = ErrCode.ok.code)
    (howner : w.holder env first.sessionToken = some owner)
    (hlater : (serving P (· = w₁)).ReachableWhile (fun w e => ¬ w.Issues first.rideNo e) w₂)
    (hno : retry.rideNo = first.rideNo) (hlat : validLat retry.endLat = true)
    (hlng : validLng retry.endLng = true)
    (huid : w₂.holder env' retry.sessionToken = some uid) :
    (w₂.serveOne ⟨.endRide (some retry), env'⟩).1 =
        .ok (.endRide (if uid = owner then { res with balanceAfter := w₂.repos.balance owner }
          else .fail .unauthorized)) ∧
      w₂.Unchanged (w₂.serveOne ⟨.endRide (some retry), env'⟩).2 := by
  have hindexed := indexed_serving (fun _ => indexed_of_unfiled) hw
  obtain ⟨hcount, rfl⟩ := next_serving hfirst
  have hindexed₂ : w₂.repos.Indexed :=
    indexed_serving (by rintro _ rfl; exact indexed_serveOne hindexed hcount) hlater
  have hres := endRide_of_serveOne hok
  rw [serveOne_endRide] at hlater
  obtain ⟨rec, rfl, ⟨balance, rfl⟩, hfiled⟩ := filed_of_ok hindexed hres hcode howner
  have hfiled₂ : w₂.Filed first.rideNo rec := by
    refine Machine.invariant (I := Filed first.rideNo rec) ?_ ?_ hlater
    · rintro _ rfl
      exact hfiled
    · intro w e t h hissue hnext
      obtain ⟨-, rfl⟩ := next_serving hnext
      exact h.serveOne hissue
  rw [← hno] at hfiled₂
  obtain ⟨hreply, hsame⟩ := hfiled₂.endRide hindexed₂ hlat hlng huid
  rw [serveOne_endRide, hreply]
  refine ⟨?_, hsame⟩
  by_cases howns : uid = rec.owner
  · subst howns
    rw [if_pos rfl, if_pos rfl]
    rfl
  · rw [if_neg howns, if_neg howns]
    rfl

/-- The small database in memory, while its user rides its bike. -/
def replayStart : World Platform.standstill .inMemory where
  repos := { InMemory.small 1000 with
    tokens := fun t => if t = "token" then some ("13800000000", 10000) else none }
  sessions := RideSessionStore.empty.create .small

/-- Its ride is returned, twice, and then its user recharges. -/
def replayEnd : World Platform.standstill .inMemory :=
  (((replayStart.serveOne (Rentals.returnAt "R19700101000101" 200)).2.serveOne
    (Rentals.returnAt "R19700101000101" 300)).2.serveOne
    ⟨.recharge (some ⟨"token", 500⟩), .calm 400⟩).2

/-- The third return brings the receipt of the first, and the new balance. -/
theorem end_ride_replays_third :
    (replayEnd.serveOne (Rentals.returnAt "R19700101000101" 500)).1 =
        .ok (.endRide ⟨ErrCode.ok.code, ErrCode.ok.toText, 100, 0, 100, 1400⟩) ∧
      replayEnd.Unchanged (replayEnd.serveOne (Rentals.returnAt "R19700101000101" 500)).2 := by
  have hlater : (serving Platform.standstill
      (· = (replayStart.serveOne (Rentals.returnAt "R19700101000101" 200)).2)).ReachableWhile
      (fun w e => ¬ w.Issues "R19700101000101" e) replayEnd :=
    .step (e := ⟨.recharge (some ⟨"token", 500⟩), .calm 400⟩)
      (.step (e := Rentals.returnAt "R19700101000101" 300) (.start rfl) (by decide +kernel) rfl)
      (by decide +kernel) rfl
  have hok : (replayStart.serveOne (Rentals.returnAt "R19700101000101" 200)).1 =
      .ok (.endRide ⟨ErrCode.ok.code, ErrCode.ok.toText, 100, 0, 100, 900⟩) := by
    decide +kernel
  have howner : replayStart.holder (.calm 200) "token" = some 1 := by decide +kernel
  have huid : replayEnd.holder (.calm 500) "token" = some 1 := by decide +kernel
  exact end_ride_replays (.start ⟨rfl, fun _ => rfl⟩) rfl hok rfl howner hlater rfl (by decide)
    (by decide) huid

end World

end SharedBike.Server
