import SharedBike.Server.Replays
import SharedBike.Server.ReplySizes
import SharedBike.Server.Escapes

/-!
# A ride that has been ended can be shown

Over the in-memory repositories. `get_ride_detail` shows its owner a ride as `end_ride`
archived it: the points in their order, the duration, the distance and the amount. The
row and its points lie under an id that is not given out again, and the number leads to
that id until an unlock is given the number (`Shelved`), so this is so after any
requests in between.

The reply is never too long for its frame. A session keeps the last 3600 points, the
archive adds the two ends, and a point takes 31 bytes at most, ten of them for an elapsed
time that is negative; all this is less than a third of what a message may have. That the
date texts have 31 bytes at most is what `strftime` promises for a buffer of 32
(`Platform.IsoFits`).
-/

namespace SharedBike.Server

open SharedBike.Common SharedBike.Lib SharedBike.Wire Function

variable {P : Platform}

/-! ## The reply -/

/-- The reply that shows a ride. -/
def Ride.detail (P : Platform) (ride : Ride) (points : List RidePoint) : GetRideDetailResponse :=
  ⟨ErrCode.ok.code, ride.rideNo, ride.durationSec, ride.distanceM, ride.amountCent,
    P.fmtIso ride.startTs, P.fmtIso ride.endTs, points.map fun p => ⟨p.lat, p.lng, p.elapsedSec⟩⟩

/-- With this many points it is never too long for its frame. -/
theorem Ride.detail_fits (hiso : P.IsoFits) {ride : Ride} {points : List RidePoint}
    (hno : ride.rideNo.length ≤ 32) (hpoints : points.length ≤ RideSessionStore.kMaxPoints + 2) :
    (ride.detail P points).serialize.length ≤ kMaxMessageLen := by
  have hcap : RideSessionStore.kMaxPoints = 3600 := rfl
  refine (GetRideDetailResponse.size_le (m := ride.detail P points) hno (hiso _) (hiso _)).trans ?_
  rw [Ride.detail, List.length_map, kMaxMessageLen]
  omega

/-! ## The sessions -/

/-- A session as an unlock made it, with no more points than it may keep. -/
structure RideSession.Capped (s : RideSession) : Prop where
  unlocked : s.Unlocked
  points : s.points.length ≤ RideSessionStore.kMaxPoints

/-- The number of such a session is short. -/
theorem RideSession.Unlocked.short {s : RideSession} (h : s.Unlocked) : s.rideNo.length ≤ 32 := by
  obtain ⟨date, seq, hno⟩ := h.number
  have hlen := makeRideNo_length hno
  omega

/-- The oldest point makes room for the newest. -/
theorem RideSession.Capped.report {s : RideSession} (h : s.Capped) (lat lng : Double)
    (seq elapsedSec : Int32) : (RideSessionStore.report s lat lng seq elapsedSec).Capped := by
  refine ⟨h.unlocked.report lat lng seq elapsedSec, ?_⟩
  have hpoints := h.points
  unfold RideSessionStore.report
  split
  · exact hpoints
  · dsimp only
    split
    · simpa using hpoints
    next hroom => exact Nat.not_lt.mp hroom

theorem archive_points_length (req : EndRideRequest) {sess : RideSession} (h : sess.Capped)
    (uid : Int32) (endTs : Int) (amount : Int32) :
    (archive P req sess uid endTs amount).points.length ≤ RideSessionStore.kMaxPoints + 2 := by
  have hpoints := h.points
  change (trajectory P req sess (duration endTs sess.startTs)).length ≤ _
  rw [trajectory, (P.sort_perm _).length_eq]
  simp only [List.cons_append, List.length_cons, List.length_append, List.length_nil]
  omega

/-! ## A ride and its points on the shelf -/

namespace World

variable {env env' : Env} {w w' w₁ w₂ : World P .inMemory} {no : String} {ride : Ride}
  {points : List RidePoint} {inp : CreateRideInput}

/-- The number leads to this ride, which has these points, and is not live. -/
structure Shelved (no : String) (ride : Ride) (points : List RidePoint) (w : World P .inMemory) :
    Prop where
  ended : w.sessions.find no = none
  row : ride ∈ w.repos.rides
  index : w.repos.rideByNo no = some ride.id
  points : w.repos.points ride.id = points

theorem Shelved.filed (h : w.Shelved no ride points) : w.Filed no ride.receipt :=
  ⟨h.ended, ride, h.row, h.index, rfl⟩

theorem Shelved.same (h : w.Shelved no ride points) (hsame : w.repos.SameRides w'.repos)
    (hended : w'.sessions.find no = none) : w'.Shelved no ride points where
  ended := hended
  row := by rw [hsame.rides]; exact h.row
  index := by rw [hsame.index]; exact h.index
  points := by rw [hsame.points]; exact h.points

theorem Shelved.idle (h : w.Shelved no ride points) (hidle : Idle w w') :
    w'.Shelved no ride points :=
  h.same hidle.rides (hidle.sessions ▸ h.ended)

theorem Archives.shelved (h : w.Archives inp w') :
    w'.Shelved inp.rideNo (inp.toRide w.repos.nextRideId) inp.points where
  ended := h.filed.ended
  row := by
    rw [h.rides.rides]
    exact List.mem_append_right _ (List.mem_singleton.mpr rfl)
  index := by
    rw [h.rides.index]
    exact update_self ..
  points := by
    rw [h.rides.points]
    exact update_self ..

/-- Another ride gets an id of its own. -/
theorem Shelved.archives (h : w.Shelved no ride points) (hindexed : w.repos.Indexed)
    (hset : w.Archives inp w') (hno : no ≠ inp.rideNo) : w'.Shelved no ride points where
  ended := (h.filed.archives hset hno).ended
  row := by
    rw [hset.rides.rides]
    exact List.mem_append_left _ h.row
  index := by
    rw [hset.rides.index]
    exact (update_of_ne hno ..).trans h.index
  points := by
    rw [hset.rides.points]
    refine (update_of_ne ?_ ..).trans h.points
    exact Int32.ne_of_lt (hindexed.below ride h.row)

/-- **One request** leaves the ride and its points, unless it is an unlock that is
given the number. -/
theorem Shelved.serveOne (h : w.Shelved no ride points) (hindexed : w.repos.Indexed) {e : Arrival}
    (hissue : returned (w.serveOne e).1 ≠ some no) : (w.serveOne e).2.Shelved no ride points := by
  have hended := (h.filed.serveOne hissue).ended
  obtain ⟨r, env⟩ := e
  cases r with
  | endRide payload =>
    cases payload with
    | none => exact h
    | some req =>
      rw [serveOne_endRide]
      have hclosing := endRide_closing env req w
      generalize World.run env (Server.endRide P (some req)) w = out at hclosing ⊢
      cases hclosing with
      | refused _ hidle => exact h.idle hidle
      | replayed _ _ hidle =>
        rw [replayRide_reads]
        exact h.idle hidle
      | @settled sess w' amount balance _ hfind harchives =>
        refine h.archives hindexed harchives ?_
        -- the ride of the session is live
        rw [show (archive P req sess sess.userId env.now amount).rideNo = req.rideNo from
          w.sessions.keyed _ _ hfind]
        rintro rfl
        cases h.ended.symm.trans hfind
  | _ => exact h.same (w.sameRides_serveOne fun _ => id) hended

theorem Shelved.serving (h : w₁.Shelved no ride points) (hindexed : w₁.repos.Indexed)
    (hrun : (serving P (· = w₁)).ReachableWhile (fun w e => ¬ w.Issues no e) w₂) :
    w₂.Shelved no ride points ∧ w₂.repos.Indexed := by
  refine Machine.invariant (I := fun w : World P .inMemory =>
    w.Shelved no ride points ∧ w.repos.Indexed) ?_ ?_ hrun
  · rintro _ rfl
    exact ⟨h, hindexed⟩
  · rintro w e t ⟨hw, hi⟩ hissue hnext
    obtain ⟨hcount, rfl⟩ := next_serving hnext
    exact ⟨hw.serveOne hi hissue, indexed_serveOne hi hcount⟩

theorem Shelved.getRideDetail {req : GetRideDetailRequest} (h : w.Shelved req.rideNo ride points)
    (hindexed : w.repos.Indexed) (howner : w.holder env req.sessionToken = some ride.userId) :
    (World.run env (Server.getRideDetail P (some req)) w).1 = .ok (ride.detail P points) := by
  have hidle := idle_requireUser env req.sessionToken w
  have hshelved := h.idle hidle
  have hfind := (hindexed.same hidle.rides).find hshelved.row hshelved.index
  simp only [Server.getRideDetail, run_user, howner]
  simp only [World.run] at hfind hshelved
  simp only [World.run, repo, Prog.ask_bind, Prog.run_call, World.exec, Deployment.exec,
    InMemory.exec, hfind, ne_eq, not_true_eq_false, if_false, hshelved.points]
  rfl

/-- An `end_ride` that says Ok to a live session has put its ride on the shelf. -/
theorem shelved_of_ok {req : EndRideRequest} {sess : RideSession} {res : EndRideResponse}
    (hlive : w.sessions.find req.rideNo = some sess)
    (hok : (World.run env (Server.endRide P (some req)) w).1 = .ok res)
    (hcode : res.code = ErrCode.ok.code) :
    ∃ id, (World.run env (Server.endRide P (some req)) w).2.Shelved req.rideNo
      ((archive P req sess sess.userId env.now res.amountCent).toRide id)
      (archive P req sess sess.userId env.now res.amountCent).points := by
  have hclosing := endRide_closing env req w
  generalize World.run env (Server.endRide P (some req)) w = out at hclosing hok ⊢
  cases hclosing with
  | refused hrefused _ => exact absurd hcode (hrefused res hok)
  | replayed _ hended _ => cases hended.symm.trans hlive
  | settled amount balance _ hfind harchives =>
    cases hlive.symm.trans hfind
    cases hok
    have hkeyed := w.sessions.keyed _ _ hlive
    exact ⟨w.repos.nextRideId, hkeyed ▸ harchives.shelved⟩

/-! ## Runs -/

/-- No ride has been archived, and none is live. -/
def Opening (w : World P .inMemory) : Prop := w.Unfiled ∧ w.sessions = .empty

theorem capped_of_reachable (h : (serving P Opening).Reachable w) :
    w.sessions.Each RideSession.Capped := by
  refine Machine.invariant (I := fun w : World P .inMemory => w.sessions.Each RideSession.Capped)
    ?_ ?_ h
  · rintro w ⟨-, hempty⟩
    rw [hempty]
    exact .empty
  · intro w e t hcapped _ hnext
    obtain ⟨-, rfl⟩ := next_serving hnext
    refine each_run (dispatch_begins P e.env.now e.request) (fun s hs => ?_)
      RideSession.Capped.report hcapped
    exact ⟨hs.2.1, by rw [hs.2.2]; exact Nat.zero_le _⟩

/-- **An archived ride can be fetched whole.** A ride that an `end_ride` has settled from
its live session is shown to its owner after any further requests, as long as no unlock
is given its number: with the points, the duration, the distance and the amount that were
archived, and in a frame that is not too long. -/
theorem ride_detail_whole (hiso : P.IsoFits) {first : EndRideRequest} {req : GetRideDetailRequest}
    {sess : RideSession} {res : EndRideResponse} (hw : (serving P Opening).Reachable w)
    (hlive : w.sessions.find first.rideNo = some sess)
    (hfirst : (serving P Opening).next w ⟨.endRide (some first), env⟩ = some w₁)
    (hok : (w.serveOne ⟨.endRide (some first), env⟩).1 = .ok (.endRide res))
    (hcode : res.code = ErrCode.ok.code)
    (hlater : (serving P (· = w₁)).ReachableWhile (fun w e => ¬ w.Issues first.rideNo e) w₂)
    (hno : req.rideNo = first.rideNo)
    (howner : w₂.holder env' req.sessionToken = some sess.userId) :
    ∃ ride points, w₁.repos.findByNo first.rideNo = some ride ∧ w₁.repos.points ride.id = points ∧
      ride = (archive P first sess sess.userId env.now res.amountCent).toRide ride.id ∧
      points = (archive P first sess sess.userId env.now res.amountCent).points ∧
      (w₂.serveOne ⟨.getRideDetail (some req), env'⟩).1 =
        .ok (.getRideDetail (ride.detail P points)) ∧
      (ride.detail P points).serialize.length ≤ kMaxMessageLen ∧
      ∃ bytes, w₂.respond env' (.getRideDetail (some req)) = .ok bytes := by
  have hindexed := indexed_serving (fun _ hopening => indexed_of_unfiled hopening.1) hw
  have hcapped := capped_of_reachable hw _ _ hlive
  obtain ⟨hcount, rfl⟩ := next_serving hfirst
  have hindexed₁ := indexed_serveOne hindexed hcount
  obtain ⟨id, hshelved⟩ := shelved_of_ok hlive (endRide_of_serveOne hok) hcode
  have hserve : (w.serveOne ⟨.endRide (some first), env⟩).2 =
      (World.run env (Server.endRide P (some first)) w).2 := by rw [serveOne_endRide]
  rw [← hserve] at hshelved
  obtain ⟨hshelved₂, hindexed₂⟩ := hshelved.serving hindexed₁ hlater
  rw [← hno] at hshelved₂
  have hrun := hshelved₂.getRideDetail hindexed₂ howner
  have hfits : (Ride.detail P
      ((archive P first sess sess.userId env.now res.amountCent).toRide id)
      (archive P first sess sess.userId env.now res.amountCent).points).serialize.length ≤
        kMaxMessageLen :=
    Ride.detail_fits hiso hcapped.unlocked.short (archive_points_length first hcapped ..)
  have hreply : (w₂.serveOne ⟨.getRideDetail (some req), env'⟩).1 =
      (World.run env' (Server.getRideDetail P (some req)) w₂).1.map .getRideDetail :=
    congrArg Prod.fst (run_answer ..)
  have hframe := respond_of_run (r := .getRideDetail (some req)) rfl (fun _ => rfl) hrun
  refine ⟨_, _, hindexed₁.find hshelved.row hshelved.index, hshelved.points, rfl, rfl, ?_, hfits,
    _, hframe.trans (encode_eq hfits)⟩
  rw [hreply, hrun]
  rfl

/-- The small database in memory, with its bike and nothing ridden yet. -/
def detailStart : World Platform.standstill .inMemory where
  repos := { InMemory.small 1000 with
    tokens := fun t => if t = "token" then some ("13800000000", 10000) else none
    bikes := ⟨[⟨1, "SB00000001", .fin 0, .fin 0, .idle⟩], by simp⟩
    nextBikeId := 2 }
  sessions := .empty

/-- Its bike is unlocked, and reports a position after fifty seconds. -/
def detailRiding : World Platform.standstill .inMemory :=
  ((detailStart.serveOne (Rentals.unlockAt "SB00000001" 100)).2.serveOne
    ⟨.positionReport (some ⟨"R19700101000101", 1, .fin 0, .fin 0, 50⟩), .calm 150⟩).2

def detailReturn : Arrival := Rentals.returnAt "R19700101000101" 200

/-- The bike is returned, and then its user recharges. -/
def detailLater : World Platform.standstill .inMemory :=
  ((detailRiding.serveOne detailReturn).2.serveOne ⟨.recharge (some ⟨"token", 500⟩), .calm 400⟩).2

/-- The ride is shown with the two ends and the point in between. -/
theorem ride_detail_whole_reported :
    (detailLater.serveOne ⟨.getRideDetail (some ⟨"token", "R19700101000101"⟩), .calm 500⟩).1 =
        .ok (.getRideDetail ⟨ErrCode.ok.code, "R19700101000101", 100, 0, 100, "", "",
          [⟨.fin 0, .fin 0, 0⟩, ⟨.fin 0, .fin 0, 50⟩, ⟨.fin 0, .fin 0, 100⟩]⟩) ∧
      ∃ bytes, detailLater.respond (.calm 500)
        (.getRideDetail (some ⟨"token", "R19700101000101"⟩)) = .ok bytes := by
  have hstart : (serving Platform.standstill Opening).Reachable detailStart :=
    .start ⟨⟨rfl, fun _ => rfl⟩, rfl⟩
  have hunlocked := hstart.step (e := Rentals.unlockAt "SB00000001" 100) trivial rfl
  have hw := hunlocked.step
    (e := ⟨.positionReport (some ⟨"R19700101000101", 1, .fin 0, .fin 0, 50⟩), .calm 150⟩)
    trivial rfl
  have hlive : detailRiding.sessions.find "R19700101000101" =
      some ⟨"R19700101000101", 1, 1, .fin 0, .fin 0, 100, .fin 0, .fin 0, 1,
        [⟨1, .fin 0, .fin 0, 50⟩]⟩ := by
    decide +kernel
  have hok : (detailRiding.serveOne detailReturn).1 =
      .ok (.endRide ⟨ErrCode.ok.code, ErrCode.ok.toText, 100, 0, 100, 900⟩) := by
    decide +kernel
  have hlater : (serving Platform.standstill
      (· = (detailRiding.serveOne detailReturn).2)).ReachableWhile
      (fun w e => ¬ w.Issues "R19700101000101" e) detailLater :=
    .step (e := ⟨.recharge (some ⟨"token", 500⟩), .calm 400⟩) (.start rfl) (by decide +kernel) rfl
  have howner : detailLater.holder (.calm 500) "token" = some 1 := by decide +kernel
  have hno : GetRideDetailRequest.rideNo ⟨"token", "R19700101000101"⟩ = "R19700101000101" := rfl
  obtain ⟨ride, points, -, -, hride, hpoints, hreply, -, hbytes⟩ := ride_detail_whole
    standstill_isoFits (w := detailRiding) hw hlive rfl hok rfl hlater hno howner
  -- the id of the row is not shown
  have hid : ∀ (inp : CreateRideInput) id, (inp.toRide id).detail Platform.standstill inp.points =
      (inp.toRide 1).detail Platform.standstill inp.points := fun _ _ => rfl
  refine ⟨hreply.trans ?_, hbytes⟩
  rw [hride, hpoints, hid]
  decide +kernel

end World

end SharedBike.Server
