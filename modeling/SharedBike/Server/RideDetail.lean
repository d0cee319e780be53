import SharedBike.Server.Isolation

/-!
# What is read of an archived ride

`get_ride_detail` on the production repositories: the ride of a number, its
points in the order of theirs, and the reply that a caller gets. The lookup of
the caller comes first and may add a row to `userinfo`, which neither of the two
reads sees.
-/

namespace SharedBike.Server

open SharedBike.Common SharedBike.Lib

variable {P : Platform}

namespace World

variable {env : Env} {w : World P .production}

/-- The ride of a number, as it is read. -/
def rideFound (env : Env) (w : World P .production) (rideNo : String) : Option Ride :=
  if env.fails .rideSelect = true ∨ rideByNoWhole rideNo = false then none
  else (w.repos.tables.rideNamed rideNo).map (Mysql.rowToRide P)

/-- The points of a ride, as they are read. -/
def pointsFound (env : Env) (w : World P .production) (rideId : Int32) : List RidePoint :=
  if env.fails .pointsSelect then []
  else (w.repos.tables.pointsOf rideId).map (Mysql.rowToPoint P)

theorem exec_findByNo (rideNo : String) :
    World.exec env (.repo (.findByNo rideNo)) w = (w.rideFound env rideNo, w) := by
  simp only [World.exec, Deployment.exec, Production.exec_findByNo, rideFound]

theorem exec_listPoints (rideId : Int32) :
    World.exec env (.repo (.listPoints rideId)) w = (w.pointsFound env rideId, w) := by
  simp only [World.exec, Deployment.exec, Production.exec_listPoints, pointsFound]

/-- The lookup of the caller touches no table but that of the users. -/
theorem sameIn_requireUser (env : Env) (token : String) (w : World P .production) {T : Table}
    (hT : T ≠ .userinfo) :
    w.repos.tables.SameIn (World.run env (requireUser token) w).2.repos.tables T := by
  refine requireUser_frame (R := fun w w' : World P .production =>
    w.repos.tables.SameIn w'.repos.tables T) Tables.SameIn.trans ?_ ?_ token w
  · exact fun token w => Production.exec_sameIn env (.lookupSession token) w.repos
      (by simp [RepoCall.targets])
  · exact fun mobile w => Production.exec_sameIn env (.findOrCreate mobile) w.repos
      (by simpa [RepoCall.targets] using hT)

/-- What a caller gets that asks for a ride. -/
def detailFor (env : Env) (w : World P .production) (uid : Int32) (rideNo : String) :
    GetRideDetailResponse :=
  match w.rideFound env rideNo with
  | none => .fail .invalidData
  | some ride =>
    if ride.userId ≠ uid then .fail .unauthorized
    else ⟨ErrCode.ok.code, ride.rideNo, ride.durationSec, ride.distanceM, ride.amountCent,
      P.fmtIso ride.startTs, P.fmtIso ride.endTs,
      (w.pointsFound env ride.id).map fun p => ⟨p.lat, p.lng, p.elapsedSec⟩⟩

theorem run_getRideDetail {req : GetRideDetailRequest} {uid : Int32}
    (huid : w.holder env req.sessionToken = some uid) :
    (World.run env (getRideDetail P (some req)) w).1 = .ok (w.detailFor env uid req.rideNo) := by
  set w₁ := (World.run env (requireUser req.sessionToken) w).2 with hw₁
  have hfound : w₁.rideFound env req.rideNo = w.rideFound env req.rideNo := by
    rw [rideFound, rideFound, Tables.rideNamed, Tables.rideNamed,
      show w₁.repos.tables.ride = w.repos.tables.ride from
        sameIn_requireUser env req.sessionToken w (T := .ride) (by simp)]
  have hpoints : ∀ id, w₁.pointsFound env id = w.pointsFound env id := by
    intro id
    rw [pointsFound, pointsFound, Tables.pointsOf, Tables.pointsOf,
      show w₁.repos.tables.ridePosition = w.repos.tables.ridePosition from
        sameIn_requireUser env req.sessionToken w (T := .ridePosition) (by simp)]
  simp only [getRideDetail, run_user, huid, ← hw₁]
  simp only [World.run, repo, Prog.ask_bind, Prog.run_call, exec_findByNo, hfound]
  rw [detailFor]
  cases w.rideFound env req.rideNo with
  | none => rfl
  | some ride =>
    by_cases howner : ride.userId ≠ uid
    · simp only [if_pos howner]
      rfl
    · simp only [if_neg howner, Prog.run_call, exec_listPoints, hpoints]
      rfl

end World

end SharedBike.Server
