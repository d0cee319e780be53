import SharedBike.Server.InMemory
import SharedBike.Server.Mysql
import SharedBike.Server.Handlers
import Mathlib.Data.List.Sort

/-!
# The server as a whole

`make_prod_ctx` and the context of the tests differ in the repositories only:
both keep the live rides in a `RideSessionStore` of the process. A `World`
is one of the two deployments between two calls, and `World.exec` answers
every call a handler can make.

The views at the end read the same facts off either deployment.
-/

namespace SharedBike.Server

open SharedBike.Common SharedBike.Lib

/-- A platform for bikes that do not move: every distance is 0, the rest is exact. -/
def Platform.standstill : Platform where
  haversineM _ _ _ _ := .fin 0
  add
    | .fin a, .fin b => .fin (a + b)
    | _, _ => .nan
  toInt
    | .fin q => Int32.ofInt (if 0 ≤ q then q.floor else q.ceil)
    | _ => 0
  atof7 n := .fin (n / 10000000)
  searchBox lat lng _ := (lat, lat, lng, lng)
  randomOffset lat lng _ _ _ := (lat, lng)
  fmtIso _ := ""
  sortPoints l := l.insertionSort fun a b => a.elapsedSec ≤ b.elapsedSec
  sort_perm l := List.perm_insertionSort _ l
  sort_sorted l := by
    have : Std.Total fun a b : RidePoint => a.elapsedSec ≤ b.elapsedSec :=
      ⟨fun a b => Int32.le_total a.elapsedSec b.elapsedSec⟩
    have : IsTrans RidePoint fun a b => a.elapsedSec ≤ b.elapsedSec :=
      ⟨fun _ _ _ => Int32.le_trans⟩
    exact List.pairwise_insertionSort _ l
  collation := id

/-- A call at an instant at which nothing fails. -/
def Env.calm (now : Nat) : Env := ⟨now, 0, "", fun _ => false⟩

/-- A call at an instant at which one statement fails. -/
def Env.losing (site : Site) (now : Nat) : Env := { Env.calm now with fails := (· = site) }

/-- A database with one user, signed in as `token`, and one bike. -/
def Production.small (balance : Int32) (status : BikeStatus) :
    Production Platform.standstill where
  tables :=
    { userinfo := [⟨1, "13800000000"⟩]
      account := fun uid => if uid = 1 then some balance else none
      accountRecord := []
      bike := [⟨1, "SB00000001", 0, 0, status⟩]
      ride := []
      ridePosition := []
      userinfo_id := by simp
      userinfo_mobile := by simp
      account_user := fun uid huid => by
        by_cases h : uid = 1
        · simp [h]
        · simp [h] at huid
      bike_id := by simp
      bike_no := by simp
      ride_no := by simp
      ride_user := by simp
      ride_bike := by simp
      position_ride := by simp }
  ids := ⟨2, 2, 1⟩
  redis := ⟨fun _ => none, fun t => if t = "token" then some ("13800000000", 10000) else none⟩

/-- A ride of that user on that bike, from the 100th second on. -/
def RideSession.small : RideSession :=
  ⟨"R19700101000101", 1, 1, .fin 0, .fin 0, 100, .fin 0, .fin 0, 0, []⟩

/-- Where the repositories are. -/
inductive Deployment where
  | inMemory
  | production
  deriving DecidableEq

namespace Deployment

abbrev Repos (P : Platform) : Deployment → Type
  | .inMemory => InMemory
  | .production => Production P

def exec (P : Platform) (d : Deployment) (env : Env) (c : RepoCall) :
    d.Repos P → c.Res × d.Repos P :=
  match d with
  | .inMemory => InMemory.exec env c
  | .production => Production.exec env c

/-! ## Views -/

def balance (P : Platform) : (d : Deployment) → d.Repos P → Int32 → Int32
  | .inMemory, m, uid => m.balance uid
  | .production, s, uid => (s.tables.account uid).getD 0

def ledger (P : Platform) : (d : Deployment) → d.Repos P → Int32 → List AccountRecord
  | .inMemory, m, uid => m.records uid
  | .production, s, uid => (s.tables.accountRecord.filter (·.userId = uid)).map (·.record)

/-- How many rides are archived under a number. -/
def archived (P : Platform) : (d : Deployment) → d.Repos P → String → Nat
  | .inMemory, m, rideNo => m.rides.countP (·.rideNo = rideNo)
  | .production, s, rideNo => s.tables.ride.countP (·.rideNo = rideNo)

/-- The bikes' ids with their status. -/
def statuses (P : Platform) : (d : Deployment) → d.Repos P → List (Int32 × BikeStatus)
  | .inMemory, m => m.bikes.rows.map fun b => (b.id, b.status)
  | .production, s => s.tables.bike.map fun b => (b.id, b.status)

end Deployment

/-- The repositories of a deployment and the live rides. -/
structure World (P : Platform) (d : Deployment) where
  repos : d.Repos P
  sessions : RideSessionStore

namespace World

variable {P : Platform} {d : Deployment}

def exec (env : Env) : (c : Call) → World P d → c.Res × World P d
  | .repo c, w =>
    let (r, repos) := d.exec P env c w.repos
    (r, { w with repos })
  | .ride c, w =>
    let (r, sessions) := RideSessionStore.exec c w.sessions
    (r, { w with sessions })
  | .nowUnix, w => (env.now, w)
  | .today, w => (todayYyyymmdd env.now, w)

/-- The small database, while its user rides its bike. -/
def riding (balance : Int32) : World Platform.standstill .production where
  repos := Production.small balance .rented
  sessions := RideSessionStore.empty.create .small

/-- A handler run on its own, at one instant. -/
def run {α : Type} (env : Env) (p : Calls α) (w : World P d) : α × World P d :=
  p.run (exec env) w

/-- The calls that such a run makes. -/
def calls {α : Type} (env : Env) (p : Calls α) (w : World P d) : List Call :=
  p.calls (exec env) w

/-- The world after some calls at one instant. -/
def after (env : Env) (w : World P d) (cs : List Call) : World P d := Prog.after (exec env) w cs

end World

/-- A request, and the instant and the failures of its handling. -/
structure Arrival where
  request : Request
  env : Env

end SharedBike.Server
