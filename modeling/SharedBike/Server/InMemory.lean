import SharedBike.Server.Data
import Mathlib.Logic.Function.Basic
import Mathlib.Data.String.Basic

/-!
# The stores in the process's memory

`RideSessionStore`, which every deployment uses, and the repositories of
`repo/in_memory.hpp`. A `std::map` that is only looked up is a function; the
two that are walked through are kept in the order they are walked in.
-/

namespace SharedBike.Server

open SharedBike.Common SharedBike.Lib Function

/-! ## The ride session store -/

/-- `sessions_`. A session stands under its own ride number. -/
structure RideSessionStore where
  find : String → Option RideSession
  keyed : ∀ rideNo s, find rideNo = some s → s.rideNo = rideNo

namespace RideSessionStore

def kMaxPoints : Nat := 3600

def empty : RideSessionStore := ⟨fun _ => none, fun _ _ h => by cases h⟩

/-- `create` overwrites. -/
def create (store : RideSessionStore) (s : RideSession) : RideSessionStore where
  find := update store.find s.rideNo (some s)
  keyed := by
    intro rideNo s' h
    by_cases hno : rideNo = s.rideNo
    · subst hno
      rw [update_self] at h
      cases h
      rfl
    · rw [update_of_ne hno] at h
      exact store.keyed rideNo s' h

def remove (store : RideSessionStore) (rideNo : String) : RideSessionStore where
  find := update store.find rideNo none
  keyed := by
    intro no s h
    by_cases hno : no = rideNo
    · subst hno
      rw [update_self] at h
      cases h
    · rw [update_of_ne hno] at h
      exact store.keyed no s h

/-- The body of `update_pos` once the session is found. -/
def report (s : RideSession) (lat lng : Double) (seq elapsedSec : Int32) : RideSession :=
  if (s.lastSeq ≠ 0 ∨ s.points ≠ []) ∧ seq ≤ s.lastSeq then s
  else
    let points := s.points ++ [⟨seq, lat, lng, elapsedSec⟩]
    { s with
      lastLat := lat
      lastLng := lng
      lastSeq := seq
      points := if points.length > kMaxPoints then points.tail else points }

/-- A report moves the position and the points of a session, nothing else. -/
theorem report_frame (s : RideSession) (lat lng : Double) (seq elapsedSec : Int32) :
    (report s lat lng seq elapsedSec).rideNo = s.rideNo ∧
      (report s lat lng seq elapsedSec).userId = s.userId ∧
      (report s lat lng seq elapsedSec).bikeId = s.bikeId ∧
      (report s lat lng seq elapsedSec).startTs = s.startTs := by
  unfold report
  split <;> exact ⟨rfl, rfl, rfl, rfl⟩

/-- The answer says whether there was a session to report to. -/
def updatePos (store : RideSessionStore) (rideNo : String) (lat lng : Double)
    (seq elapsedSec : Int32) : Bool × RideSessionStore :=
  match store.find rideNo with
  | none => (false, store)
  | some s => (true, store.create (report s lat lng seq elapsedSec))

def exec : (c : RideCall) → RideSessionStore → c.Res × RideSessionStore
  | .create s, store => ((), store.create s)
  | .find rideNo, store => (store.find rideNo, store)
  | .updatePos rideNo lat lng seq elapsedSec, store =>
    store.updatePos rideNo lat lng seq elapsedSec
  | .remove rideNo, store => ((store.find rideNo).isSome, store.remove rideNo)

end RideSessionStore

/-! ## The in-memory repositories -/

/-- `std::map<std::string, Bike>`: in the order of the bike numbers. -/
structure BikeMap where
  rows : List Bike
  sorted : rows.Pairwise fun a b => a.bikeNo < b.bikeNo

namespace BikeMap

theorem nil_sorted : ([] : List Bike).Pairwise fun a b => a.bikeNo < b.bikeNo := .nil

def find (m : BikeMap) (bikeNo : String) : Option Bike := m.rows.find? (·.bikeNo = bikeNo)

/-- Walk to the first bike with the id and change it in place. -/
def modifyFirst (id : Int32) (f : Bike → Bike) : List Bike → List Bike
  | [] => []
  | b :: rest => if b.id = id then f b :: rest else b :: modifyFirst id f rest

theorem modifyFirst_bikeNo (id : Int32) {f : Bike → Bike} (hf : ∀ b, (f b).bikeNo = b.bikeNo)
    (rows : List Bike) : (modifyFirst id f rows).map (·.bikeNo) = rows.map (·.bikeNo) := by
  induction rows with
  | nil => rfl
  | cons b rest ih =>
    unfold modifyFirst
    split
    · simp only [List.map_cons, hf]
    · simp only [List.map_cons, ih]

theorem sorted_of_bikeNo {l l' : List Bike} (h : l'.map (·.bikeNo) = l.map (·.bikeNo))
    (hs : l.Pairwise fun a b => a.bikeNo < b.bikeNo) :
    l'.Pairwise fun a b => a.bikeNo < b.bikeNo := by
  have key : (l.map (·.bikeNo)).Pairwise (· < ·) := List.pairwise_map.mpr hs
  rw [← h] at key
  exact List.pairwise_map.mp key

def modify (m : BikeMap) (id : Int32) (f : Bike → Bike) (hf : ∀ b, (f b).bikeNo = b.bikeNo) :
    BikeMap :=
  ⟨modifyFirst id f m.rows, sorted_of_bikeNo (modifyFirst_bikeNo id hf m.rows) m.sorted⟩

/-- The place of a new key in the order. -/
def insertRow (b : Bike) : List Bike → List Bike
  | [] => [b]
  | a :: rest => if b.bikeNo < a.bikeNo then b :: a :: rest else a :: insertRow b rest

theorem mem_insertRow {b x : Bike} {l : List Bike} : x ∈ insertRow b l ↔ x = b ∨ x ∈ l := by
  induction l with
  | nil => simp [insertRow]
  | cons a rest ih =>
    unfold insertRow
    split
    · simp
    · simp only [List.mem_cons, ih]
      tauto

theorem insertRow_sorted {b : Bike} {l : List Bike}
    (hs : l.Pairwise fun a b => a.bikeNo < b.bikeNo) (hnew : ∀ a ∈ l, a.bikeNo ≠ b.bikeNo) :
    (insertRow b l).Pairwise fun a b => a.bikeNo < b.bikeNo := by
  induction l with
  | nil => simp [insertRow]
  | cons a rest ih =>
    obtain ⟨hlt, hrest⟩ := List.pairwise_cons.mp hs
    unfold insertRow
    split
    next hb =>
      refine List.pairwise_cons.mpr ⟨?_, hs⟩
      intro x hx
      rcases List.mem_cons.mp hx with rfl | hx
      · exact hb
      · exact lt_trans hb (hlt x hx)
    next hb =>
      refine List.pairwise_cons.mpr ⟨?_, ih hrest fun x hx => hnew x (List.mem_cons_of_mem a hx)⟩
      intro x hx
      rcases mem_insertRow.mp hx with rfl | hx
      · exact lt_of_le_of_ne (not_lt.mp hb) (hnew a List.mem_cons_self)
      · exact hlt x hx

/-- `insert`, for a number that is not there yet. -/
def insert (m : BikeMap) (b : Bike) (hnew : m.find b.bikeNo = none) : BikeMap :=
  ⟨insertRow b m.rows, insertRow_sorted m.sorted fun a ha => by
    have := List.find?_eq_none.mp hnew a ha
    simpa using this⟩

end BikeMap

/-- The five in-memory repositories. -/
structure InMemory where
  users : String → Option User
  nextUserId : Int32
  balances : Int32 → Option Int32
  records : Int32 → List AccountRecord
  codes : String → Option (Int32 × Nat)
  tokens : String → Option (String × Nat)
  bikes : BikeMap
  nextBikeId : Int32
  rides : List Ride
  points : Int32 → List RidePoint
  rideByNo : String → Option Int32
  nextRideId : Int32

namespace InMemory

def balance (m : InMemory) (uid : Int32) : Int32 := (m.balances uid).getD 0

def findOrCreate (m : InMemory) (mobile : String) : User × InMemory :=
  match m.users mobile with
  | some u => (u, m)
  | none =>
    let u : User := ⟨m.nextUserId, mobile⟩
    (u, { m with nextUserId := m.nextUserId + 1, users := update m.users mobile (some u) })

/-- A debit beyond the balance is refused and changes nothing. -/
def addBalance (m : InMemory) (now : Nat) (uid : Int32) (type : RecordType) (amount : Int32) :
    Int32 × InMemory :=
  let cur := m.balance uid
  if amount < 0 ∧ cur + amount < 0 then (-1, m)
  else
    let b := cur + amount
    (b, { m with
      balances := update m.balances uid (some b)
      records := update m.records uid
        (m.records uid ++ [⟨type.code, amount, b, now⟩]) })

/-- The newest `limit` records, newest first. The limit is converted to an
unsigned size. -/
def listRecords (m : InMemory) (uid limit : Int32) : List AccountRecord :=
  let v := m.records uid
  v.reverse.take (min (limit.toInt % 2 ^ 64).toNat v.length)

/-- A code or token that has expired is erased when it is asked for. -/
def getCode (m : InMemory) (now : Nat) (mobile : String) : Option Int32 × InMemory :=
  match m.codes mobile with
  | none => (none, m)
  | some (code, expiry) =>
    if now > expiry then (none, { m with codes := update m.codes mobile none })
    else (some code, m)

def lookupSession (m : InMemory) (now : Nat) (token : String) : Option String × InMemory :=
  match m.tokens token with
  | none => (none, m)
  | some (mobile, expiry) =>
    if now > expiry then (none, { m with tokens := update m.tokens token none })
    else (some mobile, m)

def updateStatus (m : InMemory) (id : Int32) (s : BikeStatus) : Bool × InMemory :=
  (m.bikes.rows.any (·.id = id),
    { m with bikes := m.bikes.modify id (fun b => { b with status := s }) fun _ => rfl })

def updateLocation (m : InMemory) (id : Int32) (lat lng : Double) : Bool × InMemory :=
  (m.bikes.rows.any (·.id = id),
    { m with bikes := m.bikes.modify id (fun b => { b with lat, lng }) fun _ => rfl })

def listInBounds (m : InMemory) (latMin latMax lngMin lngMax : Double) : List Bike :=
  m.bikes.rows.filter fun b =>
    latMin.le b.lat && b.lat.le latMax && lngMin.le b.lng && b.lng.le lngMax

def insert (m : InMemory) (b : Bike) : Option Bike × InMemory :=
  if h : m.bikes.find b.bikeNo = none then
    let nb : Bike := { b with id := m.nextBikeId }
    (some nb, { m with nextBikeId := m.nextBikeId + 1, bikes := m.bikes.insert nb h })
  else (none, m)

/-- The ids grow, so the newest ride stands last in `rides_`. An older ride
under the same number stays, and the number leads to the new one. -/
def createWithPoints (m : InMemory) (inp : CreateRideInput) : Ride × InMemory :=
  let r := inp.toRide m.nextRideId
  (r, { m with
    nextRideId := m.nextRideId + 1
    rides := m.rides ++ [r]
    points := update m.points r.id inp.points
    rideByNo := update m.rideByNo r.rideNo (some r.id) })

/-- `rides_[id]` of an id that is not there is the empty ride. -/
def findByNo (m : InMemory) (rideNo : String) : Option Ride :=
  (m.rideByNo rideNo).map fun id => (m.rides.find? (·.id = id)).getD .empty

/-- The loop tests the limit after each ride it has looked at. -/
def listByUser (uid limit : Int32) : List Ride → List Ride → List Ride
  | [], out => out
  | r :: rest, out =>
    let out' := if r.userId = uid then out ++ [r] else out
    if Int32.ofNat out'.length ≥ limit then out' else listByUser uid limit rest out'

/-- Every repository call, answered from memory. -/
def exec (env : Env) : (c : RepoCall) → InMemory → c.Res × InMemory
  | .findByMobile mobile, m => (m.users mobile, m)
  | .findOrCreate mobile, m => m.findOrCreate mobile
  | .getBalance uid, m => (m.balance uid, m)
  | .addBalance uid type amount, m => m.addBalance env.now uid type amount
  | .listRecords uid limit, m => (m.listRecords uid limit, m)
  | .setCode mobile, m =>
    (env.code, { m with codes := update m.codes mobile (some (env.code, env.now + 300)) })
  | .getCode mobile, m => m.getCode env.now mobile
  | .deleteCode mobile, m => ((), { m with codes := update m.codes mobile none })
  | .createSession mobile, m =>
    (env.token, { m with
      tokens := update m.tokens env.token (some (mobile, env.now + 7 * 24 * 3600)) })
  | .lookupSession token, m => m.lookupSession env.now token
  | .destroySession token, m => ((), { m with tokens := update m.tokens token none })
  | .getForUpdate bikeNo, m => (m.bikes.find bikeNo, m)
  | .updateStatus id s, m => m.updateStatus id s
  | .updateLocation id lat lng, m => m.updateLocation id lat lng
  | .listInBounds latMin latMax lngMin lngMax, m =>
    (m.listInBounds latMin latMax lngMin lngMax, m)
  | .insert b, m => m.insert b
  | .createWithPoints inp, m => m.createWithPoints inp
  | .findByNo rideNo, m => (m.findByNo rideNo, m)
  | .listPoints rideId, m => (m.points rideId, m)
  | .listByUser uid limit, m => (listByUser uid limit m.rides [], m)

end InMemory

end SharedBike.Server
