import SharedBike.Server.BikeRepos
import SharedBike.Lib.Newest

/-!
# Where the two ride repositories agree

What a ride repository is for is to keep the log of the rides, with the points
of each. `RideRepos` runs the two implementations side by side, and a call by
id names, on each side, that side's id of the same ride.

As long as no number is archived twice, both sides have the same log in the
same order (`Related`). What they make of it differs. The database gives the
points of a ride in the order of their numbers, memory in the order in which
they came. The database lists a user's rides by their start, the newest first;
memory lists them from the first that was archived, and looks at the limit only
after it has taken one; and the limit that the database reads is what the buffer
has left of it. A number that is there already, or that the column's collation
takes for one that is, is an error on the database; in memory the new ride takes
the number over. A number too long for the text of the query is never found on the
database, and one that the collation takes for another finds the other.

`ride_repos_agree_iff` says exactly which calls are answered alike, and
`ride_repos_differ` shows three of the differences.
-/

namespace SharedBike.Server

open SharedBike.Common SharedBike.Lib Function

variable {P : Platform}

/-- A ride without the id that a repository gave it. -/
def Ride.withoutId (r : Ride) : Ride := { r with id := 0 }

/-- A row as it is read, without its id. -/
def RideRow.seen (P : Platform) (row : RideRow) : Ride := (Mysql.rowToRide P row).withoutId

/-- The points of a ride, in the order in which they were inserted. -/
def Tables.track (t : Tables P) (rideId : Int) : List RidePoint :=
  (t.ridePosition.filter (·.rideId = rideId)).map (Mysql.rowToPoint P)

/-! ## Both repositories -/

structure RideRepos (P : Platform) where
  mem : InMemory
  db : Production P

/-- A call on both. An id is one for each side. -/
inductive ArchiveCall where
  | createWithPoints (inp : CreateRideInput)
  | findByNo (rideNo : String)
  | listPoints (memId dbId : Int32)
  | listByUser (uid limit : Int32)

namespace ArchiveCall

def onMem : ArchiveCall → RepoCall
  | .createWithPoints inp => .createWithPoints inp
  | .findByNo rideNo => .findByNo rideNo
  | .listPoints memId _ => .listPoints memId
  | .listByUser uid limit => .listByUser uid limit

def onDb : ArchiveCall → RepoCall
  | .listPoints _ dbId => .listPoints dbId
  | c => c.onMem

end ArchiveCall

namespace RideRepos

def next (s : RideRepos P) (c : ArchiveCall) : Option (RideRepos P) :=
  some ⟨(InMemory.exec errorless c.onMem s.mem).2, (Production.exec errorless c.onDb s.db).2⟩

/-- Both sides have the same log, with the same points, and memory finds its
rides by their ids and numbers. -/
structure Related (s : RideRepos P) : Prop where
  log : s.mem.rides.map Ride.withoutId = s.db.tables.ride.map (RideRow.seen P)
  tracks : ∀ r ∈ s.mem.rides, ∀ row ∈ s.db.tables.ride, r.rideNo = row.rideNo →
    s.mem.points r.id = s.db.tables.track row.id
  ids : (s.mem.rides.map (·.id)).Nodup
  index : ∀ rideNo, s.mem.rideByNo rideNo = (s.mem.rides.find? (·.rideNo = rideNo)).map (·.id)
  trackless : ∀ id ∉ s.mem.rides.map (·.id), s.mem.points id = []

/-- Any number of rides may be there from the start. -/
def machine (P : Platform) : Machine (RideRepos P) ArchiveCall where
  init := Related
  next := next

/-- The column's collation tells the number from every other one that is there. -/
def Told (s : RideRepos P) (rideNo : String) : Prop :=
  ∀ row ∈ s.db.tables.ride, P.collation row.rideNo = P.collation rideNo → row.rideNo = rideNo

/-- The two ids are those of one ride, or of none. -/
def SameRide (s : RideRepos P) (memId dbId : Int32) : Prop :=
  Keyed.named (·.rideNo) (·.id) memId s.mem.rides =
    Keyed.named (·.rideNo) (·.id) dbId.toInt s.db.tables.ride

/-- Every value of the ride fits its column, and is given back. -/
@[mk_iff]
structure Fitting (s : RideRepos P) (inp : CreateRideInput) : Prop where
  rideNo : inp.rideNo.length ≤ 32
  escape : Room 64 inp.rideNo
  user : inp.userId ∈ s.db.tables.userinfo.map (·.id)
  bike : inp.bikeId ∈ s.db.tables.bike.map (·.id)
  start : 1 ≤ inp.startTs ∧ inp.startTs < 2 ^ 31
  finish : 1 ≤ inp.endTs ∧ inp.endTs < 2 ^ 31
  startPlace : P.Exact inp.startLat ∧ P.Exact inp.startLng
  endPlace : P.Exact inp.endLat ∧ P.Exact inp.endLng
  points : ∀ p ∈ inp.points, P.Exact p.lat ∧ P.Exact p.lng

/-- What is taken for granted: no error of the database but that of a number
that is taken, no number that overruns the buffer of its escape, coordinates at
seven decimals, ids that are distinct. -/
def Admitted (s : RideRepos P) : ArchiveCall → Prop
  | .createWithPoints inp => s.Fitting inp ∧
    s.mem.nextRideId ∉ s.mem.rides.map (·.id) ∧ s.db.ids.ride ∉ s.db.tables.ride.map (·.id)
  | .findByNo rideNo => Room 64 rideNo
  | .listPoints memId dbId => s.SameRide memId dbId
  | .listByUser _ _ => True

/-- The two answers to a call are the same, ids apart. -/
def Agrees (s : RideRepos P) : ArchiveCall → Prop
  | .createWithPoints inp =>
    (InMemory.exec errorless (.createWithPoints inp) s.mem).1.withoutId =
      (Production.exec errorless (.createWithPoints inp) s.db).1.withoutId
  | .findByNo rideNo =>
    (InMemory.exec errorless (.findByNo rideNo) s.mem).1.map Ride.withoutId =
      (Production.exec errorless (.findByNo rideNo) s.db).1.map Ride.withoutId
  | .listPoints memId dbId =>
    (InMemory.exec errorless (.listPoints memId) s.mem).1 =
      (Production.exec errorless (.listPoints dbId) s.db).1
  | .listByUser uid limit =>
    (InMemory.exec errorless (.listByUser uid limit) s.mem).1.map Ride.withoutId =
      (Production.exec errorless (.listByUser uid limit) s.db).1.map Ride.withoutId

/-- A user's rides, in the order in which they were archived. -/
def ridesOf (s : RideRepos P) (uid : Int32) : List Ride := s.mem.rides.filter (·.userId = uid)

/-- How many of a user's rides memory lists at most. It looks at the limit after it
has come to the first ride. -/
def listed (s : RideRepos P) (uid limit : Int32) : Nat :=
  if limit ≤ 0 then (s.mem.rides.head?.toList.filter (·.userId = uid)).length
  else limit.toInt.toNat

/-- The number is new, to the collation too; the text of the search is whole and its
number is taken for no other, or there is nothing to find; the points came in the order
of their numbers; both sides list as many of the user's rides, and those were archived
newest first. -/
def Plain (s : RideRepos P) : ArchiveCall → Prop
  | .createWithPoints inp =>
    P.collation inp.rideNo ∉ s.mem.rides.map fun r => P.collation r.rideNo
  | .findByNo rideNo =>
    if rideByNoWhole rideNo then s.Told rideNo else rideNo ∉ s.mem.rides.map (·.rideNo)
  | .listPoints memId _ => (s.mem.points memId).Pairwise fun p q => p.seq ≤ q.seq
  | .listByUser uid limit =>
    min (s.listed uid limit) (s.ridesOf uid).length =
      (limitLeft uid limit).most (s.ridesOf uid).length ∧
    Descends (·.startTs) (s.listed uid limit) (s.ridesOf uid)

/-- The condition of a run: no number is archived twice. -/
def Orderly (s : RideRepos P) (c : ArchiveCall) : Prop :=
  s.Admitted c ∧ ∀ inp, c = .createWithPoints inp → s.Plain c

variable {s t : RideRepos P}

/-! ## Searches -/

/-- A search by number through the log. -/
theorem find_log (rideNo : String) :
    (s.mem.rides.find? (·.rideNo = rideNo)).map Ride.withoutId =
      (s.mem.rides.map Ride.withoutId).find? (·.rideNo = rideNo) := by
  rw [List.find?_map]
  rfl

theorem Related.findByNo_mem (h : Related s) (rideNo : String) :
    s.mem.findByNo rideNo = s.mem.rides.find? (·.rideNo = rideNo) := by
  rw [InMemory.findByNo, h.index]
  cases hfind : s.mem.rides.find? (·.rideNo = rideNo) with
  | none => rfl
  | some r =>
    have hmem := List.mem_of_find?_eq_some hfind
    have hid := (Keyed.find?_eq_some_iff h.ids).mpr ⟨hmem, rfl⟩
    simp only [Option.map_some, hid, Option.getD_some]

theorem rideNamed_eq {rideNo : String} (htold : s.Told rideNo) :
    s.db.tables.rideNamed rideNo = s.db.tables.ride.find? (·.rideNo = rideNo) := by
  rw [Tables.rideNamed, ← List.head?_filter, ← List.head?_filter]
  refine congrArg List.head? (List.filter_congr fun row hrow => ?_)
  exact decide_eq_decide.mpr ⟨htold row hrow, congrArg P.collation⟩

/-- A search that the database gets whole is answered alike when the collation takes the
number for no other, and one that it does not get finds nothing. -/
theorem Related.findByNo (h : Related s) (rideNo : String) :
    s.Agrees (.findByNo rideNo) ↔ s.Plain (.findByNo rideNo) := by
  rw [Agrees, Production.exec_findByNo, show errorless.fails .rideSelect = false from rfl]
  show (s.mem.findByNo rideNo).map Ride.withoutId = _ ↔ _
  rw [h.findByNo_mem]
  cases hwhole : rideByNoWhole rideNo with
  | true =>
    rw [Plain, if_pos hwhole, if_neg (by simp)]
    constructor
    · -- the database finds the row, and memory the number
      intro heq row hrow hcollation
      have hnamed : s.db.tables.rideNamed rideNo = some row :=
        (Keyed.find?_eq_some_iff s.db.tables.ride_no).mpr ⟨hrow, hcollation⟩
      rw [hnamed] at heq
      obtain ⟨r, hfind, hview⟩ := Option.map_eq_some_iff.mp heq
      have hno : r.rideNo = rideNo := by simpa using List.find?_some hfind
      exact (congrArg Ride.rideNo hview).symm.trans hno
    · intro htold
      rw [rideNamed_eq htold, find_log, h.log, List.find?_map, Option.map_map]
      rfl
  | false =>
    rw [if_pos (.inr rfl), Option.map_none, Option.map_eq_none_iff, List.find?_eq_none, Plain,
      if_neg (by rw [hwhole]; nofun)]
    simp only [decide_eq_true_eq, List.mem_map, not_exists, not_and]

/-! ## Points -/

/-- Two ids of one ride lead to the same points. -/
theorem Related.track_eq (h : Related s) {memId dbId : Int32} (hsame : s.SameRide memId dbId) :
    s.mem.points memId = s.db.tables.track dbId.toInt := by
  by_cases hsome : ∃ r ∈ s.mem.rides, r.id = memId
  · obtain ⟨r, hr, hid⟩ := hsome
    have hnumber : r.rideNo ∈ Keyed.named (·.rideNo) (·.id) dbId.toInt s.db.tables.ride := by
      rw [← hsame]
      exact Keyed.mem_named.mpr ⟨r, hr, hid, rfl⟩
    obtain ⟨row, hrow, hrowId, hno⟩ := Keyed.mem_named.mp hnumber
    rw [← hid, ← hrowId]
    exact h.tracks r hr row hrow hno.symm
  · have hmem : s.mem.points memId = [] := by
      refine h.trackless memId fun hin => hsome ?_
      obtain ⟨r, hr, hid⟩ := List.mem_map.mp hin
      exact ⟨r, hr, hid⟩
    have hdb : s.db.tables.ridePosition.filter (·.rideId = dbId.toInt) = [] := by
      refine List.filter_eq_nil_iff.mpr fun p hp hid => hsome ?_
      obtain ⟨row, hrow, hrowId⟩ := List.mem_map.mp (s.db.tables.position_ride p hp)
      have hnumber : row.rideNo ∈ Keyed.named (·.rideNo) (·.id) memId s.mem.rides := by
        rw [hsame]
        exact Keyed.mem_named.mpr ⟨row, hrow, hrowId.trans (of_decide_eq_true hid), rfl⟩
      obtain ⟨r, hr, hrid, -⟩ := Keyed.mem_named.mp hnumber
      exact ⟨r, hr, hrid⟩
    rw [hmem, Tables.track, hdb, List.map_nil]

/-- The database sorts the points by their numbers. -/
theorem exec_listPoints (dbId : Int32) :
    (Production.exec errorless (.listPoints dbId) s.db).1 =
      (s.db.tables.track dbId.toInt).insertionSort fun p q => p.seq ≤ q.seq := by
  rw [Production.exec_listPoints, show errorless.fails .pointsSelect = false from rfl,
    if_neg Bool.false_ne_true, Tables.pointsOf, Tables.track]
  exact List.map_insertionSort _ _ _ _ fun _ _ _ _ => Iff.rfl

theorem Related.listPoints (h : Related s) {memId dbId : Int32}
    (hadm : s.Admitted (.listPoints memId dbId)) :
    s.Agrees (.listPoints memId dbId) ↔ s.Plain (.listPoints memId dbId) := by
  have htotal : Std.Total fun p q : RidePoint => p.seq ≤ q.seq :=
    ⟨fun p q => Int32.le_total p.seq q.seq⟩
  have htrans : IsTrans RidePoint fun p q => p.seq ≤ q.seq := ⟨fun _ _ _ => Int32.le_trans⟩
  rw [Agrees, exec_listPoints, ← h.track_eq hadm]
  show s.mem.points memId = (s.mem.points memId).insertionSort _ ↔ List.Pairwise _ _
  constructor
  · intro hsorted
    rw [hsorted]
    exact List.pairwise_insertionSort _ _
  · intro hpairwise
    exact hpairwise.insertionSort_eq.symm

/-! ## A user's rides -/

/-- The walk takes the user's rides up to the limit. -/
theorem listByUser_eq {uid limit : Int32} (hlimit : 0 < limit) (l out : List Ride)
    (hout : out.length < limit.toInt.toNat) :
    InMemory.listByUser uid limit l out =
      out ++ (l.filter (·.userId = uid)).take (limit.toInt.toNat - out.length) := by
  have hfull : ∀ n ≤ limit.toInt.toNat, (Int32.ofNat n ≥ limit ↔ limit.toInt.toNat ≤ n) := by
    intro n hn
    have hmax := limit.toInt_lt
    have hpos : 0 < limit.toInt := Int32.lt_iff_toInt_lt.mp hlimit
    rw [ge_iff_le, Int32.le_iff_toInt_le, Int32.toInt_ofNat_of_lt (by omega)]
    omega
  induction l generalizing out with
  | nil => rw [InMemory.listByUser, List.filter_nil, List.take_nil, List.append_nil]
  | cons r rest ih =>
    rw [InMemory.listByUser]
    by_cases huser : r.userId = uid
    · simp only [List.filter_cons, huser, decide_true, if_true]
      obtain ⟨k, hk⟩ : ∃ k, limit.toInt.toNat - out.length = k + 1 :=
        ⟨limit.toInt.toNat - out.length - 1, by omega⟩
      have hlen : (out ++ [r]).length = out.length + 1 := by simp
      have htest := hfull (out.length + 1) hout
      rw [hk, List.take_succ_cons, hlen]
      by_cases hge : Int32.ofNat (out.length + 1) ≥ limit
      · have hzero : k = 0 := by
          have := htest.mp hge
          omega
        rw [if_pos hge, hzero, List.take_zero]
      · have hless : out.length + 1 < limit.toInt.toNat := by
          by_contra hle
          exact hge (htest.mpr (Nat.not_lt.mp hle))
        have hrest : limit.toInt.toNat - (out.length + 1) = k := by omega
        rw [if_neg hge, ih (out ++ [r]) (hlen ▸ hless), hlen, hrest, List.append_assoc]
        rfl
    · simp only [List.filter_cons, huser, decide_false, Bool.false_eq_true, if_false]
      rw [if_neg (fun hge => ?_), ih out hout]
      have := (hfull out.length hout.le).mp hge
      omega

/-- A limit that is not positive is met by the first ride, whosever it is. -/
theorem listByUser_of_le {uid limit : Int32} (hlimit : limit ≤ 0) (l : List Ride) :
    InMemory.listByUser uid limit l [] = l.head?.toList.filter (·.userId = uid) := by
  cases l with
  | nil => rfl
  | cons r rest =>
    rw [InMemory.listByUser, List.head?_cons, Option.toList_some]
    by_cases huser : r.userId = uid
    · have hge : Int32.ofNat 1 ≥ limit := Int32.le_trans hlimit (by decide)
      simp only [List.filter_cons, huser, decide_true, if_true, List.filter_nil]
      exact if_pos hge
    · have hge : Int32.ofNat 0 ≥ limit := hlimit
      simp only [List.filter_cons, huser, decide_false, Bool.false_eq_true, if_false,
        List.filter_nil]
      exact if_pos hge

/-- Memory lists the user's rides from the first. -/
theorem listByUser_eq_take (uid limit : Int32) :
    InMemory.listByUser uid limit s.mem.rides [] =
      (s.ridesOf uid).take (s.listed uid limit) := by
  unfold listed
  split
  next hlimit =>
    rw [listByUser_of_le hlimit, ridesOf]
    cases s.mem.rides with
    | nil => rfl
    | cons r rest =>
      by_cases huser : r.userId = uid
      · simp [huser]
      · simp [huser]
  next hlimit =>
    have hpos : 0 < limit := Int32.not_le.mp hlimit
    have hint : 0 < limit.toInt := Int32.lt_iff_toInt_lt.mp hpos
    rw [listByUser_eq hpos _ [] (show 0 < limit.toInt.toNat by omega)]
    rfl

/-- The user's part of the log. -/
theorem Related.log_of_user (h : Related s) (uid : Int32) :
    (s.ridesOf uid).map Ride.withoutId =
      (s.db.tables.ride.filter (·.userId = uid)).map (RideRow.seen P) := by
  have hmem : (s.ridesOf uid).map Ride.withoutId =
      (s.mem.rides.map Ride.withoutId).filter (·.userId = uid) := by
    rw [ridesOf, List.filter_map]
    rfl
  have hdb : (s.db.tables.ride.filter (·.userId = uid)).map (RideRow.seen P) =
      (s.db.tables.ride.map (RideRow.seen P)).filter (·.userId = uid) := by
    rw [List.filter_map]
    rfl
  rw [hmem, hdb, h.log]

/-- No ride of the log is there twice. -/
theorem Related.nodup_of_user (h : Related s) (uid : Int32) :
    ((s.ridesOf uid).map Ride.withoutId).Nodup := by
  have hrows : (s.db.tables.ride.map (RideRow.seen P)).Nodup := by
    refine List.Nodup.of_map (fun r : Ride => P.collation r.rideNo) ?_
    rw [List.map_map]
    exact s.db.tables.ride_no
  rw [h.log_of_user]
  exact hrows.sublist (List.filter_sublist.map _)

/-- The database lists the newest rides first. -/
theorem Related.exec_listByUser (h : Related s) (uid limit : Int32) :
    (Production.exec errorless (.listByUser uid limit) s.db).1.map Ride.withoutId =
      (latest (·.startTs) ((s.ridesOf uid).map Ride.withoutId)).take
        ((limitLeft uid limit).most (s.ridesOf uid).length) := by
  have hlatest : (s.db.tables.ridesOf uid).map (RideRow.seen P) =
      latest (·.startTs) ((s.ridesOf uid).map Ride.withoutId) := by
    rw [h.log_of_user, latest, ← List.map_reverse]
    exact List.map_insertionSort _ _ _ _ fun _ _ _ _ => Iff.rfl
  have hcount : (s.db.tables.ridesOf uid).length = (s.ridesOf uid).length := by
    have hlen := congrArg List.length (h.log_of_user uid)
    rw [List.length_map, List.length_map] at hlen
    rw [Tables.ridesOf, List.length_insertionSort, List.length_reverse, hlen]
  rw [Production.exec_listByUser, show errorless.fails .ridesSelect = false from rfl,
    if_neg Bool.false_ne_true, ← hlatest, ← List.map_take, hcount, List.map_map]
  rfl

theorem Related.listByUser (h : Related s) (uid limit : Int32) :
    s.Agrees (.listByUser uid limit) ↔ s.Plain (.listByUser uid limit) := by
  rw [Agrees, h.exec_listByUser]
  show (InMemory.listByUser uid limit s.mem.rides []).map Ride.withoutId = _ ↔ _
  rw [listByUser_eq_take, List.map_take, take_eq_take_latest_iff (h.nodup_of_user uid),
    List.length_map, Nat.min_eq_left (LimitClause.most_le _ _), descends_map]
  exact Iff.rfl

/-! ## Archiving -/

/-- The points of a ride that is there are all taken, in their order. -/
theorem insertPositions_eq {rideId : Int} {points : List RidePoint}
    (hexact : ∀ p ∈ points, P.Exact p.lat ∧ P.Exact p.lng) (i : Nat) {tables : Tables P}
    (hride : rideId ∈ tables.ride.map (·.id)) :
    ∃ tables' rows, Tables.insertPositions errorless rideId i points tables = some tables' ∧
      tables'.ride = tables.ride ∧ tables'.ridePosition = tables.ridePosition ++ rows ∧
      (∀ row ∈ rows, row.rideId = rideId) ∧ rows.map (Mysql.rowToPoint P) = points := by
  induction points generalizing i tables with
  | nil =>
    exact ⟨tables, [], rfl, rfl, (List.append_nil _).symm,
      fun _ hmem => absurd hmem List.not_mem_nil, rfl⟩
  | cons p rest ih =>
    obtain ⟨hlat, hlng⟩ := hexact p List.mem_cons_self
    obtain ⟨n, hn, -, hnback⟩ := hlat.digits
    obtain ⟨m, hm, -, hmback⟩ := hlng.digits
    have hrow : p.row rideId = some ⟨rideId, p.seq, n, m, p.elapsedSec⟩ := by
      simp only [RidePoint.row, hn, hm, Option.bind_eq_bind, Option.bind_some, Option.pure_def]
    obtain ⟨tables₁, hinsert, hride₁, hpos₁⟩ : ∃ tables₁,
        tables.insertPosition rideId p = some tables₁ ∧ tables₁.ride = tables.ride ∧
          tables₁.ridePosition =
            tables.ridePosition ++ [⟨rideId, p.seq, n, m, p.elapsedSec⟩] := by
      simp only [Tables.insertPosition, hrow, Option.bind_eq_bind, Option.bind_some, dif_pos hride]
      exact ⟨_, rfl, rfl, rfl⟩
    obtain ⟨tables', rows, hrest, hride', hpos', hids, hback⟩ :=
      ih (fun q hq => hexact q (List.mem_cons_of_mem p hq)) (i + 1) (hride₁ ▸ hride)
    refine ⟨tables', ⟨rideId, p.seq, n, m, p.elapsedSec⟩ :: rows, ?_, hride'.trans hride₁,
      ?_, ?_, ?_⟩
    · simp only [Tables.insertPositions, show errorless.fails (.ridePoint i) = false from rfl,
        Bool.false_eq_true, if_false, hinsert, Option.bind_some, hrest]
    · rw [hpos', hpos₁, List.append_assoc]
      rfl
    · intro row hmem
      rcases List.mem_cons.mp hmem with rfl | hmem
      · rfl
      · exact hids row hmem
    · simp only [List.map_cons, Mysql.rowToPoint, hnback, hmback]
      exact congrArg (p :: ·) hback

/-- The row of a ride that fits, and how it is read. -/
theorem Fitting.row {inp : CreateRideInput} (h : s.Fitting inp) (id : Int) (memId : Int32) :
    ∃ row, inp.row id = some row ∧ row.id = id ∧
      row.seen P = (inp.toRide memId).withoutId := by
  obtain ⟨n₁, hn₁, -, hb₁⟩ := h.startPlace.1.digits
  obtain ⟨n₂, hn₂, -, hb₂⟩ := h.startPlace.2.digits
  obtain ⟨n₃, hn₃, -, hb₃⟩ := h.endPlace.1.digits
  obtain ⟨n₄, hn₄, -, hb₄⟩ := h.endPlace.2.digits
  refine ⟨⟨id, inp.rideNo, inp.userId, inp.bikeId, inp.startTs, inp.endTs, n₁, n₂, n₃, n₄,
    inp.durationSec, inp.distanceM, inp.amountCent, 0⟩, ?_, rfl, ?_⟩
  · simp only [CreateRideInput.row, timestamp, if_pos h.start, if_pos h.finish, hn₁, hn₂, hn₃, hn₄,
      Option.bind_eq_bind, Option.bind_some, Option.pure_def]
  · simp only [RideRow.seen, Mysql.rowToRide, Ride.withoutId, CreateRideInput.toRide, hb₁, hb₂, hb₃,
      hb₄]

theorem Related.numbers_eq (h : Related s) :
    s.mem.rides.map (·.rideNo) = s.db.tables.ride.map (·.rideNo) := by
  have hlog := congrArg (List.map Ride.rideNo) h.log
  rw [List.map_map, List.map_map] at hlog
  exact hlog

/-- To the collation both sides have the same numbers. -/
theorem Related.collations_eq (h : Related s) :
    (s.mem.rides.map fun r => P.collation r.rideNo) =
      s.db.tables.ride.map fun r => P.collation r.rideNo := by
  have hnumbers := congrArg (List.map P.collation) h.numbers_eq
  rwa [List.map_map, List.map_map] at hnumbers

/-- A number that is new to the collation is new. -/
theorem new_of_plain {inp : CreateRideInput} (h : s.Plain (.createWithPoints inp)) :
    inp.rideNo ∉ s.mem.rides.map (·.rideNo) := by
  intro hin
  obtain ⟨r, hr, hno⟩ := List.mem_map.mp hin
  exact h (List.mem_map.mpr ⟨r, hr, congrArg P.collation hno⟩)

/-- A ride that fits is refused only for its number. -/
theorem Fitting.insertRide {inp : CreateRideInput} (h : s.Fitting inp) {id : Int} {row : RideRow}
    (hrow : inp.row id = some row) :
    if P.collation inp.rideNo ∈ s.db.tables.ride.map fun r => P.collation r.rideNo then
      s.db.tables.insertRide id inp = none
    else ∃ tables, s.db.tables.insertRide id inp = some tables ∧
      tables.ride = s.db.tables.ride ++ [row] ∧
      tables.ridePosition = s.db.tables.ridePosition := by
  obtain ⟨-, hno, huser, hbike⟩ := CreateRideInput.row_keys hrow
  simp only [Tables.insertRide, hrow, Option.bind_eq_bind, Option.bind_some, hno, huser, hbike]
  split
  next htaken => rw [dif_neg fun hall => hall.2.2.2 htaken]
  next hnew =>
    rw [dif_pos ⟨h.rideNo, h.user, h.bike, hnew⟩]
    exact ⟨_, rfl, rfl, rfl⟩

theorem Fitting.archiveRide {inp : CreateRideInput} (h : s.Fitting inp) {id : Int} {row : RideRow}
    (hrow : inp.row id = some row) :
    if P.collation inp.rideNo ∈ s.db.tables.ride.map fun r => P.collation r.rideNo then
      s.db.tables.archiveRide errorless id inp = none
    else ∃ tables rows, s.db.tables.archiveRide errorless id inp = some tables ∧
      tables.ride = s.db.tables.ride ++ [row] ∧
      tables.ridePosition = s.db.tables.ridePosition ++ rows ∧
      (∀ p ∈ rows, p.rideId = id) ∧ rows.map (Mysql.rowToPoint P) = inp.points := by
  have hcalm : ¬ (errorless.fails .rideBegin = true ∨ errorless.fails .rideInsert = true ∨
      errorless.fails .rideCommit = true) := by decide
  have hinsert := h.insertRide hrow
  rw [Tables.archiveRide, if_neg hcalm]
  split
  next htaken =>
    rw [if_pos htaken] at hinsert
    rw [hinsert, Option.bind_none]
  next hnew =>
    rw [if_neg hnew] at hinsert
    obtain ⟨tables₁, htables₁, hride₁, hpos₁⟩ := hinsert
    have hthere : id ∈ tables₁.ride.map (·.id) := by
      rw [hride₁]
      exact List.mem_map.mpr ⟨row, by simp, (CreateRideInput.row_keys hrow).1⟩
    obtain ⟨tables, rows, hpos, hride, hrows, hids, hback⟩ := insertPositions_eq h.points 0 hthere
    refine ⟨tables, rows, ?_, hride.trans hride₁, ?_, hids, hback⟩
    · rw [htables₁, Option.bind_some, hpos]
    · rw [hrows, hpos₁]

/-- One ride more on both sides, under ids that were free. -/
structure Archives (s : RideRepos P) (inp : CreateRideInput) (t : RideRepos P) (row : RideRow)
    (rows : List PositionRow) : Prop where
  mem : t.mem = (s.mem.createWithPoints inp).2
  ride : t.db.tables.ride = s.db.tables.ride ++ [row]
  positions : t.db.tables.ridePosition = s.db.tables.ridePosition ++ rows
  seen : row.seen P = (inp.toRide s.mem.nextRideId).withoutId
  own : ∀ p ∈ rows, p.rideId = row.id
  points : rows.map (Mysql.rowToPoint P) = inp.points
  memId : s.mem.nextRideId ∉ s.mem.rides.map (·.id)
  dbId : row.id ∉ s.db.tables.ride.map (·.id)

section Archives

variable {inp : CreateRideInput} {row : RideRow} {rows : List PositionRow}

section

variable (ha : s.Archives inp t row rows)

include ha

theorem Archives.rides :
    t.mem.rides = s.mem.rides ++ [inp.toRide s.mem.nextRideId] := by
  rw [ha.mem]
  rfl

theorem Archives.rideNo : row.rideNo = inp.rideNo :=
  congrArg Ride.rideNo ha.seen

/-- The points of the new ride are its own. -/
theorem Archives.track (k : Int) :
    t.db.tables.track k = if k = row.id then inp.points else s.db.tables.track k := by
  rw [Tables.track, ha.positions, List.filter_append, List.map_append]
  by_cases hk : k = row.id
  · have hold : s.db.tables.ridePosition.filter (·.rideId = k) = [] := by
      refine List.filter_eq_nil_iff.mpr fun p hp hp' => ha.dbId ?_
      rw [← hk, ← of_decide_eq_true hp']
      exact s.db.tables.position_ride p hp
    have hnew : rows.filter (·.rideId = k) = rows := by
      refine List.filter_eq_self.mpr fun p hp => ?_
      exact decide_eq_true ((ha.own p hp).trans hk.symm)
    rw [if_pos hk, hold, hnew, List.map_nil, List.nil_append, ha.points]
  · have hnew : rows.filter (·.rideId = k) = [] := by
      refine List.filter_eq_nil_iff.mpr fun p hp hp' => hk ?_
      exact (of_decide_eq_true hp').symm.trans (ha.own p hp)
    rw [if_neg hk, hnew, List.map_nil, List.append_nil, Tables.track]

theorem Archives.tracks (h : Related s)
    (hnew : inp.rideNo ∉ s.mem.rides.map (·.rideNo)) :
    ∀ r ∈ t.mem.rides, ∀ row' ∈ t.db.tables.ride, r.rideNo = row'.rideNo →
      t.mem.points r.id = t.db.tables.track row'.id := by
  intro r hr row' hrow' hno
  rw [ha.rides] at hr
  rw [ha.ride] at hrow'
  rw [ha.track, ha.mem]
  show update s.mem.points s.mem.nextRideId inp.points r.id = _
  rcases List.mem_append.mp hr with hr | hr <;> rcases List.mem_append.mp hrow' with hrow' | hrow'
  · have hmemId : r.id ≠ s.mem.nextRideId := by
      intro heq
      exact ha.memId (heq ▸ List.mem_map_of_mem hr)
    have hdbId : row'.id ≠ row.id := by
      intro heq
      exact ha.dbId (heq ▸ List.mem_map_of_mem hrow')
    rw [update_of_ne hmemId, if_neg hdbId]
    exact h.tracks r hr row' hrow' hno
  -- an old ride and the new one have different numbers
  · rw [List.mem_singleton.mp hrow', ha.rideNo] at hno
    exact absurd (List.mem_map.mpr ⟨r, hr, hno⟩) hnew
  · rw [List.mem_singleton.mp hr] at hno
    rw [h.numbers_eq] at hnew
    exact absurd (List.mem_map.mpr ⟨row', hrow', hno.symm⟩) hnew
  · rw [List.mem_singleton.mp hr, List.mem_singleton.mp hrow', if_pos rfl]
    exact update_self ..

theorem Archives.index (h : Related s)
    (hnew : inp.rideNo ∉ s.mem.rides.map (·.rideNo)) (rideNo : String) :
    t.mem.rideByNo rideNo = (t.mem.rides.find? (·.rideNo = rideNo)).map (·.id) := by
  rw [ha.rides, List.find?_append, ha.mem]
  show update s.mem.rideByNo inp.rideNo (some s.mem.nextRideId) rideNo = _
  by_cases hno : rideNo = inp.rideNo
  · subst hno
    have hold : s.mem.rides.find? (·.rideNo = inp.rideNo) = none := by
      refine List.find?_eq_none.mpr fun r hr hr' => hnew ?_
      exact List.mem_map.mpr ⟨r, hr, of_decide_eq_true hr'⟩
    have hone : [inp.toRide s.mem.nextRideId].find? (·.rideNo = inp.rideNo) =
        some (inp.toRide s.mem.nextRideId) := List.find?_cons_of_pos (decide_eq_true rfl)
    rw [update_self, hold, Option.none_or, hone]
    rfl
  · have hone : [inp.toRide s.mem.nextRideId].find? (·.rideNo = rideNo) = none := by
      refine List.find?_eq_none.mpr fun r hr hr' => hno ?_
      rw [← of_decide_eq_true hr', List.mem_singleton.mp hr]
      rfl
    rw [update_of_ne hno, h.index, hone, Option.or_none]

theorem Archives.trackless (h : Related s) :
    ∀ id ∉ t.mem.rides.map (·.id), t.mem.points id = [] := by
  intro id hid
  rw [ha.rides, List.map_append, List.mem_append, not_or] at hid
  have hne : id ≠ s.mem.nextRideId := by
    intro heq
    exact hid.2 (List.mem_singleton.mpr heq)
  rw [ha.mem]
  exact (update_of_ne hne ..).trans (h.trackless id hid.1)

/-- A ride that both sides archive under a new number. -/
theorem Archives.related (h : Related s)
    (hnew : inp.rideNo ∉ s.mem.rides.map (·.rideNo)) : Related t where
  log := by
    rw [ha.rides, ha.ride, List.map_append, List.map_append, ← h.log, List.map_singleton,
      List.map_singleton, ha.seen]
  tracks := ha.tracks h hnew
  ids := by
    rw [ha.rides]
    exact unique_concat h.ids ha.memId
  index := ha.index h hnew
  trackless := ha.trackless h

end

end Archives

/-- A ride is archived alike when its number is new. -/
theorem Related.create (h : Related s) {inp : CreateRideInput}
    (hadm : s.Admitted (.createWithPoints inp)) :
    (s.Agrees (.createWithPoints inp) ↔ s.Plain (.createWithPoints inp)) ∧
      (s.Plain (.createWithPoints inp) →
        ∀ t, s.next (.createWithPoints inp) = some t → Related t) := by
  obtain ⟨hfits, hmemId, hdbId⟩ := hadm
  obtain ⟨row, hrow, hrowId, hseen⟩ := hfits.row s.db.ids.ride s.mem.nextRideId
  obtain ⟨ids, -, hsql⟩ := Production.sql_createWithPoints errorless inp s.db
  have harchive := hfits.archiveRide hrow
  have hplain : s.Plain (.createWithPoints inp) ↔ P.collation inp.rideNo ∉
      s.db.tables.ride.map fun r => P.collation r.rideNo := by rw [← h.collations_eq]; rfl
  have hagrees : s.Agrees (.createWithPoints inp) ↔ (inp.toRide s.mem.nextRideId).withoutId =
      (s.db.sql errorless (Mysql.createWithPoints inp)).1.withoutId := Iff.rfl
  split at harchive
  next htaken =>
    have hnot : ¬ s.Plain (.createWithPoints inp) := fun hnew => hplain.mp hnew htaken
    refine ⟨iff_of_false ?_ hnot, fun hnew => absurd hnew hnot⟩
    rw [hagrees, hsql, harchive]
    intro heq
    -- No ride starts at the epoch, and the empty one does.
    have hstart : inp.startTs = 0 := congrArg Ride.startTs heq
    have hpos := hfits.start.1
    omega
  next hnew =>
    obtain ⟨tables, rows, htables, hride, hpos, hids, hback⟩ := harchive
    refine ⟨iff_of_true ?_ (hplain.mpr hnew), fun hplain t ht => ?_⟩
    · rw [hagrees, hsql, htables]
      rfl
    · cases ht
      have hdb : (Production.exec errorless (.createWithPoints inp) s.db).2.tables = tables := by
        show (s.db.sql errorless (Mysql.createWithPoints inp)).2.tables = tables
        rw [hsql, htables]
      have ha : s.Archives inp ⟨(s.mem.createWithPoints inp).2,
          (Production.exec errorless (.createWithPoints inp) s.db).2⟩ row rows :=
        { mem := rfl
          ride := (congrArg (·.ride) hdb).trans hride
          positions := (congrArg (·.ridePosition) hdb).trans hpos
          seen := hseen
          own := hrowId ▸ hids
          points := hback
          memId := hmemId
          dbId := hrowId ▸ hdbId }
      exact ha.related h (new_of_plain hplain)

/-! ## Runs -/

theorem Related.step (h : Related s) {c : ArchiveCall} (hc : s.Orderly c)
    (hs : s.next c = some t) : Related t := by
  cases c with
  | createWithPoints inp => exact (h.create hc.1).2 (hc.2 inp rfl) t hs
  | findByNo rideNo =>
    cases hs
    simp only [ArchiveCall.onMem, ArchiveCall.onDb, Production.exec_findByNo]
    exact h
  | listPoints memId dbId =>
    cases hs
    simp only [ArchiveCall.onMem, ArchiveCall.onDb, Production.exec_listPoints]
    exact h
  | listByUser uid limit =>
    cases hs
    simp only [ArchiveCall.onMem, ArchiveCall.onDb, Production.exec_listByUser]
    exact h

theorem related_of_reachable (h : (machine P).ReachableWhile Orderly s) : Related s :=
  Machine.invariant (I := Related) (fun _ hs => hs) (fun _ _ _ hs hc ht => hs.step hc ht) h

/-- **Where the repositories agree.** After any calls that archive no number twice, the
next call is answered alike exactly when it archives a number that is new to the
collation, looks for one whose query fits and that is taken for no other, or whose query
does not fit and that is not there, lists points that came in the order of their numbers,
or lists rides of which each was archived before all older ones, under a limit that both
sides take alike. -/
theorem ride_repos_agree_iff (h : (machine P).ReachableWhile Orderly s) {c : ArchiveCall}
    (hadm : s.Admitted c) : s.Agrees c ↔ s.Plain c := by
  have hrel := related_of_reachable h
  cases c with
  | createWithPoints inp => exact (hrel.create hadm).1
  | findByNo rideNo => exact hrel.findByNo rideNo
  | listPoints memId dbId => exact hrel.listPoints hadm
  | listByUser uid limit => exact hrel.listByUser uid limit

/-- No ride yet, on either side. -/
def small : RideRepos .standstill where
  mem := InMemory.small 1000
  db := Production.small 1000 .idle

theorem small_related : Related small where
  log := rfl
  tracks := fun _ hr => absurd hr List.not_mem_nil
  ids := List.nodup_nil
  index := fun _ => rfl
  trackless := fun _ _ => rfl

/-- A ride of a minute, with points under the given numbers. -/
def smallRide (rideNo : String) (startTs : Int) (seqs : List Int32) : CreateRideInput where
  rideNo := rideNo
  userId := 1
  bikeId := 1
  startTs := startTs
  endTs := startTs + 60
  startLat := .fin 0
  startLng := .fin 0
  endLat := .fin 0
  endLng := .fin 0
  durationSec := 60
  distanceM := 0
  amountCent := 100
  points := seqs.map fun seq => ⟨seq, .fin 0, .fin 0, 0⟩

instance (s : RideRepos P) (inp : CreateRideInput) : Decidable (s.Fitting inp) :=
  decidable_of_iff _ (fitting_iff s inp).symm

/-- The condition of a run, computed for a ride that is archived. -/
def archives (s : RideRepos P) : ArchiveCall → Bool
  | .createWithPoints inp =>
    decide ((s.Fitting inp ∧ s.mem.nextRideId ∉ s.mem.rides.map (·.id) ∧
        s.db.ids.ride ∉ s.db.tables.ride.map (·.id)) ∧
      P.collation inp.rideNo ∉ s.mem.rides.map fun r => P.collation r.rideNo)
  | _ => false

theorem archives_sound (s : RideRepos P) (c : ArchiveCall) (h : s.archives c = true) :
    s.Orderly c := by
  cases c with
  | createWithPoints inp =>
    obtain ⟨hadm, hplain⟩ := of_decide_eq_true h
    exact ⟨hadm, fun _ _ => hplain⟩
  | _ => cases h

/-- Two rides that are archived newest first are listed alike. -/
theorem ride_repos_agree_small :
    ∃ s, (machine .standstill).ReachableWhile Orderly s ∧
      (s.ridesOf 1).map (·.startTs) = [200, 100] ∧ s.Agrees (.listByUser 1 20) := by
  obtain ⟨s, hreach, hstarts⟩ : ∃ s, (machine .standstill).ReachableWhile Orderly s ∧
      (s.ridesOf 1).map (·.startTs) = [200, 100] :=
    Machine.exists_of_playWhile archives_sound small small_related
      [.createWithPoints (smallRide "R2" 200 [1, 2]),
        .createWithPoints (smallRide "R1" 100 [])] (by decide +kernel)
  have hadm : s.Admitted (.listByUser 1 20) := trivial
  refine ⟨s, hreach, hstarts, (ride_repos_agree_iff hreach hadm).mpr ?_⟩
  have hcount : (s.ridesOf 1).length = 2 := by
    rw [← List.length_map (·.startTs), hstarts]
    rfl
  constructor
  · rw [hcount, listed, if_neg (by decide)]
    decide +kernel
  · show Descends (fun r : Ride => id r.startTs) 20 (s.ridesOf 1)
    rw [← descends_map, hstarts]
    simp [Descends]

/-- Two rides archived in the order of their starts, the second with its last
point first: the lists of the rides and of its points come in other orders, and
its number is archived once more in memory only. -/
theorem ride_repos_differ :
    ∃ s, (machine .standstill).ReachableWhile Orderly s ∧
      ((InMemory.exec errorless (.listByUser 1 20) s.mem).1.map (·.rideNo) = ["R1", "R2"] ∧
        (Production.exec errorless (.listByUser 1 20) s.db).1.map (·.rideNo) = ["R2", "R1"]) ∧
      ((InMemory.exec errorless (.listPoints 2) s.mem).1.map (·.seq) = [2, 1] ∧
        (Production.exec errorless (.listPoints 2) s.db).1.map (·.seq) = [1, 2]) ∧
      (InMemory.exec errorless (.createWithPoints (smallRide "R2" 300 [])) s.mem).1.rideNo = "R2" ∧
        (Production.exec errorless (.createWithPoints (smallRide "R2" 300 [])) s.db).1 =
          .empty :=
  Machine.exists_of_playWhile archives_sound small small_related
    [.createWithPoints (smallRide "R1" 100 []), .createWithPoints (smallRide "R2" 200 [2, 1])]
    (by decide +kernel)

end RideRepos

end SharedBike.Server
