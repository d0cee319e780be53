import SharedBike.Server.Bikes
import SharedBike.Server.AccountRefinement
import SharedBike.Lib.Keyed
import SharedBike.Lib.Machine
import Mathlib.Data.Rat.Floor

/-!
# Where the two bike repositories agree

What a bike repository is for is to keep a fleet: the bikes by their numbers,
each with its place and status. The ids are names that each repository gives
by itself, so the fleet does not show them, and a call by id names, on each
side, that side's id of the same bike. `BikeRepos` runs both repositories side
by side.

Under what the comparison takes for granted (`Admitted`: no error of the
database, texts that fit, coordinates that the column gives back, distinct ids)
both sides keep the same fleet, whatever calls are made (`Related`), as long as
no bike is inserted whose number the column's collation takes for another one.
The answers are another matter. Such a number is found on the database only;
`list_in_bounds` of the database leaves out the bikes that are rented, and its
updates answer whether the row has changed. `bike_repos_agree_iff` says exactly
which calls are answered alike, and `bike_repos_differ` shows the last two
differences on one bike.
-/

namespace SharedBike.Server

open SharedBike.Common SharedBike.Lib

/-! ## Coordinates -/

theorem roundHalfEven_mono {q r : ℚ} (h : q ≤ r) :
    Double.roundHalfEven q ≤ Double.roundHalfEven r := by
  have hfloor : q.floor ≤ r.floor := Rat.floor_monotone h
  rcases lt_or_eq_of_le hfloor with hlt | heq
  · have hq := (Double.roundHalfEven_bounds q).2
    have hr := (Double.roundHalfEven_bounds r).1
    omega
  · unfold Double.roundHalfEven
    dsimp only
    rw [heq]
    have hrest : q - (r.floor : ℚ) ≤ r - r.floor := sub_le_sub_right h _
    -- with one floor, a smaller rest is rounded no higher
    split_ifs <;> first | omega | (exfalso; linarith)

/-- The column gives the coordinate back. -/
def Platform.AtSeven (P : Platform) (x : Double) : Prop := x.dec7.map P.atof7 = some x

/-- The column takes the coordinate, and gives it back. -/
def Platform.Exact (P : Platform) (x : Double) : Prop := (decimal x).map P.atof7 = some x

instance (P : Platform) (x : Double) : Decidable (P.AtSeven x) :=
  inferInstanceAs (Decidable (_ = _))

instance (P : Platform) (x : Double) : Decidable (P.Exact x) :=
  inferInstanceAs (Decidable (_ = _))

variable {P : Platform} {bikeNo : String} {memId dbId : Int32}
  {latMin latMax lngMin lngMax : Double} {b : Bike}

/-- Such coordinates are ordered as their digits are. -/
theorem le_iff_dec7_le {x y : Double} {n m : Int} (hx : x.dec7 = some n) (hy : y.dec7 = some m)
    (hxn : P.atof7 n = x) (hym : P.atof7 m = y) : x.le y = true ↔ n ≤ m := by
  match x, y, hx, hy with
  | .fin q, .fin r, hx, hy =>
    simp only [Double.dec7, Option.some.injEq] at hx hy
    rw [Double.le, decide_eq_true_eq]
    constructor
    · intro hle
      rw [← hx, ← hy]
      exact roundHalfEven_mono (mul_le_mul_of_nonneg_right hle (by norm_num))
    · intro hle
      by_contra hgt
      have hback : m ≤ n := by
        rw [← hx, ← hy]
        exact roundHalfEven_mono (mul_le_mul_of_nonneg_right (not_le.mp hgt).le (by norm_num))
      have heq : Double.fin q = .fin r := by rw [← hxn, ← hym, le_antisymm hle hback]
      cases heq
      exact hgt le_rfl

theorem dec7_eq_iff {x y : Double} {n m : Int} (hx : x.dec7 = some n) (hy : y.dec7 = some m)
    (hxn : P.atof7 n = x) (hym : P.atof7 m = y) : n = m ↔ x = y := by
  constructor
  · intro heq
    rw [← hxn, ← hym, heq]
  · intro heq
    rw [heq, hy, Option.some.injEq] at hx
    exact hx.symm

theorem Platform.AtSeven.digits {x : Double} (h : P.AtSeven x) :
    ∃ n, x.dec7 = some n ∧ P.atof7 n = x :=
  Option.map_eq_some_iff.mp h

theorem Platform.Exact.digits {x : Double} (h : P.Exact x) :
    ∃ n, decimal x = some n ∧ x.dec7 = some n ∧ P.atof7 n = x := by
  obtain ⟨n, hn, hback⟩ := Option.map_eq_some_iff.mp h
  exact ⟨n, hn, (Option.filter_eq_some_iff.mp hn).1, hback⟩

/-! ## Fleets -/

/-- A bike without the id that a repository gave it. -/
def Bike.withoutId (b : Bike) : Bike := { b with id := 0 }

/-- The place of the bike is in the box. -/
def Bike.InBox (b : Bike) (latMin latMax lngMin lngMax : Double) : Prop :=
  (latMin.le b.lat ∧ b.lat.le latMax) ∧ lngMin.le b.lng ∧ b.lng.le lngMax

instance (b : Bike) (latMin latMax lngMin lngMax : Double) :
    Decidable (b.InBox latMin latMax lngMin lngMax) :=
  inferInstanceAs (Decidable (_ ∧ _))

def InMemory.fleet (m : InMemory) : Set Bike := Keyed.seen Bike.withoutId m.bikes.rows

def Production.fleet (s : Production P) : Set Bike :=
  Keyed.seen (fun row => (Mysql.rowToBike P row).withoutId) s.tables.bike

/-- The bikes of the numbers are changed. -/
def amend (numbers : List String) (f : Bike → Bike) (fleet : Set Bike) : Set Bike :=
  (fun b => if b.bikeNo ∈ numbers then f b else b) '' fleet

theorem BikeMap.bikeNo_nodup (m : BikeMap) : (m.rows.map (·.bikeNo)).Nodup :=
  List.pairwise_map.mpr (m.sorted.imp fun h => ne_of_lt h)

theorem Tables.bikeNo_nodup (t : Tables P) : (t.bike.map (·.bikeNo)).Nodup := by
  refine List.Nodup.of_map P.collation ?_
  rw [List.map_map]
  exact t.bike_no

/-- The numbers of the bikes that have an id. -/
def InMemory.numbers (m : InMemory) (id : Int32) : List String :=
  Keyed.named (·.bikeNo) (·.id) id m.bikes.rows

def Production.numbers (s : Production P) (id : Int32) : List String :=
  Keyed.named (·.bikeNo) (·.id) id s.tables.bike

/-! ## Both repositories -/

/-- The two repositories, side by side. -/
structure BikeRepos (P : Platform) where
  mem : InMemory
  db : Production P

/-- A call on both. An id is one for each side. -/
inductive BikeCall where
  | insert (b : Bike)
  | getForUpdate (bikeNo : String)
  | updateStatus (memId dbId : Int32) (status : BikeStatus)
  | updateLocation (memId dbId : Int32) (lat lng : Double)
  | listInBounds (latMin latMax lngMin lngMax : Double)

namespace BikeCall

def onMem : BikeCall → RepoCall
  | .insert b => .insert b
  | .getForUpdate bikeNo => .getForUpdate bikeNo
  | .updateStatus memId _ status => .updateStatus memId status
  | .updateLocation memId _ lat lng => .updateLocation memId lat lng
  | .listInBounds latMin latMax lngMin lngMax => .listInBounds latMin latMax lngMin lngMax

def onDb : BikeCall → RepoCall
  | .updateStatus _ dbId status => .updateStatus dbId status
  | .updateLocation _ dbId lat lng => .updateLocation dbId lat lng
  | c => c.onMem

end BikeCall

/-- No statement fails. These calls read no clock. -/
def errorless : Env := .calm 0

namespace BikeRepos

def next (s : BikeRepos P) (c : BikeCall) : Option (BikeRepos P) :=
  some ⟨(InMemory.exec errorless c.onMem s.mem).2, (Production.exec errorless c.onDb s.db).2⟩

/-- Both sides have the same fleet, the ids in memory are distinct as those of
the table are, and the digits in the table are those of the coordinates. -/
structure Related (s : BikeRepos P) : Prop where
  fleet : s.mem.fleet = s.db.fleet
  ids : (s.mem.bikes.rows.map (·.id)).Nodup
  digits : ∀ row ∈ s.db.tables.bike,
    (P.atof7 row.lat).dec7 = some row.lat ∧ (P.atof7 row.lng).dec7 = some row.lng

/-- Any number of bikes may be there from the start. -/
def machine (P : Platform) : Machine (BikeRepos P) BikeCall where
  init := Related
  next := next

/-- The column's collation tells the number from every other one that is there. -/
def Told (s : BikeRepos P) (bikeNo : String) : Prop :=
  ∀ row ∈ s.db.tables.bike, P.collation row.bikeNo = P.collation bikeNo → row.bikeNo = bikeNo

/-- The two ids are those of one bike, or of none. -/
def SameBike (s : BikeRepos P) (memId dbId : Int32) : Prop :=
  s.mem.numbers memId = s.db.numbers dbId

/-- What is taken for granted: no error of the database, no text that overruns
its buffer or is cut by it, coordinates at seven decimals, ids that are distinct. -/
def Admitted (s : BikeRepos P) : BikeCall → Prop
  | .insert b => P.Exact b.lat ∧ P.Exact b.lng ∧ b.bikeNo.length ≤ 32 ∧ Room 80 b.bikeNo ∧
    s.mem.nextBikeId ∉ s.mem.bikes.rows.map (·.id) ∧ s.db.ids.bike ∉ s.db.tables.bike.map (·.id)
  | .getForUpdate bikeNo => Room 64 bikeNo
  | .updateStatus memId dbId _ => s.SameBike memId dbId
  | .updateLocation memId dbId lat lng => s.SameBike memId dbId ∧ P.Exact lat ∧ P.Exact lng
  | .listInBounds latMin latMax lngMin lngMax =>
    P.AtSeven latMin ∧ P.AtSeven latMax ∧ P.AtSeven lngMin ∧ P.AtSeven lngMax ∧
      BoxWhole latMin latMax lngMin lngMax

/-- The two answers to a call are the same, ids apart. -/
def Agrees (s : BikeRepos P) : BikeCall → Prop
  | .insert b =>
    (InMemory.exec errorless (.insert b) s.mem).1.map Bike.withoutId =
      (Production.exec errorless (.insert b) s.db).1.map Bike.withoutId
  | .getForUpdate bikeNo =>
    (InMemory.exec errorless (.getForUpdate bikeNo) s.mem).1.map Bike.withoutId =
      (Production.exec errorless (.getForUpdate bikeNo) s.db).1.map Bike.withoutId
  | .updateStatus memId dbId status =>
    (InMemory.exec errorless (.updateStatus memId status) s.mem).1 =
      (Production.exec errorless (.updateStatus dbId status) s.db).1
  | .updateLocation memId dbId lat lng =>
    (InMemory.exec errorless (.updateLocation memId lat lng) s.mem).1 =
      (Production.exec errorless (.updateLocation dbId lat lng) s.db).1
  | .listInBounds latMin latMax lngMin lngMax =>
    Keyed.seen Bike.withoutId
        (InMemory.exec errorless (.listInBounds latMin latMax lngMin lngMax) s.mem).1 =
      Keyed.seen Bike.withoutId
        (Production.exec errorless (.listInBounds latMin latMax lngMin lngMax) s.db).1

/-- The collation tells the number from the others, an update changes the bike it
names, and no rented bike is in the box. -/
def Plain (s : BikeRepos P) : BikeCall → Prop
  | .insert b => s.Told b.bikeNo
  | .getForUpdate bikeNo => s.Told bikeNo
  | .updateStatus memId _ status => ∀ b ∈ s.mem.bikes.rows, b.id = memId → b.status ≠ status
  | .updateLocation memId _ lat lng =>
    ∀ b ∈ s.mem.bikes.rows, b.id = memId → b.lat ≠ lat ∨ b.lng ≠ lng
  | .listInBounds latMin latMax lngMin lngMax =>
    ∀ b ∈ s.mem.bikes.rows, b.InBox latMin latMax lngMin lngMax → b.status ≠ .rented

/-- The condition of a run: no bike is inserted under a number that the collation
takes for another. -/
def Orderly (s : BikeRepos P) (c : BikeCall) : Prop :=
  s.Admitted c ∧ ∀ b, c = .insert b → s.Plain c

/-! ## The same fleet -/

variable {s t : BikeRepos P}

theorem fleet_modify (hids : (s.mem.bikes.rows.map (·.id)).Nodup) (id : Int32) {f : Bike → Bike}
    (hf : ∀ b, (f b).withoutId = f b.withoutId) :
    Keyed.seen Bike.withoutId (BikeMap.modifyFirst id f s.mem.bikes.rows) =
      amend (s.mem.numbers id) f s.mem.fleet := by
  rw [BikeMap.modifyFirst_eq_map hids]
  exact Keyed.seen_update s.mem.bikes.bikeNo_nodup (fun _ => rfl) hf

theorem fleet_updateBike (id : Int32) {f : BikeRow → BikeRow} {g : Bike → Bike}
    (hf : ∀ row, (Mysql.rowToBike P (f row)).withoutId = g (Mysql.rowToBike P row).withoutId) :
    Keyed.seen (fun row => (Mysql.rowToBike P row).withoutId)
        (s.db.tables.bike.map fun row => if row.id = id then f row else row) =
      amend (s.db.numbers id) g s.db.fleet :=
  Keyed.seen_update s.db.tables.bikeNo_nodup (fun _ => rfl) hf

/-- A change that both sides make to the same bike. -/
theorem Related.update (h : Related s) (hsame : s.SameBike memId dbId) {f : Bike → Bike}
    {g : BikeRow → BikeRow} (hf : ∀ b, (f b).withoutId = f b.withoutId)
    (hg : ∀ row, (Mysql.rowToBike P (g row)).withoutId = f (Mysql.rowToBike P row).withoutId)
    (hfid : ∀ b, (f b).id = b.id)
    (hdigits : ∀ row,
      (P.atof7 row.lat).dec7 = some row.lat ∧ (P.atof7 row.lng).dec7 = some row.lng →
      (P.atof7 (g row).lat).dec7 = some (g row).lat ∧ (P.atof7 (g row).lng).dec7 = some (g row).lng)
    (hmem : t.mem.bikes.rows = BikeMap.modifyFirst memId f s.mem.bikes.rows)
    (hdb : t.db.tables.bike =
      s.db.tables.bike.map fun row => if row.id = dbId then g row else row) :
    Related t where
  fleet := by
    rw [InMemory.fleet, Production.fleet, hmem, hdb, fleet_modify h.ids memId hf,
      fleet_updateBike dbId hg, h.fleet, show s.mem.numbers memId = _ from hsame]
  ids := by
    rw [hmem, BikeMap.modifyFirst_eq_map h.ids, List.map_map]
    convert h.ids using 2
    funext b
    by_cases hb : b.id = memId <;> simp [hb, hfid]
  digits := by
    rw [hdb]
    intro row' hrow'
    obtain ⟨row, hrow, rfl⟩ := List.mem_map.mp hrow'
    split
    · exact hdigits row (h.digits row hrow)
    · exact h.digits row hrow

theorem mem_find_iff :
    (s.mem.bikes.find bikeNo).map Bike.withoutId = some b ↔
      b ∈ s.mem.fleet ∧ b.bikeNo = bikeNo := by
  rw [Option.map_eq_some_iff]
  constructor
  · rintro ⟨x, hx, rfl⟩
    obtain ⟨hmem, hno⟩ := (Keyed.find?_eq_some_iff s.mem.bikes.bikeNo_nodup).mp hx
    exact ⟨⟨x, hmem, rfl⟩, hno⟩
  · rintro ⟨⟨x, hmem, rfl⟩, hno⟩
    exact ⟨x, (Keyed.find?_eq_some_iff s.mem.bikes.bikeNo_nodup).mpr ⟨hmem, hno⟩, rfl⟩

theorem bikeNamed_eq_some_iff {row : BikeRow} :
    s.db.tables.bikeNamed bikeNo = some row ↔
      row ∈ s.db.tables.bike ∧ P.collation row.bikeNo = P.collation bikeNo :=
  Keyed.find?_eq_some_iff s.db.tables.bike_no

theorem db_find_iff (htold : s.Told bikeNo) :
    ((s.db.tables.bikeNamed bikeNo).map (Mysql.rowToBike P)).map Bike.withoutId = some b ↔
      b ∈ s.db.fleet ∧ b.bikeNo = bikeNo := by
  rw [Option.map_map, Option.map_eq_some_iff]
  constructor
  · rintro ⟨row, hrow, rfl⟩
    obtain ⟨hmem, hcollation⟩ := bikeNamed_eq_some_iff.mp hrow
    exact ⟨⟨row, hmem, rfl⟩, htold row hmem hcollation⟩
  · rintro ⟨⟨row, hmem, rfl⟩, hno⟩
    exact ⟨row, bikeNamed_eq_some_iff.mpr ⟨hmem, congrArg P.collation hno⟩, rfl⟩

/-- A search by number finds the same bike on both sides when the collation takes the
number for no other. -/
theorem Related.find_eq_iff (h : Related s) :
    (s.mem.bikes.find bikeNo).map Bike.withoutId =
        ((s.db.tables.bikeNamed bikeNo).map (Mysql.rowToBike P)).map Bike.withoutId ↔
      s.Told bikeNo := by
  refine ⟨fun heq row hrow hcollation => ?_, fun htold => Option.ext fun b => ?_⟩
  · -- the database finds the row, and memory the number
    rw [bikeNamed_eq_some_iff.mpr ⟨hrow, hcollation⟩] at heq
    exact (mem_find_iff.mp heq).2
  · rw [mem_find_iff, db_find_iff htold, h.fleet]

theorem Related.find_none_iff (h : Related s) (htold : s.Told bikeNo) :
    s.mem.bikes.find bikeNo = none ↔
      P.collation bikeNo ∉ s.db.tables.bike.map fun b => P.collation b.bikeNo := by
  have heq := h.find_eq_iff.mpr htold
  rw [← Option.map_eq_none_iff (f := Bike.withoutId), heq, Option.map_eq_none_iff,
    Option.map_eq_none_iff, Tables.bikeNamed, List.find?_eq_none, List.mem_map]
  simp only [decide_eq_true_eq, not_exists, not_and]

/-- The row of a bike that is inserted. -/
theorem insertBike_eq {n m : Int} (hlat : decimal b.lat = some n) (hlng : decimal b.lng = some m)
    (hlen : b.bikeNo.length ≤ 32) {id : Int32} (hid : id ∉ s.db.tables.bike.map (·.id)) :
    (s.db.tables.insertBike id b).map (·.bike) =
      if P.collation b.bikeNo ∈ s.db.tables.bike.map fun b => P.collation b.bikeNo then none
      else some (s.db.tables.bike ++ [⟨id, b.bikeNo, n, m, b.status⟩]) := by
  simp only [Tables.insertBike, hlat, hlng, Option.bind_eq_bind, Option.bind_some]
  by_cases hno : P.collation b.bikeNo ∈ s.db.tables.bike.map fun b => P.collation b.bikeNo
  · rw [dif_neg fun hall => hall.2.2 hno, if_pos hno]
    rfl
  · rw [dif_pos ⟨hlen, hid, hno⟩, if_neg hno]
    rfl

/-- A bike that both sides take in. -/
theorem Related.grow (h : Related s) (b : Bike) (row : BikeRow)
    (hview : (Mysql.rowToBike P row).withoutId = b.withoutId)
    (hnew : b.id ∉ s.mem.bikes.rows.map (·.id))
    (hdigits : (P.atof7 row.lat).dec7 = some row.lat ∧ (P.atof7 row.lng).dec7 = some row.lng)
    (hmem : t.mem.bikes.rows = BikeMap.insertRow b s.mem.bikes.rows)
    (hdb : t.db.tables.bike = s.db.tables.bike ++ [row]) : Related t where
  fleet := by
    ext x
    have hfleet : x ∈ s.mem.fleet ↔ x ∈ s.db.fleet := by rw [h.fleet]
    simp only [InMemory.fleet, Production.fleet, Keyed.seen, Set.mem_ofPred_eq] at hfleet ⊢
    simp only [hmem, hdb, BikeMap.mem_insertRow, List.mem_append, List.mem_singleton, or_and_right,
      exists_or, exists_eq_left, hfleet, hview]
    exact or_comm
  ids := by
    rw [hmem, ((BikeMap.insertRow_perm b _).map (·.id)).nodup_iff, List.map_cons, List.nodup_cons]
    exact ⟨hnew, h.ids⟩
  digits := by
    rw [hdb]
    intro x hx
    rcases List.mem_append.mp hx with hold | hlast
    · exact h.digits x hold
    · rw [List.mem_singleton.mp hlast]
      exact hdigits

/-- A number that the collation takes for another is new to memory, and taken on the
database. -/
theorem Related.untold (h : Related s) (hnot : ¬ s.Told bikeNo) :
    s.mem.bikes.find bikeNo = none ∧
      P.collation bikeNo ∈ s.db.tables.bike.map fun b => P.collation b.bikeNo := by
  unfold Told at hnot
  push Not at hnot
  obtain ⟨row, hrow, hcollation, hother⟩ := hnot
  refine ⟨?_, List.mem_map.mpr ⟨row, hrow, hcollation⟩⟩
  cases hfind : s.mem.bikes.find bikeNo with
  | none => rfl
  | some b =>
    -- the table would have two rows that the collation takes for one
    obtain ⟨hb, hno⟩ := mem_find_iff.mp (congrArg (Option.map Bike.withoutId) hfind)
    rw [h.fleet] at hb
    obtain ⟨row', hrow', hview⟩ := hb
    have hno' : row'.bikeNo = bikeNo := (congrArg Bike.bikeNo hview).trans hno
    have hsame := List.inj_on_of_nodup_map s.db.tables.bike_no hrow hrow'
      (hcollation.trans (congrArg P.collation hno'.symm))
    exact absurd (hsame ▸ hno') hother

/-- Both sides take in a bike, or refuse it, when the collation takes its number for no
other. -/
theorem Related.insert (h : Related s) (hadm : s.Admitted (.insert b)) :
    (s.Agrees (.insert b) ↔ s.Plain (.insert b)) ∧
      (s.Plain (.insert b) → ∀ t, s.next (.insert b) = some t → Related t) := by
  obtain ⟨hlat, hlng, hlen, -, hmemId, hdbId⟩ := hadm
  obtain ⟨n, hn, hn7, hnback⟩ := hlat.digits
  obtain ⟨m, hm, hm7, hmback⟩ := hlng.digits
  have hrow := insertBike_eq hn hm hlen hdbId
  have hdb := Production.exec_insert errorless s.db b
  rw [show errorless.fails .bikeInsert = false from rfl] at hdb
  by_cases htold : s.Told b.bikeNo
  swap
  · obtain ⟨hnew, htaken⟩ := h.untold htold
    rw [if_pos htaken, Option.map_eq_none_iff] at hrow
    simp only [hrow, Bool.false_eq_true, if_false] at hdb
    refine ⟨iff_of_false ?_ htold, fun hplain => absurd hplain htold⟩
    rw [Agrees, hdb]
    simp only [InMemory.exec, InMemory.insert, dif_pos hnew]
    exact Option.some_ne_none _
  by_cases hnew : s.mem.bikes.find b.bikeNo = none
  · rw [if_neg ((h.find_none_iff htold).mp hnew)] at hrow
    obtain ⟨tables, htables, hbike⟩ := Option.map_eq_some_iff.mp hrow
    simp only [htables, Bool.false_eq_true, if_false] at hdb
    have hmem : InMemory.exec errorless (.insert b) s.mem =
        (some { b with id := s.mem.nextBikeId }, { s.mem with
          nextBikeId := s.mem.nextBikeId + 1
          bikes := s.mem.bikes.insert { b with id := s.mem.nextBikeId } hnew }) := by
      simp only [InMemory.exec, InMemory.insert, dif_pos hnew]
    refine ⟨iff_of_true ?_ htold, ?_⟩
    · rw [Agrees, hmem, hdb]
      rfl
    · rintro - t ⟨⟩
      refine h.grow { b with id := s.mem.nextBikeId }
        ⟨s.db.ids.bike, b.bikeNo, n, m, b.status⟩ ?_ hmemId ?_ ?_ ?_
      · simp only [Mysql.rowToBike, Bike.withoutId, hnback, hmback]
      · simp only [hnback, hmback]
        exact ⟨hn7, hm7⟩
      · simp only [BikeCall.onMem, hmem]
        rfl
      · simp only [BikeCall.onDb, BikeCall.onMem, hdb]
        exact hbike
  · rw [if_pos (not_not.mp fun hout => hnew ((h.find_none_iff htold).mpr hout)),
      Option.map_eq_none_iff] at hrow
    simp only [hrow, Bool.false_eq_true, if_false] at hdb
    have hmem : InMemory.exec errorless (.insert b) s.mem = (none, s.mem) := by
      simp only [InMemory.exec, InMemory.insert, dif_neg hnew]
    refine ⟨iff_of_true ?_ htold, ?_⟩
    · rw [Agrees, hmem, hdb]
    · rintro - t ⟨⟩
      simp only [BikeCall.onMem, BikeCall.onDb, hmem, hdb]
      exact h

/-- Two ids of one bike: there is none, or it looks the same on both sides. -/
theorem Related.partners (h : Related s) (hsame : s.SameBike memId dbId) :
    ((∀ b ∈ s.mem.bikes.rows, b.id ≠ memId) ∧ ∀ row ∈ s.db.tables.bike, row.id ≠ dbId) ∨
      ∃ b ∈ s.mem.bikes.rows, ∃ row ∈ s.db.tables.bike, b.id = memId ∧ row.id = dbId ∧
        (Mysql.rowToBike P row).withoutId = b.withoutId := by
  by_cases hsome : ∃ b ∈ s.mem.bikes.rows, b.id = memId
  · obtain ⟨b, hb, hid⟩ := hsome
    have hnumber : b.bikeNo ∈ s.db.numbers dbId := by
      rw [← show s.mem.numbers memId = _ from hsame]
      exact Keyed.mem_named.mpr ⟨b, hb, hid, rfl⟩
    obtain ⟨row, hrow, hrowId, hno⟩ := Keyed.mem_named.mp hnumber
    have hseen : (Mysql.rowToBike P row).withoutId ∈ s.mem.fleet := by
      rw [h.fleet]
      exact ⟨row, hrow, rfl⟩
    obtain ⟨x, hx, hview⟩ := hseen
    have hxb : x = b := List.inj_on_of_nodup_map s.mem.bikes.bikeNo_nodup hx hb
      ((congrArg Bike.bikeNo hview).trans hno)
    exact .inr ⟨b, hb, row, hrow, hid, hrowId, hxb ▸ hview.symm⟩
  · refine .inl ⟨fun b hb hid => hsome ⟨b, hb, hid⟩, fun row hrow hid => hsome ?_⟩
    have hnumber : row.bikeNo ∈ s.mem.numbers memId := by
      rw [show s.mem.numbers memId = _ from hsame]
      exact Keyed.mem_named.mpr ⟨row, hrow, hid, rfl⟩
    obtain ⟨b, hb, hbid, -⟩ := Keyed.mem_named.mp hnumber
    exact ⟨b, hb, hbid⟩

/-- One side answers whether there is a bike, the other whether it has changed. -/
theorem Related.update_agrees_iff (h : Related s) (hsame : s.SameBike memId dbId)
    {changed : BikeRow → Prop} [DecidablePred changed] {differs : Bike → Prop}
    (hmatch : ∀ b, ∀ row ∈ s.db.tables.bike, (Mysql.rowToBike P row).withoutId = b.withoutId →
      (changed row ↔ differs b)) :
    s.mem.bikes.rows.any (·.id = memId) =
        decide (0 < (s.db.tables.bike.filter fun row => row.id = dbId ∧ changed row).length) ↔
      ∀ b ∈ s.mem.bikes.rows, b.id = memId → differs b := by
  rw [Bool.eq_iff_iff, List.any_eq_true, decide_eq_true_eq, List.length_pos_iff_exists_mem]
  simp only [List.mem_filter, decide_eq_true_eq]
  rcases h.partners hsame with ⟨hmem, hdb⟩ | ⟨b, hb, row, hrow, hid, hrowId, hview⟩
  · refine iff_of_true (iff_of_false ?_ ?_) fun b hb hid => absurd hid (hmem b hb)
    · rintro ⟨b, hb, hid⟩
      exact hmem b hb hid
    · rintro ⟨row, hrow, hid, -⟩
      exact hdb row hrow hid
  · constructor
    · intro hiff b' hb' hid'
      obtain ⟨row', hrow', hid'', hchanged⟩ := hiff.mp ⟨b, hb, hid⟩
      rw [List.inj_on_of_nodup_map h.ids hb' hb (hid'.trans hid.symm)]
      rw [List.inj_on_of_nodup_map s.db.tables.bike_id hrow' hrow (hid''.trans hrowId.symm)]
        at hchanged
      exact (hmatch b row hrow hview).mp hchanged
    · intro hall
      exact iff_of_true ⟨b, hb, hid⟩
        ⟨row, hrow, hrowId, (hmatch b row hrow hview).mpr (hall b hb hid)⟩

theorem Related.updateStatus (h : Related s) {status : BikeStatus}
    (hadm : s.Admitted (.updateStatus memId dbId status)) :
    (s.Agrees (.updateStatus memId dbId status) ↔ s.Plain (.updateStatus memId dbId status)) ∧
      ∀ t, s.next (.updateStatus memId dbId status) = some t → Related t := by
  have hdb := Production.exec_updateStatus errorless s.db dbId status
  rw [show errorless.fails .bikeStatus = false from rfl, if_neg Bool.false_ne_true] at hdb
  refine ⟨?_, ?_⟩
  · rw [Agrees, hdb]
    refine h.update_agrees_iff hadm fun b row _ hview => ?_
    rw [show row.status = b.status from congrArg Bike.status hview]
  · rintro t ⟨⟩
    refine h.update hadm (f := fun b => { b with status }) (g := fun row => { row with status })
      (fun _ => rfl) (fun _ => rfl) (fun _ => rfl) (fun _ => id) rfl ?_
    simp only [BikeCall.onDb, hdb]
    rfl

theorem Related.updateLocation (h : Related s) {lat lng : Double}
    (hadm : s.Admitted (.updateLocation memId dbId lat lng)) :
    (s.Agrees (.updateLocation memId dbId lat lng) ↔
        s.Plain (.updateLocation memId dbId lat lng)) ∧
      ∀ t, s.next (.updateLocation memId dbId lat lng) = some t → Related t := by
  obtain ⟨hsame, hlat, hlng⟩ := hadm
  obtain ⟨n, hn, hn7, hnback⟩ := hlat.digits
  obtain ⟨m, hm, hm7, hmback⟩ := hlng.digits
  have hdb := Production.exec_updateLocation errorless s.db dbId lat lng
  rw [show errorless.fails .bikeLocation = false from rfl, if_neg Bool.false_ne_true, hn, hm] at hdb
  refine ⟨?_, ?_⟩
  · rw [Agrees, hdb]
    refine h.update_agrees_iff hsame fun b row hrow hview => ?_
    have hblat : P.atof7 row.lat = b.lat := congrArg Bike.lat hview
    have hblng : P.atof7 row.lng = b.lng := congrArg Bike.lng hview
    obtain ⟨hlat7, hlng7⟩ := h.digits row hrow
    rw [hblat] at hlat7
    rw [hblng] at hlng7
    rw [ne_eq, ne_eq, dec7_eq_iff hlat7 hn7 hblat hnback, dec7_eq_iff hlng7 hm7 hblng hmback]
  · rintro t ⟨⟩
    refine h.update hsame (f := fun b => { b with lat, lng })
      (g := fun row => { row with lat := n, lng := m })
      (fun _ => rfl) (fun row => ?_) (fun _ => rfl) (fun _ _ => ?_) rfl ?_
    · simp only [Mysql.rowToBike, Bike.withoutId, hnback, hmback]
    · simp only [hnback, hmback]
      exact ⟨hn7, hm7⟩
    · simp only [BikeCall.onDb, hdb]
      rfl

theorem mem_listInBounds {m : InMemory} :
    b ∈ m.listInBounds latMin latMax lngMin lngMax ↔
      b ∈ m.bikes.rows ∧ b.InBox latMin latMax lngMin lngMax := by
  simp only [InMemory.listInBounds, Bike.InBox, List.mem_filter, Bool.and_eq_true, and_assoc]

/-- What the database lists: the bikes of the box that are not rented. -/
theorem Related.mem_listed_iff (h : Related s)
    (hadm : s.Admitted (.listInBounds latMin latMax lngMin lngMax)) :
    b ∈ Keyed.seen Bike.withoutId
        (Production.exec errorless (.listInBounds latMin latMax lngMin lngMax) s.db).1 ↔
      b ∈ Keyed.seen Bike.withoutId (s.mem.listInBounds latMin latMax lngMin lngMax) ∧
        b.status ≠ .rented := by
  obtain ⟨hlatMin, hlatMax, hlngMin, hlngMax, -⟩ := hadm
  obtain ⟨n₁, hn₁, hb₁⟩ := hlatMin.digits
  obtain ⟨n₂, hn₂, hb₂⟩ := hlatMax.digits
  obtain ⟨n₃, hn₃, hb₃⟩ := hlngMin.digits
  obtain ⟨n₄, hn₄, hb₄⟩ := hlngMax.digits
  have hbox : ∀ row ∈ s.db.tables.bike, ∀ x : Bike,
      (Mysql.rowToBike P row).withoutId = x.withoutId →
      ((latMin.le x.lat && x.lat.le latMax && lngMin.le x.lng && x.lng.le lngMax) = true ↔
        n₁ ≤ row.lat ∧ row.lat ≤ n₂ ∧ n₃ ≤ row.lng ∧ row.lng ≤ n₄) := by
    intro row hrow x hview
    have hxlat : P.atof7 row.lat = x.lat := congrArg Bike.lat hview
    have hxlng : P.atof7 row.lng = x.lng := congrArg Bike.lng hview
    obtain ⟨hlat7, hlng7⟩ := h.digits row hrow
    rw [hxlat] at hlat7
    rw [hxlng] at hlng7
    simp only [Bool.and_eq_true, le_iff_dec7_le hn₁ hlat7 hb₁ hxlat,
      le_iff_dec7_le hlat7 hn₂ hxlat hb₂, le_iff_dec7_le hn₃ hlng7 hb₃ hxlng,
      le_iff_dec7_le hlng7 hn₄ hxlng hb₄, and_assoc]
  have hfleet : b ∈ s.mem.fleet ↔ b ∈ s.db.fleet := by rw [h.fleet]
  rw [Production.exec_listInBounds, show errorless.fails .bikesSelect = false from rfl,
    if_neg Bool.false_ne_true]
  simp only [Tables.bikesInBox, hn₁, hn₂, hn₃, hn₄, Option.bind_eq_bind, Option.bind_some,
    Option.getD_some, InMemory.listInBounds, Keyed.seen, Set.mem_ofPred_eq, List.mem_map,
    List.mem_filter, decide_eq_true_eq]
  constructor
  · rintro ⟨_, ⟨row, ⟨hrow, hstatus, hin⟩, rfl⟩, rfl⟩
    obtain ⟨x, hx, hview⟩ := hfleet.mpr ⟨row, hrow, rfl⟩
    exact ⟨⟨x, ⟨hx, (hbox row hrow x hview.symm).mpr hin⟩, hview⟩, hstatus⟩
  · rintro ⟨⟨x, ⟨hx, hin⟩, rfl⟩, hstatus⟩
    obtain ⟨row, hrow, hview⟩ := hfleet.mp ⟨x, hx, rfl⟩
    refine ⟨_, ⟨row, ⟨hrow, ?_, (hbox row hrow x hview).mp hin⟩, rfl⟩, hview⟩
    rw [show row.status = x.status from congrArg Bike.status hview]
    exact hstatus

theorem Related.listInBounds (h : Related s)
    (hadm : s.Admitted (.listInBounds latMin latMax lngMin lngMax)) :
    s.Agrees (.listInBounds latMin latMax lngMin lngMax) ↔
      s.Plain (.listInBounds latMin latMax lngMin lngMax) := by
  have hlisted := fun b => h.mem_listed_iff hadm (b := b)
  rw [Agrees, Set.ext_iff]
  constructor
  · intro hsame b hb hin
    have hseen := (hsame b.withoutId).mp ⟨b, mem_listInBounds.mpr ⟨hb, hin⟩, rfl⟩
    exact ((hlisted b.withoutId).mp hseen).2
  · intro hplain b
    rw [hlisted b]
    refine ⟨fun hb => ⟨hb, ?_⟩, fun hb => hb.1⟩
    obtain ⟨x, hx, rfl⟩ := hb
    obtain ⟨hrow, hin⟩ := mem_listInBounds.mp hx
    exact hplain x hrow hin

/-! ## Answers -/

/-- Such a call leaves both sides with the same fleet. -/
theorem Related.step (h : Related s) {c : BikeCall} (hc : s.Orderly c)
    (hs : s.next c = some t) : Related t := by
  cases c with
  | insert b => exact (h.insert hc.1).2 (hc.2 b rfl) t hs
  | updateStatus memId dbId status => exact (h.updateStatus hc.1).2 t hs
  | updateLocation memId dbId lat lng => exact (h.updateLocation hc.1).2 t hs
  | getForUpdate bikeNo =>
    cases hs
    simp only [BikeCall.onMem, BikeCall.onDb, Production.exec_getForUpdate]
    exact h
  | listInBounds latMin latMax lngMin lngMax =>
    cases hs
    simp only [BikeCall.onMem, BikeCall.onDb, Production.exec_listInBounds]
    exact h

theorem related_of_reachable (h : (machine P).ReachableWhile Orderly s) : Related s :=
  Machine.invariant (I := Related) (fun _ hs => hs) (fun _ _ _ hs hc ht => hs.step hc ht) h

/-- **Where the repositories agree.** After any calls that insert no bike under a number
that the collation takes for another, the next one is answered alike exactly when it
names no such number, and is no update that changes nothing and no listing of a box with
a rented bike. -/
theorem bike_repos_agree_iff (h : (machine P).ReachableWhile Orderly s) {c : BikeCall}
    (hadm : s.Admitted c) : s.Agrees c ↔ s.Plain c := by
  have hrel := related_of_reachable h
  cases c with
  | insert b => exact (hrel.insert hadm).1
  | updateStatus memId dbId status => exact (hrel.updateStatus hadm).1
  | updateLocation memId dbId lat lng => exact (hrel.updateLocation hadm).1
  | listInBounds latMin latMax lngMin lngMax => exact hrel.listInBounds hadm
  | getForUpdate bikeNo =>
    rw [Agrees, Production.exec_getForUpdate]
    exact hrel.find_eq_iff

/-- The bike of the small database on both sides. -/
def small (status : BikeStatus) : BikeRepos .standstill where
  mem := { InMemory.small 1000 with
    bikes := ⟨[⟨1, "SB00000001", .fin 0, .fin 0, status⟩], by simp⟩
    nextBikeId := 1000000 }
  db := Production.small 1000 status

theorem small_related (status : BikeStatus) : Related (small status) where
  fleet := by
    have hview : (Mysql.rowToBike .standstill ⟨1, "SB00000001", 0, 0, status⟩).withoutId =
        ⟨0, "SB00000001", .fin 0, .fin 0, status⟩ := by
      cases status <;> decide +kernel
    ext b
    simp only [InMemory.fleet, Production.fleet, Keyed.seen, Set.mem_ofPred_eq, small,
      Production.small, List.mem_singleton, exists_eq_left, hview]
    rfl
  ids := by simp [small]
  digits := by
    intro row hrow
    simp only [small, Production.small, List.mem_singleton] at hrow
    subst hrow
    exact (by decide +kernel : (Platform.standstill.atof7 0).dec7 = some 0 ∧
      (Platform.standstill.atof7 0).dec7 = some 0)

/-- The condition of a run, computed for a bike that is inserted or changes its status. -/
def orderly (s : BikeRepos P) : BikeCall → Bool
  | .insert b =>
    decide ((P.Exact b.lat ∧ P.Exact b.lng ∧ b.bikeNo.length ≤ 32 ∧ Room 80 b.bikeNo ∧
        s.mem.nextBikeId ∉ s.mem.bikes.rows.map (·.id) ∧
        s.db.ids.bike ∉ s.db.tables.bike.map (·.id)) ∧
      ∀ row ∈ s.db.tables.bike, P.collation row.bikeNo = P.collation b.bikeNo →
        row.bikeNo = b.bikeNo)
  | .updateStatus memId dbId _ => s.mem.numbers memId = s.db.numbers dbId
  | _ => false

theorem orderly_sound (s : BikeRepos P) (c : BikeCall) (h : s.orderly c = true) : s.Orderly c := by
  cases c with
  | insert b =>
    obtain ⟨hadm, htold⟩ := of_decide_eq_true h
    exact ⟨hadm, fun _ _ => htold⟩
  | updateStatus memId dbId status =>
    have hsame : s.mem.numbers memId = s.db.numbers dbId := of_decide_eq_true h
    exact ⟨hsame, nofun⟩
  | _ => cases h

/-- A second bike is put out, the first is rented, and a search around the second lists it
alike. -/
theorem bike_repos_agree_small :
    ∃ s : BikeRepos .standstill, (machine .standstill).ReachableWhile Orderly s ∧
      s.mem.bikes.rows.map (fun b => (b.bikeNo, b.status)) =
        [("SB00000001", .rented), ("SB00000002", .idle)] ∧
      (s.mem.listInBounds (.fin 1) (.fin 2) (.fin 1) (.fin 2)).map (·.bikeNo) = ["SB00000002"] ∧
      s.Agrees (.listInBounds (.fin 1) (.fin 2) (.fin 1) (.fin 2)) ∧
      s.Agrees (.getForUpdate "SB00000001") ∧ s.Agrees (.updateStatus 1 1 .idle) := by
  obtain ⟨s, hreach, hrows, hsame, htold⟩ :
      ∃ s : BikeRepos .standstill, (machine .standstill).ReachableWhile Orderly s ∧
        s.mem.bikes.rows = [⟨1, "SB00000001", .fin 0, .fin 0, .rented⟩,
          ⟨1000000, "SB00000002", .fin 1, .fin 1, .idle⟩] ∧ s.mem.numbers 1 = s.db.numbers 1 ∧
        ∀ row ∈ s.db.tables.bike, Platform.standstill.collation row.bikeNo =
          Platform.standstill.collation "SB00000001" → row.bikeNo = "SB00000001" :=
    Machine.exists_of_playWhile orderly_sound _ (small_related .idle)
      [.insert ⟨0, "SB00000002", .fin 1, .fin 1, .idle⟩, .updateStatus 1 1 .rented]
      (by decide +kernel)
  have hseven : Platform.standstill.AtSeven (.fin 1) ∧ Platform.standstill.AtSeven (.fin 2) := by
    decide +kernel
  refine ⟨s, hreach, by rw [hrows]; rfl, ?_, ?_, ?_, ?_⟩
  · rw [InMemory.listInBounds, hrows]
    decide +kernel
  · have hadm : s.Admitted (.listInBounds (.fin 1) (.fin 2) (.fin 1) (.fin 2)) :=
      ⟨hseven.1, hseven.2, hseven.1, hseven.2, boxWhole_of_width (by decide +kernel)⟩
    refine (bike_repos_agree_iff hreach hadm).mpr ?_
    show ∀ b ∈ s.mem.bikes.rows, _
    rw [hrows]
    decide +kernel
  · have hadm : s.Admitted (.getForUpdate "SB00000001") := show Room 64 _ by decide +kernel
    exact (bike_repos_agree_iff hreach hadm).mpr htold
  · have hadm : s.Admitted (.updateStatus 1 1 .idle) := hsame
    refine (bike_repos_agree_iff hreach hadm).mpr ?_
    show ∀ b ∈ s.mem.bikes.rows, _
    rw [hrows]
    decide

/-- A rented bike is listed in memory and not from the database, and renting it
once more succeeds in memory and not on the database. -/
theorem bike_repos_differ :
    (machine .standstill).ReachableWhile Orderly (small .rented) ∧
      (InMemory.exec errorless (.listInBounds (.fin 0) (.fin 1) (.fin 0) (.fin 1))
        (small .rented).mem).1 = [⟨1, "SB00000001", .fin 0, .fin 0, .rented⟩] ∧
      (Production.exec errorless (.listInBounds (.fin 0) (.fin 1) (.fin 0) (.fin 1))
        (small .rented).db).1 = [] ∧
      (InMemory.exec errorless (.updateStatus 1 .rented) (small .rented).mem).1 = true ∧
      (Production.exec errorless (.updateStatus 1 .rented) (small .rented).db).1 = false := by
  refine ⟨.start (small_related .rented), ?_⟩
  decide +kernel

end BikeRepos

end SharedBike.Server
