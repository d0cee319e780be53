import SharedBike.Server.Frames

/-!
# Bikes and the sessions on them

What the calls do to two views: which session rides which bike
(`RideSessionStore.on`), and the bikes' statuses (`Deployment.statuses`).
A status changes by `update_status` alone, a bike appears by `insert` alone,
and what `get_for_update` answers is a bike of the view. Both deployments
satisfy the same lemmas; the one difference is that the database can refuse
an `update_status`.
-/

namespace SharedBike.Server

open SharedBike.Common SharedBike.Lib

variable {P : Platform} {d : Deployment} {x : Int32 × BikeStatus} {c : RepoCall}

/-! ## Sessions -/

namespace RideSessionStore

/-- The session of this number rides this bike. -/
def on (store : RideSessionStore) (no : String) (bikeId : Int32) : Prop :=
  ∃ s, store.find no = some s ∧ s.bikeId = bikeId

variable {store : RideSessionStore} {no : String} {b : Int32}

@[simp] theorem not_on_empty : ¬ empty.on no b := by
  rintro ⟨s, h, -⟩
  cases h

theorem on_create (s : RideSession) :
    (store.create s).on no b ↔ no = s.rideNo ∧ s.bikeId = b ∨ no ≠ s.rideNo ∧ store.on no b := by
  unfold on create
  by_cases h : no = s.rideNo
  · subst h
    simp
  · simp [h]

theorem on_remove (rideNo : String) :
    (store.remove rideNo).on no b ↔ no ≠ rideNo ∧ store.on no b := by
  unfold on remove
  by_cases h : no = rideNo
  · subst h
    simp
  · simp [h]

/-- A report moves the session, not what it rides. -/
theorem on_updatePos (rideNo : String) (lat lng : Double) (seq elapsedSec : Int32) :
    (store.updatePos rideNo lat lng seq elapsedSec).2.on no b ↔ store.on no b := by
  unfold updatePos
  split
  · rfl
  next s hfind =>
    have hframe := report_frame s lat lng seq elapsedSec
    have hkey := store.keyed rideNo s hfind
    rw [on_create, hframe.1, hkey]
    by_cases h : no = rideNo
    · subst h
      simp [on, hfind, hframe]
    · simp [h]

end RideSessionStore

/-! ## Statuses -/

/-- Set one bike's status in the view. -/
def setStatus (id : Int32) (status : BikeStatus) (l : List (Int32 × BikeStatus)) :
    List (Int32 × BikeStatus) :=
  l.map fun x => if x.1 = id then (x.1, status) else x

theorem setStatus_ids (id : Int32) (status : BikeStatus) (l : List (Int32 × BikeStatus)) :
    (setStatus id status l).map Prod.fst = l.map Prod.fst := by
  rw [setStatus, List.map_map]
  refine List.map_congr_left fun x _ => ?_
  by_cases h : x.1 = id <;> simp [h]

theorem mem_setStatus {id b : Int32} {status st : BikeStatus} {l : List (Int32 × BikeStatus)} :
    (b, st) ∈ setStatus id status l ↔
      b = id ∧ st = status ∧ b ∈ l.map Prod.fst ∨ b ≠ id ∧ (b, st) ∈ l := by
  simp only [setStatus, List.mem_map]
  constructor
  · rintro ⟨x, hx, heq⟩
    by_cases h : x.1 = id
    · rw [if_pos h] at heq
      cases heq
      exact .inl ⟨h, rfl, x, hx, rfl⟩
    · rw [if_neg h] at heq
      subst heq
      exact .inr ⟨h, hx⟩
  · rintro (⟨rfl, rfl, x, hx, rfl⟩ | ⟨h, hx⟩)
    · exact ⟨x, hx, if_pos rfl⟩
    · exact ⟨(b, st), hx, if_neg h⟩

/-- With distinct ids, changing the first bike of an id changes the bike of that id. -/
theorem BikeMap.modifyFirst_eq_map {id : Int32} {f : Bike → Bike} {rows : List Bike}
    (h : (rows.map (·.id)).Nodup) :
    modifyFirst id f rows = rows.map fun b => if b.id = id then f b else b := by
  induction rows with
  | nil => rfl
  | cons b rest ih =>
    rw [List.map_cons, List.nodup_cons] at h
    unfold modifyFirst
    by_cases hb : b.id = id
    · rw [if_pos hb, List.map_cons, if_pos hb]
      congr 1
      -- no later bike has the id
      refine (List.map_id' rest).symm.trans (List.map_congr_left fun x hx => ?_)
      rw [if_neg]
      intro hx'
      exact h.1 (List.mem_map.mpr ⟨x, hx, hx'.trans hb.symm⟩)
    · rw [if_neg hb, List.map_cons, if_neg hb, ih h.2]

theorem BikeMap.insertRow_perm (b : Bike) (l : List Bike) : (insertRow b l).Perm (b :: l) := by
  induction l with
  | nil => exact .refl _
  | cons a rest ih =>
    unfold insertRow
    split
    · exact .refl _
    · exact (ih.cons a).trans (.swap b a rest)

namespace Deployment

/-- The bikes have distinct ids. The schema sees to that; the in-memory
repository numbers its bikes. -/
def Distinct (P : Platform) (d : Deployment) (s : d.Repos P) : Prop :=
  ((d.statuses P s).map Prod.fst).Nodup

theorem distinct_production (s : Production P) : Deployment.production.Distinct P s := by
  unfold Distinct statuses
  rw [List.map_map]
  exact s.tables.bike_id

/-- The bike of a number, with its status. -/
def bikeNamed (P : Platform) : (d : Deployment) → d.Repos P → String → Option (Int32 × BikeStatus)
  | .inMemory, m, bikeNo => (m.bikes.find bikeNo).map fun b => (b.id, b.status)
  | .production, s, bikeNo =>
    (s.tables.bike.find? fun b => P.collation b.bikeNo = P.collation bikeNo).map fun b =>
      (b.id, b.status)

variable {s : d.Repos P} {b : Bike}

theorem bikeNamed_mem {bikeNo : String} (h : d.bikeNamed P s bikeNo = some x) :
    x ∈ d.statuses P s := by
  cases d with
  | inMemory | production =>
    obtain ⟨b, hb, rfl⟩ := Option.map_eq_some_iff.mp h
    exact List.mem_map.mpr ⟨b, List.mem_of_find?_eq_some hb, rfl⟩

/-- `get_for_update` answers the bike of the number, if it answers one. -/
theorem bikeNamed_of_getForUpdate {env : Env} {bikeNo : String}
    (h : (d.exec P env (.getForUpdate bikeNo) s).1 = some b) :
    d.bikeNamed P s bikeNo = some (b.id, b.status) := by
  cases d with
  | inMemory =>
    have hfind : s.bikes.find bikeNo = some b := h
    rw [bikeNamed, hfind, Option.map_some]
  | production =>
    simp only [exec, Production.exec, Mysql.getForUpdate] at h
    rw [Production.sql_single env _ rfl] at h
    split at h
    · cases h
    · simp only [Stmt.apply] at h
      obtain ⟨row, hrow, rfl⟩ := Option.map_eq_some_iff.mp h
      rw [List.head?_filter] at hrow
      rw [bikeNamed, hrow, Option.map_some]
      rfl

theorem bikeNamed_exec (d : Deployment) (env : Env) (c : RepoCall) (s : d.Repos P)
    (h : .bike ∉ c.targets) : d.bikeNamed P (d.exec P env c s).2 = d.bikeNamed P s := by
  funext bikeNo
  cases d with
  | production =>
    have hsame : _ = _ := Production.exec_sameIn env c s h
    simp only [bikeNamed, exec, hsame]
  | inMemory =>
    have hsame : _ = _ := InMemory.exec_sameIn env c s h
    simp only [bikeNamed, exec, hsame]

theorem statuses_updateStatus (env : Env) (hids : d.Distinct P s) (id : Int32)
    (status : BikeStatus) :
    d.statuses P (d.exec P env (.updateStatus id status) s).2 =
      if d = .production ∧ env.fails .bikeStatus = true then d.statuses P s
      else setStatus id status (d.statuses P s) := by
  cases d with
  | inMemory =>
    have hrows : (s.bikes.rows.map (·.id)).Nodup := by
      rw [Distinct, statuses, List.map_map] at hids
      exact hids
    rw [if_neg (by simp)]
    simp only [statuses, exec, InMemory.exec, InMemory.updateStatus, BikeMap.modify,
      BikeMap.modifyFirst_eq_map hrows, setStatus, List.map_map]
    refine List.map_congr_left fun b _ => ?_
    by_cases hb : b.id = id <;> simp [hb]
  | production =>
    simp only [statuses, exec, Production.exec, Mysql.updateStatus, true_and]
    rw [Production.sql_single env _ rfl]
    by_cases hf : env.fails .bikeStatus = true
    · rw [if_pos hf, if_pos hf]
    · rw [if_neg hf, if_neg hf]
      simp only [Stmt.apply, Tables.updateBike, setStatus, List.map_map]
      refine List.map_congr_left fun b _ => ?_
      by_cases hb : b.id = id <;> simp [hb]

/-- Where a bike is does not show in the view. -/
theorem statuses_updateLocation (env : Env) (id : Int32) (lat lng : Double) :
    d.statuses P (d.exec P env (.updateLocation id lat lng) s).2 = d.statuses P s := by
  cases d with
  | inMemory =>
    simp only [statuses, exec, InMemory.exec, InMemory.updateLocation, BikeMap.modify]
    induction s.bikes.rows with
    | nil => rfl
    | cons b rest ih =>
      unfold BikeMap.modifyFirst
      split
      · rfl
      · rw [List.map_cons, List.map_cons, ih]
  | production =>
    simp only [exec, Production.exec, Mysql.updateLocation]
    rw [Production.sql_single env _ rfl]
    split
    · rfl
    · split
      · rfl
      next rows t happly =>
        simp only [Stmt.apply, Option.bind_eq_bind] at happly
        obtain ⟨lat', -, hrest⟩ := Option.bind_eq_some_iff.mp happly
        obtain ⟨lng', -, hrest⟩ := Option.bind_eq_some_iff.mp hrest
        cases hrest
        simp only [statuses, Tables.updateBike, List.map_map]
        refine List.map_congr_left fun b _ => ?_
        by_cases hb : b.id = id <;> simp [hb]

/-- Only `update_status` and `insert` show in the view. -/
theorem statuses_frame (env : Env) (hstatus : ∀ id st, c ≠ .updateStatus id st)
    (hinsert : ∀ b, c ≠ .insert b) :
    d.statuses P (d.exec P env c s).2 = d.statuses P s := by
  by_cases hT : Table.bike ∈ c.targets
  · cases c with
    | updateStatus id st => exact absurd rfl (hstatus id st)
    | insert b => exact absurd rfl (hinsert b)
    | updateLocation id lat lng => exact statuses_updateLocation env id lat lng
    | _ => simp [RepoCall.targets] at hT
  · exact d.statuses_exec env c s hT

/-! ## New bikes -/

/-- An `insert` adds its bike, if anything. -/
theorem statuses_insert (env : Env) (b : Bike) :
    (d.statuses P (d.exec P env (.insert b) s).2).Perm (d.statuses P s) ∨
      ∃ id, (d.statuses P (d.exec P env (.insert b) s).2).Perm
        ((id, b.status) :: d.statuses P s) := by
  cases d with
  | inMemory =>
    simp only [exec, InMemory.exec, InMemory.insert]
    split
    · exact .inr ⟨_, (BikeMap.insertRow_perm _ s.bikes.rows).map _⟩
    · exact .inl (.refl _)
  | production =>
    simp only [exec, Production.exec, Mysql.insert]
    rw [Production.sql_single env _ rfl]
    split
    · exact .inl (.refl _)
    · split
      · exact .inl (.refl _)
      next happly =>
        simp only [Stmt.apply] at happly
        obtain ⟨t, ht, heq⟩ := Option.map_eq_some_iff.mp happly
        cases heq
        simp only [Tables.insertBike, Option.bind_eq_bind] at ht
        obtain ⟨lat, -, hrest⟩ := Option.bind_eq_some_iff.mp ht
        obtain ⟨lng, -, hrest⟩ := Option.bind_eq_some_iff.mp hrest
        split at hrest
        · cases hrest
          refine .inr ⟨s.ids.bike, ?_⟩
          simp only [statuses, List.map_append, List.map_cons, List.map_nil]
          exact List.perm_append_singleton _ _
        · cases hrest

/-- A new bike is all that an `insert` adds. -/
theorem mem_statuses_of_insert {env : Env} (hx : x ∈ d.statuses P (d.exec P env (.insert b) s).2) :
    x ∈ d.statuses P s ∨ x.2 = b.status := by
  rcases statuses_insert env b with hperm | ⟨id, hperm⟩
  · exact .inl (hperm.mem_iff.mp hx)
  · rcases List.mem_cons.mp (hperm.mem_iff.mp hx) with rfl | hx
    · exact .inr rfl
    · exact .inl hx

theorem mem_statuses_insert {env : Env} (hx : x ∈ d.statuses P s) :
    x ∈ d.statuses P (d.exec P env (.insert b) s).2 := by
  rcases statuses_insert env b with hperm | ⟨id, hperm⟩
  · exact hperm.mem_iff.mpr hx
  · exact hperm.mem_iff.mpr (List.mem_cons_of_mem _ hx)

/-- The in-memory repository has `n` numbers left that no bike has. The
database looks after its own. -/
def Room (P : Platform) : (d : Deployment) → d.Repos P → Nat → Prop
  | .inMemory, m, n =>
    (∀ id ∈ (Deployment.inMemory.statuses P m).map Prod.fst, id.toInt < m.nextBikeId.toInt) ∧
      m.nextBikeId.toInt + n < 2 ^ 31
  | .production, _, _ => True

/-- The bikes have distinct ids, and so will the next `n`. -/
structure Numbered (P : Platform) (d : Deployment) (s : d.Repos P) (n : Nat) : Prop where
  distinct : d.Distinct P s
  room : d.Room P s n

variable {n : Nat}

theorem Numbered.mono {m : Nat} (h : d.Numbered P s m) (hle : n ≤ m) : d.Numbered P s n := by
  refine ⟨h.distinct, ?_⟩
  cases d with
  | production => trivial
  | inMemory => exact ⟨h.room.1, by have := h.room.2; omega⟩

/-- No other call touches the numbering. -/
theorem Numbered.frame (env : Env) (h : d.Numbered P s n) (hinsert : ∀ b, c ≠ .insert b) :
    d.Numbered P (d.exec P env c s).2 n := by
  have hids : (d.statuses P (d.exec P env c s).2).map Prod.fst =
      (d.statuses P s).map Prod.fst := by
    by_cases hstatus : ∃ id st, c = .updateStatus id st
    · obtain ⟨id, st, rfl⟩ := hstatus
      rw [statuses_updateStatus env h.distinct id st]
      split
      · rfl
      · exact setStatus_ids id st _
    · rw [statuses_frame env (fun id st hc => hstatus ⟨id, st, hc⟩) hinsert]
  refine ⟨by rw [Distinct, hids]; exact h.distinct, ?_⟩
  cases d with
  | production => trivial
  | inMemory =>
    have hnext := (InMemory.exec_counters env c s).1 hinsert
    refine ⟨fun id hid => ?_, by simp only [exec, hnext]; exact h.room.2⟩
    rw [hids] at hid
    simp only [exec, hnext]
    exact h.room.1 id hid

/-- A new bike takes one of the numbers that are left. -/
theorem Numbered.insert (env : Env) (h : d.Numbered P s (n + 1)) :
    d.Numbered P (d.exec P env (.insert b) s).2
      (n + 1 - (d.exec P env (.insert b) s).1.toList.length) := by
  cases d with
  | production => exact ⟨distinct_production _, trivial⟩
  | inMemory =>
    simp only [exec, InMemory.exec, InMemory.insert]
    split
    next hnew =>
      obtain ⟨hdistinct, hsmall, hroom⟩ := h
      have hnext : (s.nextBikeId + 1).toInt = s.nextBikeId.toInt + 1 :=
        toInt_add_of_range (by have := s.nextBikeId.le_toInt; change _ ≤ _ + (1 : Int); omega)
          (by change _ + (1 : Int) < _; omega)
      have hids : ((Deployment.inMemory.statuses P
          { s with bikes := s.bikes.insert { b with id := s.nextBikeId } hnew }).map Prod.fst).Perm
            (s.nextBikeId :: (Deployment.inMemory.statuses P s).map Prod.fst) := by
        simp only [statuses, List.map_map]
        exact (BikeMap.insertRow_perm _ s.bikes.rows).map _
      refine ⟨hids.nodup_iff.mpr (List.nodup_cons.mpr ⟨fun hold => ?_, hdistinct⟩), ?_, ?_⟩
      · exact absurd (hsmall _ hold) (lt_irrefl _)
      · intro id hid
        change id.toInt < (s.nextBikeId + 1).toInt
        rcases List.mem_cons.mp (hids.mem_iff.mp hid) with rfl | hid
        · omega
        · have := hsmall id hid
          omega
      · change (s.nextBikeId + 1).toInt + ((n + 1 - 1 : Nat) : Int) < _
        omega
    · exact h

end Deployment

end SharedBike.Server
