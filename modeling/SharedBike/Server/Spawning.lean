import SharedBike.Server.Bikes
import SharedBike.Lib.Pool

/-!
# How many bikes an area is given

`list_nearby_bikes` counts the bikes in range and, if there are fewer than five, puts
out what is missing to twelve. The count and each insert are calls of their own, so
requests for one area can count before any of them has put out a bike, and each then
puts out its own wave: in `two_waves` an empty area is given more than twelve.

`one_wave` is the other half. When a request counts only while no other one is between
its count and its last insert, all requests together put out no more than what was
missing at the start. The bound does not ask that the inserts succeed: a bike whose
number was taken four times is left out, and a later request makes up for it. That no
number is given out twice holds in every run, for `insert` refuses one that is taken.

`Wave` is what a request has to do still, read off its calls: how many bikes, and how
many attempts at the present one. `Spawning` keeps, beside the requests and the
repositories, the list of the bikes that were inserted.
-/

namespace SharedBike.Server

open SharedBike.Common SharedBike.Lib Function

/-! ## An area -/

/-- Where the requests look. -/
structure Area where
  lat : Double
  lng : Double
  radiusM : Double

namespace Area

variable (P : Platform) (a : Area)

def radius : Double := clampRadius a.radiusM

/-- The box of the query. -/
def inBox (lat lng : Double) : Bool :=
  let (latMin, latMax, lngMin, lngMax) := P.searchBox a.lat a.lng a.radius
  latMin.le lat && lat.le latMax && lngMin.le lng && lng.le lngMax

/-- The circle in it. -/
def inCircle (lat lng : Double) : Bool := (P.haversineM a.lat a.lng lat lng).le a.radius

def covers (b : Bike) : Bool := a.inBox P b.lat b.lng && a.inCircle P b.lat b.lng

/-- How many bikes are in range. -/
def count (m : InMemory) : Nat := m.bikes.rows.countP (a.covers P)

/-- Every position that is drawn passes both filters. -/
def Scatters (draws : SpawnDraws) : Prop :=
  ∀ i, let (lat, lng) := P.randomOffset a.lat a.lng a.radius (draws.offset i).1 (draws.offset i).2
    a.inBox P lat lng = true ∧ a.inCircle P lat lng = true

/-- What the query and the filter come to is the count. -/
theorem length_near (m : InMemory) {latMin latMax lngMin lngMax : Double}
    (hbox : P.searchBox a.lat a.lng a.radius = (latMin, latMax, lngMin, lngMax)) :
    ((m.listInBounds latMin latMax lngMin lngMax).filter fun b => a.inCircle P b.lat b.lng).length =
      a.count P m := by
  rw [InMemory.listInBounds, List.filter_filter, count, List.countP_eq_length_filter]
  congr 2
  funext b
  rw [covers, inBox, hbox, Bool.and_comm]

end Area

/-! ## What a request has to do still -/

inductive Wave where
  /-- the bikes are not counted yet -/
  | counting
  /-- so many bikes are to be put out, with so many attempts at the first of them -/
  | putting (left tries : Nat)

def Wave.left : Wave → Nat
  | .counting => 0
  | .putting left _ => left

namespace Area

variable (P : Platform) (a : Area)

def allowed : Wave → Call → Prop
  | .counting, .repo (.lookupSession _) => True
  | .counting, .repo (.findOrCreate _) => True
  | .counting, .repo (.listInBounds latMin latMax lngMin lngMax) =>
    P.searchBox a.lat a.lng a.radius = (latMin, latMax, lngMin, lngMax)
  | .putting (_ + 1) (_ + 1), .repo (.insert b) => a.covers P b = true
  | _, _ => False

def next : Wave → (c : Call) → c.Res → Wave
  | .counting, .repo (.listInBounds _ _ _ _), bikes =>
    let near := bikes.filter fun b => a.inCircle P b.lat b.lng
    .putting (if near.length < kSpawnThreshold then kSpawnTarget - near.length else 0) kMaxNoRetry
  | .putting (left + 1) (tries + 2), .repo (.insert _), none => .putting (left + 1) (tries + 1)
  | .putting (left + 1) _, .repo (.insert _), _ => .putting left kMaxNoRetry
  | q, _, _ => q

/-- The calls of a `list_nearby_bikes`. -/
def calls : Discipline Call Call.Res Wave := ⟨a.allowed P, a.next P⟩

/-- Nothing is left to do at the end. -/
def Over {α : Type} (q : Wave) (_ : α) : Prop := q.left = 0

variable {P a}

/-- A request asks who it is for and counts, or it puts out a bike in range. -/
theorem allowed_cases {q : Wave} {c : Call} (h : a.allowed P q c) :
    (q = .counting ∧ ((∃ token, c = .repo (.lookupSession token)) ∨
      ∃ mobile, c = .repo (.findOrCreate mobile))) ∨
    (q = .counting ∧ ∃ latMin latMax lngMin lngMax,
      c = .repo (.listInBounds latMin latMax lngMin lngMax) ∧
        P.searchBox a.lat a.lng a.radius = (latMin, latMax, lngMin, lngMax)) ∨
    ∃ left tries b, q = .putting (left + 1) (tries + 1) ∧ c = .repo (.insert b) ∧
      a.covers P b = true := by
  unfold allowed at h
  split at h
  · exact .inl ⟨rfl, .inl ⟨_, rfl⟩⟩
  · exact .inl ⟨rfl, .inr ⟨_, rfl⟩⟩
  · exact .inr (.inl ⟨rfl, _, _, _, _, rfl, h⟩)
  · exact .inr (.inr ⟨_, _, _, rfl, rfl, h⟩)
  · exact h.elim

/-- The count decides how many bikes are to be put out. -/
theorem left_next_count (m : InMemory) {latMin latMax lngMin lngMax : Double}
    (hbox : P.searchBox a.lat a.lng a.radius = (latMin, latMax, lngMin, lngMax)) :
    (a.next P .counting (.repo (.listInBounds latMin latMax lngMin lngMax))
        (m.listInBounds latMin latMax lngMin lngMax)).left =
      if a.count P m < kSpawnThreshold then kSpawnTarget - a.count P m else 0 := by
  rw [← a.length_near P m hbox]
  rfl

/-- An insert that is answered takes a bike off, and one that is refused does so with
the last attempt. -/
theorem left_next_insert {left tries : Nat} {b : Bike} (found : Option Bike) :
    (a.next P (.putting (left + 1) tries) (.repo (.insert b)) found).left +
      found.toList.length ≤ left + 1 := by
  match tries, found with
  | 0, some _ | 1, some _ | _ + 2, some _ | _ + 2, none => exact Nat.le_refl (left + 1)
  | 0, none | 1, none => exact Nat.le_succ left

theorem insertBike_obeys_wave (draws : SpawnDraws) (i : Nat) {lat lng : Double}
    (hlat : a.inBox P lat lng = true) (hlng : a.inCircle P lat lng = true) (left tries : Nat) :
    (insertBike draws i lat lng (tries + 1)).Obeys (a.calls P)
      (fun q _ => q = .putting left kMaxNoRetry) (.putting (left + 1) (tries + 1)) := by
  have hcovers : ∀ no, a.covers P ⟨0, no, lat, lng, .idle⟩ = true := fun no => by
    rw [covers, hlat, hlng, Bool.and_self]
  induction tries with
  | zero =>
    refine ⟨hcovers _, fun found => ?_⟩
    cases found with
    | none => rfl
    | some b => rfl
  | succ tries ih =>
    refine ⟨hcovers _, fun found => ?_⟩
    cases found with
    | none => exact ih
    | some b => rfl

theorem spawnBikes_obeys_wave {draws : SpawnDraws} (hdraws : a.Scatters P draws) (total need : Nat) :
    (spawnBikes P draws total a.lat a.lng a.radius need).Obeys (a.calls P)
      (fun q _ => q = .putting 0 kMaxNoRetry) (.putting need kMaxNoRetry) := by
  induction need with
  | zero => rfl
  | succ need ih =>
    obtain ⟨hbox, hcircle⟩ := hdraws (total - (need + 1))
    refine (insertBike_obeys_wave draws _ hbox hcircle need 3).bind fun q b hq => ?_
    subst hq
    exact ih.bind fun q _ hq => hq

theorem listNearbyBikes_obeys_wave {draws : SpawnDraws} (hdraws : a.Scatters P draws)
    (token : String) :
    (listNearbyBikes P draws (some ⟨token, a.lat, a.lng, a.radiusM⟩)).Obeys (a.calls P) Over
      .counting := by
  refine ⟨trivial, fun found => ?_⟩
  cases found with
  | none => rfl
  | some mobile =>
    refine ⟨trivial, fun u => ?_⟩
    refine .ite (fun _ => rfl) fun _ => ⟨rfl, fun bikes => ?_⟩
    -- the wave that was counted is the wave that is put out
    generalize hq : (a.calls P).next _ _ bikes = q
    refine .ite (fun hfew => ?_) fun hmany => ?_
    · have hwave : q = .putting _ kMaxNoRetry :=
        hq.symm.trans (congrArg (Wave.putting · kMaxNoRetry) (if_pos hfew))
      rw [hwave]
      exact (spawnBikes_obeys_wave hdraws _ _).bind fun q _ hover => congrArg Wave.left hover
    · have hwave : q = .putting 0 kMaxNoRetry :=
        hq.symm.trans (congrArg (Wave.putting · kMaxNoRetry) (if_neg hmany))
      rw [hwave]
      rfl

end Area

/-! ## The runs -/

/-- A request: what it draws, and the token it comes with. -/
structure NearbyJob where
  draws : SpawnDraws
  token : String

def NearbyJob.request (a : Area) (job : NearbyJob) : ListNearbyBikesRequest :=
  ⟨job.token, a.lat, a.lng, a.radiusM⟩

/-- Requests at work on the repositories, and the bikes they have inserted. -/
structure Spawning (P : Platform) (ι : Type) extends
    Pool (World P .inMemory) ι Call Call.Res (Outcome ListNearbyBikesResponse) Wave where
  inserted : List Bike

namespace Spawning

variable {P : Platform} {ι : Type}

/-- The bike that a turn inserts. -/
def made (s : Spawning P ι) (e : Turn ι Env) : Option Bike :=
  match s.threads e.thread with
  | .call (.repo (.insert b)) _ => (s.shared.repos.insert b).1
  | _ => none

def next [DecidableEq ι] (a : Area) (s : Spawning P ι) (e : Turn ι Env) : Option (Spawning P ι) :=
  (s.toPool.next (fun env c w => some (World.exec env c w)) (a.calls P) e).map fun p =>
    ⟨p, s.inserted ++ (s.made e).toList⟩

/-- Any number of requests for one area, their calls interleaved in any order. -/
def machine [DecidableEq ι] (P : Platform) (a : Area) (jobs : ι → NearbyJob) (w₀ : World P .inMemory) :
    Machine (Spawning P ι) (Turn ι Env) where
  init s := s.shared = w₀ ∧ s.threads = (fun i => listNearbyBikes P (jobs i).draws
    (some ((jobs i).request a))) ∧ s.phase = (fun _ => .counting) ∧ s.inserted = []
  next := next a

/-- A request counts while no other is about to insert. -/
def CountsAlone (s : Spawning P ι) (e : Turn ι Env) : Prop :=
  ∀ {latMin latMax lngMin lngMax k},
    s.threads e.thread = .call (.repo (.listInBounds latMin latMax lngMin lngMax)) k →
      ∀ j b k', s.threads j ≠ .call (.repo (.insert b)) k'

variable {a : Area} {jobs : ι → NearbyJob} {w₀ : World P .inMemory} {s t : Spawning P ι}
  {e : Turn ι Env}

/-- What a turn can do. -/
theorem next_cases [DecidableEq ι] (h : s.next a e = some t) :
    ∃ c k, s.threads e.thread = .call c k ∧
      s.toPool.next (fun env c w => some (World.exec env c w)) (a.calls P) e = some t.toPool ∧
      t.shared = (World.exec e.env c s.shared).2 ∧
      t.phase = update s.phase e.thread
        (a.next P (s.phase e.thread) c (World.exec e.env c s.shared).1) ∧
      t.inserted = s.inserted ++ (s.made e).toList := by
  obtain ⟨p, hp, rfl⟩ := Option.map_eq_some_iff.mp h
  obtain ⟨c, k, r, w, hc, hexec, rfl⟩ := Pool.next_cases hp
  have hanswer : World.exec e.env c s.shared = (r, w) := Option.some.inj hexec
  refine ⟨c, k, hc, hp, ?_, ?_, rfl⟩
  · rw [hanswer]
  · rw [hanswer]
    rfl

/-- What holds in every run: the requests obey, and the bikes are those at the start
and those that were inserted, which are all in range. -/
structure Kept (a : Area) (w₀ : World P .inMemory) (s : Spawning P ι) : Prop where
  obedient : s.toPool.Obedient (a.calls P) Area.Over
  rows : s.shared.repos.bikes.rows.Perm (s.inserted ++ w₀.repos.bikes.rows)
  covered : ∀ b ∈ s.inserted, a.covers P b = true

/-- The count is what it was at the start and what was inserted. -/
theorem Kept.count (h : s.Kept a w₀) :
    a.count P s.shared.repos = a.count P w₀.repos + s.inserted.length := by
  rw [Area.count, h.rows.countP_eq, List.countP_append, List.countP_eq_length.mpr h.covered,
    Nat.add_comm]
  rfl

/-- All bikes have different numbers, those that were there included. -/
theorem Kept.nodup (h : s.Kept a w₀) :
    ((s.inserted ++ w₀.repos.bikes.rows).map (·.bikeNo)).Nodup := by
  refine (h.rows.map _).nodup_iff.mp (List.pairwise_map.mpr ?_)
  exact s.shared.repos.bikes.sorted.imp fun hlt => ne_of_lt hlt

/-- A request with bikes to put out is about to insert one. -/
theorem Kept.inserting (h : s.Kept a w₀) {i : ι} (hleft : 0 < (s.phase i).left) :
    ∃ b k, s.threads i = .call (.repo (.insert b)) k := by
  have hobeys := h.obedient i
  cases hthread : s.threads i with
  | done r =>
    rw [hthread] at hobeys
    exact absurd hobeys (Nat.ne_of_gt hleft)
  | call c k =>
    rw [hthread] at hobeys
    rcases Area.allowed_cases hobeys.1 with ⟨hq, -⟩ | ⟨hq, -⟩ | ⟨left, tries, b, -, rfl, -⟩
    · rw [hq] at hleft
      cases hleft
    · rw [hq] at hleft
      cases hleft
    · exact ⟨b, k, rfl⟩

/-- Asking who a request is for leaves the bikes alone. -/
theorem bikes_requireUser (env : Env) {c : Call} (hc : (∃ token, c = .repo (.lookupSession token)) ∨
    ∃ mobile, c = .repo (.findOrCreate mobile)) (w : World P .inMemory) :
    (World.exec env c w).2.repos.bikes = w.repos.bikes := by
  rcases hc with ⟨token, rfl⟩ | ⟨mobile, rfl⟩
  · simp only [World.exec, Deployment.exec, InMemory.exec, InMemory.lookupSession]
    split
    · rfl
    · split <;> rfl
  · simp only [World.exec, Deployment.exec, InMemory.exec, InMemory.findOrCreate]
    split <;> rfl

/-- A bike that is inserted is added to the others. -/
theorem insert_perm (m : InMemory) (b : Bike) :
    (m.insert b).2.bikes.rows.Perm ((m.insert b).1.toList ++ m.bikes.rows) := by
  unfold InMemory.insert
  split
  · exact BikeMap.insertRow_perm _ m.bikes.rows
  · exact .refl _

/-- It stands where it was meant to. -/
theorem covers_insert (m : InMemory) {b nb : Bike} (h : (m.insert b).1 = some nb) :
    a.covers P nb = a.covers P b := by
  unfold InMemory.insert at h
  split at h
  · cases h
    rfl
  · cases h

theorem made_of_call {c : Call} {k : c.Res → Prog Call Call.Res (Outcome ListNearbyBikesResponse)}
    (hc : s.threads e.thread = .call c k) (hinsert : ∀ b, c ≠ .repo (.insert b)) :
    s.made e = none := by
  unfold made
  split
  next b k' hc' =>
    cases hc.symm.trans hc'
    exact absurd rfl (hinsert b)
  · rfl

theorem made_of_insert {b : Bike}
    {k : Option Bike → Prog Call Call.Res (Outcome ListNearbyBikesResponse)}
    (hc : s.threads e.thread = .call (.repo (.insert b)) k) :
    s.made e = (s.shared.repos.insert b).1 := by
  rw [made, hc]

theorem Kept.next [DecidableEq ι] (h : s.Kept a w₀) (hnext : s.next a e = some t) :
    t.Kept a w₀ := by
  obtain ⟨c, k, hc, hpool, hshared, -, hinserted⟩ := next_cases hnext
  have hallowed := h.obedient e.thread
  rw [hc] at hallowed
  -- a call that inserts nothing leaves the bikes alone
  have hsame : t.shared.repos.bikes = s.shared.repos.bikes → (∀ b, c ≠ .repo (.insert b)) →
      t.Kept a w₀ := by
    intro hbikes hne
    rw [made_of_call hc hne, Option.toList_none, List.append_nil] at hinserted
    exact ⟨h.obedient.next hpool, by rw [hbikes, hinserted]; exact h.rows,
      by rw [hinserted]; exact h.covered⟩
  rcases Area.allowed_cases hallowed.1 with ⟨-, huser⟩ | ⟨-, _, _, _, _, rfl, -⟩ |
      ⟨left, tries, b, -, rfl, hcovers⟩
  · refine hsame (by rw [hshared, bikes_requireUser e.env huser]) ?_
    rcases huser with ⟨token, rfl⟩ | ⟨mobile, rfl⟩
    · nofun
    · nofun
  · exact hsame (by rw [hshared]; rfl) nofun
  · rw [made_of_insert hc] at hinserted
    have hperm := insert_perm s.shared.repos b
    refine ⟨h.obedient.next hpool, ?_, fun nb hnb => ?_⟩
    · rw [hshared, hinserted]
      change (s.shared.repos.insert b).2.bikes.rows.Perm _
      refine hperm.trans ((h.rows.append_left _).trans ?_)
      rw [← List.append_assoc]
      exact List.perm_append_comm.append_right _
    · rw [hinserted] at hnb
      rcases List.mem_append.mp hnb with hold | hnew
      · exact h.covered nb hold
      · rw [covers_insert s.shared.repos (Option.mem_toList.mp hnew)]
        exact hcovers

theorem Kept.start (hjobs : ∀ i, a.Scatters P (jobs i).draws) [DecidableEq ι]
    (h : (machine P a jobs w₀).init s) : s.Kept a w₀ := by
  obtain ⟨hshared, hthreads, hphase, hinserted⟩ := h
  refine ⟨fun i => ?_, by rw [hshared, hinserted]; exact .refl _, by rw [hinserted]; exact nofun⟩
  rw [hthreads, hphase]
  exact Area.listNearbyBikes_obeys_wave (hjobs i) (jobs i).token

theorem Kept.of_reachable (hjobs : ∀ i, a.Scatters P (jobs i).draws) [DecidableEq ι]
    {ok : Spawning P ι → Turn ι Env → Prop} (h : (machine P a jobs w₀).ReachableWhile ok s) :
    s.Kept a w₀ :=
  Machine.invariant (I := Kept a w₀) (fun _ => .start hjobs) (fun _ _ _ hkept _ => hkept.next) h

/-! ## Requests that count alone -/

/-- One request at most has bikes to put out, and no more than are missing. -/
structure OneWave (a : Area) (w₀ : World P .inMemory) (s : Spawning P ι) : Prop where
  alone : ∀ i j, 0 < (s.phase i).left → 0 < (s.phase j).left → i = j
  few : ∀ i, 0 < (s.phase i).left → a.count P w₀.repos < kSpawnThreshold
  room : ∀ i, 0 < (s.phase i).left →
    a.count P w₀.repos + s.inserted.length + (s.phase i).left ≤ kSpawnTarget
  bound : s.inserted.length ≤ kSpawnTarget - a.count P w₀.repos
  none : kSpawnThreshold ≤ a.count P w₀.repos → s.inserted = []

/-- A turn after which its request has no more to do, counting what it inserted. -/
theorem OneWave.spend [DecidableEq ι] (h : s.OneWave a w₀) {i : ι} {q : Wave} {made : List Bike}
    (hphase : t.phase = update s.phase i q) (hinserted : t.inserted = s.inserted ++ made)
    (hspend : q.left + made.length ≤ (s.phase i).left) : t.OneWave a w₀ := by
  have hlength : t.inserted.length = s.inserted.length + made.length := by
    rw [hinserted, List.length_append]
  have hback : ∀ j, 0 < (t.phase j).left → 0 < (s.phase j).left := by
    rw [hphase]
    exact fun j => of_update (fun q : Wave => 0 < q.left) (by omega)
  -- who inserts has bikes to put out, so nobody else has
  have hmade : ∀ j, 0 < made.length → 0 < (s.phase j).left → j = i := fun j hmade hj =>
    h.alone j i hj (by omega)
  refine ⟨fun j k hj hk => h.alone j k (hback j hj) (hback k hk), fun j hj => h.few j (hback j hj),
    fun j hj => ?_, ?_, fun hmany => ?_⟩
  · have hroom := h.room j (hback j hj)
    by_cases hji : j = i
    · rw [hphase, hji, update_self, hlength]
      rw [hji] at hroom
      omega
    · have hnone : ¬ 0 < made.length := fun hpos => hji (hmade j hpos (hback j hj))
      rw [hphase, update_of_ne hji, hlength]
      omega
  · by_cases hpos : 0 < made.length
    · have hroom := h.room i (by omega)
      omega
    · have hbound := h.bound
      omega
  · have hnil : made = [] := by
      by_contra hne
      have hpos := List.length_pos_iff.mpr hne
      exact absurd (h.few i (by omega)) (Nat.not_lt.mpr hmany)
    rw [hinserted, hnil, h.none hmany]
    rfl

/-- A request counts too few bikes while no other has any to put out. -/
theorem OneWave.begin [DecidableEq ι] (h : s.OneWave a w₀) {i : ι} {q : Wave}
    (hphase : t.phase = update s.phase i q) (hinserted : t.inserted = s.inserted)
    (halone : ∀ j, ¬ 0 < (s.phase j).left)
    (hfew : a.count P w₀.repos + s.inserted.length < kSpawnThreshold)
    (hleft : q.left = kSpawnTarget - (a.count P w₀.repos + s.inserted.length)) : t.OneWave a w₀ := by
  have hown : ∀ j, 0 < (t.phase j).left → j = i := by
    intro j hj
    by_contra hji
    rw [hphase, update_of_ne hji] at hj
    exact halone j hj
  refine ⟨fun j k hj hk => (hown j hj).trans (hown k hk).symm, fun j hj => by omega,
    fun j hj => ?_, hinserted ▸ h.bound, hinserted ▸ h.none⟩
  rw [hphase, hown j hj, update_self, hleft, hinserted]
  exact Nat.le_of_eq (Nat.add_sub_cancel' (Nat.le_of_lt (hfew.trans (by decide))))

theorem OneWave.next [DecidableEq ι] (hkept : s.Kept a w₀) (h : s.OneWave a w₀)
    (halone : s.CountsAlone e) (hnext : s.next a e = some t) : t.OneWave a w₀ := by
  obtain ⟨c, k, hc, -, -, hphase, hinserted⟩ := next_cases hnext
  have hallowed := hkept.obedient e.thread
  rw [hc] at hallowed
  rcases Area.allowed_cases hallowed.1 with ⟨hcounting, huser⟩ |
      ⟨hcounting, latMin, latMax, lngMin, lngMax, rfl, hbox⟩ | ⟨left, tries, b, hputting, rfl, -⟩
  · rw [hcounting] at hphase
    refine h.spend hphase hinserted ?_
    rcases huser with ⟨token, rfl⟩ | ⟨mobile, rfl⟩
    · rw [made_of_call hc nofun]
      exact Nat.zero_le _
    · rw [made_of_call hc nofun]
      exact Nat.zero_le _
  · rw [hcounting] at hphase
    rw [made_of_call hc nofun, Option.toList_none, List.append_nil] at hinserted
    have hnobody : ∀ j, ¬ 0 < (s.phase j).left := by
      intro j hj
      obtain ⟨b, k', hj'⟩ := hkept.inserting hj
      exact halone hc j b k' hj'
    have hleft := Area.left_next_count s.shared.repos hbox
    rw [hkept.count] at hleft
    by_cases hfew : a.count P w₀.repos + s.inserted.length < kSpawnThreshold
    · rw [if_pos hfew] at hleft
      exact h.begin hphase hinserted hnobody hfew hleft
    · rw [if_neg hfew] at hleft
      refine h.spend hphase (hinserted.trans (List.append_nil _).symm) ?_
      exact (Nat.le_of_eq hleft).trans (Nat.zero_le _)
  · rw [made_of_insert hc] at hinserted
    rw [hputting] at hphase
    refine h.spend hphase hinserted ?_
    rw [hputting]
    exact Area.left_next_insert _

theorem OneWave.of_reachable (hjobs : ∀ i, a.Scatters P (jobs i).draws) [DecidableEq ι]
    (h : (machine P a jobs w₀).ReachableWhile CountsAlone s) : s.OneWave a w₀ := by
  refine (Machine.invariant (I := fun s => s.Kept a w₀ ∧ s.OneWave a w₀) ?_ ?_ h).2
  · intro s hs
    refine ⟨.start hjobs hs, ?_⟩
    obtain ⟨-, -, hphase, hinserted⟩ := hs
    have hidle : ∀ i, ¬ 0 < (s.phase i).left := fun i => by rw [hphase]; exact Nat.lt_irrefl 0
    exact ⟨fun i _ hi => absurd hi (hidle i), fun i hi => absurd hi (hidle i),
      fun i hi => absurd hi (hidle i), by rw [hinserted]; exact Nat.zero_le _, fun _ => hinserted⟩
  · exact fun s e t ⟨hkept, hwave⟩ halone hnext =>
      ⟨hkept.next hnext, hwave.next hkept halone hnext⟩

end Spawning

/-- **One wave an area.** In every run the numbers of the bikes that the requests
insert are different from each other and from those that were there. If each request
counts while no other is about to insert, they insert no more bikes than were missing to
twelve at the start, and none if there were five. -/
theorem one_wave {P : Platform} {ι : Type} [DecidableEq ι] {a : Area} {jobs : ι → NearbyJob}
    {w₀ : World P .inMemory} (hjobs : ∀ i, a.Scatters P (jobs i).draws) :
    (∀ {s}, (Spawning.machine P a jobs w₀).Reachable s →
      ((s.inserted ++ w₀.repos.bikes.rows).map (·.bikeNo)).Nodup) ∧
    ∀ {s}, (Spawning.machine P a jobs w₀).ReachableWhile Spawning.CountsAlone s →
      s.inserted.length ≤ kSpawnTarget - a.count P w₀.repos ∧
        (kSpawnThreshold ≤ a.count P w₀.repos → s.inserted = []) :=
  ⟨fun h => (Spawning.Kept.of_reachable hjobs h).nodup, fun h =>
    have hwave := Spawning.OneWave.of_reachable hjobs h
    ⟨hwave.bound, hwave.none⟩⟩

/-! ## Two requests for an empty area -/

/-- One user, signed in as `token`, and no bike. -/
def World.deserted : World Platform.standstill .inMemory where
  repos :=
    { users := fun mobile => if mobile = "13800000000" then some ⟨1, mobile⟩ else none
      nextUserId := 2
      balances := fun _ => none
      records := fun _ => []
      codes := fun _ => none
      tokens := fun t => if t = "token" then some ("13800000000", 10000) else none
      bikes := ⟨[], BikeMap.nil_sorted⟩
      nextBikeId := 1000000
      rides := []
      points := fun _ => []
      rideByNo := fun _ => none
      nextRideId := 1 }
  sessions := .empty

/-- The middle of nowhere. -/
def Area.origin : Area := ⟨.fin 0, .fin 0, .fin 500⟩

/-- A number as a place in the alphabet. -/
def letter (n : Nat) : Fin 31 := ⟨n % 31, Nat.mod_lt n (by decide)⟩

/-- Two requests that draw different numbers: the request, the bike and the attempt
make the suffix. -/
def twoJobs (i : Fin 2) : NearbyJob where
  draws := ⟨fun _ => (.fin 0, .fin 0), fun bike attempt place =>
    letter (if place = 0 then i else if place = 1 then bike else attempt)⟩
  token := "token"

theorem twoJobs_scatter (i : Fin 2) :
    Area.origin.Scatters Platform.standstill (twoJobs i).draws := by
  intro k
  change Area.origin.inBox Platform.standstill (.fin 0) (.fin 0) = true ∧
    Area.origin.inCircle Platform.standstill (.fin 0) (.fin 0) = true
  decide

def twoStart : Spawning Platform.standstill (Fin 2) where
  shared := World.deserted
  threads i := listNearbyBikes Platform.standstill (twoJobs i).draws
    (some ((twoJobs i).request .origin))
  phase _ := .counting
  inserted := []

/-- `CountsAlone`, computed. -/
def twoCheck (s : Spawning Platform.standstill (Fin 2)) (e : Turn (Fin 2) Env) : Bool :=
  match s.threads e.thread with
  | .call (.repo (.listInBounds _ _ _ _)) _ => (List.finRange 2).all fun j =>
    match s.threads j with
    | .call (.repo (.insert _)) _ => false
    | _ => true
  | _ => true

theorem twoCheck_sound (s : Spawning Platform.standstill (Fin 2)) (e : Turn (Fin 2) Env)
    (h : twoCheck s e = true) : s.CountsAlone e := by
  intro latMin latMax lngMin lngMax k hc j b k' hj
  rw [twoCheck, hc] at h
  have hthread := List.all_eq_true.mp h j (List.mem_finRange j)
  rw [hj] at hthread
  cases hthread

/-- One after the other: the second finds twelve. -/
theorem one_wave_in_turn :
    ∃ s, (Spawning.machine Platform.standstill .origin twoJobs World.deserted).ReachableWhile
        Spawning.CountsAlone s ∧ s.inserted.length = 12 ∧
      s.inserted.length ≤ kSpawnTarget - Area.origin.count Platform.standstill World.deserted.repos := by
  obtain ⟨s, hreach, hlength⟩ :
      ∃ s, (Spawning.machine Platform.standstill .origin twoJobs World.deserted).ReachableWhile
        Spawning.CountsAlone s ∧ s.inserted.length = 12 :=
    Machine.exists_of_playWhile twoCheck_sound twoStart ⟨rfl, rfl, rfl, rfl⟩
      (List.replicate 15 ⟨0, .calm 200⟩ ++ List.replicate 3 ⟨1, .calm 200⟩) (by decide +kernel)
  exact ⟨s, hreach, hlength, ((one_wave twoJobs_scatter).2 hreach).1⟩

/-- Both count before either puts out a bike. -/
theorem two_waves :
    (Spawning.machine Platform.standstill .origin twoJobs World.deserted).init twoStart ∧
    (∀ i, Area.origin.Scatters Platform.standstill (twoJobs i).draws) ∧
    Area.origin.count Platform.standstill World.deserted.repos = 0 ∧
    ((Spawning.machine Platform.standstill .origin twoJobs World.deserted).play twoStart
        (List.replicate 3 ⟨0, .calm 200⟩ ++ List.replicate 3 ⟨1, .calm 200⟩ ++
          List.replicate 12 ⟨0, .calm 200⟩ ++ List.replicate 12 ⟨1, .calm 200⟩)).map
      (fun s => s.inserted.length) = some 24 :=
  ⟨⟨rfl, rfl, rfl, rfl⟩, twoJobs_scatter, by decide, by decide +kernel⟩

end SharedBike.Server
