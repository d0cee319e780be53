import SharedBike.Server.Handlers

/-!
# In what order the ride handlers make their calls

`RidePhase` says how far a handler has come with a ride or a bike, as far as
its calls and their answers show: an `end_ride` holds a session from the
`find` that gave it to the `remove`, a `scan_unlock` holds a bike from the
`get_for_update` that showed it idle to the `update_status`. `rideCalls` is
the discipline that goes with it. The laws about runs and interleavings stand
on the discipline; that the twelve handlers obey it is in `Server.Courses`.
-/

namespace SharedBike.Server

open SharedBike.Common SharedBike.Lib

inductive RidePhase where
  /-- nothing to do with a ride, or done with it -/
  | outside
  /-- an `end_ride` that does not know its caller yet -/
  | entering
  /-- an `end_ride` of this user -/
  | caller (uid : Int32)
  /-- the user's session was found -/
  | holding (sess : RideSession)
  /-- the charge did not come back negative -/
  | charged (sess : RideSession)
  /-- the ride was handed to the archive -/
  | archived (sess : RideSession)
  /-- the bike was set idle -/
  | freed (sess : RideSession)
  /-- a `scan_unlock` that has not seen its bike yet -/
  | scanning
  /-- the bike was seen idle -/
  | seen (bikeId : Int32)
  /-- the session was created -/
  | created (bikeId : Int32)
  /-- a `report_damage` -/
  | reporting
  /-- a `list_nearby_bikes` that can still put out so many bikes -/
  | browsing (left : Nat)

namespace RidePhase

/-- The session an `end_ride` has found and not yet removed. -/
def session : RidePhase → Option RideSession
  | .holding sess | .charged sess | .archived sess | .freed sess => some sess
  | _ => none

/-- The bike a `scan_unlock` has seen idle and not yet marked. -/
def bike : RidePhase → Option Int32
  | .seen b | .created b => some b
  | _ => none

/-- The calls that move money, archive a ride, make a bike, or change a session
or the status of a bike, each in its place, and lookups of the rides in `look`.
Every other call is free. -/
def allowed (look : String → Prop) (q : RidePhase) : Call → Prop
  | .repo (.addBalance uid .consume amount) => amount < 0 ∧ ∃ sess, q = .holding sess ∧
      uid = sess.userId
  | .repo (.addBalance _ .recharge _) => q = .outside
  | .repo (.createWithPoints inp) => ∃ sess, q = .charged sess ∧ inp.rideNo = sess.rideNo
  | .repo (.updateStatus id .idle) => ∃ sess, q = .archived sess ∧ id = sess.bikeId
  | .repo (.updateStatus id .rented) => q = .created id
  | .repo (.updateStatus _ .damaged) => q = .reporting
  | .repo (.insert b) => b.status = .idle ∧ ∃ left, q = .browsing (left + 1)
  | .ride (.create s) => q = .seen s.bikeId
  | .ride (.find rideNo) => look rideNo ∧ ∃ uid, q = .caller uid
  | .ride (.remove rideNo) => ∃ sess, q = .freed sess ∧ rideNo = sess.rideNo
  | _ => True

def next : RidePhase → (c : Call) → c.Res → RidePhase
  | .entering, .repo (.findOrCreate _), u => .caller u.id
  | .caller uid, .ride (.find _), found =>
    match found with
    | some sess => if sess.userId = uid then .holding sess else .outside
    | none => .outside
  | .holding sess, .repo (.addBalance _ _ _), newBal =>
    if newBal < 0 then .outside else .charged sess
  | .charged sess, .repo (.createWithPoints _), _ => .archived sess
  | .archived sess, .repo (.updateStatus _ _), _ => .freed sess
  | .freed _, .ride (.remove _), _ => .outside
  | .scanning, .repo (.getForUpdate _), found =>
    match found with
    | some b => if b.status = .idle then .seen b.id else .outside
    | none => .outside
  | .seen b, .repo (.getBalance _), bal => if bal < 100 then .outside else .seen b
  | .seen b, .ride (.create _), _ => .created b
  | .created _, .repo (.updateStatus _ _), _ => .outside
  | .browsing left, .repo (.insert _), found => .browsing (left - found.toList.length)
  | q, _, _ => q

end RidePhase

def rideCalls (look : String → Prop) : Discipline Call Call.Res RidePhase :=
  ⟨RidePhase.allowed look, RidePhase.next⟩

/-- The phase a handler starts in. -/
def Request.phase : Request → RidePhase
  | .endRide _ => .entering
  | .scanUnlock _ => .scanning
  | .reportDamage _ => .reporting
  | .listNearbyBikes _ _ => .browsing kSpawnTarget
  | _ => .outside

/-- A handler that ends anyhow, from a phase. -/
abbrev ObeysFrom {α : Type} (look : String → Prop) (q : RidePhase) (p : Calls α) : Prop :=
  p.Obeys (rideCalls look) (fun _ _ => True) q

/-! ## What a phase holds -/

namespace RidePhase

/-- How many bikes the handler can still put out. -/
def room : RidePhase → Nat
  | .browsing left => left
  | _ => 0

/-- An `end_ride` that has not looked for its ride yet. -/
def early : RidePhase → Prop
  | .entering | .caller _ => True
  | _ => False

/-- What `q'` holds, `q` held. -/
structure Within (q' q : RidePhase) : Prop where
  seen : ∀ b, q' = .seen b → q = .seen b
  bike : ∀ b, q'.bike = some b → q.bike = some b
  session : ∀ sess, q'.session = some sess → q.session = some sess

theorem Within.refl (q : RidePhase) : q.Within q :=
  ⟨fun _ => id, fun _ => id, fun _ => id⟩

/-- An `end_ride` that goes on with its session, or a handler that holds nothing any more. -/
theorem Within.of_session {q' q : RidePhase} (hbike : q'.bike = none)
    (hsess : ∀ sess, q'.session = some sess → q.session = some sess) : q'.Within q := by
  refine ⟨fun b h => ?_, fun b h => ?_, hsess⟩
  · subst h
    cases hbike
  · rw [hbike] at h
    cases h

theorem Within.outside (q : RidePhase) : RidePhase.outside.Within q :=
  .of_session rfl fun _ h => by cases h

variable {q : RidePhase}

/-- A repository call takes hold of nothing, other than by `get_for_update`. -/
theorem next_repo_within {c : RepoCall} (hc : ∀ no, c ≠ .getForUpdate no) (r : c.Res) :
    (q.next (.repo c) r).Within q := by
  cases q with
  | entering =>
    cases c with
    | findOrCreate mobile => exact .of_session rfl fun _ h => by cases h
    | _ => exact .refl _
  | holding sess =>
    cases c with
    | addBalance uid type amount =>
      by_cases hneg : r < 0
      · simp only [next, hneg, if_true]
        exact .outside _
      · simp only [next, hneg, if_false]
        exact .of_session rfl fun _ => id
    | _ => exact .refl _
  | charged sess =>
    cases c with
    | createWithPoints inp => exact .of_session rfl fun _ => id
    | _ => exact .refl _
  | archived sess =>
    cases c with
    | updateStatus b st => exact .of_session rfl fun _ => id
    | _ => exact .refl _
  | scanning =>
    cases c with
    | getForUpdate no => exact absurd rfl (hc no)
    | _ => exact .refl _
  | seen b =>
    cases c with
    | getBalance uid =>
      by_cases hlow : r < 100
      · simp only [next, hlow, if_true]
        exact .outside _
      · simp only [next, hlow, if_false]
        exact .refl _
    | _ => exact .refl _
  | created b =>
    cases c with
    | updateStatus id st => exact .outside _
    | _ => exact .refl _
  | browsing left =>
    cases c with
    | insert b => exact .of_session rfl fun _ => id
    | _ => exact .refl _
  | _ => exact .refl _

theorem next_room (c : Call) (r : c.Res) : (q.next c r).room ≤ q.room := by
  unfold next
  split
  case h_2 | h_7 => split <;> [(split <;> exact Nat.le_refl _); exact Nat.le_refl _]
  case h_3 => split <;> exact Nat.le_refl _
  case h_8 => split <;> exact Nat.le_refl _
  case h_11 => exact Nat.sub_le _ _
  all_goals exact Nat.le_refl _

/-- No call leads back before the lookup. -/
theorem next_early {c : Call} {r : c.Res} (h : (q.next c r).early) : q.early := by
  unfold next at h
  split at h
  case h_1 => trivial
  case h_2 => trivial
  case h_3 => split at h <;> cases h
  case h_7 => split at h <;> [(split at h <;> cases h); cases h]
  case h_8 => split at h <;> cases h
  case h_12 => exact h
  all_goals cases h

end RidePhase

end SharedBike.Server
