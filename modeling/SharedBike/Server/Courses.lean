import SharedBike.Server.Phases
import SharedBike.Server.Acting

/-!
# The course of a handler

How far a handler has come with a ride or a bike (`RidePhase`), on whose account it
writes (`Acting`) and what it stands on (`Standing`) are three readings of the same
calls. `courses` is the discipline of all three, and each of the twelve handlers
obeys it (`dispatch_course`). This is the only place where the handlers are taken
apart for them; the laws about runs and interleavings stand on the three parts
(`dispatch_obeys`, `dispatch_acts`, `dispatch_stands`).
-/

namespace SharedBike.Server

open SharedBike.Common SharedBike.Lib

structure Course where
  phase : RidePhase
  acting : Acting
  standing : Standing

def courses (look : String → Prop) (r : Request) : Discipline Call Call.Res Course where
  allowed q c := q.phase.allowed look c ∧ q.acting.allowed r c ∧ q.standing.allowed c
  next q c a := ⟨q.phase.next c a, q.acting.next c a, q.standing.next c a⟩

/-- The phase once the caller is known. -/
def RidePhase.signedIn : RidePhase → Int32 → RidePhase
  | .entering, uid => .caller uid
  | q, _ => q

section Handlers

variable {α : Type} {look : String → Prop} {r : Request} {token : String}

/-- A handler that ends anyhow. -/
abbrev KeepsTo (look : String → Prop) (r : Request) (q : Course) (p : Calls α) : Prop :=
  p.Obeys (courses look r) (fun _ _ => True) q

theorem keeps_done (q : Course) (a : α) : KeepsTo look r q (.done a) := trivial

/-- The lookup of a token: nobody, or the mobile that it belongs to. -/
theorem keeps_of_session {q : RidePhase} (h : r.token = some token)
    {k : Option String → Calls α} (hnone : ∀ q, KeepsTo look r q (k none))
    (hsome : ∀ mobile, KeepsTo look r ⟨q, .named mobile, .named mobile⟩ (k (some mobile))) :
    KeepsTo look r ⟨q, .anyone, .bearer token⟩ (repo (.lookupSession token) >>= k) := by
  refine .ask ⟨trivial, ⟨rfl, h⟩, rfl⟩ fun found => ?_
  cases found with
  | none => exact hnone _
  | some mobile =>
    have hphase : q.next (.repo (.lookupSession token)) (some mobile) = q := by cases q <;> rfl
    change KeepsTo look r ⟨q.next _ _, _, _⟩ (k (some mobile))
    rw [hphase]
    exact hsome mobile

/-- A handler that begins with the lookup of its caller: what is left to see is what it
does for them. -/
theorem keeps_of_user {q : RidePhase} (h : r.token = some token) {k : Option Int32 → Calls α}
    (hnone : ∀ q, KeepsTo look r q (k none))
    (huser : ∀ uid, KeepsTo look r ⟨q.signedIn uid, .user uid, .user uid⟩ (k (some uid))) :
    KeepsTo look r ⟨q, .anyone, .bearer token⟩ (requireUser token >>= k) := by
  refine keeps_of_session h hnone fun mobile => .ask ⟨trivial, .inl rfl, .inl rfl⟩ fun u => ?_
  have hphase : q.next (.repo (.findOrCreate mobile)) u = q.signedIn u.id := by cases q <;> rfl
  change KeepsTo look r ⟨q.next _ _, _, _⟩ (k (some u.id))
  rw [hphase]
  exact huser u.id

theorem login_course (h : r.token = none) (req : LoginRequest) :
    KeepsTo look r ⟨.outside, .anyone, .entering req.mobile req.icode⟩ (login (some req)) := by
  have hfree : Acting.anyone.known ∨ Acting.anyone = .anyone ∧ r.token = none := .inr ⟨rfl, h⟩
  refine .ask ⟨trivial, hfree, req.icode, rfl⟩ fun stored =>
    .ite (fun _ => keeps_done _ _) fun hstored => ?_
  have hstanding : (Standing.entering req.mobile req.icode).next (.repo (.getCode req.mobile))
      stored = .verified req.mobile req.icode := if_pos (not_not.mp hstored)
  change KeepsTo look r ⟨_, _, Standing.next _ _ _⟩ _
  rw [hstanding]
  refine .ask ⟨trivial, hfree, req.icode, rfl⟩ fun _ =>
    .ask ⟨trivial, .inr ⟨rfl, h⟩, .inr ⟨req.icode, rfl⟩⟩ fun u => ?_
  exact .ask ⟨trivial, hfree, .inr ⟨req.mobile, req.icode, rfl⟩⟩ fun _ =>
    .ask ⟨trivial, hfree, req.icode, rfl⟩ fun _ => keeps_done _ _

theorem insertBike_course (draws : SpawnDraws) (i : Nat) (lat lng : Double) (uid : Int32)
    (left tries : Nat) :
    (insertBike draws i lat lng tries).Obeys (courses look r)
      (fun q _ => ∃ left', left ≤ left' ∧ q = ⟨.browsing left', .user uid, .user uid⟩)
      ⟨.browsing (left + 1), .user uid, .user uid⟩ := by
  induction tries with
  | zero => exact ⟨left + 1, left.le_succ, rfl⟩
  | succ tries ih =>
    refine .ask ⟨⟨rfl, left, rfl⟩, .inl trivial, trivial⟩ fun found => ?_
    cases found with
    | none => exact ih
    | some b => exact ⟨left, le_refl left, rfl⟩

/-- `need` bikes need no more room than `need`. -/
theorem spawnBikes_course (P : Platform) (draws : SpawnDraws) (total : Nat)
    (lat lng radius : Double) (uid : Int32) {need left : Nat} (hroom : need ≤ left) :
    KeepsTo look r ⟨.browsing left, .user uid, .user uid⟩
      (spawnBikes P draws total lat lng radius need) := by
  induction need generalizing left with
  | zero => exact keeps_done _ _
  | succ need ih =>
    obtain ⟨room, rfl⟩ := Nat.exists_eq_add_of_lt hroom
    refine (insertBike_course draws _ _ _ uid (need + room) kMaxNoRetry).bind fun q b hq => ?_
    obtain ⟨left', hle, rfl⟩ := hq
    exact (ih (by omega)).bind fun _ _ _ => keeps_done _ _

theorem unlockBike_course (req : ScanUnlockRequest) (uid : Int32) (bike : Bike) :
    KeepsTo look (.scanUnlock (some req)) ⟨.seen bike.id, .user uid, .user uid⟩
      (unlockBike req uid bike) := by
  refine .ask ⟨trivial, .inl trivial, .inl rfl⟩ fun bal =>
    .ite (fun _ => keeps_done _ _) fun hbal => ?_
  simp only [courses, RidePhase.next, hbal, if_false]
  refine .ask ⟨trivial, .inl trivial, trivial⟩ fun seqTs =>
    .ask ⟨trivial, .inl trivial, trivial⟩ fun date => ?_
  cases makeRideNo date (dailySeq seqTs) with
  | error what => exact keeps_done _ _
  | ok rideNo =>
    exact .ask ⟨trivial, .inl trivial, trivial⟩ fun _ => .ask ⟨rfl, ⟨rfl, req, rfl⟩, rfl⟩ fun _ =>
      .ask ⟨rfl, .inl trivial, trivial⟩ fun _ => keeps_done _ _

theorem scanUnlock_course (req : ScanUnlockRequest) :
    KeepsTo look (.scanUnlock (some req)) ⟨.scanning, .anyone, .bearer req.sessionToken⟩
      (scanUnlock (some req)) := by
  refine keeps_of_user rfl (fun _ => keeps_done _ _) fun uid => .ite (fun _ => keeps_done _ _)
    fun _ => .ask ⟨trivial, .inl trivial, trivial⟩ fun found => ?_
  cases found with
  | none => exact keeps_done _ _
  | some bike =>
    obtain ⟨id, bikeNo, lat, lng, status⟩ := bike
    cases status with
    | damaged => exact keeps_done _ _
    | rented => exact keeps_done _ _
    | idle => exact unlockBike_course req uid ⟨id, bikeNo, lat, lng, .idle⟩

theorem settleRide_course (P : Platform) (req : EndRideRequest) (sess : RideSession) :
    KeepsTo look r ⟨.holding sess, .riding sess, .user sess.userId⟩
      (settleRide P req sess sess.userId) := by
  refine .ask ⟨trivial, .inl trivial, trivial⟩ fun endTs => ?_
  cases hfee : computeFee (duration endTs sess.startTs) with
  | error what => exact keeps_done _ _
  | ok amount =>
    have hneg := neg_fee_neg hfee
    refine .ask ⟨⟨hneg, sess, rfl, rfl⟩, ⟨hneg, sess, rfl, rfl⟩, rfl⟩ fun newBal =>
      .ite (fun _ => keeps_done _ _) fun hbal => ?_
    simp only [courses, RidePhase.next, hbal, if_false]
    exact .ask ⟨⟨sess, rfl, rfl⟩, ⟨sess, rfl, rfl, rfl⟩, rfl⟩ fun _ =>
      .ask ⟨trivial, .inl trivial, trivial⟩ fun _ =>
      .ask ⟨⟨sess, rfl, rfl⟩, .inl trivial, trivial⟩ fun _ =>
      .ask ⟨⟨sess, rfl, rfl⟩, ⟨sess, rfl, rfl⟩, trivial⟩ fun _ => keeps_done _ _

theorem replayRide_course (rideNo : String) (uid : Int32) :
    KeepsTo look r ⟨.outside, .user uid, .user uid⟩ (replayRide rideNo uid) := by
  refine .ask ⟨trivial, .inl trivial, trivial⟩ fun found => ?_
  cases found with
  | none => exact keeps_done _ _
  | some row =>
    exact .ite (fun _ => keeps_done _ _) fun _ =>
      .ask ⟨trivial, .inl trivial, .inl rfl⟩ fun _ => keeps_done _ _

theorem endRide_course (P : Platform) (req : EndRideRequest) (hlook : look req.rideNo) :
    KeepsTo look (.endRide (some req)) ⟨.entering, .anyone, .bearer req.sessionToken⟩
      (endRide P (some req)) := by
  refine keeps_of_user rfl (fun _ => keeps_done _ _) fun uid => .ite (fun _ => keeps_done _ _)
    fun _ => .ask ⟨⟨hlook, uid, rfl⟩, .inl trivial, trivial⟩ fun found => ?_
  cases found with
  | none => exact replayRide_course req.rideNo uid
  | some sess =>
    refine .ite (fun _ => keeps_done _ _) fun hown => ?_
    obtain rfl : sess.userId = uid := not_not.mp hown
    simp only [courses, RidePhase.signedIn, RidePhase.next, Acting.next, if_true]
    exact settleRide_course P req sess

/-- Every handler keeps to its course. -/
theorem dispatch_course (P : Platform) {r : Request}
    (hlook : ∀ req, r = .endRide (some req) → look req.rideNo) :
    KeepsTo look r ⟨r.phase, .anyone, r.standing⟩ (dispatch P r) := by
  have lift : ∀ {β : Type} {q : Course} {h : Calls (Outcome β)} {f : β → Reply},
      KeepsTo look r q h → KeepsTo look r q (answer h f) :=
    fun h => h.bind fun _ _ _ => keeps_done _ _
  match r with
  | .mobileCode (some req) =>
    exact lift (.ask ⟨trivial, .inr ⟨rfl, rfl⟩, rfl⟩ fun _ => keeps_done _ _)
  | .login (some req) => exact lift (login_course rfl req)
  | .recharge (some req) =>
    refine lift (.ite (fun _ => keeps_done _ _) fun hpos => ?_)
    refine keeps_of_session rfl (fun _ => keeps_done _ _) fun mobile =>
      .ask ⟨trivial, .inl rfl, .inl rfl⟩ fun u => ?_
    exact .ask ⟨rfl, ⟨rfl, Int32.not_le.mp hpos, req.sessionToken, rfl⟩, rfl⟩ fun _ =>
      keeps_done _ _
  | .accountBalance (some req) =>
    exact lift (keeps_of_session rfl (fun _ => keeps_done _ _) fun mobile =>
      .ask ⟨trivial, .inl rfl, .inl rfl⟩ fun u =>
      .ask ⟨trivial, .inl trivial, .inl rfl⟩ fun _ => keeps_done _ _)
  | .listRecords (some req) =>
    exact lift (keeps_of_session rfl (fun _ => keeps_done _ _) fun mobile =>
      .ask ⟨trivial, .inl rfl, .inl rfl⟩ fun u =>
      .ask ⟨trivial, .inl trivial, rfl⟩ fun _ => keeps_done _ _)
  | .listNearbyBikes draws (some req) =>
    refine lift (keeps_of_user rfl (fun _ => keeps_done _ _) fun uid => ?_)
    refine .ite (fun _ => keeps_done _ _) fun _ =>
      .ask ⟨trivial, .inl trivial, trivial⟩ fun bikes =>
      .ite (fun _ => ?_) fun _ => keeps_done _ _
    exact (spawnBikes_course P draws _ _ _ _ uid (Nat.sub_le _ _)).bind
      fun _ _ _ => keeps_done _ _
  | .scanUnlock (some req) => exact lift (scanUnlock_course req)
  | .positionReport (some req) => exact lift (.ask ⟨trivial, rfl, trivial⟩ fun _ => keeps_done _ _)
  | .endRide (some req) => exact lift (endRide_course P req (hlook req rfl))
  | .reportDamage (some req) =>
    refine lift (keeps_of_user rfl (fun _ => keeps_done _ _) fun uid =>
      .ite (fun _ => keeps_done _ _) fun _ =>
      .ask ⟨trivial, .inl trivial, trivial⟩ fun found => ?_)
    cases found with
    | none => exact keeps_done _ _
    | some bike => exact .ask ⟨rfl, .inl trivial, trivial⟩ fun _ => keeps_done _ _
  | .getRideDetail (some req) =>
    refine lift (keeps_of_user rfl (fun _ => keeps_done _ _) fun uid =>
      .ask ⟨trivial, .inl trivial, trivial⟩ fun found => ?_)
    cases found with
    | none => exact keeps_done _ _
    | some ride =>
      exact .ite (fun _ => keeps_done _ _) fun _ =>
        .ask ⟨trivial, .inl trivial, trivial⟩ fun _ => keeps_done _ _
  | .listRides (some req) =>
    exact lift (keeps_of_user rfl (fun _ => keeps_done _ _) fun uid =>
      .ask ⟨trivial, .inl trivial, rfl⟩ fun _ => keeps_done _ _)
  -- a request without its message is answered at once
  | .mobileCode none | .login none | .recharge none | .accountBalance none | .listRecords none
  | .listNearbyBikes _ none | .scanUnlock none | .positionReport none | .endRide none
  | .reportDamage none | .getRideDetail none | .listRides none => exact keeps_done _ _

end Handlers

/-! ## The three parts -/

section Parts

variable {α : Type} {look : String → Prop} {r : Request} {q : Course} {p : Calls α}

theorem KeepsTo.obeys (h : KeepsTo look r q p) : ObeysFrom look q.phase p :=
  h.map Course.phase (fun _ _ hc => hc.1) (fun _ _ _ => rfl) fun _ _ => id

/-- Every handler makes its calls in their places. -/
theorem dispatch_obeys (P : Platform) (hlook : ∀ req, r = .endRide (some req) → look req.rideNo) :
    ObeysFrom look r.phase (dispatch P r) :=
  (dispatch_course P hlook).obeys

/-- Every handler writes for its caller alone. -/
theorem dispatch_acts (P : Platform) (r : Request) :
    (dispatch P r).Obeys (accountCalls r) (fun _ _ => True) .anyone := by
  have hcourse : KeepsTo (fun _ => True) r _ (dispatch P r) := dispatch_course P fun _ _ => trivial
  exact hcourse.map Course.acting (fun _ _ hc => hc.2.1) (fun _ _ _ => rfl) fun _ _ => id

/-- Every handler keeps to its standing. -/
theorem dispatch_stands (P : Platform) (r : Request) :
    (dispatch P r).Obeys Standing.discipline (fun _ _ => True) r.standing := by
  have hcourse : KeepsTo (fun _ => True) r _ (dispatch P r) := dispatch_course P fun _ _ => trivial
  exact hcourse.map Course.standing (fun _ _ hc => hc.2.2) (fun _ _ _ => rfl) fun _ _ => id

end Parts

end SharedBike.Server
