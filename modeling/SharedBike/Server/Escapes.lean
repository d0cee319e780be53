import SharedBike.Server.Playback
import SharedBike.Server.Touching

/-!
# Texts in fixed buffers

Six repository functions write a text that a client chose into a buffer of
fixed length, by `mysql_real_escape_string`, which doubles seven characters
and ends with a zero. `Call.buffer` is the text and the length for each call
of a handler.

The handlers bound one of these texts: `valid_bike_no` admits 32 bytes, which
come to 65 when all of them are doubled, for a buffer of 64. The mobile of
`login` and the ride number of `end_ride` and `get_ride_detail` come in as long
as they are sent. Only the numbers that the server makes always have room.
`escapes_fit_iff` says for every request when all its texts have room.
-/

namespace SharedBike.Server

open SharedBike.Common SharedBike.Lib

variable {P : Platform} {c : Call} {rest : Prop}

/-! ## The buffers -/

/-- The text that a repository function escapes and the length of its buffer.
`find_or_create` escapes its text in `find_by_mobile` and again for the insert,
both times into 64 bytes. -/
def RepoCall.buffer : RepoCall → Option (Nat × String)
  | .findByMobile mobile => some (64, mobile)
  | .findOrCreate mobile => some (64, mobile)
  | .getForUpdate bikeNo => some (64, bikeNo)
  | .insert b => some (80, b.bikeNo)
  | .createWithPoints inp => some (64, inp.rideNo)
  | .findByNo rideNo => some (64, rideNo)
  | _ => none

def Call.buffer : Call → Option (Nat × String)
  | .repo c => c.buffer
  | _ => none

/-- The call overruns no buffer. -/
def Escaper.FitsCall (E : Escaper) (c : Call) : Prop := ∀ b ∈ c.buffer, E.Fits b.1 b.2

theorem Escaper.fitsCall_iff (E : Escaper) {cap : Nat} {s : String} (h : c.buffer = some (cap, s)) :
    E.FitsCall c ↔ Room cap s := by
  rw [FitsCall, h]
  simp only [Option.mem_some_iff, forall_eq', E.fits_iff]

theorem Escaper.fitsCall_of_none (E : Escaper) (h : c.buffer = none) :
    E.FitsCall c := by
  intro b hb
  rw [h] at hb
  cases hb

namespace World

/-- No call of the run overruns a buffer. -/
def Fit {α : Type} (E : Escaper) (env : Env) (p : Calls α) (w : World P .production) : Prop :=
  ∀ c ∈ World.calls env p w, E.FitsCall c

variable {α β : Type} {E : Escaper} {env : Env} {w : World P .production}

theorem fit_done (a : α) : Fit E env (.done a) w := fun _ hmem => absurd hmem List.not_mem_nil

theorem fit_ask {k : c.Res → Calls α} :
    Fit E env (Prog.ask c >>= k) w ↔
      E.FitsCall c ∧ Fit E env (k (World.exec env c w).1) (World.exec env c w).2 :=
  List.forall_mem_cons

/-- A call that writes no text. -/
theorem fit_plain (hc : c.buffer = none) {k : c.Res → Calls α} :
    Fit E env (Prog.ask c >>= k) w ↔
      Fit E env (k (World.exec env c w).1) (World.exec env c w).2 :=
  fit_ask.trans (and_iff_right (E.fitsCall_of_none hc))

theorem fit_bind {p : Calls α} {f : α → Calls β} :
    Fit E env (p >>= f) w ↔
      Fit E env p w ∧ Fit E env (f (World.run env p w).1) (World.run env p w).2 := by
  unfold Fit World.calls
  rw [Prog.calls_bind]
  exact List.forall_mem_append

/-- A program that writes no text, or only texts that have room. -/
theorem fit_of_makes {p : Calls α} (h : p.Makes (fun _ _ => True) E.FitsCall) :
    Fit E env p w :=
  h.calls (fun _ _ => trivial) w

/-- A program that goes on after a call that writes no text. -/
theorem makes_plain (hc : c.buffer = none) {k : c.Res → Calls α}
    (h : ∀ a, (k a).Makes (fun _ _ => True) E.FitsCall) :
    (Prog.ask c >>= k).Makes (fun _ _ => True) E.FitsCall :=
  .ask (E.fitsCall_of_none hc) fun a _ => h a

/-- A call that writes a text, the last one that could lack room. -/
theorem fit_text {cap : Nat} {s : String} (hc : c.buffer = some (cap, s)) {k : c.Res → Calls α}
    (h : ∀ a, (k a).Makes (fun _ _ => True) E.FitsCall) :
    Fit E env (Prog.ask c >>= k) w ↔ Room cap s := by
  refine fit_ask.trans ?_
  rw [E.fitsCall_iff hc]
  exact and_iff_left (fit_of_makes (h _))

/-! ## The handlers -/

/-- If the token is known, its mobile has room and so has the rest. -/
def CallerShort (env : Env) (w : World P .production) (token : String) (rest : Prop) : Prop :=
  ∀ mobile, w.repos.redis.lookupSession env token = some mobile → Room 64 mobile ∧ rest

/-- The texts that this request brings to the database have room. -/
def Short (env : Env) (w : World P .production) : Request → Prop
  | .login (some req) =>
    w.repos.redis.getCode env req.mobile = some req.icode → Room 64 req.mobile
  | .recharge (some req) => 0 < req.amount → w.CallerShort env req.sessionToken True
  | .accountBalance (some req) => w.CallerShort env req.sessionToken True
  | .listRecords (some req) => w.CallerShort env req.sessionToken True
  | .listNearbyBikes _ (some req) => w.CallerShort env req.sessionToken True
  | .scanUnlock (some req) => w.CallerShort env req.sessionToken
    (validBikeNo req.bikeNo ∧ validLat req.lat ∧ validLng req.lng → Room 64 req.bikeNo)
  | .endRide (some req) => w.CallerShort env req.sessionToken
    (validLat req.endLat ∧ validLng req.endLng → w.sessions.find req.rideNo = none →
      Room 64 req.rideNo)
  | .reportDamage (some req) => w.CallerShort env req.sessionToken
    (validBikeNo req.bikeNo → Room 64 req.bikeNo)
  | .getRideDetail (some req) => w.CallerShort env req.sessionToken (Room 64 req.rideNo)
  | .listRides (some req) => w.CallerShort env req.sessionToken True
  | _ => True

/-- A handler that looks its caller up. -/
theorem fit_session {token : String} {k : Option String → Calls α} (hnone : Fit E env (k none) w)
    (hsome : ∀ mobile, w.repos.redis.lookupSession env token = some mobile →
      (Fit E env (k (some mobile)) w ↔ Room 64 mobile ∧ rest)) :
    Fit E env (repo (.lookupSession token) >>= k) w ↔ w.CallerShort env token rest := by
  refine (fit_plain rfl).trans ?_
  show Fit E env (k (w.repos.redis.lookupSession env token)) w ↔ _
  unfold CallerShort
  cases hfound : w.repos.redis.lookupSession env token with
  | none => exact ⟨fun _ => nofun, fun _ => hnone⟩
  | some mobile =>
    rw [hsome mobile hfound]
    simp only [Option.some.injEq, forall_eq']

/-- The user of the mobile is found or made, and the rest follows. -/
theorem fit_findOrCreate {mobile : String} {k : User → Calls α}
    (hrest : ∀ u (w' : World P .production), w'.sessions = w.sessions →
      (Fit E env (k u) w' ↔ rest)) :
    Fit E env (repo (.findOrCreate mobile) >>= k) w ↔ Room 64 mobile ∧ rest := by
  refine fit_ask.trans (and_congr (E.fitsCall_iff rfl) ?_)
  exact hrest _ _ rfl

/-- A handler that begins with `require_user`. -/
theorem fit_user {token : String} {k : Option Int32 → Calls α}
    (hnone : ∀ w' : World P .production, Fit E env (k none) w')
    (hrest : ∀ uid (w' : World P .production), w'.sessions = w.sessions →
      (Fit E env (k (some uid)) w' ↔ rest)) :
    Fit E env (requireUser token >>= k) w ↔ w.CallerShort env token rest := by
  refine fit_session (k := fun found => _ >>= k) (hnone w) fun mobile _ => ?_
  exact fit_findOrCreate fun u w' hw' => hrest u.id w' hw'

theorem fit_login (req : LoginRequest) :
    Fit E env (login (some req)) w ↔
      (w.repos.redis.getCode env req.mobile = some req.icode → Room 64 req.mobile) := by
  refine (fit_plain rfl).trans ?_
  show Fit E env (if w.repos.redis.getCode env req.mobile ≠ some req.icode then _ else _) w ↔ _
  by_cases hcode : w.repos.redis.getCode env req.mobile = some req.icode
  · rw [if_neg (not_not.mpr hcode), imp_iff_right hcode]
    refine (fit_plain rfl).trans (fit_text rfl fun _ => ?_)
    exact makes_plain rfl fun _ => makes_plain rfl fun _ => .done _
  · rw [if_pos hcode]
    exact ⟨fun _ h => absurd h hcode, fun _ => fit_done _⟩

theorem fit_recharge (req : RechargeRequest) :
    Fit E env (recharge (some req)) w ↔
      (0 < req.amount → w.CallerShort env req.sessionToken True) := by
  show Fit E env (if req.amount ≤ 0 then _ else _) w ↔ _
  split
  next hle => exact ⟨fun _ hpos => absurd hpos (Int32.not_lt.mpr hle), fun _ => fit_done _⟩
  next hgt =>
    rw [imp_iff_right (Int32.not_le.mp hgt)]
    refine fit_session (fit_done _) fun mobile _ => fit_findOrCreate fun u w' _ => ?_
    exact iff_true_intro (fit_of_makes (makes_plain rfl fun _ => .done _))

theorem fit_accountBalance (req : AccountBalanceRequest) :
    Fit E env (accountBalance (some req)) w ↔ w.CallerShort env req.sessionToken True := by
  refine fit_session (fit_done _) fun mobile _ => fit_findOrCreate fun u w' _ => ?_
  exact iff_true_intro (fit_of_makes (makes_plain rfl fun _ => .done _))

theorem fit_listRecords (req : ListAccountRecordsRequest) :
    Fit E env (listRecords (some req)) w ↔ w.CallerShort env req.sessionToken True := by
  refine fit_session (fit_done _) fun mobile _ => fit_findOrCreate fun u w' _ => ?_
  exact iff_true_intro (fit_of_makes (makes_plain rfl fun _ => .done _))

/-- The numbers of new bikes are short. -/
theorem insertBike_fits (draws : SpawnDraws) (i : Nat) (lat lng : Double) (tries : Nat) :
    (insertBike draws i lat lng tries).Makes (fun _ _ => True) E.FitsCall := by
  induction tries with
  | zero => exact .done _
  | succ tries ih =>
    refine .ask ((E.fitsCall_iff rfl).mpr (room_of_length ?_)) fun found _ => ?_
    · rw [makeDynBikeNo_length]
      decide
    · cases found with
      | none => exact ih
      | some b => exact .done _

theorem spawnBikes_fits (draws : SpawnDraws) (total : Nat) (lat lng radius : Double) (need : Nat) :
    (spawnBikes P draws total lat lng radius need).Makes (fun _ _ => True) E.FitsCall := by
  induction need with
  | zero => exact .done _
  | succ need ih =>
    exact (insertBike_fits draws _ _ _ kMaxNoRetry).bind fun _ => ih.bind fun _ => .done _

theorem fit_listNearbyBikes (draws : SpawnDraws) (req : ListNearbyBikesRequest) :
    Fit E env (listNearbyBikes P draws (some req)) w ↔
      w.CallerShort env req.sessionToken True := by
  refine fit_user (fun _ => fit_done _) fun uid w' _ => iff_true_intro (fit_of_makes ?_)
  refine .ite (fun _ => .done _) fun _ => makes_plain rfl fun bikes => ?_
  exact .ite (fun _ => (spawnBikes_fits draws _ _ _ _ _).bind fun _ => .done _) fun _ => .done _

theorem unlockBike_fits (req : ScanUnlockRequest) (uid : Int32) (bike : Bike) :
    (unlockBike req uid bike).Makes (fun _ _ => True) E.FitsCall := by
  refine makes_plain rfl fun bal => .ite (fun _ => .done _) fun _ => ?_
  refine makes_plain rfl fun seqTs => makes_plain rfl fun date => ?_
  cases makeRideNo date (dailySeq seqTs) with
  | error what => exact .done _
  | ok rideNo =>
    exact makes_plain rfl fun _ => makes_plain rfl fun _ => makes_plain rfl fun _ => .done _

theorem fit_scanUnlock (req : ScanUnlockRequest) :
    Fit E env (scanUnlock (some req)) w ↔ w.CallerShort env req.sessionToken
      (validBikeNo req.bikeNo ∧ validLat req.lat ∧ validLng req.lng → Room 64 req.bikeNo) := by
  refine fit_user (fun _ => fit_done _) fun uid w' _ => ?_
  show Fit E env (if (!validBikeNo req.bikeNo || !validLat req.lat || !validLng req.lng) = true
    then _ else _) w' ↔ _
  by_cases hvalid : validBikeNo req.bikeNo ∧ validLat req.lat ∧ validLng req.lng
  · rw [if_neg (by simp [hvalid]), imp_iff_right hvalid]
    refine fit_text rfl fun found => ?_
    cases found with
    | none => exact .done _
    | some bike =>
      obtain ⟨id, bikeNo, lat, lng, status⟩ := bike
      cases status with
      | damaged => exact .done _
      | rented => exact .done _
      | idle => exact unlockBike_fits req uid _
  · refine ⟨fun _ h => absurd h hvalid, fun _ => ?_⟩
    have hguard : (!validBikeNo req.bikeNo || !validLat req.lat || !validLng req.lng) = true := by
      grind
    rw [if_pos hguard]
    exact fit_done _

theorem fit_reportDamage (req : ReportDamageRequest) :
    Fit E env (reportDamage (some req)) w ↔ w.CallerShort env req.sessionToken
      (validBikeNo req.bikeNo → Room 64 req.bikeNo) := by
  refine fit_user (fun _ => fit_done _) fun uid w' _ => ?_
  show Fit E env (if (!validBikeNo req.bikeNo) = true then _ else _) w' ↔ _
  cases validBikeNo req.bikeNo with
  | false => exact ⟨fun _ => nofun, fun _ => fit_done _⟩
  | true =>
    rw [if_neg (by decide), imp_iff_right rfl]
    refine fit_text rfl fun found => ?_
    cases found with
    | none => exact .done _
    | some bike => exact makes_plain rfl fun _ => .done _

theorem fit_getRideDetail (req : GetRideDetailRequest) :
    Fit E env (getRideDetail P (some req)) w ↔
      w.CallerShort env req.sessionToken (Room 64 req.rideNo) := by
  refine fit_user (fun _ => fit_done _) fun uid w' _ => fit_text rfl fun found => ?_
  cases found with
  | none => exact .done _
  | some ride => exact .ite (fun _ => .done _) fun _ => makes_plain rfl fun _ => .done _

theorem fit_listRides (req : ListRidesRequest) :
    Fit E env (listRides P (some req)) w ↔ w.CallerShort env req.sessionToken True := by
  refine fit_user (fun _ => fit_done _) fun uid w' _ => iff_true_intro (fit_of_makes ?_)
  exact makes_plain rfl fun _ => .done _

theorem fit_replayRide (rideNo : String) (uid : Int32) :
    Fit E env (replayRide rideNo uid) w ↔ Room 64 rideNo := by
  refine fit_text rfl fun found => ?_
  cases found with
  | none => exact .done _
  | some row => exact .ite (fun _ => .done _) fun _ => makes_plain rfl fun _ => .done _

theorem settleRide_fits (req : EndRideRequest) (sess : RideSession) (uid : Int32)
    (hroom : Room 64 sess.rideNo) :
    (settleRide P req sess uid).Makes (fun _ _ => True) E.FitsCall := by
  refine makes_plain rfl fun endTs => ?_
  cases computeFee (duration endTs sess.startTs) with
  | error what => exact .done _
  | ok amount =>
    refine makes_plain rfl fun newBal => .ite (fun _ => .done _) fun _ => ?_
    exact .ask ((E.fitsCall_iff rfl).mpr hroom) fun _ _ =>
      makes_plain rfl fun _ => makes_plain rfl fun _ => makes_plain rfl fun _ => .done _

end World

/-! ## Sessions as they are unlocked -/

theorem RideSession.Unlocked.room {s : RideSession} (h : s.Unlocked) : Room 64 s.rideNo := by
  obtain ⟨date, seq, hno⟩ := h.number
  have hlen := makeRideNo_length hno
  exact room_of_length (by omega)

def RideSessionStore.Unlocked (store : RideSessionStore) : Prop :=
  ∀ rideNo s, store.find rideNo = some s → s.Unlocked

theorem RideSessionStore.Unlocked.empty : RideSessionStore.empty.Unlocked :=
  RideSessionStore.Each.empty

/-- A report leaves the number and the start of its session. -/
theorem RideSession.Unlocked.report {s : RideSession} (h : s.Unlocked) (lat lng : Double)
    (seq elapsedSec : Int32) : (RideSessionStore.report s lat lng seq elapsedSec).Unlocked := by
  unfold RideSessionStore.report
  split <;> exact ⟨h.number, h.lat, h.lng⟩

namespace World

variable {E : Escaper} {env : Env} {w : World P .production}

theorem unlocked_handle (h : w.sessions.Unlocked) (e : Arrival) :
    (w.handle e).sessions.Unlocked :=
  World.each_run (dispatch_begins P e.env.now e.request) (fun _ hs => hs.2.1)
    RideSession.Unlocked.report h

theorem unlocked_handleAll (h : w.sessions.Unlocked) (before : List Arrival) :
    (w.handleAll before).sessions.Unlocked := by
  induction before generalizing w with
  | nil => exact h
  | cons e before ih => exact ih (unlocked_handle h e)

theorem fit_endRide (hunlocked : w.sessions.Unlocked) (req : EndRideRequest) :
    Fit E env (endRide P (some req)) w ↔ w.CallerShort env req.sessionToken
      (validLat req.endLat ∧ validLng req.endLng → w.sessions.find req.rideNo = none →
        Room 64 req.rideNo) := by
  refine fit_user (fun _ => fit_done _) fun uid w' hsame => ?_
  show Fit E env (if (!validLat req.endLat || !validLng req.endLng) = true then _ else _) w' ↔ _
  by_cases hvalid : validLat req.endLat ∧ validLng req.endLng
  · rw [if_neg (by simp [hvalid]), imp_iff_right hvalid]
    refine (fit_plain rfl).trans ?_
    have hanswer : (World.exec env (.ride (.find req.rideNo)) w').1 = w.sessions.find req.rideNo :=
      congrArg (·.find req.rideNo) hsame
    rw [hanswer]
    cases hfind : w.sessions.find req.rideNo with
    | none => exact (fit_replayRide req.rideNo uid).trans (imp_iff_right rfl).symm
    | some sess =>
      refine ⟨fun _ => nofun, fun _ => fit_of_makes (.ite (fun _ => .done _) fun _ => ?_)⟩
      exact settleRide_fits req sess uid (hunlocked _ _ hfind).room
  · refine ⟨fun _ h => absurd h hvalid, fun _ => ?_⟩
    have hguard : (!validLat req.endLat || !validLng req.endLng) = true := by grind
    rw [if_pos hguard]
    exact fit_done _

/-- All the texts of a request have room exactly when those of the request and the mobile
of its caller have. -/
theorem fit_dispatch (hunlocked : w.sessions.Unlocked) (r : Request) :
    Fit E env (dispatch P r) w ↔ w.Short env r := by
  have lift : ∀ {α : Type} {h : Calls (Outcome α)} {f : α → Reply} {Q : Prop},
      (Fit E env h w ↔ Q) → (Fit E env (answer h f) w ↔ Q) :=
    fun hiff => fit_bind.trans ((and_iff_left (fit_done _)).trans hiff)
  match r with
  | .mobileCode (some _) | .positionReport (some _) =>
    exact lift (iff_true_intro (fit_of_makes (makes_plain rfl fun _ => .done _)))
  | .login (some req) => exact lift (fit_login req)
  | .recharge (some req) => exact lift (fit_recharge req)
  | .accountBalance (some req) => exact lift (fit_accountBalance req)
  | .listRecords (some req) => exact lift (fit_listRecords req)
  | .listNearbyBikes draws (some req) => exact lift (fit_listNearbyBikes draws req)
  | .scanUnlock (some req) => exact lift (fit_scanUnlock req)
  | .endRide (some req) => exact lift (fit_endRide hunlocked req)
  | .reportDamage (some req) => exact lift (fit_reportDamage req)
  | .getRideDetail (some req) => exact lift (fit_getRideDetail req)
  | .listRides (some req) => exact lift (fit_listRides req)
  -- a request without its message is answered at once
  | .mobileCode none | .login none | .recharge none | .accountBalance none | .listRecords none
  | .listNearbyBikes _ none | .scanUnlock none | .positionReport none | .endRide none
  | .reportDamage none | .getRideDetail none | .listRides none =>
    exact iff_true_intro (fit_done _)

/-- **When every text fits its buffer.** A process begins without live rides. Whatever it has
served, the texts that the next request brings to the database fit, escaped, exactly when they
are short enough. -/
theorem escapes_fit_iff (E : Escaper) (repos : Production P) (before : List Arrival) (env : Env)
    (r : Request) :
    (∀ c ∈ World.calls env (dispatch P r) (handleAll ⟨repos, .empty⟩ before), E.FitsCall c) ↔
      (handleAll ⟨repos, .empty⟩ before).Short env r :=
  fit_dispatch (unlocked_handleAll .empty before) r

/-- Thirty-two quotes are a bike number that passes its check, and their escape overruns the
buffer of `get_for_update` by its zero. A mobile that was given a code, and a ride number, are
not even checked. -/
theorem texts_overrun :
    validBikeNo (String.ofList (.replicate 32 '"')) = true ∧
      ¬ (∀ c ∈ World.calls (.calm 200) (dispatch .standstill
          (.scanUnlock (some ⟨"token", String.ofList (.replicate 32 '"'), .fin 0, .fin 0⟩)))
          (handleAll ⟨.small 1000 .idle, .empty⟩ []), Escaper.backslash.FitsCall c) ∧
      ¬ (∀ c ∈ World.calls (.calm 200) (dispatch .standstill
          (.getRideDetail (some ⟨"token", String.ofList (.replicate 64 'R')⟩)))
          (handleAll ⟨.small 1000 .idle, .empty⟩ []), Escaper.backslash.FitsCall c) ∧
      ¬ (∀ c ∈ World.calls (.calm 201) (dispatch .standstill
          (.login (some ⟨String.ofList (.replicate 64 '1'), 123456⟩)))
          (handleAll ⟨.small 1000 .idle, .empty⟩
            [⟨.mobileCode (some ⟨String.ofList (.replicate 64 '1')⟩),
              { Env.calm 200 with code := 123456 }⟩]), Escaper.backslash.FitsCall c) := by
  have hvalid : validBikeNo (String.ofList (.replicate 32 '"')) = true := by decide
  have hknown : (Production.small 1000 .idle).redis.lookupSession (.calm 200) "token" =
      some "13800000000" := by decide
  refine ⟨hvalid, fun h => ?_, fun h => ?_, fun h => ?_⟩
  · have hshort := (fit_dispatch .empty _).mp h "13800000000" hknown
    exact absurd (hshort.2 ⟨hvalid, rfl, rfl⟩) (by decide)
  · have hshort := (fit_dispatch .empty _).mp h "13800000000" hknown
    exact absurd hshort.2 (by decide)
  · have hshort := (fit_dispatch (unlocked_handleAll .empty _) _).mp h
    exact absurd (hshort (by decide)) (by decide)

end World

end SharedBike.Server
