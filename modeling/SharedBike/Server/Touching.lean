import SharedBike.Server.Rentals

/-!
# Which ride a handler touches

A request touches at most one ride. `position_report` and `end_ride` carry its
number, and `scan_unlock` makes the number from the clock. `Call.within` says
it call by call: a session is created by an unlock and under the number of
its second, any other call on the session store is about the number that the
request carries, and a ride is archived by `end_ride` and under that number.
`dispatch_touches` is the law for all twelve handlers.
-/

namespace SharedBike.Server

open SharedBike.Common SharedBike.Lib Function

/-- The number a call on the session store is about. -/
def RideCall.rideNo : RideCall → String
  | .create s => s.rideNo
  | .find rideNo => rideNo
  | .updatePos rideNo _ _ _ _ => rideNo
  | .remove rideNo => rideNo

namespace Request

/-- The number under which this request can create a session. -/
def issues (now : Nat) (rideNo : String) : Request → Prop
  | .scanUnlock (some _) => rideNoAt now = .ok rideNo
  | _ => False

/-- The number of the ride that this request ends. -/
def ends (rideNo : String) : Request → Prop
  | .endRide (some req) => req.rideNo = rideNo
  | _ => False

/-- The number that this request carries. -/
def names (rideNo : String) : Request → Prop
  | .positionReport (some req) => req.rideNo = rideNo
  | .endRide (some req) => req.rideNo = rideNo
  | _ => False

/-- The handler of this request can come to the session of this number. -/
def touches (now : Nat) (rideNo : String) (r : Request) : Prop :=
  r.issues now rideNo ∨ r.names rideNo

end Request

/-- An answer that a handler gets at the instant `now`. -/
def Call.answers (now : Nat) : (c : Call) → c.Res → Prop
  | .nowUnix, r => r = now
  | .today, r => r = todayYyyymmdd now
  | .ride (.find rideNo), found => ∀ s, found = some s → s.rideNo = rideNo
  | _, _ => True

/-- A call that the handler of `r` can make at the instant `now`. -/
def Call.within (now : Nat) (r : Request) : Call → Prop
  | .ride (.create s) => r.issues now s.rideNo
  | .ride c => r.names c.rideNo
  | .repo (.createWithPoints inp) => r.ends inp.rideNo
  | _ => True

theorem Call.touches_of_within {now : Nat} {r : Request} {c : RideCall}
    (h : (Call.ride c).within now r) : r.touches now c.rideNo := by
  cases c with
  | create s => exact .inl h
  | _ => exact .inr h

/-- A session that an unlock made: the server made its number, and the place of its start
passed the checks. -/
structure RideSession.Unlocked (s : RideSession) : Prop where
  number : ∃ date seq, makeRideNo date seq = .ok s.rideNo
  lat : validLat s.startLat = true
  lng : validLng s.startLng = true

/-- The sessions that are made are unlocked, have the number of the second and no points
yet. -/
def Call.Begins (now : Nat) : Call → Prop
  | .ride (.create s) => rideNoAt now = .ok s.rideNo ∧ s.Unlocked ∧ s.points = []
  | _ => True

section Touches

variable {now : Nat} {r : Request}

theorem unlockBike_begins {req : ScanUnlockRequest} (hlat : validLat req.lat = true)
    (hlng : validLng req.lng = true) (uid : Int32) (bike : Bike) :
    (unlockBike req uid bike).Makes (Call.answers now) (Call.Begins now) := by
  refine .ask trivial fun bal _ => .ite (fun _ => .done _) fun _ => ?_
  refine .ask trivial fun seqTs hseq => .ask trivial fun date hdate => ?_
  obtain rfl : seqTs = now := hseq
  obtain rfl : date = todayYyyymmdd now := hdate
  cases hno : makeRideNo (todayYyyymmdd now) (dailySeq now) with
  | error what => exact .done _
  | ok rideNo =>
    exact .ask trivial fun _ _ => .ask ⟨hno, ⟨⟨_, _, hno⟩, hlat, hlng⟩, rfl⟩ fun _ _ =>
      .ask trivial fun _ _ => .done _

theorem scanUnlock_begins (req : ScanUnlockRequest) :
    (scanUnlock (some req)).Makes (Call.answers now) (Call.Begins now) := by
  have huser : (requireUser req.sessionToken).Makes (Call.answers now) (Call.Begins now) := by
    refine .ask trivial fun found _ => ?_
    cases found with
    | none => exact .done _
    | some mobile => exact .ask trivial fun _ _ => .done _
  refine huser.bind fun found => ?_
  cases found with
  | none => exact .done _
  | some uid =>
    refine .ite (fun _ => .done _) fun hvalid => .ask trivial fun found _ => ?_
    simp only [Bool.or_eq_true, Bool.not_eq_true', not_or, Bool.not_eq_false] at hvalid
    cases found with
    | none => exact .done _
    | some bike =>
      obtain ⟨id, bikeNo, lat, lng, status⟩ := bike
      cases status with
      | damaged => exact .done _
      | rented => exact .done _
      | idle => exact unlockBike_begins hvalid.1.2 hvalid.2 uid _

/-- A handler finds a session under the number that it looks for, and keeps to it. -/
theorem Acting.next_riding {q : Acting} {sess : RideSession} {c : Call} {a : c.Res}
    (ha : c.answers now a) (h : q.next c a = .riding sess) :
    q = .riding sess ∨ c = .ride (.find sess.rideNo) := by
  unfold next at h
  split at h
  · split at h <;> cases h
  · cases h
  · split at h
    next s =>
      split at h
      · cases h
        rw [ha sess rfl]
        exact .inr rfl
      · cases h
    · cases h
  · exact .inl h

theorem dispatch_makes (P : Platform) (now : Nat) (r : Request) :
    (dispatch P r).Makes (Call.answers now) fun c => c.within now r ∧ c.Begins now := by
  have hcourse : KeepsTo (fun no => r.ends no) r _ (dispatch P r) :=
    dispatch_course P fun req hr => by rw [hr]; rfl
  have hbegins : (dispatch P r).Makes (Call.answers now) fun c =>
      (∃ req, r = .scanUnlock (some req)) → c.Begins now := by
    by_cases hunlock : ∃ req, r = .scanUnlock (some req)
    · obtain ⟨req, rfl⟩ := hunlock
      exact ((scanUnlock_begins req).bind fun _ => .done _).mono fun _ hc _ => hc
    · exact .of_all (fun _ h => absurd h hunlock) _
  have hnames : ∀ {no}, r.ends no → r.names no := by
    intro no hends
    unfold Request.ends at hends
    split at hends
    · exact hends
    · exact hends.elim
  -- the ride that a handler holds is the one that its request ends
  refine hcourse.makes hbegins (I := fun q => ∀ sess, q.acting = .riding sess → r.ends sess.rideNo)
    (fun _ hstart => nomatch hstart) fun q c hq hc hbegins => ⟨?_, fun a ha sess hsess => ?_⟩
  · cases c with
    | repo c =>
      cases c with
      | createWithPoints inp =>
        obtain ⟨sess, hsess, hno, -⟩ := hc.2.1
        exact ⟨by rw [Call.within, hno]; exact hq sess hsess, trivial⟩
      | _ => exact ⟨trivial, trivial⟩
    | ride c =>
      cases c with
      | create s =>
        obtain ⟨-, req, rfl⟩ := hc.2.1
        exact ⟨(hbegins ⟨req, rfl⟩).1, hbegins ⟨req, rfl⟩⟩
      | find no => exact ⟨hnames hc.1.1, trivial⟩
      | updatePos no lat lng seq elapsedSec =>
        obtain rfl : r = _ := hc.2.1
        exact ⟨rfl, trivial⟩
      | remove no =>
        obtain ⟨sess, hsess, rfl⟩ := hc.2.1
        exact ⟨hnames (hq sess hsess), trivial⟩
    | nowUnix => exact ⟨trivial, trivial⟩
    | today => exact ⟨trivial, trivial⟩
  · rcases Acting.next_riding ha hsess with hold | rfl
    · exact hq sess hold
    · exact hc.1.1

/-- No handler comes to a ride but the one that its request touches. -/
theorem dispatch_touches (P : Platform) (now : Nat) (r : Request) :
    (dispatch P r).Makes (Call.answers now) (Call.within now r) :=
  (dispatch_makes P now r).mono fun _ h => h.1

/-- No handler makes a session but as an unlock begins it. -/
theorem dispatch_begins (P : Platform) (now : Nat) (r : Request) :
    (dispatch P r).Makes (Call.answers now) (Call.Begins now) :=
  (dispatch_makes P now r).mono fun _ h => h.2

end Touches

namespace World

variable {P : Platform} {d : Deployment}

theorem exec_answers (env : Env) (c : Call) (w : World P d) :
    c.answers env.now (World.exec env c w).1 := by
  cases c with
  | repo c => trivial
  | ride c =>
    cases c with
    | find no => exact fun s hs => w.sessions.keyed no s hs
    | _ => trivial
  | nowUnix => rfl
  | today => rfl

/-- What every call within the request keeps, its handler keeps. -/
theorem dispatch_keeps {I : World P d → Prop} {env : Env} {r : Request}
    (hstep : ∀ c w, I w → c.within env.now r → I (World.exec env c w).2) {w : World P d}
    (hw : I w) : I (World.run env (dispatch P r) w).2 :=
  (dispatch_touches P env.now r).run
    (fun c w hI hc => ⟨exec_answers env c w, hstep c w hI hc⟩) hw

end World

/-! ## A property of every live session -/

namespace RideSessionStore

def Each (Q : RideSession → Prop) (store : RideSessionStore) : Prop :=
  ∀ rideNo s, store.find rideNo = some s → Q s

variable {Q : RideSession → Prop} {store : RideSessionStore}

theorem Each.empty : RideSessionStore.empty.Each Q := by
  intro rideNo s hfind
  cases hfind

theorem Each.create (h : store.Each Q) {s : RideSession} (hs : Q s) : (store.create s).Each Q := by
  intro rideNo s' hfind
  by_cases hsame : rideNo = s.rideNo
  · subst hsame
    cases (update_self ..).symm.trans hfind
    exact hs
  · exact h rideNo s' ((update_of_ne hsame _ _).symm.trans hfind)

theorem Each.remove (h : store.Each Q) (rideNo : String) : (store.remove rideNo).Each Q := by
  intro no s hfind
  by_cases hsame : no = rideNo
  · subst hsame
    exact absurd ((update_self ..).symm.trans hfind) nofun
  · exact h no s ((update_of_ne hsame _ _).symm.trans hfind)

/-- Sessions are created and reported to; whatever survives a report holds of all of them
if it holds of those that are created. -/
theorem Each.exec (h : store.Each Q)
    (hreport : ∀ {s}, Q s → ∀ lat lng seq elapsedSec, Q (report s lat lng seq elapsedSec))
    {c : RideCall} (hcreate : ∀ s, c = .create s → Q s) : (exec c store).2.Each Q := by
  cases c with
  | create s => exact h.create (hcreate s rfl)
  | find rideNo => exact h
  | updatePos rideNo lat lng seq elapsedSec =>
    simp only [RideSessionStore.exec, RideSessionStore.updatePos]
    split
    · exact h
    next s hfind => exact h.create (hreport (h rideNo s hfind) lat lng seq elapsedSec)
  | remove rideNo => exact h.remove rideNo

end RideSessionStore

/-- The same for a whole handler. -/
theorem World.each_run {P : Platform} {d : Deployment} {Q : RideSession → Prop} {α : Type}
    {p : Calls α} {env : Env} {may : Call → Prop} (hp : p.Makes (Call.answers env.now) may)
    (hmay : ∀ s, may (.ride (.create s)) → Q s)
    (hreport : ∀ {s}, Q s → ∀ lat lng seq elapsedSec,
      Q (RideSessionStore.report s lat lng seq elapsedSec))
    {w : World P d} (hw : w.sessions.Each Q) : (World.run env p w).2.sessions.Each Q := by
  refine hp.run (I := fun w : World P d => w.sessions.Each Q) (fun c w hw hc => ?_) hw
  refine ⟨World.exec_answers env c w, ?_⟩
  cases c with
  | ride c =>
    refine hw.exec hreport fun s hs => hmay s ?_
    rw [← hs]
    exact hc
  | _ => exact hw

end SharedBike.Server
