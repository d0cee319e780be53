import SharedBike.Server.Bikes
import SharedBike.Server.Courses
import SharedBike.Lib.Machine

/-!
# Rentals can be returned, if unlocks are a second apart

Requests handled one after the other, each at one instant of a clock that
never goes back. A ride is known by its number from the unlock to the
return, and `scan_unlock` makes the number from the date and the second of
the clock. Two unlocks in one second give one number: the second `create`
replaces the first session, and the first bike stays rented with no session
that could return it (`same_second`).

`rentals_returnable` is the other half. When no idle bike is unlocked in the
second of an earlier unlock, and the database takes the mark that sets a
returned bike idle, numbers are never given out twice, no session is
replaced, and every bike that an unlock rented has its session.
-/

namespace SharedBike.Server

open SharedBike.Common SharedBike.Lib

/-! ## One number a second -/

/-- The number of a ride that is unlocked at this second. -/
def rideNoAt (now : Nat) : Except String String := makeRideNo (todayYyyymmdd now) (dailySeq now)

/-- The date has eight digits. -/
def FourDigitYear (now : Nat) : Prop := (Date.ofDays (now / 86400)).year ≤ 9999

instance (now : Nat) : Decidable (FourDigitYear now) := Nat.decLe _ _

theorem toInt_todayYyyymmdd {now : Nat} (h : FourDigitYear now) :
    (todayYyyymmdd now).toInt = (Date.ofDays (now / 86400)).yyyymmdd ∧
      (Date.ofDays (now / 86400)).yyyymmdd < 10 ^ 8 := by
  obtain ⟨-, hmonth, hday⟩ := Date.ofDays_valid (now / 86400)
  have hyear : (Date.ofDays (now / 86400)).year ≤ 9999 := h
  have hlt : (Date.ofDays (now / 86400)).yyyymmdd < 10 ^ 8 := by
    unfold Date.yyyymmdd
    omega
  exact ⟨Int32.toInt_ofNat_of_lt (by omega), hlt⟩

theorem toInt_dailySeq (now : Nat) : (dailySeq now).toInt = (now % 999999 : Nat) + 1 := by
  have hmod : (now : Int).tmod 999999 = (now % 999999 : Nat) := by
    rw [Int.tmod_eq_emod_of_nonneg (by omega)]
    omega
  unfold dailySeq
  rw [hmod, Int32.toInt_ofInt_of_le (by omega) (by omega)]

/-- Different seconds have different numbers: within a day the seconds do, as
999999 is more than a day has, and different days have different dates. -/
theorem rideNoAt_inj {now now' : Nat} {no : String} (hy : FourDigitYear now)
    (hy' : FourDigitYear now') (h : rideNoAt now = .ok no) (h' : rideNoAt now' = .ok no) :
    now = now' := by
  obtain ⟨hdate, hlt⟩ := toInt_todayYyyymmdd hy
  obtain ⟨hdate', hlt'⟩ := toInt_todayYyyymmdd hy'
  obtain ⟨hd, hs⟩ := makeRideNo_inj (by rw [hdate]; omega) (by rw [hdate']; omega) h h'
  have hday : now / 86400 = now' / 86400 := by
    refine Date.yyyymmdd_ofDays_strictMono.injective ?_
    have := congrArg Int32.toInt hd
    rw [hdate, hdate'] at this
    exact Int.ofNat_inj.mp this
  have hsec : now % 999999 = now' % 999999 := by
    have := congrArg Int32.toInt hs
    rw [toInt_dailySeq, toInt_dailySeq] at this
    omega
  omega

/-! ## The runs -/

/-- The server, and what its unlocks have done. -/
structure Rentals (P : Platform) (d : Deployment) extends World P d where
  /-- the clock at the last request -/
  clock : Nat
  /-- the ride numbers of the successful replies to `scan_unlock`, with their seconds -/
  issued : List (String × Nat)
  /-- some `create` found its number in use -/
  overwritten : Bool
  /-- the bikes that an unlock has set `Rented` -/
  rented : List Int32

/-- A `create` that replaces a live session. -/
def RideSessionStore.overwrites (store : RideSessionStore) : Call → Bool
  | .ride (.create sess) => (store.find sess.rideNo).isSome
  | _ => false

def Call.rents : Call → List Int32
  | .repo (.updateStatus id .rented) => [id]
  | _ => []

/-- The number a successful unlock returns. -/
def returned : Outcome Reply → Option String
  | .ok (.scanUnlock r) => if r.code = ErrCode.ok.code then some r.rideNo else none
  | _ => none

namespace Rentals

variable {P : Platform} {d : Deployment}

def exec (env : Env) (c : Call) (s : Rentals P d) : c.Res × Rentals P d :=
  ((World.exec env c s.toWorld).1,
    { s with
      toWorld := (World.exec env c s.toWorld).2
      overwritten := s.overwritten || s.sessions.overwrites c
      rented := c.rents ++ s.rented })

/-- One request, with nothing else going on. -/
def handle (s : Rentals P d) (e : Arrival) : Rentals P d :=
  let out := (dispatch P e.request).run (exec e.env) s
  { out.2 with
    clock := e.env.now
    issued := ((returned out.1).map (·, e.env.now)).toList ++ s.issued }

/-- Any requests in any order, from the start of the process: no ride is live,
and the bikes are as they are. -/
def machine (P : Platform) (d : Deployment) : Machine (Rentals P d) Arrival where
  init s := s.sessions = .empty ∧ d.Numbered P s.repos 0 ∧ s.issued = [] ∧
    s.overwritten = false ∧ s.rented = []
  next s e := if s.clock ≤ e.env.now then some (s.handle e) else none

/-- The records change nothing about the server. -/
theorem handle_toWorld (s : Rentals P d) (e : Arrival) :
    (s.handle e).toWorld = (World.run e.env (dispatch P e.request) s.toWorld).2 := by
  have hrun := Prog.run_map (exec e.env) (World.exec e.env) toWorld (fun c s => rfl)
    (dispatch P e.request) s
  rw [World.run, hrun]
  rfl

/-- The bikes that an unlock rented, and that are rented, are ridden. -/
def Backed (s : Rentals P d) : Prop :=
  ∀ b ∈ s.rented, (b, BikeStatus.rented) ∈ d.statuses P s.repos → ∃ no, s.sessions.on no b

/-! ## Calls that no bike and no session shows -/

structure Quiet (s s' : Rentals P d) : Prop where
  numbered : ∀ n, d.Numbered P s.repos n → d.Numbered P s'.repos n
  statuses : d.statuses P s'.repos = d.statuses P s.repos
  named : d.bikeNamed P s'.repos = d.bikeNamed P s.repos
  sessions : s'.sessions = s.sessions
  overwritten : s'.overwritten = s.overwritten
  rented : s'.rented = s.rented

theorem Quiet.refl (s : Rentals P d) : Quiet s s := ⟨fun _ => id, rfl, rfl, rfl, rfl, rfl⟩

theorem Quiet.trans {s s' s'' : Rentals P d} (h : Quiet s s') (h' : Quiet s' s'') : Quiet s s'' :=
  ⟨fun n hn => h'.numbered n (h.numbered n hn), h'.statuses.trans h.statuses,
    h'.named.trans h.named, h'.sessions.trans h.sessions, h'.overwritten.trans h.overwritten,
    h'.rented.trans h.rented⟩

theorem rents_repo {c : RepoCall} (h : ∀ id st, c ≠ .updateStatus id st) :
    (Call.repo c).rents = [] := by
  cases c with
  | updateStatus id st => exact absurd rfl (h id st)
  | _ => rfl

theorem quiet_repo (env : Env) {c : RepoCall} (hc : .bike ∉ c.targets) (s : Rentals P d) :
    Quiet s (exec env (.repo c) s).2 := by
  have hinsert : ∀ b, c ≠ .insert b := fun b hb => hc (by rw [hb]; simp [RepoCall.targets])
  have hstatus : ∀ id st, c ≠ .updateStatus id st := fun _ _ hb =>
    hc (by rw [hb]; simp [RepoCall.targets])
  exact
    { numbered := fun n hn => hn.frame env hinsert
      statuses := d.statuses_exec env c s.repos hc
      named := d.bikeNamed_exec env c s.repos hc
      sessions := rfl
      overwritten := Bool.or_false _
      rented := by simp only [exec, rents_repo hstatus, List.nil_append] }

@[simp] theorem exec_nowUnix (env : Env) (s : Rentals P d) :
    exec env .nowUnix s = ((env.now : Int), s) := by
  simp only [exec, World.exec, RideSessionStore.overwrites, Bool.or_false, Call.rents,
    List.nil_append]

@[simp] theorem exec_today (env : Env) (s : Rentals P d) :
    exec env .today s = (todayYyyymmdd env.now, s) := by
  simp only [exec, World.exec, RideSessionStore.overwrites, Bool.or_false, Call.rents,
    List.nil_append]

theorem quiet_requireUser (env : Env) (token : String) (s : Rentals P d) :
    Quiet s ((requireUser token).run (exec env) s).2 := by
  refine requireUser_frame (R := Quiet) Quiet.trans ?_ ?_ token s
  · exact fun _ => quiet_repo env (by simp [RepoCall.targets])
  · exact fun _ => quiet_repo env (by simp [RepoCall.targets])

/-! ## An unlock -/

/-- The unlock is refused, and no bike and no session shows it. -/
def Refused (s : Rentals P d) (out : Outcome ScanUnlockResponse × Rentals P d) : Prop :=
  (∀ r, out.1 = .ok r → r.code ≠ ErrCode.ok.code) ∧ Quiet s out.2

/-- The unlock creates a session under the number of its second for a bike
that it found idle, and marks the bike. -/
def Unlocked (env : Env) (s : Rentals P d) (bikeNo : String)
    (out : Outcome ScanUnlockResponse × Rentals P d) : Prop :=
  ∃ sess r u, Quiet s u ∧ d.bikeNamed P s.repos bikeNo = some (sess.bikeId, .idle) ∧
    rideNoAt env.now = .ok sess.rideNo ∧ r.code = ErrCode.ok.code ∧ r.rideNo = sess.rideNo ∧
    out = (.ok r, (exec env (.repo (.updateStatus sess.bikeId .rented))
      (exec env (.ride (.create sess)) u).2).2)

theorem Refused.of_quiet {s u : Rentals P d} (h : Quiet s u) {ec : ErrCode} (desc : String)
    (hec : ec.code ≠ ErrCode.ok.code) : Refused s (.ok (.fail ec desc), u) :=
  ⟨fun r hr => by cases hr; exact hec, h⟩

theorem unlockBike_cases (env : Env) (req : ScanUnlockRequest) (uid : Int32) (bike : Bike)
    {s u : Rentals P d} (h : Quiet s u)
    (hnamed : d.bikeNamed P s.repos req.bikeNo = some (bike.id, .idle)) :
    Refused s ((unlockBike req uid bike).run (exec env) u) ∨
      Unlocked env s req.bikeNo ((unlockBike req uid bike).run (exec env) u) := by
  have hbal := h.trans (quiet_repo env (c := .getBalance uid) (by simp [RepoCall.targets]) u)
  simp only [unlockBike, repo, nowUnix, today, rideSessions, Prog.ask_bind, Prog.run_call]
  split
  · exact .inl (.of_quiet hbal _ (by decide))
  · simp only [Prog.run_call, exec_nowUnix, exec_today]
    split
    · exact .inl ⟨by rintro r ⟨⟩, hbal⟩
    next rideNo hno =>
      simp only [Prog.run_call, exec_nowUnix]
      exact .inr ⟨⟨rideNo, uid, bike.id, req.lat, req.lng, env.now, req.lat, req.lng, 0, []⟩,
        ⟨_, _, rideNo, env.now⟩, _, hbal, hnamed, hno, rfl, rfl, rfl⟩

theorem scanUnlock_cases (env : Env) (payload : Option ScanUnlockRequest) (s : Rentals P d) :
    Refused s ((scanUnlock payload).run (exec env) s) ∨
      ∃ req, payload = some req ∧
        Unlocked env s req.bikeNo ((scanUnlock payload).run (exec env) s) := by
  cases payload with
  | none => exact .inl (.of_quiet (.refl s) _ (by decide))
  | some req =>
    have huser := quiet_requireUser env req.sessionToken s
    simp only [scanUnlock, Prog.run_bind]
    split
    · exact .inl (.of_quiet huser _ (by decide))
    next uid _ =>
      split
      · exact .inl (.of_quiet huser _ (by decide))
      · have hget := huser.trans
          (quiet_repo env (c := .getForUpdate req.bikeNo) (by simp [RepoCall.targets]) _)
        simp only [repo, Prog.ask_bind, Prog.run_call]
        split
        · exact .inl (.of_quiet hget _ (by decide))
        next bike hbike =>
          have hnamed := Deployment.bikeNamed_of_getForUpdate hbike
          rw [huser.named] at hnamed
          split
          · exact .inl (.of_quiet hget _ (by decide))
          · exact .inl (.of_quiet hget _ (by decide))
          next hidle =>
            rw [hidle] at hnamed
            rcases unlockBike_cases env req uid bike hget hnamed with hr | hu
            · exact .inl hr
            · exact .inr ⟨req, rfl, hu⟩

/-! ## The other handlers -/

/-- The database loses the statement of an `update_status`. -/
def LosesStatus (d : Deployment) (env : Env) : Prop :=
  d = .production ∧ env.fails .bikeStatus = true

end Rentals

namespace RidePhase

/-- Not of a `scan_unlock` that is under way. -/
def Bystander : RidePhase → Prop
  | .scanning | .seen _ | .created _ => False
  | _ => True

/-- `q'` holds nothing that `q` does not hold. -/
structure Calmer (q' q : RidePhase) : Prop where
  bystander : q.Bystander → q'.Bystander
  session : ∀ sess, q'.session = some sess → q.session = some sess
  freed : ∀ sess, q' = .freed sess → q = .freed sess
  room : q'.room ≤ q.room

theorem Calmer.refl (q : RidePhase) : q.Calmer q := ⟨id, fun _ => id, fun _ => id, le_refl _⟩

theorem Calmer.of_none {q' q : RidePhase} (hby : q.Bystander → q'.Bystander)
    (hsession : q'.session = none) (hroom : q'.room ≤ q.room) : q'.Calmer q := by
  refine ⟨hby, fun sess h => ?_, fun sess h => ?_, hroom⟩
  · rw [hsession] at h
    cases h
  · rw [h] at hsession
    cases hsession

/-- An `end_ride` takes hold of a session by `find` alone, and frees its bike
by `update_status` alone. -/
theorem next_calmer {q : RidePhase} {c : Call} (hride : ∀ rc, c ≠ .ride rc)
    (hstatus : ∀ id st, c ≠ .repo (.updateStatus id st)) (r : c.Res) :
    (q.next c r).Calmer q := by
  unfold next
  split
  case h_1 => exact .of_none (fun _ => trivial) rfl (le_refl _)
  case h_2 => exact absurd rfl (hride _)
  case h_3 =>
    split
    · exact .of_none (fun _ => trivial) rfl (le_refl _)
    · exact ⟨fun _ => trivial, fun _ => id, fun _ h => (by cases h), le_refl _⟩
  case h_4 => exact ⟨fun _ => trivial, fun _ => id, fun _ h => (by cases h), le_refl _⟩
  case h_5 => exact absurd rfl (hstatus _ _)
  case h_6 => exact absurd rfl (hride _)
  case h_7 =>
    split
    · split <;> exact .of_none False.elim rfl (le_refl _)
    · exact .of_none False.elim rfl (le_refl _)
  case h_8 => split <;> exact .of_none False.elim rfl (le_refl _)
  case h_9 => exact absurd rfl (hride _)
  case h_10 => exact absurd rfl (hstatus _ _)
  case h_11 => exact .of_none (fun _ => trivial) rfl (Nat.sub_le _ _)
  case h_12 => exact .refl q

end RidePhase

namespace Rentals

variable {P : Platform} {d : Deployment}

/-- What a handler other than `scan_unlock`, begun in `s₀`, keeps on its way. -/
structure Kept (env : Env) (s₀ : Rentals P d) (q : RidePhase) (s : Rentals P d) : Prop where
  bystander : q.Bystander
  numbered : d.Numbered P s.repos q.room
  backed : s.Backed
  live : ∀ no b, s.sessions.on no b → s₀.sessions.on no b
  overwritten : s.overwritten = s₀.overwritten
  held : ∀ sess, q.session = some sess →
    s.sessions.on sess.rideNo sess.bikeId ∧ ¬ LosesStatus d env
  freed : ∀ sess, q = .freed sess → (sess.bikeId, BikeStatus.rented) ∉ d.statuses P s.repos

variable {env : Env} {s₀ s s' : Rentals P d} {q q' : RidePhase}

/-- No new bike is rented, and the sessions are as they were. -/
theorem Kept.move (h : Kept env s₀ q s) (hq : q'.Calmer q)
    (hnum : d.Numbered P s'.repos q'.room)
    (hst : ∀ b, (b, BikeStatus.rented) ∈ d.statuses P s'.repos →
      (b, BikeStatus.rented) ∈ d.statuses P s.repos)
    (hsess : s'.sessions = s.sessions) (hover : s'.overwritten = s.overwritten)
    (hrented : s'.rented = s.rented) : Kept env s₀ q' s' where
  bystander := hq.bystander h.bystander
  numbered := hnum
  backed b hb hst' := by
    rw [hsess]
    exact h.backed b (hrented ▸ hb) (hst b hst')
  live no b hno := h.live no b (hsess ▸ hno)
  overwritten := hover.trans h.overwritten
  held sess hs := by
    rw [hsess]
    exact h.held sess (hq.session sess hs)
  freed sess hs hst' := h.freed sess (hq.freed sess hs) (hst _ hst')

theorem Kept.repo (h : Kept env s₀ q s) {c : RepoCall} (hstatus : ∀ id st, c ≠ .updateStatus id st)
    (hinsert : ∀ b, c ≠ .insert b) (r : c.Res) :
    Kept env s₀ (q.next (.repo c) r) (exec env (.repo c) s).2 := by
  have hq : (q.next (.repo c) r).Calmer q :=
    RidePhase.next_calmer (by simp) (fun id st hc => hstatus id st (Call.repo.inj hc)) r
  have hst := Deployment.statuses_frame (P := P) (s := s.repos) env hstatus hinsert
  refine h.move hq ((h.numbered.frame env hinsert).mono hq.room) (fun b hb => ?_) rfl
    (Bool.or_false _) (by simp only [exec, rents_repo hstatus, List.nil_append])
  rw [← hst]
  exact hb

/-- A new bike is idle. -/
theorem Kept.insert (h : Kept env s₀ q s) {b : Bike}
    (hallowed : q.allowed (fun _ => True) (.repo (.insert b))) :
    Kept env s₀ (q.next (.repo (.insert b)) (exec env (.repo (.insert b)) s).1)
      (exec env (.repo (.insert b)) s).2 := by
  obtain ⟨hidle, left, rfl⟩ := hallowed
  refine h.move (RidePhase.next_calmer (by simp) (by simp) _) (h.numbered.insert env)
    (fun b' hb => ?_) rfl (Bool.or_false _) rfl
  rcases Deployment.mem_statuses_of_insert hb with hb | hb
  · exact hb
  · rw [hidle] at hb
    cases hb

/-- `update_status`: only the idle mark of an `end_ride` and the mark of a damage report. -/
theorem Kept.updateStatus (h : Kept env s₀ q s) {bikeId : Int32} {st : BikeStatus}
    (hallowed : q.allowed (fun _ => True) (.repo (.updateStatus bikeId st))) (r : Bool) :
    Kept env s₀ (q.next (.repo (.updateStatus bikeId st)) r)
      (exec env (.repo (.updateStatus bikeId st)) s).2 := by
  have hst := Deployment.statuses_updateStatus env h.numbered.distinct bikeId st
  have hnum := h.numbered.frame env (c := .updateStatus bikeId st) (by simp)
  -- no mark but `Rented` rents a bike
  have hrented : st ≠ .rented → ∀ b,
      (b, BikeStatus.rented) ∈ d.statuses P (d.exec P env (.updateStatus bikeId st) s.repos).2 →
        (b, BikeStatus.rented) ∈ d.statuses P s.repos ∧ (LosesStatus d env ∨ b ≠ bikeId) := by
    intro hne b hb
    rw [hst] at hb
    split at hb
    next hlost => exact ⟨hb, .inl hlost⟩
    · rcases mem_setStatus.mp hb with ⟨-, hcontra, -⟩ | ⟨hb', hb⟩
      · exact absurd hcontra.symm hne
      · exact ⟨hb, .inr hb'⟩
  cases st with
  | rented =>
    have hq : q = .created bikeId := hallowed
    subst hq
    exact h.bystander.elim
  | damaged =>
    have hq : q = .reporting := hallowed
    subst hq
    exact h.move (.refl _) hnum (fun b hb => (hrented nofun b hb).1) rfl (Bool.or_false _) rfl
  | idle =>
    obtain ⟨sess, rfl, rfl⟩ := hallowed
    obtain ⟨hon, hkeeps⟩ := h.held sess rfl
    exact
      { bystander := trivial
        numbered := hnum
        backed := fun b hb hst' => h.backed b hb (hrented nofun b hst').1
        live := h.live
        overwritten := (Bool.or_false _).trans h.overwritten
        held := fun sess' hs => by cases hs; exact ⟨hon, hkeeps⟩
        freed := fun sess' hs hst' => by
          cases hs
          rcases (hrented nofun _ hst').2 with hlost | hne
          · exact hkeeps hlost
          · exact hne rfl }

/-- A call on the sessions: only the `remove` of an `end_ride` ends one. -/
theorem Kept.ride (h : Kept env s₀ q s) {c : RideCall}
    (hallowed : q.allowed (fun no => (∃ b, s₀.sessions.on no b) → ¬ LosesStatus d env) (.ride c)) :
    Kept env s₀ (q.next (.ride c) (exec env (.ride c) s).1) (exec env (.ride c) s).2 := by
  have hover : ∀ c, s.sessions.overwrites c = false →
      (s.overwritten || s.sessions.overwrites c) = s₀.overwritten := fun c hc => by
    rw [hc, Bool.or_false, h.overwritten]
  cases c with
  | create sess =>
    have hq : q = .seen sess.bikeId := hallowed
    subst hq
    exact h.bystander.elim
  | find rideNo =>
    obtain ⟨hlook, uid, rfl⟩ := hallowed
    have hleave : Kept env s₀ .outside (exec env (.ride (.find rideNo)) s).2 :=
      h.move (.of_none (fun _ => trivial) rfl (le_refl _)) h.numbered (fun _ => id) rfl
        (Bool.or_false _) rfl
    cases hfind : s.sessions.find rideNo with
    | none =>
      have hnext : (exec env (.ride (.find rideNo)) s).1 = none := hfind
      rw [hnext]
      exact hleave
    | some sess =>
      have hnext : (exec env (.ride (.find rideNo)) s).1 = some sess := hfind
      rw [hnext]
      have hon : s.sessions.on rideNo sess.bikeId := ⟨sess, hfind, rfl⟩
      by_cases hown : sess.userId = uid
      · simp only [RidePhase.next, hown, if_true]
        refine { hleave with held := fun sess' hs => ?_, freed := fun _ hs => (by cases hs) }
        cases hs
        rw [s.sessions.keyed rideNo sess hfind]
        exact ⟨hon, hlook ⟨_, h.live _ _ hon⟩⟩
      · simp only [RidePhase.next, hown, if_false]
        exact hleave
  | remove rideNo =>
    obtain ⟨sess, rfl, rfl⟩ := hallowed
    obtain ⟨hon, -⟩ := h.held sess rfl
    change Kept env s₀ .outside (exec env (.ride (.remove sess.rideNo)) s).2
    refine
      { bystander := trivial
        numbered := h.numbered
        backed := fun b hb hst => ?_
        live := fun no b hno => h.live no b ((RideSessionStore.on_remove _).mp hno).2
        overwritten := hover _ rfl
        held := fun _ hs => (by cases hs)
        freed := fun _ hs => (by cases hs) }
    -- the session that goes rides a bike that is no longer rented
    obtain ⟨no, hno⟩ := h.backed b hb hst
    refine ⟨no, (RideSessionStore.on_remove _).mpr ⟨?_, hno⟩⟩
    rintro rfl
    obtain ⟨x, hx, rfl⟩ := hno
    obtain ⟨y, hy, hbike⟩ := hon
    cases hx.symm.trans hy
    exact h.freed sess rfl (hbike ▸ hst)
  | updatePos rideNo lat lng seq elapsedSec =>
    have hon : ∀ no b, (exec env (.ride (.updatePos rideNo lat lng seq elapsedSec)) s).2.sessions.on
        no b ↔ s.sessions.on no b := fun _ _ => RideSessionStore.on_updatePos rideNo lat lng seq _
    have hq : q.next (.ride (.updatePos rideNo lat lng seq elapsedSec))
        (exec env (.ride (.updatePos rideNo lat lng seq elapsedSec)) s).1 = q := by
      cases q <;> rfl
    rw [hq]
    exact
      { bystander := h.bystander
        numbered := h.numbered
        backed := fun b hb hst => (h.backed b hb hst).imp fun no => (hon no b).mpr
        live := fun no b hno => h.live no b ((hon no b).mp hno)
        overwritten := hover _ rfl
        held := fun sess hs => (h.held sess hs).imp_left (hon _ _).mpr
        freed := h.freed }

theorem Kept.step (h : Kept env s₀ q s) {c : Call}
    (hallowed : q.allowed (fun no => (∃ b, s₀.sessions.on no b) → ¬ LosesStatus d env) c) :
    Kept env s₀ (q.next c (exec env c s).1) (exec env c s).2 := by
  cases c with
  | nowUnix =>
    rw [exec_nowUnix]
    exact h.move (RidePhase.next_calmer (by simp) (by simp) _) (by cases q <;> exact h.numbered)
      (fun _ => id) rfl rfl rfl
  | today =>
    rw [exec_today]
    exact h.move (RidePhase.next_calmer (by simp) (by simp) _) (by cases q <;> exact h.numbered)
      (fun _ => id) rfl rfl rfl
  | ride c => exact h.ride hallowed
  | repo c =>
    cases c with
    | insert b => exact h.insert hallowed
    | updateStatus bikeId st => exact h.updateStatus (by cases st <;> exact hallowed) _
    | _ => exact h.repo (by simp) (by simp) _

/-! ## Whole runs -/

/-- The condition on a request: an idle bike is not unlocked in a second in
which an earlier unlock succeeded, nor after the year 9999; the return of a
live ride does not lose its idle mark; the in-memory repository has numbers
left for the bikes it may put out. -/
def Spaced (s : Rentals P d) (e : Arrival) : Prop :=
  match e.request with
  | .scanUnlock (some req) =>
    (∃ b, d.bikeNamed P s.repos req.bikeNo = some (b, .idle)) →
      FourDigitYear e.env.now ∧ ∀ x ∈ s.issued, x.2 ≠ e.env.now
  | .endRide (some req) => (∃ b, s.sessions.on req.rideNo b) → ¬ LosesStatus d e.env
  | .listNearbyBikes _ _ => d.Room P s.repos kSpawnTarget
  | _ => True

structure Inv (s : Rentals P d) : Prop where
  numbered : d.Numbered P s.repos 0
  backed : s.Backed
  kept : s.overwritten = false
  distinct : (s.issued.map Prod.fst).Nodup
  stamped : ∀ x ∈ s.issued, FourDigitYear x.2 ∧ rideNoAt x.2 = .ok x.1
  live : ∀ no b, s.sessions.on no b → ∃ t, (no, t) ∈ s.issued

/-- Only a `scan_unlock` returns a number. -/
theorem returned_none {r : Request} (hr : ∀ payload, r ≠ .scanUnlock payload) (s : Rentals P d) :
    returned ((dispatch P r).run (exec env) s).1 = none := by
  have hmap : ∀ {α : Type} (f : α → Reply) (o : Outcome α), (∀ a r, f a ≠ .scanUnlock r) →
      returned (o.map f) = none := by
    intro α f o hf
    cases o with
    | error what => rfl
    | ok a =>
      simp only [Except.map, returned]
      split
      next heq => exact absurd (Except.ok.inj heq) (hf a _)
      · rfl
  cases r with
  | scanUnlock payload => exact absurd rfl (hr payload)
  | _ =>
    simp only [dispatch, run_answer]
    exact hmap _ _ (by simp)

/-- The phases that a handler other than `scan_unlock` starts in. -/
theorem Kept.start (hnum : d.Numbered P s.repos 0) (hback : s.Backed) {r : Request}
    (hr : ∀ payload, r ≠ .scanUnlock payload)
    (hroom : ∀ draws payload, r = .listNearbyBikes draws payload → d.Room P s.repos kSpawnTarget) :
    Kept env s r.phase s where
  bystander := by
    cases r with
    | scanUnlock payload => exact absurd rfl (hr payload)
    | _ => trivial
  numbered := by
    cases r with
    | listNearbyBikes draws payload => exact ⟨hnum.distinct, hroom draws payload rfl⟩
    | _ => exact hnum
  backed := hback
  live _ _ := id
  overwritten := rfl
  held sess hs := by cases r <;> cases hs
  freed sess hs := by cases r <;> cases hs

theorem Inv.bystander (h : s.Inv) {e : Arrival} (hs : s.Spaced e)
    (hr : ∀ payload, e.request ≠ .scanUnlock payload) : (s.handle e).Inv := by
  have hobeys : ObeysFrom (fun no => (∃ b, s.sessions.on no b) → ¬ LosesStatus d e.env)
      e.request.phase (dispatch P e.request) := by
    refine dispatch_obeys P fun req hreq => ?_
    rw [Spaced, hreq] at hs
    exact hs
  have hstart : Kept e.env s e.request.phase s := by
    refine .start h.numbered h.backed hr fun draws payload hreq => ?_
    rw [Spaced, hreq] at hs
    exact hs
  obtain ⟨q, -, hkept⟩ := hobeys.run (I := fun q t => Kept e.env s q t)
    (fun q c t ht hallowed => ht.step hallowed) hstart
  have hissued : (s.handle e).issued = s.issued := by
    simp only [handle, returned_none hr, Option.map_none, Option.toList_none, List.nil_append]
  exact
    { numbered := hkept.numbered.mono (Nat.zero_le _)
      backed := hkept.backed
      kept := hkept.overwritten.trans h.kept
      distinct := hissued ▸ h.distinct
      stamped := hissued ▸ h.stamped
      live := fun no b hno => hissued ▸ h.live no b (hkept.live no b hno) }

/-- A refused unlock returns no number. -/
theorem Inv.refused (h : s.Inv) {t : Rentals P d} (hq : Quiet s t) (now : Nat) :
    Inv { t with clock := now, issued := s.issued } where
  numbered := hq.numbered 0 h.numbered
  backed b hb hst := by
    change ∃ no, t.sessions.on no b
    rw [hq.sessions]
    exact h.backed b (hq.rented ▸ hb) (hq.statuses ▸ hst)
  kept := hq.overwritten.trans h.kept
  distinct := h.distinct
  stamped := h.stamped
  live no b hno := h.live no b (hq.sessions ▸ hno)

/-- The session a successful unlock creates is the first of its number. -/
theorem Inv.unlocked (h : s.Inv) {t : Rentals P d} (hq : Quiet s t) {sess : RideSession}
    (hyear : FourDigitYear env.now) (hno : rideNoAt env.now = .ok sess.rideNo)
    (hlone : ∀ x ∈ s.issued, x.2 ≠ env.now) :
    Inv { (exec env (.repo (.updateStatus sess.bikeId .rented))
      (exec env (.ride (.create sess)) t).2).2 with
        clock := env.now, issued := (sess.rideNo, env.now) :: s.issued } := by
  have hfresh : ∀ x ∈ s.issued, x.1 ≠ sess.rideNo := by
    intro x hx heq
    obtain ⟨hyear', hno'⟩ := h.stamped x hx
    exact hlone x hx (rideNoAt_inj hyear' hyear (heq ▸ hno') hno)
  have hnone : t.sessions.find sess.rideNo = none := by
    rw [hq.sessions]
    refine Option.eq_none_iff_forall_ne_some.mpr fun sess' hfind => ?_
    obtain ⟨at', hmem⟩ := h.live sess.rideNo sess'.bikeId ⟨sess', hfind, rfl⟩
    exact hfresh _ hmem rfl
  have hnum : d.Numbered P t.repos 0 := hq.numbered 0 h.numbered
  have hst := Deployment.statuses_updateStatus env hnum.distinct sess.bikeId .rented
  have hother : ∀ b, b ≠ sess.bikeId → (b, BikeStatus.rented) ∈
      d.statuses P (d.exec P env (.updateStatus sess.bikeId .rented) t.repos).2 →
        (b, BikeStatus.rented) ∈ d.statuses P s.repos := by
    intro b hb hmem
    rw [hst, hq.statuses] at hmem
    split at hmem
    · exact hmem
    · rcases mem_setStatus.mp hmem with ⟨hb', -⟩ | ⟨-, hmem⟩
      · exact absurd hb' hb
      · exact hmem
  refine
    { numbered := hnum.frame env (c := .updateStatus sess.bikeId .rented) (by simp)
      backed := fun b hb hmem => ?_
      kept := ?_
      distinct := List.nodup_cons.mpr ⟨fun hold => ?_, h.distinct⟩
      stamped := List.forall_mem_cons.mpr ⟨⟨hyear, hno⟩, h.stamped⟩
      live := fun no b hon => ?_ }
  · change ∃ no, (t.sessions.create sess).on no b
    by_cases hbike : b = sess.bikeId
    · exact ⟨sess.rideNo, (RideSessionStore.on_create sess).mpr (.inl ⟨rfl, hbike.symm⟩)⟩
    · have hb : b ∈ s.rented := hq.rented ▸ (List.mem_cons.mp hb).resolve_left hbike
      obtain ⟨no, hon⟩ := h.backed b hb (hother b hbike hmem)
      obtain ⟨at', hold⟩ := h.live no b hon
      refine ⟨no, (RideSessionStore.on_create sess).mpr (.inr ⟨hfresh _ hold, ?_⟩)⟩
      rw [hq.sessions]
      exact hon
  · change ((t.overwritten || (t.sessions.find sess.rideNo).isSome) || false) = false
    rw [hnone, hq.overwritten, h.kept]
    rfl
  · obtain ⟨x, hx, heq⟩ := List.mem_map.mp hold
    exact hfresh x hx heq
  · rcases (RideSessionStore.on_create sess).mp hon with ⟨rfl, -⟩ | ⟨-, hon⟩
    · exact ⟨env.now, List.mem_cons_self⟩
    · rw [hq.sessions] at hon
      obtain ⟨at', hold⟩ := h.live no b hon
      exact ⟨at', List.mem_cons_of_mem _ hold⟩

theorem Inv.handle (h : s.Inv) {e : Arrival} (hs : s.Spaced e) : (s.handle e).Inv := by
  by_cases hr : ∃ payload, e.request = .scanUnlock payload
  · obtain ⟨payload, hreq⟩ := hr
    rw [Rentals.handle, hreq, dispatch, run_answer]
    rcases scanUnlock_cases e.env payload s with ⟨hcode, hquiet⟩ | ⟨req, rfl, hunlocked⟩
    · have hnone : returned (((scanUnlock payload).run (exec e.env) s).1.map .scanUnlock) =
          none := by
        cases hout : ((scanUnlock payload).run (exec e.env) s).1 with
        | error what => rfl
        | ok r => exact if_neg (hcode r hout)
      rw [hnone]
      exact h.refused hquiet e.env.now
    · obtain ⟨sess, r, u, hquiet, hnamed, hno, hcode, hnumber, hrun⟩ := hunlocked
      rw [Spaced, hreq] at hs
      obtain ⟨hyear, hlone⟩ := hs ⟨_, hnamed⟩
      have hsome : returned (.ok (.scanUnlock r)) = some sess.rideNo := by
        rw [← hnumber]
        exact if_pos hcode
      rw [hrun, Except.map, hsome]
      exact h.unlocked hquiet hyear hno hlone
  · exact h.bystander hs fun payload hreq => hr ⟨payload, hreq⟩

theorem Inv.of_reachable (h : (machine P d).ReachableWhile Spaced s) : s.Inv := by
  refine Machine.invariant ?_ ?_ h
  · rintro s ⟨hsessions, hnum, hissued, hover, hrented⟩
    refine ⟨hnum, ?_, hover, by simp [hissued], by simp [hissued], fun no b hon => ?_⟩
    · intro b hb
      rw [hrented] at hb
      cases hb
    · rw [hsessions] at hon
      exact absurd hon RideSessionStore.not_on_empty
  · intro s e t hinv hs hnext
    simp only [machine] at hnext
    split at hnext
    · cases hnext
      exact hinv.handle hs
    · cases hnext

/-- **Every rental can be returned**, in every run whose unlocks are a second
apart and whose returns keep their idle marks: no number is returned twice,
no session is replaced, and every bike that an unlock rented is ridden. -/
theorem rentals_returnable (h : (machine P d).ReachableWhile Spaced s) :
    (s.issued.map Prod.fst).Nodup ∧ s.overwritten = false ∧
      ∀ b ∈ s.rented, (b, BikeStatus.rented) ∈ d.statuses P s.repos →
        ∃ no sess, s.sessions.find no = some sess ∧ sess.bikeId = b :=
  have hinv := Inv.of_reachable h
  ⟨hinv.distinct, hinv.kept, hinv.backed⟩

end Rentals

/-! ## Two unlocks in one second -/

/-- The small database with a second bike. -/
def Production.pair : Production Platform.standstill :=
  { Production.small 1000 .idle with
    tables :=
      { (Production.small 1000 .idle).tables with
        bike := [⟨1, "SB00000001", 0, 0, .idle⟩, ⟨2, "SB00000002", 0, 0, .idle⟩]
        bike_id := by decide
        bike_no := by decide
        ride_bike := by decide } }

namespace Rentals

def pairStart : Rentals Platform.standstill .production :=
  ⟨⟨.pair, .empty⟩, 0, [], false, []⟩

theorem pairStart_init : (machine Platform.standstill .production).init pairStart :=
  ⟨rfl, ⟨Deployment.distinct_production _, trivial⟩, rfl, rfl, rfl⟩

def unlockAt (bikeNo : String) (now : Nat) : Arrival :=
  ⟨.scanUnlock (some ⟨"token", bikeNo, .fin 0, .fin 0⟩), .calm now⟩

def returnAt (rideNo : String) (now : Nat) : Arrival :=
  ⟨.endRide (some ⟨"token", rideNo, .fin 0, .fin 0⟩), .calm now⟩

/-- Two unlocks a second apart, and the return of the first ride. -/
theorem rentals_returnable_apart :
    ∃ s, (machine Platform.standstill .production).ReachableWhile Spaced s ∧
      s.issued = [("R19700101000202", 201), ("R19700101000201", 200)] ∧
      Deployment.production.statuses _ s.repos = [(1, .idle), (2, .rented)] ∧ s.rented = [2, 1] ∧
      (s.issued.map Prod.fst).Nodup ∧ s.overwritten = false ∧
      ∀ b ∈ s.rented, (b, BikeStatus.rented) ∈ Deployment.production.statuses _ s.repos →
        ∃ no sess, s.sessions.find no = some sess ∧ sess.bikeId = b := by
  have hstart : (machine Platform.standstill .production).ReachableWhile Spaced pairStart :=
    .start pairStart_init
  have hfirst := Machine.ReachableWhile.step (e := unlockAt "SB00000001" 200) hstart
    (fun _ => ⟨by decide, by decide⟩) rfl
  have hsecond := Machine.ReachableWhile.step (e := unlockAt "SB00000002" 201) hfirst
    (fun _ => ⟨by decide, by decide +kernel⟩) rfl
  have hreturn := Machine.ReachableWhile.step (e := returnAt "R19700101000201" 300) hsecond
    (fun _ hlost => absurd hlost.2 (by decide)) rfl
  exact ⟨_, hreturn, by decide +kernel, by decide +kernel, by decide +kernel,
    rentals_returnable hreturn⟩

/-- Two unlocks in one second: both return the same number, the second session
replaces the first, and nothing rides the first bike, which stays rented. -/
theorem same_second :
    ∃ s, (machine Platform.standstill .production).Reachable s ∧
      s.issued = [("R19700101000201", 200), ("R19700101000201", 200)] ∧ s.overwritten = true ∧
      1 ∈ s.rented ∧ (1, BikeStatus.rented) ∈ Deployment.production.statuses _ s.repos ∧
      ∀ no sess, s.sessions.find no = some sess → sess.bikeId ≠ 1 := by
  have hplay : (machine Platform.standstill .production).play pairStart
      [unlockAt "SB00000001" 200, unlockAt "SB00000002" 200] =
        some ((pairStart.handle (unlockAt "SB00000001" 200)).handle (unlockAt "SB00000002" 200)) :=
    rfl
  refine ⟨_, Machine.reachable_of_play (.start pairStart_init) hplay, by decide +kernel,
    by decide +kernel, by decide +kernel, by decide +kernel, fun no sess hfind => ?_⟩
  -- whatever the number is, the session under it is the second one
  have hsecond : ((RideSessionStore.empty.create
      ⟨"R19700101000201", 1, 1, .fin 0, .fin 0, 200, .fin 0, .fin 0, 0, []⟩).create
      ⟨"R19700101000201", 1, 2, .fin 0, .fin 0, 200, .fin 0, .fin 0, 0, []⟩).on no sess.bikeId :=
    ⟨sess, hfind, rfl⟩
  rcases (RideSessionStore.on_create _).mp hsecond with ⟨-, hbike⟩ | ⟨hno, hsecond⟩
  · rw [← hbike]
    decide
  · rcases (RideSessionStore.on_create _).mp hsecond with ⟨hno', -⟩ | ⟨-, hempty⟩
    · exact absurd hno' hno
    · exact absurd hempty RideSessionStore.not_on_empty

end Rentals

end SharedBike.Server
