import SharedBike.Server.World
import SharedBike.Lib.Pool
import Mathlib.Data.List.Perm.Subperm

/-!
# A login code and how often it logs in

Any number of `mobile_code` and `login` executions for one mobile, their calls
interleaved in any order. `login` asks for the code, compares it and only then
deletes it, and the deletion names the mobile and not the code. So two logins
can both see the code before either deletes it, and a login can delete a code
that was issued after it looked; `code_misused` has a run for each.

`code_single_use` is the other half. Between the `get_code` by which a login
accepts its code and its `delete_code`, let no code be issued and no other
login with that code look; and let no deletion be lost. Then no code logs in
more often than it was issued, and no login deletes a code but its own.
-/

namespace SharedBike.Server

open SharedBike.Common SharedBike.Lib Function

variable {P : Platform} {d : Deployment}

/-! ## The stored code -/

namespace Deployment

/-- The code in the store, expired or not. -/
def code (P : Platform) : (d : Deployment) → d.Repos P → String → Option Int32
  | .inMemory, m, mobile => (m.codes mobile).map (·.1)
  | .production, s, mobile => (s.redis.codes (cstr mobile)).map (·.1)

/-- Whether a write to the store gets through. -/
def took (d : Deployment) (env : Env) : Bool :=
  match d with
  | .inMemory => true
  | .production => Redis.reachable env

variable {env : Env} {s : d.Repos P} {mobile : String}

theorem code_setCode :
    d.code P (d.exec P env (.setCode mobile) s).2 mobile =
      if d.took env then some env.code else d.code P s mobile := by
  cases d with
  | inMemory =>
    simp only [code, exec, InMemory.exec, took, update_self, Option.map_some, if_true]
  | production =>
    simp only [code, exec, Production.exec, took, Redis.setCode, Redis.reachable]
    by_cases hconnect : env.fails .redisConnect = true <;>
      by_cases hcommand : env.fails .redisCommand = true <;> simp [hconnect, hcommand]

/-- Asking for a code changes nothing, or erases it. -/
theorem code_getCode :
    d.code P (d.exec P env (.getCode mobile) s).2 mobile = d.code P s mobile ∨
      d.code P (d.exec P env (.getCode mobile) s).2 mobile = none := by
  cases d with
  | inMemory =>
    simp only [code, exec, InMemory.exec, InMemory.getCode]
    split
    · exact .inl rfl
    · split
      · exact .inr (by simp only [update_self, Option.map_none])
      · exact .inl rfl
  | production => exact .inl rfl

/-- The answer is the stored code. -/
theorem code_of_getCode {icode : Int32} (h : (d.exec P env (.getCode mobile) s).1 = some icode) :
    d.code P s mobile = some icode := by
  cases d with
  | inMemory =>
    simp only [exec, InMemory.exec, InMemory.getCode] at h
    split at h
    · cases h
    next heq =>
      split at h
      · cases h
      · simp only [code, heq]
        exact h
  | production =>
    simp only [exec, Production.exec, Redis.getCode, Redis.live] at h
    split at h
    · obtain ⟨e, he, rfl⟩ := Option.map_eq_some_iff.mp h
      simp only [code, (Option.filter_eq_some_iff.mp he).1, Option.map_some]
    · cases h

theorem code_deleteCode :
    d.code P (d.exec P env (.deleteCode mobile) s).2 mobile =
      if d.took env then none else d.code P s mobile := by
  cases d with
  | inMemory =>
    simp only [code, exec, InMemory.exec, took, update_self, Option.map_none, if_true]
  | production =>
    simp only [code, exec, Production.exec, took, Redis.deleteCode]
    by_cases h : Redis.reachable env = true <;> simp [h]

theorem code_findOrCreate (m : String) :
    d.code P (d.exec P env (.findOrCreate m) s).2 mobile = d.code P s mobile := by
  cases d with
  | inMemory =>
    simp only [code, exec, InMemory.exec, InMemory.findOrCreate]
    split <;> rfl
  | production => rfl

theorem code_getBalance (uid : Int32) :
    d.code P (d.exec P env (.getBalance uid) s).2 mobile = d.code P s mobile := by
  cases d <;> rfl

theorem code_createSession (m : String) :
    d.code P (d.exec P env (.createSession m) s).2 mobile = d.code P s mobile := by
  cases d with
  | inMemory => rfl
  | production =>
    simp only [code, exec, Production.exec, Redis.createSession]
    split
    · rfl
    · split <;> rfl

end Deployment

/-! ## The two handlers -/

/-- What a handler is called for. -/
inductive CodeRequest where
  | ask
  | login (icode : Int32)
  deriving DecidableEq

def CodeRequest.toRequest (mobile : String) : CodeRequest → Request
  | .ask => .mobileCode (some ⟨mobile⟩)
  | .login icode => .login (some ⟨mobile, icode⟩)

/-- How far a handler is. -/
inductive CodePhase where
  | asking
  | entering (icode : Int32)
  | refused
  /-- between the `get_code` that gave the login its code, and its `delete_code` -/
  | verified (icode : Int32)
  | spent (icode : Int32)
  deriving DecidableEq

def CodeRequest.phase : CodeRequest → CodePhase
  | .ask => .asking
  | .login icode => .entering icode

/-- A handler has not verified or spent a code before its first call. -/
theorem CodeRequest.start_cases (r : CodeRequest) :
    (∀ c, r.phase ≠ .verified c) ∧ (∀ c, r.phase ≠ .spent c) ∧
      ∀ c, r.phase = .entering c → r = .login c := by
  cases r with
  | ask => exact ⟨nofun, nofun, nofun⟩
  | login icode =>
    refine ⟨nofun, nofun, ?_⟩
    rintro c ⟨⟩
    rfl

namespace CodePhase

inductive Allowed (mobile : String) : CodePhase → Call → Prop
  | ask : Allowed mobile .asking (.repo (.setCode mobile))
  | look (icode : Int32) : Allowed mobile (.entering icode) (.repo (.getCode mobile))
  | delete (icode : Int32) : Allowed mobile (.verified icode) (.repo (.deleteCode mobile))
  | user (icode : Int32) : Allowed mobile (.spent icode) (.repo (.findOrCreate mobile))
  | balance (icode uid : Int32) : Allowed mobile (.spent icode) (.repo (.getBalance uid))
  | session (icode : Int32) : Allowed mobile (.spent icode) (.repo (.createSession mobile))

def next : CodePhase → (c : Call) → c.Res → CodePhase
  | .entering icode, .repo (.getCode _), stored =>
    if stored = some icode then .verified icode else .refused
  | .verified icode, .repo (.deleteCode _), _ => .spent icode
  | q, _, _ => q

end CodePhase

def codeCalls (mobile : String) : Discipline Call Call.Res CodePhase :=
  ⟨CodePhase.Allowed mobile, CodePhase.next⟩

/-- An Ok to a login. -/
def Outcome.loggedIn : Outcome Reply → Bool
  | .ok (.login r) => r.code = ErrCode.ok.code
  | _ => false

/-- A login that says Ok has been through the deletion. -/
def CodePhase.Ends (q : CodePhase) (out : Outcome Reply) : Prop :=
  Outcome.loggedIn out = true → ∃ icode, q = .spent icode

theorem codeRequest_obeys (P : Platform) (mobile : String) (r : CodeRequest) :
    (dispatch P (r.toRequest mobile)).Obeys (codeCalls mobile) CodePhase.Ends r.phase := by
  cases r with
  | ask => exact ⟨.ask, fun icode => nofun⟩
  | login icode =>
    have hlogin : (login (some ⟨mobile, icode⟩)).Obeys (codeCalls mobile)
        (fun q out => q.Ends (out.map .login)) (.entering icode) := by
      refine .ask (.look icode) fun stored => .ite (fun _ => nofun) fun h => ?_
      have hphase : (codeCalls mobile).next (.entering icode) (.repo (.getCode mobile)) stored =
          .verified icode := if_pos (not_not.mp h)
      rw [hphase]
      exact .ask (.delete icode) fun _ => .ask (.user icode) fun u =>
        .ask (.balance icode u.id) fun _ => .ask (.session icode) fun _ _ => ⟨icode, rfl⟩
    exact hlogin.bind fun q out hout => hout

/-! ## The runs -/

/-- The handlers of one mobile at work, and what has come of its codes. -/
structure Logins (P : Platform) (d : Deployment) (ι : Type) extends
    Pool (World P d) ι Call Call.Res (Outcome Reply) CodePhase where
  /-- the codes that `set_code` has put into the store -/
  issued : List Int32
  /-- the logins that have answered Ok -/
  succeeded : List ι
  /-- some login has deleted a code other than its own -/
  misdeleted : Bool

namespace Logins

variable {ι : Type} [DecidableEq ι] {mobile : String} {reqs : ι → CodeRequest}

/-- The code that a turn issues. -/
def issues (s : Logins P d ι) (e : Turn ι Env) : List Int32 :=
  match s.threads e.thread with
  | .call (.repo (.setCode _)) _ => if d.took e.env then [e.env.code] else []
  | _ => []

/-- The turn deletes a code that its login has not verified. -/
def misdeletes (s : Logins P d ι) (e : Turn ι Env) : Bool :=
  match s.threads e.thread, s.phase e.thread with
  | .call (.repo (.deleteCode mobile)) _, .verified icode =>
    d.took e.env && (d.code P s.shared.repos mobile).any (· ≠ icode)
  | _, _ => false

/-- The program has come to an Ok for its login. -/
def loggedIn : Calls (Outcome Reply) → Bool
  | .done out => Outcome.loggedIn out
  | .call _ _ => false

def next (mobile : String) (s : Logins P d ι) (e : Turn ι Env) : Option (Logins P d ι) :=
  (s.toPool.next (fun env c w => some (World.exec env c w)) (codeCalls mobile) e).map fun p =>
    { toPool := p
      issued := s.issues e ++ s.issued
      succeeded := if loggedIn (p.threads e.thread) then e.thread :: s.succeeded else s.succeeded
      misdeleted := s.misdeleted || s.misdeletes e }

/-- Executions of `mobile_code` and `login` for one mobile, from any state of the store. -/
def machine (P : Platform) (d : Deployment) (mobile : String) (reqs : ι → CodeRequest) :
    Machine (Logins P d ι) (Turn ι Env) where
  init s := s.threads = (fun i => dispatch P ((reqs i).toRequest mobile)) ∧
    s.phase = (fun i => (reqs i).phase) ∧
    s.issued = (d.code P s.shared.repos mobile).toList ∧ s.succeeded = [] ∧ s.misdeleted = false
  next := next mobile

/-- While a login is between the `get_code` that gave it its code and its
`delete_code`, the turn neither issues a code nor looks for that code; and a
deletion gets through. -/
def Undisturbed (s : Logins P d ι) (e : Turn ι Env) : Prop :=
  match s.threads e.thread with
  | .call (.repo (.setCode _)) _ => ∀ j icode, s.phase j ≠ .verified icode
  | .call (.repo (.getCode _)) _ =>
    ∀ j icode, s.phase j = .verified icode → s.phase e.thread ≠ .entering icode
  | .call (.repo (.deleteCode _)) _ => d.took e.env = true
  | _ => True

/-! ## The invariant -/

/-- The logins that have answered are at their end. -/
structure Ended (s : Logins P d ι) : Prop where
  nodup : s.succeeded.Nodup
  ended : ∀ i ∈ s.succeeded, (∃ out, s.threads i = .done out) ∧ ∃ icode, s.phase i = .spent icode

/-- `spent` lists the logins that have deleted their code. -/
structure Accounted (mobile : String) (reqs : ι → CodeRequest) (spent : List ι)
    (s : Logins P d ι) : Prop where
  mem : ∀ i, i ∈ spent ↔ ∃ icode, s.phase i = .spent icode
  mine : ∀ i icode, s.phase i = .entering icode ∨ s.phase i = .verified icode →
    reqs i = .login icode
  /-- at most one login has verified its code and not yet deleted it -/
  lone : ∀ i j icode icode', s.phase i = .verified icode → s.phase j = .verified icode' → i = j
  /-- and no other code is in the store -/
  held : ∀ i icode, s.phase i = .verified icode →
    ∀ c, d.code P s.shared.repos mobile = some c → c = icode
  budget : ∀ c, spent.countP (reqs · = .login c) ≤ s.issued.count c
  /-- a code that can still log in has not used up its issues -/
  room : ∀ c, d.code P s.shared.repos mobile = some c ∨ (∃ i, s.phase i = .verified c) →
    spent.countP (reqs · = .login c) < s.issued.count c
  clean : s.misdeleted = false

section Steps

variable {spent : List ι} {s t : Logins P d ι} {i : ι} {icode : Int32}

omit [DecidableEq ι] in
theorem Accounted.quiet (h : Accounted mobile reqs spent s) (hphase : t.phase = s.phase)
    (hcode : d.code P t.shared.repos mobile = d.code P s.shared.repos mobile)
    (hissued : t.issued = s.issued) (hclean : t.misdeleted = s.misdeleted) :
    Accounted mobile reqs spent t where
  mem := by
    rw [hphase]
    exact h.mem
  mine := by
    rw [hphase]
    exact h.mine
  lone := by
    rw [hphase]
    exact h.lone
  held := by
    rw [hphase, hcode]
    exact h.held
  budget := by
    rw [hissued]
    exact h.budget
  room := by
    rw [hphase, hcode, hissued]
    exact h.room
  clean := hclean.trans h.clean

omit [DecidableEq ι] in
theorem Accounted.start (hphase : s.phase = fun i => (reqs i).phase)
    (hissued : s.issued = (d.code P s.shared.repos mobile).toList) (hclean : s.misdeleted = false) :
    Accounted mobile reqs [] s := by
  have hphase' : ∀ i, s.phase i = (reqs i).phase := congrFun hphase
  have hverified : ∀ i c, s.phase i ≠ .verified c := by
    intro i c hi
    rw [hphase'] at hi
    exact (reqs i).start_cases.1 c hi
  exact
    { mem := fun i => by
        rw [hphase']
        exact ⟨nofun, fun ⟨c, hc⟩ => absurd hc ((reqs i).start_cases.2.1 c)⟩
      mine := fun i c hi => by
        rcases hi with hi | hi
        · rw [hphase'] at hi
          exact (reqs i).start_cases.2.2 c hi
        · exact absurd hi (hverified i c)
      lone := fun i j c c' hi => absurd hi (hverified i c)
      held := fun i c hi => absurd hi (hverified i c)
      budget := fun c => Nat.zero_le _
      room := fun c hc => by
        rcases hc with hstored | ⟨i, hi⟩
        · simp [hissued, hstored]
        · exact absurd hi (hverified i c)
      clean := hclean }

omit [DecidableEq ι] in
/-- A code is issued while no login holds one. -/
theorem Accounted.issue (h : Accounted mobile reqs spent s)
    (hfree : ∀ j icode, s.phase j ≠ .verified icode) (hphase : t.phase = s.phase)
    (hcode : d.code P t.shared.repos mobile = some icode) (hissued : t.issued = icode :: s.issued)
    (hclean : t.misdeleted = s.misdeleted) : Accounted mobile reqs spent t where
  mem := by
    rw [hphase]
    exact h.mem
  mine := by
    rw [hphase]
    exact h.mine
  lone := by
    rw [hphase]
    exact h.lone
  held j c hj := by
    rw [hphase] at hj
    exact absurd hj (hfree j c)
  budget c := by
    rw [hissued]
    exact (h.budget c).trans (List.count_le_count_cons ..)
  room c hc := by
    rw [hissued]
    rcases hc with hstored | ⟨j, hj⟩
    · rw [hcode] at hstored
      cases hstored
      rw [List.count_cons_self]
      exact Nat.lt_succ_of_le (h.budget icode)
    · rw [hphase] at hj
      exact absurd hj (hfree j c)
  clean := hclean.trans h.clean

/-- The store is asked for the code, and may have erased it. -/
structure Looked (mobile : String) (s t : Logins P d ι) : Prop where
  code : d.code P t.shared.repos mobile = d.code P s.shared.repos mobile ∨
    d.code P t.shared.repos mobile = none
  issued : t.issued = s.issued
  clean : t.misdeleted = s.misdeleted

omit [DecidableEq ι] in
theorem Looked.stored (h : Looked mobile s t) {c : Int32}
    (hc : d.code P t.shared.repos mobile = some c) : d.code P s.shared.repos mobile = some c := by
  rcases h.code with hsame | hnone
  · exact hsame ▸ hc
  · rw [hnone] at hc
    cases hc

theorem Accounted.mem_update (h : Accounted mobile reqs spent s) {q : CodePhase}
    (hold : ∀ c, s.phase i ≠ .spent c) (hnew : ∀ c, q ≠ .spent c) (j : ι) :
    j ∈ spent ↔ ∃ c, update s.phase i q j = .spent c := by
  by_cases hj : j = i
  · subst hj
    rw [h.mem, update_self]
    exact ⟨fun ⟨c, hc⟩ => absurd hc (hold c), fun ⟨c, hc⟩ => absurd hc (hnew c)⟩
  · rw [update_of_ne hj]
    exact h.mem j

theorem Accounted.refuse (h : Accounted mobile reqs spent s) (hi : s.phase i = .entering icode)
    (hlook : Looked mobile s t) (hphase : t.phase = update s.phase i .refused) :
    Accounted mobile reqs spent t := by
  have hverified : ∀ j c, t.phase j = .verified c → s.phase j = .verified c := by
    intro j c
    rw [hphase]
    exact of_update (· = CodePhase.verified c) (by rintro ⟨⟩)
  exact
    { mem := hphase ▸ h.mem_update (by simp [hi]) (by simp)
      mine := fun j c hj => by
        rw [hphase] at hj
        exact h.mine j c
          (of_update (fun q => q = CodePhase.entering c ∨ q = .verified c) (by simp) hj)
      lone := fun j j' c c' hj hj' => h.lone j j' c c' (hverified j c hj) (hverified j' c' hj')
      held := fun j c hj c' hc' => h.held j c (hverified j c hj) c' (hlook.stored hc')
      budget := hlook.issued ▸ h.budget
      room := fun c hc => by
        rw [hlook.issued]
        refine h.room c (hc.imp hlook.stored ?_)
        rintro ⟨j, hj⟩
        exact ⟨j, hverified j c hj⟩
      clean := hlook.clean.trans h.clean }

/-- The login gets its code, which no other login holds. -/
theorem Accounted.verify (h : Accounted mobile reqs spent s) (hi : s.phase i = .entering icode)
    (hstored : d.code P s.shared.repos mobile = some icode)
    (hfree : ∀ j, s.phase j ≠ .verified icode) (hlook : Looked mobile s t)
    (hphase : t.phase = update s.phase i (.verified icode)) :
    Accounted mobile reqs spent t := by
  -- whoever holds a code holds the stored one, so nobody does
  have hnone : ∀ j c, s.phase j ≠ .verified c := by
    rintro j c hj
    obtain rfl := h.held j c hj icode hstored
    exact hfree j hj
  have hverified : ∀ j c, t.phase j = .verified c → j = i ∧ c = icode := by
    intro j c hj
    rw [hphase] at hj
    by_cases hji : j = i
    · subst hji
      rw [update_self] at hj
      cases hj
      exact ⟨rfl, rfl⟩
    · rw [update_of_ne hji] at hj
      exact absurd hj (hnone j c)
  exact
    { mem := hphase ▸ h.mem_update (by simp [hi]) (by simp)
      mine := fun j c hj => by
        by_cases hji : j = i
        · subst hji
          rw [hphase, update_self] at hj
          rcases hj with hj | hj
          · cases hj
          · cases hj
            exact h.mine j icode (.inl hi)
        · rw [hphase, update_of_ne hji] at hj
          exact h.mine j c hj
      lone := fun j j' c c' hj hj' => (hverified j c hj).1.trans (hverified j' c' hj').1.symm
      held := fun j c hj c' hc' => by
        obtain ⟨-, rfl⟩ := hverified j c hj
        exact Option.some.inj ((hlook.stored hc').symm.trans hstored)
      budget := hlook.issued ▸ h.budget
      room := fun c hc => by
        rw [hlook.issued]
        refine h.room c (.inl ?_)
        rcases hc with hc | ⟨j, hj⟩
        · exact hlook.stored hc
        · obtain ⟨-, rfl⟩ := hverified j c hj
          exact hstored
      clean := hlook.clean.trans h.clean }

/-- The login deletes its code: it uses up one issue of it. -/
theorem Accounted.delete (h : Accounted mobile reqs spent s) (hi : s.phase i = .verified icode)
    (hcode : d.code P t.shared.repos mobile = none) (hissued : t.issued = s.issued)
    (hclean : t.misdeleted = false)
    (hphase : t.phase = update s.phase i (.spent icode)) :
    Accounted mobile reqs (i :: spent) t := by
  have hfree : ∀ j c, t.phase j ≠ .verified c := by
    rintro j c hj
    rw [hphase] at hj
    by_cases hji : j = i
    · subst hji
      rw [update_self] at hj
      cases hj
    · rw [update_of_ne hji] at hj
      exact hji (h.lone j i c icode hj hi)
  exact
    { mem := fun j => by
        rw [hphase]
        by_cases hji : j = i
        · subst hji
          simp
        · simp [hji, h.mem]
      mine := fun j c hj => by
        rw [hphase] at hj
        exact h.mine j c
          (of_update (fun q => q = CodePhase.entering c ∨ q = .verified c) (by simp) hj)
      lone := fun j j' c c' hj => absurd hj (hfree j c)
      held := fun j c hj => absurd hj (hfree j c)
      budget := fun c => by
        rw [hissued]
        by_cases hc : c = icode
        · subst hc
          rw [List.countP_cons_of_pos (by simp [h.mine i c (.inr hi)])]
          exact h.room c (.inr ⟨i, hi⟩)
        · rw [List.countP_cons_of_neg (by simp [h.mine i icode (.inr hi), Ne.symm hc])]
          exact h.budget c
      room := fun c hc => by
        rcases hc with hstored | ⟨j, hj⟩
        · rw [hcode] at hstored
          cases hstored
        · exact absurd hj (hfree j c)
      clean := hclean }

end Steps

/-- What a turn does. -/
theorem next_cases {s t : Logins P d ι} {e : Turn ι Env} (h : s.next mobile e = some t) :
    ∃ c k, s.threads e.thread = .call c k ∧
      s.toPool.next (fun env c w => some (World.exec env c w)) (codeCalls mobile) e =
        some t.toPool ∧
      t.shared = (World.exec e.env c s.shared).2 ∧
      t.phase = update s.phase e.thread
        ((s.phase e.thread).next c (World.exec e.env c s.shared).1) ∧
      t.threads = update s.threads e.thread (k (World.exec e.env c s.shared).1) ∧
      t.issued = s.issues e ++ s.issued ∧
      t.succeeded =
        (if loggedIn (t.threads e.thread) then e.thread :: s.succeeded else s.succeeded) ∧
      t.misdeleted = (s.misdeleted || s.misdeletes e) := by
  obtain ⟨p, hp, rfl⟩ := Option.map_eq_some_iff.mp h
  obtain ⟨c, k, r, w, hc, hexec, rfl⟩ := Pool.next_cases hp
  obtain ⟨rfl, rfl⟩ := Prod.ext_iff.mp (Option.some.inj hexec)
  exact ⟨c, k, hc, hp, rfl, rfl, rfl, rfl, rfl, rfl⟩

theorem Ended.next {s t : Logins P d ι} {e : Turn ι Env} (h : s.Ended)
    (hob : t.toPool.Obedient (codeCalls mobile) CodePhase.Ends) (hs : s.next mobile e = some t) :
    t.Ended := by
  obtain ⟨c, k, hc, -, -, hphase, hthreads, -, hsucceeded, -⟩ := next_cases hs
  -- whoever has answered is at its end, and this one was not
  have hother : ∀ i ∈ s.succeeded, i ≠ e.thread := by
    rintro i hi rfl
    obtain ⟨⟨out, hout⟩, -⟩ := h.ended _ hi
    rw [hc] at hout
    cases hout
  have hkept : ∀ i ∈ s.succeeded, (∃ out, t.threads i = .done out) ∧
      ∃ icode, t.phase i = .spent icode := by
    intro i hi
    rw [hthreads, hphase, update_of_ne (hother i hi), update_of_ne (hother i hi)]
    exact h.ended i hi
  by_cases hlogged : loggedIn (t.threads e.thread) = true
  · rw [if_pos hlogged] at hsucceeded
    have hnew : (∃ out, t.threads e.thread = .done out) ∧
        ∃ icode, t.phase e.thread = .spent icode := by
      have hobey := hob e.thread
      cases hdone : t.threads e.thread with
      | call c k =>
        rw [hdone] at hlogged
        cases hlogged
      | done out =>
        rw [hdone] at hlogged hobey
        exact ⟨⟨out, rfl⟩, hobey hlogged⟩
    refine ⟨?_, ?_⟩
    · rw [hsucceeded]
      exact List.nodup_cons.mpr ⟨fun hmem => hother _ hmem rfl, h.nodup⟩
    · rw [hsucceeded]
      exact List.forall_mem_cons.mpr ⟨hnew, hkept⟩
  · rw [if_neg hlogged] at hsucceeded
    exact ⟨hsucceeded ▸ h.nodup, hsucceeded ▸ hkept⟩

theorem Accounted.next {spent : List ι} {s t : Logins P d ι} {e : Turn ι Env}
    (h : Accounted mobile reqs spent s)
    (hob : s.toPool.Obedient (codeCalls mobile) CodePhase.Ends) (hok : s.Undisturbed e)
    (hs : s.next mobile e = some t) : ∃ spent', Accounted mobile reqs spent' t := by
  obtain ⟨c, k, hc, -, hshared, hphase, -, hissued, -, hclean⟩ := next_cases hs
  have hallowed := (hob e.thread)
  rw [hc] at hallowed
  replace hallowed := hallowed.1
  rw [Undisturbed, hc] at hok
  rw [issues, hc] at hissued
  rw [misdeletes, hc] at hclean
  generalize hq : s.phase e.thread = q at hallowed hphase hclean
  have hstay : t.phase = update s.phase e.thread q → t.phase = s.phase := by
    intro hsame
    rw [hsame, ← hq, update_eq_self]
  cases hallowed with
  | ask =>
    have hclean' : t.misdeleted = s.misdeleted := hclean.trans (Bool.or_false _)
    have hcode : d.code P t.shared.repos mobile =
        if d.took e.env then some e.env.code else d.code P s.shared.repos mobile := by
      rw [hshared]
      exact Deployment.code_setCode
    by_cases htook : d.took e.env = true
    · rw [if_pos htook] at hcode hissued
      exact ⟨spent, h.issue hok (hstay hphase) hcode hissued hclean'⟩
    · rw [if_neg htook] at hcode hissued
      exact ⟨spent, h.quiet (hstay hphase) hcode hissued hclean'⟩
  | look icode =>
    have hlook : Looked mobile s t := by
      refine ⟨?_, hissued, hclean.trans (Bool.or_false _)⟩
      rw [hshared]
      exact Deployment.code_getCode
    by_cases hstored : (World.exec e.env (.repo (.getCode mobile)) s.shared).1 = some icode
    · refine ⟨spent, h.verify hq (Deployment.code_of_getCode hstored) (fun j hj => ?_) hlook ?_⟩
      · exact hok j icode hj hq
      · rw [hphase]
        exact congrArg _ (if_pos hstored)
    · refine ⟨spent, h.refuse hq hlook ?_⟩
      rw [hphase]
      exact congrArg _ (if_neg hstored)
  | delete icode =>
    have hcode : d.code P t.shared.repos mobile = none := by
      rw [hshared]
      exact Deployment.code_deleteCode.trans (if_pos hok)
    refine ⟨e.thread :: spent, h.delete hq hcode hissued ?_ hphase⟩
    rw [hclean, h.clean, Bool.false_or, Bool.and_eq_false_iff]
    refine .inr ?_
    cases hc : d.code P s.shared.repos mobile with
    | none => rfl
    | some c => simp [h.held e.thread icode hq c hc]
  | user icode =>
    refine ⟨spent, h.quiet (hstay hphase) ?_ hissued (hclean.trans (Bool.or_false _))⟩
    rw [hshared]
    exact Deployment.code_findOrCreate mobile
  | balance icode uid =>
    refine ⟨spent, h.quiet (hstay hphase) ?_ hissued (hclean.trans (Bool.or_false _))⟩
    rw [hshared]
    exact Deployment.code_getBalance uid
  | session icode =>
    refine ⟨spent, h.quiet (hstay hphase) ?_ hissued (hclean.trans (Bool.or_false _))⟩
    rw [hshared]
    exact Deployment.code_createSession mobile

/-- **A code logs in at most as often as it was issued**, and no login deletes a
code but its own, in every undisturbed run. -/
theorem code_single_use (mobile : String) (reqs : ι → CodeRequest) {s : Logins P d ι}
    (h : (machine P d mobile reqs).ReachableWhile Undisturbed s) :
    (∀ c, s.succeeded.countP (reqs · = .login c) ≤ s.issued.count c) ∧ s.misdeleted = false := by
  have hinv : s.toPool.Obedient (codeCalls mobile) CodePhase.Ends ∧ s.Ended ∧
      ∃ spent, Accounted mobile reqs spent s := by
    refine Machine.invariant (I := fun s : Logins P d ι =>
      s.toPool.Obedient (codeCalls mobile) CodePhase.Ends ∧ s.Ended ∧
        ∃ spent, Accounted mobile reqs spent s) ?_ ?_ h
    · rintro s ⟨hthreads, hphase, hissued, hsucceeded, hclean⟩
      refine ⟨?_, ⟨?_, ?_⟩, [], ?_⟩
      · intro i
        rw [hthreads, hphase]
        exact codeRequest_obeys P mobile (reqs i)
      · rw [hsucceeded]
        exact List.nodup_nil
      · rw [hsucceeded]
        nofun
      · exact .start hphase hissued hclean
    · rintro s e t ⟨hob, hended, spent, hacc⟩ hok hs
      have hob' : t.toPool.Obedient (codeCalls mobile) CodePhase.Ends := by
        obtain ⟨c, k, -, hpool, -⟩ := next_cases hs
        exact hob.next hpool
      exact ⟨hob', hended.next hob' hs, hacc.next hob hok hs⟩
  obtain ⟨-, hended, spent, hacc⟩ := hinv
  have hsub : s.succeeded ⊆ spent := fun i hi => (hacc.mem i).mpr (hended.ended i hi).2
  exact ⟨fun c => ((hended.nodup.subperm hsub).countP_le _).trans (hacc.budget c), hacc.clean⟩

/-! ## Three handlers -/

/-- A code is asked for, and two logins use it. -/
def twoLogins (i : Fin 3) : CodeRequest := if i = 0 then .ask else .login 123456

/-- A login, and two requests for a code. -/
def twoAsks (i : Fin 3) : CodeRequest := if i = 1 then .login 123456 else .ask

/-- On the small database, with no code stored. -/
def start (reqs : Fin 3 → CodeRequest) : Logins Platform.standstill .production (Fin 3) where
  shared := ⟨Production.small 1000 .idle, .empty⟩
  threads i := dispatch .standstill ((reqs i).toRequest "13800000000")
  phase i := (reqs i).phase
  issued := []
  succeeded := []
  misdeleted := false

theorem start_init (reqs : Fin 3 → CodeRequest) :
    (machine Platform.standstill .production "13800000000" reqs).init (start reqs) :=
  ⟨rfl, rfl, rfl, rfl, rfl⟩

/-- A turn at one instant, at which the generator draws this code. -/
def turn (icode : Int32) (i : Fin 3) : Turn (Fin 3) Env :=
  ⟨i, { Env.calm 200 with code := icode }⟩

/-- The condition of `code_single_use`, computed. -/
def undisturbedCheck (s : Logins Platform.standstill .production (Fin 3)) (e : Turn (Fin 3) Env) :
    Bool :=
  match s.threads e.thread with
  | .call (.repo (.setCode _)) _ => (List.finRange 3).all fun j =>
    match s.phase j with
    | .verified _ => false
    | _ => true
  | .call (.repo (.getCode _)) _ => (List.finRange 3).all fun j =>
    match s.phase j with
    | .verified icode => s.phase e.thread ≠ .entering icode
    | _ => true
  | .call (.repo (.deleteCode _)) _ => Deployment.production.took e.env
  | _ => true

theorem undisturbedCheck_sound (s : Logins Platform.standstill .production (Fin 3))
    (e : Turn (Fin 3) Env) (h : undisturbedCheck s e = true) : s.Undisturbed e := by
  unfold undisturbedCheck at h
  split at h
  next heq =>
    rw [Undisturbed, heq]
    intro j icode hj
    have := List.all_eq_true.mp h j (List.mem_finRange j)
    rw [hj] at this
    cases this
  next heq =>
    rw [Undisturbed, heq]
    intro j icode hj
    have := List.all_eq_true.mp h j (List.mem_finRange j)
    rw [hj] at this
    exact of_decide_eq_true this
  next heq =>
    rw [Undisturbed, heq]
    exact h
  next hset hget hdelete =>
    unfold Undisturbed
    split
    next heq => exact absurd heq (hset _ _)
    next heq => exact absurd heq (hget _ _)
    next heq => exact absurd heq (hdelete _ _)
    · trivial

/-- One login after the other: the second finds no code. -/
theorem code_single_use_in_turn :
    ∃ s, (machine Platform.standstill .production "13800000000" twoLogins).ReachableWhile
        Undisturbed s ∧
      s.issued = [123456] ∧ s.succeeded = [1] ∧
      (∀ c, s.succeeded.countP (twoLogins · = .login c) ≤ s.issued.count c) ∧
      s.misdeleted = false := by
  obtain ⟨s, hreach, hissued, hsucceeded⟩ :
      ∃ s, (machine Platform.standstill .production "13800000000" twoLogins).ReachableWhile
        Undisturbed s ∧ s.issued = [123456] ∧ s.succeeded = [1] :=
    Machine.exists_of_playWhile undisturbedCheck_sound _ (start_init twoLogins)
      ([0, 1, 1, 1, 1, 1, 2].map (turn 123456)) (by decide +kernel)
  exact ⟨s, hreach, hissued, hsucceeded, code_single_use _ _ hreach⟩

/-- Both logins look before either deletes: a code that was issued once logs in
twice. And a login deletes a code that was issued after it looked. -/
theorem code_misused :
    (∃ s, (machine Platform.standstill .production "13800000000" twoLogins).Reachable s ∧
      s.issued.count 123456 = 1 ∧ s.succeeded.countP (twoLogins · = .login 123456) = 2) ∧
    ∃ s, (machine Platform.standstill .production "13800000000" twoAsks).Reachable s ∧
      s.misdeleted = true := by
  constructor
  · exact Machine.exists_of_play _ (start_init twoLogins)
      ([0, 1, 2, 1, 1, 1, 1, 2, 2, 2, 2].map (turn 123456)) (by decide +kernel)
  · exact Machine.exists_of_play _ (start_init twoAsks)
      [turn 123456 0, turn 0 1, turn 654321 2, turn 0 1] (by decide +kernel)

end Logins

end SharedBike.Server
