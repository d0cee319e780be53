import SharedBike.Lib.Journal
import SharedBike.Server.Courses
import SharedBike.Server.AccountRefinement

/-!
# On whose authority a call is made

Any requests at once, their calls interleaved in any order, in either deployment, with
any failures. A handler moves money, archives a ride, starts one or reads a ledger or
a history for a user. Behind each of these stands a chain of calls that came before it:

* the same handler was given that user by `find_or_create` for a mobile, and that mobile
  by `lookup_session` for the token of its request;
* a `login` for that mobile had created a session under that token, not more than
  seven days before;
* the same `login` had been given the code of its request by `get_code`;
* a `mobile_code` for that mobile had set this code, not more than 300 seconds before.

`acts_founded` says so, from a store without codes and sessions on. So there is no way
to an account around the code: neither an interleaving, nor a failure, nor a request of
another kind gives one. The Redis store cuts a text at its first zero byte, so there
"that mobile" and "that token" mean texts that agree up to it (`Deployment.key`).
-/

namespace SharedBike.Server

open SharedBike.Common SharedBike.Lib Function

variable {P : Platform} {d : Deployment} {c : Call}

/-! ## The session store -/

namespace Deployment

/-- What the session store makes of a text that it is given as a key. -/
def key : Deployment → String → String
  | .inMemory, s => s
  | .production, s => cstr s

/-- The codes and the sessions, with the time they expire at. -/
def keys (P : Platform) : (d : Deployment) → d.Repos P → Redis
  | .inMemory, m => ⟨m.codes, m.tokens⟩
  | .production, s => s.redis

variable {env : Env} {s : d.Repos P}

/-- What is stored after an erasure was stored before. -/
theorem of_erased {β : Type} {f : String → Option β} {k key : String} {x : β}
    (h : update f k none key = some x) : f key = some x := by
  by_cases hk : key = k
  · rw [hk, update_self] at h
    cases h
  · rwa [update_of_ne hk] at h

/-- What is stored after a store was stored before, or is what was stored now. -/
theorem of_stored {β : Type} {f : String → Option β} {k key : String} {x y : β}
    (h : update f k (some y) key = some x) : f key = some x ∨ k = key ∧ y = x := by
  by_cases hk : key = k
  · rw [hk, update_self] at h
    exact .inr ⟨hk.symm, Option.some.inj h⟩
  · rw [update_of_ne hk] at h
    exact .inl h

/-- A stored code was there, or was set by the call; a stored session was there, or was
created by it. -/
theorem keys_exec (c : RepoCall) :
    (∀ {key icode expiry}, (d.keys P (d.exec P env c s).2).codes key = some (icode, expiry) →
      (d.keys P s).codes key = some (icode, expiry) ∨
        ∃ mobile, c = .setCode mobile ∧ d.key mobile = key ∧
          (d.exec P env (.setCode mobile) s).1 = icode ∧ expiry = env.now + 300) ∧
    ∀ {key mobile expiry}, (d.keys P (d.exec P env c s).2).tokens key = some (mobile, expiry) →
      (d.keys P s).tokens key = some (mobile, expiry) ∨
        ∃ mobile', c = .createSession mobile' ∧ d.key mobile' = mobile ∧
          d.key (d.exec P env (.createSession mobile') s).1 = key ∧
          expiry = env.now + 604800 := by
  cases d with
  | inMemory =>
    cases c with
    | setCode mobile =>
      refine ⟨fun h => ?_, .inl⟩
      rcases of_stored h with hold | ⟨rfl, ⟨⟩⟩
      · exact .inl hold
      · exact .inr ⟨mobile, rfl, rfl, rfl, rfl⟩
    | createSession mobile =>
      refine ⟨.inl, fun h => ?_⟩
      rcases of_stored h with hold | ⟨rfl, ⟨⟩⟩
      · exact .inl hold
      · exact .inr ⟨mobile, rfl, rfl, rfl, rfl⟩
    | deleteCode mobile => exact ⟨fun h => .inl (of_erased h), .inl⟩
    | destroySession token => exact ⟨.inl, fun h => .inl (of_erased h)⟩
    | getCode mobile =>
      simp only [keys, exec, InMemory.exec, InMemory.getCode]
      split
      · exact ⟨.inl, .inl⟩
      · split
        · exact ⟨fun h => .inl (of_erased h), .inl⟩
        · exact ⟨.inl, .inl⟩
    | lookupSession token =>
      simp only [keys, exec, InMemory.exec, InMemory.lookupSession]
      split
      · exact ⟨.inl, .inl⟩
      · split
        · exact ⟨.inl, fun h => .inl (of_erased h)⟩
        · exact ⟨.inl, .inl⟩
    | findOrCreate mobile =>
      simp only [keys, exec, InMemory.exec, InMemory.findOrCreate]
      split <;> exact ⟨.inl, .inl⟩
    | addBalance uid type amount =>
      simp only [keys, exec, InMemory.exec, InMemory.addBalance]
      split <;> exact ⟨.inl, .inl⟩
    | insert b =>
      simp only [keys, exec, InMemory.exec, InMemory.insert]
      split <;> exact ⟨.inl, .inl⟩
    | _ => exact ⟨.inl, .inl⟩
  | production =>
    cases c with
    | setCode mobile =>
      simp only [keys, exec, Production.exec, Redis.setCode]
      split
      · exact ⟨.inl, .inl⟩
      · split
        · exact ⟨.inl, .inl⟩
        · refine ⟨fun h => ?_, .inl⟩
          rcases of_stored h with hold | ⟨hkey, ⟨⟩⟩
          · exact .inl hold
          · exact .inr ⟨mobile, rfl, hkey, rfl, rfl⟩
    | createSession mobile =>
      simp only [keys, exec, Production.exec, Redis.createSession]
      split
      · exact ⟨.inl, .inl⟩
      · split
        · exact ⟨.inl, .inl⟩
        · refine ⟨.inl, fun h => ?_⟩
          rcases of_stored h with hold | ⟨hkey, ⟨⟩⟩
          · exact .inl hold
          · exact .inr ⟨mobile, rfl, rfl, hkey, rfl⟩
    | deleteCode mobile =>
      simp only [keys, exec, Production.exec, Redis.deleteCode]
      split
      · exact ⟨fun h => .inl (of_erased h), .inl⟩
      · exact ⟨.inl, .inl⟩
    | destroySession token =>
      simp only [keys, exec, Production.exec, Redis.destroySession]
      split
      · exact ⟨.inl, fun h => .inl (of_erased h)⟩
      · exact ⟨.inl, .inl⟩
    | _ => exact ⟨.inl, .inl⟩

/-- What is read from Redis is stored and has not expired. -/
theorem of_live {β : Type} {now : Nat} {entry : Option (β × Nat)} {x : β}
    (h : Redis.live now entry = some x) : ∃ expiry, entry = some (x, expiry) ∧ now ≤ expiry := by
  obtain ⟨e, he, rfl⟩ := Option.map_eq_some_iff.mp h
  obtain ⟨hentry, hlive⟩ := Option.filter_eq_some_iff.mp he
  exact ⟨e.2, hentry, Nat.le_of_lt (of_decide_eq_true hlive)⟩

/-- A code that is answered is stored and has not expired. -/
theorem code_answered {mobile : String} {icode : Int32}
    (h : (d.exec P env (.getCode mobile) s).1 = some icode) :
    ∃ expiry, (d.keys P s).codes (d.key mobile) = some (icode, expiry) ∧ env.now ≤ expiry := by
  cases d with
  | inMemory =>
    simp only [exec, InMemory.exec, InMemory.getCode] at h
    split at h
    · cases h
    next icode' expiry hstored =>
      split at h
      · cases h
      next hlive =>
        cases h
        exact ⟨expiry, hstored, Nat.not_lt.mp hlive⟩
  | production =>
    simp only [exec, Production.exec, Redis.getCode] at h
    split at h
    · exact of_live h
    · cases h

/-- So is a session. -/
theorem session_answered {token mobile : String}
    (h : (d.exec P env (.lookupSession token) s).1 = some mobile) :
    ∃ expiry, (d.keys P s).tokens (d.key token) = some (mobile, expiry) ∧ env.now ≤ expiry := by
  cases d with
  | inMemory =>
    simp only [exec, InMemory.exec, InMemory.lookupSession] at h
    split at h
    · cases h
    next mobile' expiry hstored =>
      split at h
      · cases h
      next hlive =>
        cases h
        exact ⟨expiry, hstored, Nat.not_lt.mp hlive⟩
  | production =>
    simp only [exec, Production.exec, Redis.lookupSession] at h
    split at h
    · exact of_live h
    · cases h

end Deployment

/-! ## The chain -/

/-- A call that was answered, in a run of any requests. -/
abbrev ServerEntry (ι : Type) := Entry ι Env Call Call.Res

section Chain

variable {ι : Type}

/-- A `mobile_code` had set this code for this key, and it was good until `now` at least. -/
def Issued (d : Deployment) (reqs : ι → Request) (log : List (ServerEntry ι)) (key : String)
    (icode : Int32) (now : Nat) : Prop :=
  Earlier log fun e _ => ∃ i env mobile, e = ⟨i, env, .repo (.setCode mobile), icode⟩ ∧
    reqs i = .mobileCode (some ⟨mobile⟩) ∧ d.key mobile = key ∧ now ≤ env.now + 300

/-- This handler had been given the code by `get_code`, while it was good. -/
def Verified (d : Deployment) (reqs : ι → Request) (log : List (ServerEntry ι)) (i : ι)
    (mobile : String) (icode : Int32) : Prop :=
  Earlier log fun e past => ∃ env, e = ⟨i, env, .repo (.getCode mobile), some icode⟩ ∧
    Issued d reqs past (d.key mobile) icode env.now

/-- A `login` with a verified code had created a session for this mobile under this key,
good until `now` at least. -/
def SignedIn (d : Deployment) (reqs : ι → Request) (log : List (ServerEntry ι))
    (key mobile : String) (now : Nat) : Prop :=
  Earlier log fun e past => ∃ i env mobile' icode token,
    e = ⟨i, env, .repo (.createSession mobile'), token⟩ ∧
    reqs i = .login (some ⟨mobile', icode⟩) ∧ d.key mobile' = mobile ∧ d.key token = key ∧
    now ≤ env.now + 604800 ∧ Verified d reqs past i mobile' icode

/-- This handler had been given the mobile by `lookup_session` for the token of its request. -/
def Admitted (d : Deployment) (reqs : ι → Request) (log : List (ServerEntry ι)) (i : ι)
    (mobile : String) : Prop :=
  Earlier log fun e past => ∃ env token, e = ⟨i, env, .repo (.lookupSession token), some mobile⟩ ∧
    (reqs i).token = some token ∧ SignedIn d reqs past (d.key token) mobile env.now

/-- This handler had been given the user by `find_or_create` for that mobile. -/
def Recognised (d : Deployment) (reqs : ι → Request) (log : List (ServerEntry ι)) (i : ι)
    (uid : Int32) : Prop :=
  Earlier log fun e past => ∃ env mobile u, e = ⟨i, env, .repo (.findOrCreate mobile), u⟩ ∧
    u.id = uid ∧
    Admitted d reqs past i mobile

variable {reqs : ι → Request} {log log' : List (ServerEntry ι)}

/-- What a standing has behind it. -/
def Standing.Backed (d : Deployment) (reqs : ι → Request) (log : List (ServerEntry ι)) (i : ι) :
    Standing → Prop
  | .stranger => True
  | .asking mobile => reqs i = .mobileCode (some ⟨mobile⟩)
  | .entering mobile icode => reqs i = .login (some ⟨mobile, icode⟩)
  | .verified mobile icode =>
    reqs i = .login (some ⟨mobile, icode⟩) ∧ Verified d reqs log i mobile icode
  | .bearer token => (reqs i).token = some token
  | .named mobile => Admitted d reqs log i mobile
  | .user uid => Recognised d reqs log i uid

theorem Standing.Backed.later {i : ι} {q : Standing} (h : q.Backed d reqs log i)
    (hlog : log <:+ log') : q.Backed d reqs log' i := by
  cases q with
  | verified mobile icode => exact ⟨h.1, h.2.later hlog⟩
  | named mobile => exact Earlier.later h hlog
  | user uid => exact Earlier.later h hlog
  | _ => exact h

/-- The handler of a request begins with nothing behind it. -/
theorem standing_backed (reqs : ι → Request) (i : ι) : (reqs i).standing.Backed d reqs [] i := by
  cases hr : reqs i with
  | mobileCode payload | login payload =>
    cases payload with
    | none => trivial
    | some req => exact hr
  | positionReport => trivial
  | _ =>
    rename_i payload
    cases payload with
    | none => trivial
    | some req => exact congrArg Request.token hr

/-- The user for whom a call moves money, archives or starts a ride, or reads a ledger or
a history. -/
def Call.actsFor : Call → Option Int32
  | .repo (.addBalance uid _ _) => some uid
  | .repo (.listRecords uid _) => some uid
  | .repo (.createWithPoints inp) => some inp.userId
  | .repo (.listByUser uid _) => some uid
  | .ride (.create s) => some s.userId
  | _ => none

/-- A call for a user is made by a handler that was given that user. -/
def ActsBacked (d : Deployment) (reqs : ι → Request) (past : List (ServerEntry ι))
    (e : ServerEntry ι) : Prop :=
  ∀ uid, e.call.actsFor = some uid → Recognised d reqs past e.thread uid

/-! ## The runs -/

/-- Everything that is stored, known or done has its chain. -/
structure Backing (d : Deployment) (reqs : ι → Request) (w : World P d) (phase : ι → Standing)
    (log : List (ServerEntry ι)) : Prop where
  codes : ∀ key icode expiry, (d.keys P w.repos).codes key = some (icode, expiry) →
    ∀ now ≤ expiry, Issued d reqs log key icode now
  tokens : ∀ key mobile expiry, (d.keys P w.repos).tokens key = some (mobile, expiry) →
    ∀ now ≤ expiry, SignedIn d reqs log key mobile now
  phases : ∀ i, (phase i).Backed d reqs log i
  founded : Founded (ActsBacked d reqs) log

namespace Backing

variable {w : World P d} {phase : ι → Standing} {i : ι} {env : Env}

/-- A code that is stored after a call. -/
theorem codes_step (h : Backing d reqs w phase log) (hc : (phase i).allowed c) {key : String}
    {icode : Int32} {expiry : Nat}
    (hstored : (d.keys P (World.exec env c w).2.repos).codes key = some (icode, expiry)) {now : Nat}
    (hnow : now ≤ expiry) :
    Issued d reqs (⟨i, env, c, (World.exec env c w).1⟩ :: log) key icode now := by
  cases c with
  | repo c =>
    rcases (Deployment.keys_exec c).1 hstored with hold | ⟨mobile, rfl, hkey, hanswer, rfl⟩
    · exact (h.codes key icode expiry hold now hnow).later (List.suffix_cons _ _)
    · have hi := h.phases i
      rw [show phase i = .asking mobile from hc] at hi
      rw [show (World.exec env (.repo (.setCode mobile)) w).1 = icode from hanswer]
      exact .now ⟨i, env, mobile, rfl, hi, hkey, hnow⟩
  | _ => exact (h.codes key icode expiry hstored now hnow).later (List.suffix_cons _ _)

/-- A session that is stored after a call. -/
theorem tokens_step (h : Backing d reqs w phase log) (hc : (phase i).allowed c)
    {key mobile : String} {expiry : Nat}
    (hstored : (d.keys P (World.exec env c w).2.repos).tokens key = some (mobile, expiry))
    {now : Nat} (hnow : now ≤ expiry) :
    SignedIn d reqs (⟨i, env, c, (World.exec env c w).1⟩ :: log) key mobile now := by
  cases c with
  | repo c =>
    rcases (Deployment.keys_exec c).2 hstored with hold | ⟨mobile', rfl, hmobile, hkey, rfl⟩
    · exact (h.tokens key mobile expiry hold now hnow).later (List.suffix_cons _ _)
    · obtain ⟨icode, hphase⟩ := hc
      have hi := h.phases i
      rw [hphase] at hi
      exact .now ⟨i, env, mobile', icode, _, rfl, hi.1, hmobile, hkey, hnow, hi.2⟩
  | _ => exact (h.tokens key mobile expiry hstored now hnow).later (List.suffix_cons _ _)

/-- What a handler stands on after a call. -/
theorem phase_step (h : Backing d reqs w phase log) (hc : (phase i).allowed c) :
    ((phase i).next c (World.exec env c w).1).Backed d reqs
      (⟨i, env, c, (World.exec env c w).1⟩ :: log) i := by
  have hi := h.phases i
  have hkept := hi.later (List.suffix_cons (⟨i, env, c, (World.exec env c w).1⟩) log)
  cases hq : phase i with
  | entering mobile icode =>
    rw [hq] at hc hi hkept
    cases c with
    | repo c =>
      cases c with
      | getCode mobile' =>
        obtain ⟨icode', hsame⟩ := hc
        cases hsame
        by_cases hstored : (World.exec env (.repo (.getCode mobile)) w).1 = some icode
        · rw [show Standing.next (.entering mobile icode) (.repo (.getCode mobile))
            (World.exec env (.repo (.getCode mobile)) w).1 = .verified mobile icode from
            if_pos hstored]
          obtain ⟨expiry, hcode, hlive⟩ := Deployment.code_answered hstored
          rw [hstored]
          exact ⟨hi, .now ⟨env, rfl, h.codes _ _ _ hcode _ hlive⟩⟩
        · rw [show Standing.next (.entering mobile icode) (.repo (.getCode mobile))
            (World.exec env (.repo (.getCode mobile)) w).1 = .stranger from if_neg hstored]
          trivial
      | _ => exact hkept
    | _ => exact hkept
  | bearer token =>
    rw [hq] at hc hi hkept
    cases c with
    | repo c =>
      cases c with
      | lookupSession token' =>
        cases (show Standing.bearer token = .bearer token' from hc)
        cases hfound : (World.exec env (.repo (.lookupSession token)) w).1 with
        | none => trivial
        | some mobile =>
          obtain ⟨expiry, hsession, hlive⟩ := Deployment.session_answered hfound
          exact .now ⟨env, token, rfl, hi, h.tokens _ _ _ hsession _ hlive⟩
      | _ => exact hkept
    | _ => exact hkept
  | named mobile =>
    rw [hq] at hc hi hkept
    cases c with
    | repo c =>
      cases c with
      | findOrCreate mobile' =>
        rcases hc with hsame | ⟨icode, hsame⟩
        · cases hsame
          exact .now ⟨env, mobile, _, rfl, rfl, hi⟩
        · cases hsame
      | _ => exact hkept
    | _ => exact hkept
  | _ =>
    rw [hq] at hkept
    exact hkept

/-- A call for a user comes from a handler that was given the user. -/
theorem acts_step (h : Backing d reqs w phase log) (hc : (phase i).allowed c) (r : c.Res) :
    ActsBacked d reqs log ⟨i, env, c, r⟩ := by
  intro uid huid
  have huser : phase i = .user uid := by
    cases c with
    | repo c =>
      cases c with
      | addBalance uid' type amount => cases huid; exact hc
      | listRecords uid' limit => cases huid; exact hc
      | createWithPoints inp => cases huid; exact hc
      | listByUser uid' limit => cases huid; exact hc
      | _ => cases huid
    | ride c =>
      cases c with
      | create s => cases huid; exact hc
      | _ => cases huid
    | nowUnix => cases huid
    | today => cases huid
  have hi := h.phases i
  rw [huser] at hi
  exact hi

variable [DecidableEq ι]

/-- **One call.** -/
theorem step (h : Backing d reqs w phase log) (hc : (phase i).allowed c) :
    Backing d reqs (World.exec env c w).2
      (update phase i ((phase i).next c (World.exec env c w).1))
      (⟨i, env, c, (World.exec env c w).1⟩ :: log) where
  codes _ _ _ hstored _ hnow := h.codes_step hc hstored hnow
  tokens _ _ _ hstored _ hnow := h.tokens_step hc hstored hnow
  phases j := by
    by_cases hj : j = i
    · subst hj
      rw [update_self]
      exact h.phase_step hc
    · rw [update_of_ne hj]
      exact (h.phases j).later (List.suffix_cons _ _)
  founded := h.founded.cons (h.acts_step hc _)

end Backing

/-- Any requests, their calls interleaved, from a session store with nothing in it. -/
def signedRuns [DecidableEq ι] (P : Platform) (d : Deployment) (reqs : ι → Request) :
    Machine (Recorded (World P d) ι Env Call Call.Res (Outcome Reply) Standing) (Turn ι Env) :=
  Recorded.machine (fun env c w => some (World.exec env c w)) Standing.discipline
    (fun w => ∀ key, (d.keys P w.repos).codes key = none ∧ (d.keys P w.repos).tokens key = none)
    (fun i => dispatch P (reqs i)) (fun i => (reqs i).standing)

/-- **No act without a login.** Whatever requests are handled at once and whatever fails,
a call that moves money, archives or starts a ride or reads a ledger or a history for a user
comes after a `find_or_create` that gave its handler this user, a `lookup_session` of the
handler's own token, a `login` that created the session, its `get_code` with the code of its
request, and a `mobile_code` that had set this code; the session was at most seven days old
and the code at most 300 seconds. -/
theorem acts_founded [DecidableEq ι] {reqs : ι → Request}
    {p : Recorded (World P d) ι Env Call Call.Res (Outcome Reply) Standing}
    (h : (signedRuns P d reqs).Reachable p) {e : ServerEntry ι} {past : List (ServerEntry ι)}
    (he : e :: past <:+ p.log) {uid : Int32} (huid : e.call.actsFor = some uid) :
    Recognised d reqs past e.thread uid := by
  have hbacking : Backing d reqs p.shared p.phase p.log := by
    refine Recorded.invariant (I := Backing d reqs) (fun i => dispatch_stands P (reqs i)) ?_ ?_ h
    · intro w hw
      refine ⟨?_, ?_, standing_backed reqs, .nil _⟩
      · intro key icode expiry hstored
        rw [(hw key).1] at hstored
        cases hstored
      · intro key mobile expiry hstored
        rw [(hw key).2] at hstored
        cases hstored
    · intro p e c r w hI _ hc hexec
      obtain ⟨rfl, rfl⟩ := Prod.ext_iff.mp (Option.some.inj hexec)
      exact hI.step hc
  exact hbacking.founded e past he uid huid

/-- A user asks for a code, signs in with it and recharges. -/
def firstRecharge : Fin 3 → Request
  | 0 => .mobileCode (some ⟨"13800000000"⟩)
  | 1 => .login (some ⟨"13800000000", 7⟩)
  | 2 => .recharge (some ⟨"token", 500⟩)

/-- Nobody is signed in, and the three requests have come. -/
def firstRechargeStart :
    Recorded (World Platform.standstill .inMemory) (Fin 3) Env Call Call.Res (Outcome Reply)
      Standing where
  shared := ⟨InMemory.small 0, .empty⟩
  threads i := dispatch Platform.standstill (firstRecharge i)
  phase i := (firstRecharge i).standing
  log := []

/-- Turns at one instant, with one code and one token. -/
def rechargeTurns (l : List (Fin 3)) : List (Turn (Fin 3) Env) :=
  l.map (⟨·, ⟨100, 7, "token", fun _ => false⟩⟩)

/-- The recharge of a run in which they are handled one after the other. -/
theorem acts_founded_recharge :
    ∃ p, (signedRuns Platform.standstill .inMemory firstRecharge).Reachable p ∧
      ∃ e past, p.log = e :: past ∧ e.call.actsFor = some 1 ∧
        Recognised .inMemory firstRecharge past e.thread 1 := by
  obtain ⟨p, hreach, e, he, hacts⟩ :
      ∃ p, (signedRuns Platform.standstill .inMemory firstRecharge).Reachable p ∧
        ∃ e ∈ p.log.head?, e.call.actsFor = some 1 :=
    Machine.exists_of_play firstRechargeStart ⟨fun _ => ⟨rfl, rfl⟩, rfl, rfl, rfl⟩
      (rechargeTurns [0, 1, 1, 1, 1, 1, 2, 2, 2]) (by decide +kernel)
  obtain ⟨past, hlog⟩ := List.head?_eq_some_iff.mp he
  have hsuffix : e :: past <:+ p.log := by
    rw [hlog]
  exact ⟨p, hreach, e, past, hlog, hacts, acts_founded hreach hsuffix hacts⟩

end Chain

end SharedBike.Server
