import SharedBike.Server.EndRideLaws
import SharedBike.Server.AccountRefinement

/-!
# What an Ok about money is worth

`add_balance` answers with the balance that it reads at its end, and it reads
it in the same way after a commit, after a rollback and when the transaction
could not even be begun. The callers cannot tell these apart. `recharge`
answers Ok to all of them; `end_ride` goes on unless the balance is negative.

`receipts_iff` says exactly when the two are right. A recharge that is
reported was made if and only if the whole transaction goes through for the
row of the caller's mobile, and a fee that `end_ride` takes for paid was paid
if and only if the transaction goes through or the balance that is read
instead is negative. `receipt_for_nothing` has one failure of either kind.
-/

namespace SharedBike.Server

open SharedBike.Common SharedBike.Lib

variable {P : Platform} {mobile : String} {s : Production P}

/-! ## Whom `find_or_create` answers -/

namespace Production

/-- The table has no row of the mobile and takes one. -/
def Admits (s : Production P) (env : Env) (mobile : String) : Prop :=
  (∀ u, ¬ s.tables.Has mobile u) ∧ env.fails .userInsert = false ∧ mobile.length ≤ 16 ∧
    s.ids.user ∉ s.tables.userinfo.map (·.id)

theorem insertUser_of_has {t : Tables P} {u : User} (h : t.Has mobile u) (id : Int32) :
    t.insertUser id mobile = none := by
  unfold Tables.insertUser
  rw [dif_neg]
  rintro ⟨-, -, hnew⟩
  refine hnew ?_
  rw [← h.2]
  exact List.mem_map_of_mem h.1

theorem insertUser_isSome {env : Env} (h : s.Admits env mobile) :
    ∃ t, s.tables.insertUser s.ids.user mobile = some t ∧
      t.userinfo = s.tables.userinfo ++ [⟨s.ids.user, mobile⟩] ∧ t.account = s.tables.account ∧
      t.accountRecord = s.tables.accountRecord := by
  obtain ⟨hnone, -, hshort, hfresh⟩ := h
  have hnew : P.collation mobile ∉ s.tables.userinfo.map fun u => P.collation u.mobile := by
    intro hmem
    obtain ⟨u, hu, hkey⟩ := List.mem_map.mp hmem
    exact hnone u ⟨hu, hkey⟩
  unfold Tables.insertUser
  rw [dif_pos ⟨hshort, hfresh, hnew⟩]
  exact ⟨_, rfl, rfl, rfl, rfl⟩

/-- A row that is there, a row that is put there, or the user that has none. -/
theorem findOrCreate_cases (env : Env) (mobile : String) (s : Production P) :
    (∃ u, s.tables.Has mobile u ∧
        (env.fails .userSelect = false ∨ env.fails .userSelectAgain = false) ∧
        s.sql env (Mysql.findOrCreate mobile) = (u, s)) ∨
      (s.Admits env mobile ∧ ∃ t ids,
        s.sql env (Mysql.findOrCreate mobile) = (⟨s.ids.user, mobile⟩, ⟨t, ids, s.redis⟩) ∧
        t.userinfo = s.tables.userinfo ++ [⟨s.ids.user, mobile⟩] ∧
        t.account = s.tables.account ∧ t.accountRecord = s.tables.accountRecord) ∨
      (¬ s.Admits env mobile ∧
        (∀ u, s.tables.Has mobile u →
          env.fails .userSelect = true ∧ env.fails .userSelectAgain = true) ∧
        s.sql env (Mysql.findOrCreate mobile) = (⟨0, ""⟩, s)) := by
  rw [sql_findOrCreate]
  by_cases hhas : ∃ u, s.tables.Has mobile u
  · obtain ⟨u, hu⟩ := hhas
    have hread : ∀ site, s.tables.readUser env site mobile =
        if env.fails site then none else some u := by
      intro site
      unfold Tables.readUser
      rw [hu.find]
    have hins : (if env.fails .userInsert then none
        else s.tables.insertUser s.ids.user mobile) = none := by
      rw [insertUser_of_has hu, ite_self]
    rw [hread, hread, hins]
    cases hfirst : env.fails .userSelect with
    | false => exact .inl ⟨u, hu, .inl rfl, rfl⟩
    | true =>
      cases hagain : env.fails .userSelectAgain with
      | false => exact .inl ⟨u, hu, .inr rfl, rfl⟩
      | true => exact .inr (.inr ⟨fun h => h.1 u hu, fun _ _ => ⟨rfl, rfl⟩, rfl⟩)
  · have hread : ∀ site, s.tables.readUser env site mobile = none := by
      intro site
      unfold Tables.readUser
      cases hfind : s.tables.userinfo.find?
          fun u => P.collation u.mobile = P.collation mobile with
      | none => exact ite_self _
      | some u => exact absurd ⟨u, Tables.has_of_find hfind⟩ hhas
    rw [hread, hread]
    by_cases hadmits : s.Admits env mobile
    · obtain ⟨t, ht, huser, hacc, hrec⟩ := insertUser_isSome hadmits
      rw [hadmits.2.1, ht]
      exact .inr (.inl ⟨hadmits, t, _, rfl, huser, hacc, hrec⟩)
    · have hins : (if env.fails .userInsert then none
          else s.tables.insertUser s.ids.user mobile) = none := by
        by_contra hsome
        obtain ⟨t, ht⟩ := Option.ne_none_iff_exists'.mp hsome
        rw [Option.ite_none_left_eq_some] at ht
        have hins := ht.2
        unfold Tables.insertUser at hins
        split at hins
        next hok =>
          exact hadmits ⟨fun u hu => hhas ⟨u, hu⟩, by simpa using ht.1, hok.1, hok.2.1⟩
        · cases hins
      rw [hins]
      exact .inr (.inr ⟨hadmits, fun u hu => absurd ⟨u, hu⟩ hhas, rfl⟩)

/-- Looking a user up moves no money. -/
theorem book_findOrCreate (env : Env) (mobile : String) (s : Production P) :
    Deployment.production.book P (s.sql env (Mysql.findOrCreate mobile)).2 =
      Deployment.production.book P s := by
  rcases s.findOrCreate_cases env mobile with ⟨u, -, -, heq⟩ | ⟨-, t, ids, heq, -, hacc, hrec⟩ |
    ⟨-, -, heq⟩
  · rw [heq]
  · rw [heq]
    simp only [Deployment.book]
    refine Book.ext ?_ ?_
    · funext uid
      simp only [Deployment.balance, hacc]
    · funext uid
      simp only [Deployment.ledger, hrec]
  · rw [heq]

end Production

/-! ## A recharge -/

section Recharge

variable {env : Env} {w : World P .production}

/-- The caller's mobile has a row, and the amount was posted to its account,
once and in full. -/
def Credited (env : Env) (req : RechargeRequest) (w w' : World P .production) : Prop :=
  ∃ mobile u, w.repos.redis.lookupSession env req.sessionToken = some mobile ∧
    w'.repos.tables.Has mobile u ∧
    Deployment.production.book P w'.repos =
      (Deployment.production.book P w.repos).post env.now u.id .recharge req.amount ∧
    (w'.repos.tables.balance u.id).toInt =
      (w.repos.tables.balance u.id).toInt + req.amount.toInt

/-- An Ok of `recharge` stands for a recharge. -/
def RechargeMeant (env : Env) (req : RechargeRequest) (w : World P .production) : Prop :=
  ∀ r, (World.run env (recharge (some req)) w).1 = .ok r → r.code = ErrCode.ok.code →
    Credited env req w (World.run env (recharge (some req)) w).2

/-- The mobile's row is the one that is found, and has room for the amount; or
a row is made, and the account starts with the amount. -/
def Creditable (env : Env) (s : Production P) (mobile : String) (amount : Int32) : Prop :=
  (∃ u, s.tables.Has mobile u ∧
    (env.fails .userSelect = false ∨ env.fails .userSelectAgain = false ∨ u.id = 0) ∧
    Tables.Fits (s.tables.balance u.id) amount) ∨ s.Admits env mobile

theorem run_recharge {req : RechargeRequest} (hpos : ¬ req.amount ≤ 0)
    (hlookup : w.repos.redis.lookupSession env req.sessionToken = some mobile) {u : User}
    (huser : w.repos.sql env (Mysql.findOrCreate mobile) = (u, s)) :
    World.run env (recharge (some req)) w =
      (.ok ⟨ErrCode.ok.code, (s.sql env (Mysql.addBalance u.id .recharge req.amount)).1,
        ErrCode.ok.toText⟩,
        ⟨(s.sql env (Mysql.addBalance u.id .recharge req.amount)).2, w.sessions⟩) := by
  simp only [World.run, recharge, hpos, if_false, repo, Prog.ask_bind, Prog.run_call, World.exec,
    Deployment.exec, Production.exec, hlookup, huser]
  rfl

/-- The posting is the caller's exactly when the transaction goes through for
the row of the caller's mobile. -/
theorem credited_iff {s₀ s : Production P} (amount : Int32) (mobile : String) (id : Int32)
    (hbook : Deployment.production.book P s = Deployment.production.book P s₀) :
    (∃ u, (s.sql env (Mysql.addBalance id .recharge amount)).2.tables.Has mobile u ∧
      Deployment.production.book P (s.sql env (Mysql.addBalance id .recharge amount)).2 =
        (Deployment.production.book P s₀).post env.now u.id .recharge amount ∧
      ((s.sql env (Mysql.addBalance id .recharge amount)).2.tables.balance u.id).toInt =
        (s₀.tables.balance u.id).toInt + amount.toInt) ↔
      ∃ u, s.tables.Has mobile u ∧ u.id = id ∧ Tables.chargeFails env = false ∧
        Tables.Fits (s.tables.balance id) amount := by
  have hrows : (s.sql env (Mysql.addBalance id .recharge amount)).2.tables.userinfo =
      s.tables.userinfo :=
    Production.exec_sameIn env (.addBalance id .recharge amount) s (T := .userinfo)
      (by simp [RepoCall.targets])
  have hposted := Production.book_charge env id .recharge amount s
  have hbalance : s₀.tables.balance = s.tables.balance := congrArg Book.balance hbook.symm
  rw [hbook] at hposted
  constructor
  · rintro ⟨u, hu, hpost, -⟩
    rw [hposted] at hpost
    by_cases hcharges : s.Charges env id amount
    · rw [if_pos hcharges] at hpost
      obtain rfl := Book.post_user hpost
      exact ⟨u, ⟨hrows ▸ hu.1, hu.2⟩, rfl, hcharges.1, hcharges.2.2⟩
    · rw [if_neg hcharges] at hpost
      exact absurd hpost.symm (Book.post_ne _ _ _ _ _)
  · rintro ⟨u, hu, rfl, hsites, hfits⟩
    have hhas : s.tables.hasUser u.id = true := by
      simp only [Tables.hasUser, decide_eq_true_eq]
      exact List.mem_map_of_mem hu.1
    rw [if_pos ⟨hsites, hhas, hfits⟩] at hposted
    refine ⟨u, ⟨hrows.symm ▸ hu.1, hu.2⟩, hposted, ?_⟩
    have hnew := congrFun (congrArg Book.balance hposted) u.id
    simp only [Book.post, Function.update_self] at hnew
    change (s.sql env (Mysql.addBalance u.id .recharge amount)).2.tables.balance u.id =
      s₀.tables.balance u.id + amount at hnew
    rw [hnew, hbalance, toInt_add_of_range hfits.1 hfits.2]

/-- When the row of the mobile is the one that `find_or_create` answers. -/
theorem creditable_iff {u : User} (amount : Int32)
    (huser : w.repos.sql env (Mysql.findOrCreate mobile) = (u, s)) :
    (∃ v, s.tables.Has mobile v ∧ v.id = u.id ∧ Tables.Fits (s.tables.balance u.id) amount) ↔
      Creditable env w.repos mobile amount := by
  rcases w.repos.findOrCreate_cases env mobile with ⟨row, hrow, hread, heq⟩ |
    ⟨hadmits, t, ids, heq, hrows, hacc, -⟩ | ⟨hrefused, hblind, heq⟩
  · rw [heq] at huser
    cases huser
    constructor
    · rintro ⟨-, -, -, hfits⟩
      exact .inl ⟨u, hrow, hread.imp_right .inl, hfits⟩
    · rintro (⟨v, hv, -, hfits⟩ | hadmits)
      · rw [hv.unique hrow] at hfits
        exact ⟨u, hrow, rfl, hfits⟩
      · exact absurd hrow (hadmits.1 u)
  · rw [heq] at huser
    cases huser
    refine ⟨fun _ => .inr hadmits, fun _ => ⟨⟨w.repos.ids.user, mobile⟩, ⟨?_, rfl⟩, rfl, ?_⟩⟩
    · rw [hrows]
      exact List.mem_append_right _ (List.mem_singleton.mpr rfl)
    · -- a new user has no account row yet
      have hnone : w.repos.tables.account w.repos.ids.user = none :=
        Tables.account_none_of_no_user (by simpa [Tables.hasUser] using hadmits.2.2.2)
      have hzero : t.balance w.repos.ids.user = 0 := by rw [Tables.balance, hacc, hnone]; rfl
      rw [hzero]
      have hlo := amount.le_toInt
      have hhi := amount.toInt_lt
      simp only [Tables.Fits, Int32.toInt_zero]
      omega
  · rw [heq] at huser
    cases huser
    constructor
    · rintro ⟨v, hv, hzero, hfits⟩
      exact .inl ⟨v, hv, .inr (.inr hzero), hzero.symm ▸ hfits⟩
    · rintro (⟨v, hv, hread, hfits⟩ | hadmits)
      · obtain ⟨hfirst, hagain⟩ := hblind v hv
        simp only [hfirst, hagain, Bool.true_eq_false, false_or] at hread
        exact ⟨v, hv, hread, hread ▸ hfits⟩
      · exact absurd hadmits hrefused

/-- When an Ok of `recharge` stands for a recharge. -/
theorem rechargeMeant_iff (req : RechargeRequest) :
    RechargeMeant env req w ↔ req.amount ≤ 0 ∨
      ∀ mobile, w.repos.redis.lookupSession env req.sessionToken = some mobile →
        Tables.chargeFails env = false ∧ Creditable env w.repos mobile req.amount := by
  by_cases hpos : req.amount ≤ 0
  · have hrun : World.run env (recharge (some req)) w = (.ok (.fail .invalidData), w) := by
      simp only [World.run, recharge, hpos, if_true]
      rfl
    refine ⟨fun _ => .inl hpos, fun _ r hr hok => ?_⟩
    rw [hrun] at hr
    cases hr
    exact absurd hok (by decide)
  · cases hlookup : w.repos.redis.lookupSession env req.sessionToken with
    | none =>
      have hrun : (World.run env (recharge (some req)) w).1 = .ok (.fail .unauthorized) := by
        simp only [World.run, recharge, hpos, if_false, repo, Prog.ask_bind, Prog.run_call,
          World.exec, Deployment.exec, Production.exec, hlookup]
        rfl
      refine ⟨fun _ => .inr (by rintro _ ⟨⟩), fun _ r hr hok => ?_⟩
      rw [hrun] at hr
      cases hr
      exact absurd hok (by decide)
    | some mobile =>
      obtain ⟨u, s, huser⟩ : ∃ u s, w.repos.sql env (Mysql.findOrCreate mobile) = (u, s) :=
        ⟨_, _, rfl⟩
      have hrun := run_recharge hpos hlookup huser
      have hbook := Production.book_findOrCreate env mobile w.repos
      rw [huser] at hbook
      have hcredited : Credited env req w (World.run env (recharge (some req)) w).2 ↔
          ∃ v, s.tables.Has mobile v ∧ v.id = u.id ∧ Tables.chargeFails env = false ∧
            Tables.Fits (s.tables.balance u.id) req.amount := by
        rw [← credited_iff req.amount mobile u.id hbook, hrun]
        simp only [Credited, hlookup, Option.some.injEq, exists_and_left, exists_eq_left']
      have hmeant : RechargeMeant env req w ↔
          Credited env req w (World.run env (recharge (some req)) w).2 := by
        refine ⟨fun h => h _ (by rw [hrun]) rfl, fun h _ _ _ => h⟩
      have hcreditable := creditable_iff req.amount huser
      rw [hmeant, hcredited]
      simp only [hpos, false_or, Option.some.injEq, forall_eq']
      rw [← hcreditable]
      constructor
      · rintro ⟨v, hv, hid, hsites, hfits⟩
        exact ⟨hsites, v, hv, hid, hfits⟩
      · rintro ⟨hsites, v, hv, hid, hfits⟩
        exact ⟨v, hv, hid, hsites, hfits⟩

end Recharge

/-! ## The fee of a ride -/

section Fee

variable {env : Env} {w : World P .production} {req : EndRideRequest} {sess : RideSession}

/-- An Ok of `end_ride` for a live ride stands for a fee that is on record. -/
def FeeMeant (env : Env) (req : EndRideRequest) (sess : RideSession) (w : World P .production) :
    Prop :=
  ∀ r, (World.run env (endRide P (some req)) w).1 = .ok r → r.code = ErrCode.ok.code →
    Deployment.production.book P (World.run env (endRide P (some req)) w).2.repos =
      (Deployment.production.book P w.repos).post env.now sess.userId .consume
        (-fee (duration env.now sess.startTs))

/-- The transaction goes through: the rider has a row, or is given one on the way. -/
def Debitable (env : Env) (token : String) (sess : RideSession) (s : Production P) : Prop :=
  Tables.chargeFails env = false ∧
    (s.tables.hasUser sess.userId = true ∨
      ∃ mobile, s.redis.lookupSession env token = some mobile ∧ s.Admits env mobile) ∧
    Tables.Fits (s.tables.balance sess.userId) (-fee (duration env.now sess.startTs))

/-- Whoever calls is looked up, and `find_or_create` answers. -/
theorem run_requireUser {token : String} {uid : Int32}
    (h : (World.run env (requireUser token) w).1 = some uid) :
    ∃ mobile, w.repos.redis.lookupSession env token = some mobile ∧
      (w.repos.sql env (Mysql.findOrCreate mobile)).1.id = uid ∧
      World.run env (requireUser token) w =
        (some uid, ⟨(w.repos.sql env (Mysql.findOrCreate mobile)).2, w.sessions⟩) := by
  have hlookup : World.exec env (.repo (.lookupSession token)) w =
      (w.repos.redis.lookupSession env token, w) := rfl
  simp only [World.run, requireUser, repo, Prog.ask_bind, Prog.run_call, hlookup] at h ⊢
  cases hmobile : w.repos.redis.lookupSession env token with
  | none =>
    rw [hmobile] at h
    cases h
  | some mobile =>
    rw [hmobile] at h
    have hid : (w.repos.sql env (Mysql.findOrCreate mobile)).1.id = uid := Option.some.inj h
    refine ⟨mobile, rfl, hid, ?_⟩
    rw [← hid]
    rfl

/-- The user that `find_or_create` answers has a row, unless it is the one that
stands for none. -/
theorem hasUser_findOrCreate (env : Env) (mobile : String) (s : Production P) :
    (s.sql env (Mysql.findOrCreate mobile)).2.tables.hasUser
        (s.sql env (Mysql.findOrCreate mobile)).1.id = true ↔
      s.tables.hasUser (s.sql env (Mysql.findOrCreate mobile)).1.id = true ∨
        s.Admits env mobile := by
  rcases s.findOrCreate_cases env mobile with ⟨u, hu, -, heq⟩ | ⟨hadmits, t, ids, heq, hrows, -⟩ |
    ⟨hrefused, -, heq⟩
  · have hhas : s.tables.hasUser u.id = true := by
      simp only [Tables.hasUser, decide_eq_true_eq]
      exact List.mem_map_of_mem hu.1
    rw [heq]
    exact ⟨.inl, fun _ => hhas⟩
  · rw [heq]
    refine ⟨fun _ => .inr hadmits, fun _ => ?_⟩
    simp [Tables.hasUser, hrows]
  · rw [heq]
    exact (or_iff_left hrefused).symm

/-- The charge, as the account book shows it. -/
theorem book_afterCharge (env : Env) (sess : RideSession) (w : World P .production) :
    Deployment.production.book P (w.withTables (afterCharge env sess w.repos.tables)).repos =
      if w.repos.Charges env sess.userId (-fee (duration env.now sess.startTs)) then
        (Deployment.production.book P w.repos).post env.now sess.userId .consume
          (-fee (duration env.now sess.startTs))
      else Deployment.production.book P w.repos := by
  rw [← Production.book_charge, Production.sql_addBalance]
  rfl

/-- After the charge no more money moves, and the answer is Ok. -/
theorem book_finishRide (env : Env) (req : EndRideRequest) (sess : RideSession)
    (inp : CreateRideInput) (newBal : Int32) (w : World P .production) :
    Deployment.production.book P (World.run env (finishRide req sess inp newBal) w).2.repos =
        Deployment.production.book P w.repos ∧
      ∃ r, (World.run env (finishRide req sess inp newBal) w).1 = .ok r ∧
        r.code = ErrCode.ok.code := by
  refine ⟨?_, _, rfl, rfl⟩
  have hcall : ∀ {c : RepoCall}, .account ∉ c.targets → .accountRecord ∉ c.targets →
      ∀ s, Deployment.production.book P (Deployment.production.exec P env c s).2 =
        Deployment.production.book P s := by
    intro c hacc hrec s
    refine Book.ext ?_ ?_
    · funext uid
      exact Deployment.balance_exec .production env c s hacc uid
    · funext uid
      exact Deployment.ledger_exec .production env c s hrec uid
  let s₁ := (Deployment.production.exec P env (.createWithPoints inp) w.repos).2
  let s₂ := (Deployment.production.exec P env
    (.updateLocation sess.bikeId req.endLat req.endLng) s₁).2
  calc Deployment.production.book P
        (Deployment.production.exec P env (.updateStatus sess.bikeId .idle) s₂).2
      _ = Deployment.production.book P s₂ :=
        hcall (by simp [RepoCall.targets]) (by simp [RepoCall.targets]) s₂
      _ = Deployment.production.book P s₁ :=
        hcall (by simp [RepoCall.targets]) (by simp [RepoCall.targets]) s₁
      _ = Deployment.production.book P w.repos :=
        hcall (by simp [RepoCall.targets]) (by simp [RepoCall.targets]) w.repos

/-- When the handler goes on, it has charged the fee or not; when it stops, it
answers no Ok. -/
theorem feeMeant_settle (env : Env) (req : EndRideRequest) (sess : RideSession)
    (w : World P .production) :
    (∀ r, (World.run env (settleRide P req sess sess.userId) w).1 = .ok r →
      r.code = ErrCode.ok.code →
      Deployment.production.book P (World.run env (settleRide P req sess sess.userId) w).2.repos =
        (Deployment.production.book P w.repos).post env.now sess.userId .consume
          (-fee (duration env.now sess.startTs))) ↔
      w.repos.Charges env sess.userId (-fee (duration env.now sess.startTs)) ∨
        env.fails .balanceSelect = false ∧ w.repos.tables.balance sess.userId < 0 := by
  have hbook := book_afterCharge env sess w
  rw [run_settleRide]
  by_cases hcharges : w.repos.Charges env sess.userId (-fee (duration env.now sess.startTs))
  · simp only [hcharges, true_or, iff_true]
    rw [if_pos hcharges] at hbook
    split
    · intro r hr hok
      cases hr
      exact absurd hok (by decide)
    · intro r hr hok
      rw [(book_finishRide _ _ _ _ _ _).1, hbook]
  · rw [if_neg hcharges] at hbook
    have hread : (afterCharge env sess w.repos.tables).readBalance env sess.userId < 0 ↔
        env.fails .balanceSelect = false ∧ w.repos.tables.balance sess.userId < 0 := by
      have hsame : (afterCharge env sess w.repos.tables).balance sess.userId =
          w.repos.tables.balance sess.userId :=
        congrFun (congrArg Book.balance hbook) sess.userId
      unfold Tables.readBalance
      cases env.fails .balanceSelect with
      | true => simp
      | false => simp [hsame]
    simp only [hcharges, false_or]
    rw [← hread]
    split
    next hneg =>
      simp only [hneg, iff_true]
      intro r hr hok
      cases hr
      exact absurd hok (by decide)
    next hneg =>
      simp only [hneg, iff_false]
      intro h
      obtain ⟨hsame, r, hr, hok⟩ := book_finishRide env req sess (archiveNow P env req sess)
        ((afterCharge env sess w.repos.tables).readBalance env sess.userId)
        (w.withTables (afterCharge env sess w.repos.tables))
      have hpost := h r hr hok
      rw [hsame, hbook] at hpost
      exact Book.post_ne _ _ _ _ _ hpost.symm

/-- When an Ok of `end_ride` for a live ride stands for a fee that was paid. -/
theorem feeMeant_iff
    (hcaller : (World.run env (requireUser req.sessionToken) w).1 = some sess.userId)
    (hlat : validLat req.endLat = true) (hlng : validLng req.endLng = true)
    (hlive : w.sessions.find req.rideNo = some sess) :
    FeeMeant env req sess w ↔ Debitable env req.sessionToken sess w.repos ∨
      env.fails .balanceSelect = false ∧ w.repos.tables.balance sess.userId < 0 := by
  obtain ⟨mobile, hlookup, hid, hrun⟩ := run_requireUser hcaller
  have hbook := Production.book_findOrCreate env mobile w.repos
  have hbalance : (w.repos.sql env (Mysql.findOrCreate mobile)).2.tables.balance =
      w.repos.tables.balance := congrArg Book.balance hbook
  have hcharges : (w.repos.sql env (Mysql.findOrCreate mobile)).2.Charges env sess.userId
      (-fee (duration env.now sess.startTs)) ↔ Debitable env req.sessionToken sess w.repos := by
    unfold Production.Charges Debitable
    have huser := hasUser_findOrCreate env mobile w.repos
    rw [hid] at huser
    rw [huser, hbalance, hlookup]
    simp only [Option.some.injEq, exists_eq_left']
  have hsettle := feeMeant_settle env req sess
    ⟨(w.repos.sql env (Mysql.findOrCreate mobile)).2, w.sessions⟩
  unfold FeeMeant
  rw [run_endRide hrun hlat hlng hlive, ← hbook]
  rw [hsettle, hcharges, hbalance]

end Fee

/-! ## Both receipts -/

/-- **What an Ok about money is worth.** An Ok of `recharge` stands for one
posting of the amount to the caller's account exactly when the transaction
goes through for the row of the caller's mobile. An `end_ride` that takes the
fee of a live ride for paid is right exactly when the transaction goes
through; if it does not, the handler must read a negative balance. -/
theorem receipts_iff (env : Env) (w : World P .production) :
    (∀ req : RechargeRequest, RechargeMeant env req w ↔ req.amount ≤ 0 ∨
      ∀ mobile, w.repos.redis.lookupSession env req.sessionToken = some mobile →
        Tables.chargeFails env = false ∧ Creditable env w.repos mobile req.amount) ∧
    ∀ (req : EndRideRequest) (sess : RideSession),
      (World.run env (requireUser req.sessionToken) w).1 = some sess.userId →
      validLat req.endLat = true → validLng req.endLng = true →
      w.sessions.find req.rideNo = some sess →
      (FeeMeant env req sess w ↔ Debitable env req.sessionToken sess w.repos ∨
        env.fails .balanceSelect = false ∧ w.repos.tables.balance sess.userId < 0) :=
  ⟨rechargeMeant_iff, fun _ _ => feeMeant_iff⟩

/-- In fair weather both receipts are good. -/
theorem receipts_iff_fair :
    RechargeMeant (.calm 200) ⟨"token", 500⟩ (World.riding 1000) ∧
      FeeMeant (.calm 200) .small .small (World.riding 1000) := by
  have hiff := receipts_iff (.calm 200) (World.riding 1000)
  constructor
  · refine (hiff.1 ⟨"token", 500⟩).mpr (.inr fun mobile hmobile => ⟨rfl, .inl ?_⟩)
    obtain rfl : "13800000000" = mobile :=
      Option.some.inj ((by decide +kernel : some "13800000000" =
        (World.riding 1000).repos.redis.lookupSession (.calm 200) "token").trans hmobile)
    exact ⟨⟨1, "13800000000"⟩, ⟨List.mem_singleton.mpr rfl, rfl⟩, .inl rfl, by decide +kernel⟩
  · refine (hiff.2 .small .small ?_ ?_ ?_ ?_).mpr (.inl ⟨rfl, .inl ?_, ?_⟩)
    all_goals decide +kernel

/-- The `COMMIT` fails. The recharge is answered with Ok and the fee is taken
for paid, and neither is in the account book. -/
theorem receipt_for_nothing :
    (World.run (.losing .chargeCommit 200) (recharge (some ⟨"token", 500⟩))
        (World.riding 1000)).1.map (·.code) = .ok ErrCode.ok.code ∧
      (World.run (.losing .chargeCommit 200) (recharge (some ⟨"token", 500⟩))
        (World.riding 1000)).2.repos.tables.accountRecord = [] ∧
      (World.run (.losing .chargeCommit 200) (recharge (some ⟨"token", 500⟩))
        (World.riding 1000)).2.repos.tables.balance 1 = 1000 ∧
      (World.run (.losing .chargeCommit 200) (endRide .standstill (some .small))
        (World.riding 1000)).1.map (·.code) = .ok ErrCode.ok.code ∧
      (World.run (.losing .chargeCommit 200) (endRide .standstill (some .small))
        (World.riding 1000)).2.repos.tables.accountRecord = [] := by
  refine ⟨?_, ?_, ?_, ?_, ?_⟩ <;> decide +kernel

end SharedBike.Server
