import SharedBike.Gateway.Lifecycle

/-!
# The operations that stand by

Besides the `recv` and `send` of its connections the engine keeps a few
operations in flight that belong to nobody: the accept, and the reads that
wake it up. Each is one-shot. Its completion takes it out of flight and has
to put the next one in, and no other code does so.

`Keeps k` is the frame that everything else obeys: the operations of the kind
`k` stay as they are, the engine does not take up accepting again, draining
does not end, and no batch is posted but by a `recv`. So whether a kind stays
armed is decided by its own completion alone. For the accept this is
`complete_accept`, which gives up after the eighth error in a row
(`backsOff`). Short of that the gateway always has exactly one accept in
flight; once it has given up it never has one again (`unarmed_play`).
-/

namespace SharedBike.Gateway

open SharedBike.Lib SharedBike.Wire

namespace Table

/-- The numbers of new operations are new. -/
def Bounded (T : Table) : Prop := ∀ o op, T.ops o = some op → o < T.nextOp

/-- The operation `o` is in flight and of the kind `k`. -/
def InFlight (k : OpKind) (T : Table) (o : Nat) : Prop := ∃ op, T.ops o = some op ∧ op.kind = k

variable {T : Table} {k : OpKind} {op : UringOp} {o o' : Nat}

theorem Bounded.addOp (h : T.Bounded) (op : UringOp) : (T.addOp op).Bounded := by
  intro o x ho
  rcases addOp_cases ho with ⟨rfl, -⟩ | ho
  · exact Nat.lt_succ_self _
  · exact Nat.lt_succ_of_lt (h o x ho)

theorem Bounded.dropOp (h : T.Bounded) (o : Nat) : (T.dropOp o).Bounded := by
  intro o' x ho
  exact h o' x (dropOp_cases ho).2

/-- What is in flight after a new operation. -/
theorem inFlight_addOp (h : T.Bounded) :
    (T.addOp op).InFlight k o ↔ o = T.nextOp ∧ op.kind = k ∨ T.InFlight k o := by
  constructor
  · rintro ⟨x, hx, hk⟩
    rcases addOp_cases hx with ⟨ho, rfl⟩ | hx
    · exact .inl ⟨ho, hk⟩
    · exact .inr ⟨x, hx, hk⟩
  · rintro (⟨rfl, hk⟩ | ⟨x, hx, hk⟩)
    · exact ⟨op, addOp_new op, hk⟩
    · exact ⟨x, (addOp_of_lt (h o x hx)).trans hx, hk⟩

/-- What is in flight after a completion. -/
theorem inFlight_dropOp : (T.dropOp o).InFlight k o' ↔ o' ≠ o ∧ T.InFlight k o' := by
  constructor
  · rintro ⟨x, hx, hk⟩
    obtain ⟨hne, hx⟩ := dropOp_cases hx
    exact ⟨hne, x, hx, hk⟩
  · rintro ⟨hne, x, hx, hk⟩
    exact ⟨x, (dropOp_of_ne hne).trans hx, hk⟩

end Table

namespace Engine

/-- The operations of the kind `k` are left alone and no batch is posted;
accepting is not taken up again, draining does not end, an id that was given out
stays so, and `io_uring_get_sqe` is not answered but by the surroundings. -/
structure Keeps (k : OpKind) (e e' : Engine) : Prop where
  accepting : e'.accepting = true → e.accepting = true
  draining : e.draining = true → e'.draining = true
  nextConnId : e.nextConnId ≤ e'.nextConnId
  batches : e'.batches = e.batches
  room : false ∉ e.answers → false ∉ e'.answers
  books : e.toTable.Bounded → e'.toTable.Bounded ∧ ∀ o, e'.InFlight k o ↔ e.InFlight k o

variable {opt : GatewayOptions} {k : OpKind} {e e₁ e₂ : Engine} {c : Connection} {op : UringOp}

theorem Keeps.refl (k : OpKind) (e : Engine) : Keeps k e e :=
  ⟨id, id, Nat.le_refl _, rfl, id, fun h => ⟨h, fun _ => .rfl⟩⟩

theorem Keeps.trans (h₁ : Keeps k e e₁) (h₂ : Keeps k e₁ e₂) : Keeps k e e₂ := by
  refine ⟨fun h => h₁.accepting (h₂.accepting h), fun h => h₂.draining (h₁.draining h),
    Nat.le_trans h₁.nextConnId h₂.nextConnId, h₂.batches.trans h₁.batches,
    fun h => h₂.room (h₁.room h), ?_⟩
  intro hb
  obtain ⟨hb₁, hops₁⟩ := h₁.books hb
  obtain ⟨hb₂, hops₂⟩ := h₂.books hb₁
  exact ⟨hb₂, fun o => (hops₂ o).trans (hops₁ o)⟩

theorem Keeps.not_draining (h : Keeps k e e₁) (hd : e₁.draining = false) : e.draining = false := by
  cases hbefore : e.draining with
  | false => rfl
  | true => rw [h.draining hbefore] at hd; cases hd

/-- A change outside the fields in question. -/
theorem Keeps.of_eq
    (h : (e₁.accepting, e₁.draining, e₁.nextConnId, e₁.batches, e₁.answers, e₁.ops, e₁.nextOp) =
      (e.accepting, e.draining, e.nextConnId, e.batches, e.answers, e.ops, e.nextOp)) :
    Keeps k e e₁ := by
  simp only [Prod.mk.injEq] at h
  obtain ⟨haccepting, hdraining, hconn, hbatches, hanswers, hops, hnext⟩ := h
  refine ⟨fun h => haccepting ▸ h, fun h => hdraining ▸ h, Nat.le_of_eq hconn.symm, hbatches,
    fun h => hanswers ▸ h, fun hb => ⟨?_, fun o => ?_⟩⟩
  · intro o op ho
    rw [hnext]
    exact hb o op (hops ▸ ho)
  · simp only [Table.InFlight, hops]

/-- The batches may be left out of account. -/
theorem Keeps.forget (h : Keeps k e e₁) : Keeps k e { e₁ with batches := e.batches } :=
  ⟨h.accepting, h.draining, h.nextConnId, rfl, h.room, h.books⟩

theorem Keeps.foldl {α : Type} {f : Engine → α → Engine} (hf : ∀ e a, Keeps k e (f e a))
    (l : List α) (e : Engine) : Keeps k e (l.foldl f e) := by
  induction l generalizing e with
  | nil => exact .refl k e
  | cons a rest ih => exact (hf e a).trans (ih (f e a))

/-! ## Submitting -/

theorem setConn_keeps (c : Connection) (e : Engine) : Keeps k e (e.setConn c) :=
  .of_eq rfl

theorem getSqe_keeps (e : Engine) : Keeps k e e.getSqe.2 := by
  unfold getSqe
  split
  · exact .refl k e
  next hanswers =>
    refine ⟨id, id, Nat.le_refl _, rfl, fun hroom => ?_, fun hb => ⟨hb, fun _ => .rfl⟩⟩
    rw [hanswers] at hroom
    exact fun hin => hroom (List.mem_cons_of_mem _ hin)
  next hanswers =>
    refine ⟨id, fun _ => rfl, Nat.le_refl _, rfl, fun hroom => ?_, fun hb => ⟨hb, fun _ => .rfl⟩⟩
    rw [hanswers] at hroom
    exact fun hin => hroom (List.mem_cons_of_mem _ hin)

/-- An operation is put in flight, or the engine drains. -/
theorem submitOp_snd (op : UringOp) (e : Engine) :
    (e.submitOp op).2.toTable = e.toTable ∧ (e.submitOp op).2.draining = true ∨
      (e.submitOp op).2.toTable = e.toTable.addOp op := by
  simp only [submitOp, getSqe]
  rcases e.answers with _ | ⟨_ | _, rest⟩
  · exact .inr rfl
  · exact .inl ⟨rfl, rfl⟩
  · exact .inr rfl

theorem submitOp_keeps (op : UringOp) (hop : op.kind ≠ k) (e : Engine) :
    Keeps k e (e.submitOp op).2 := by
  have hsqe : Keeps k e e.getSqe.2 := getSqe_keeps e
  unfold submitOp
  split
  next e₁ hget =>
    rw [hget] at hsqe
    exact hsqe
  next e₁ hget =>
    rw [hget] at hsqe
    refine hsqe.trans ⟨id, id, Nat.le_refl _, rfl, id, fun hb => ⟨hb.addOp op, fun o => ?_⟩⟩
    rw [Table.inFlight_addOp hb]
    exact or_iff_right fun hnew => hop hnew.2

theorem submitEventfdRead_keeps (hk : .wakeup ≠ k) (e : Engine) : Keeps k e e.submitEventfdRead :=
  submitOp_keeps _ hk e

theorem submitStopRead_keeps (hk : .stop ≠ k) (e : Engine) : Keeps k e e.submitStopRead :=
  submitOp_keeps _ hk e

theorem submitRspNotifyRead_keeps (hk : .rspNotify ≠ k) (e : Engine) :
    Keeps k e e.submitRspNotifyRead := submitOp_keeps _ hk e

theorem submitRecv_keeps (opt : GatewayOptions) (hk : k ≠ .recv) (c : Connection) (e : Engine) :
    Keeps k e (submitRecv opt c e).2 := by
  have hsub := submitOp_keeps ⟨.recv, some c.connId⟩ hk.symm e
  simp only [submitRecv]
  split
  all_goals
    next hop =>
      rw [hop] at hsub
      exact hsub.trans (setConn_keeps _ _)

theorem submitSend_keeps (hk : k ≠ .send) (c : Connection) (e : Engine) :
    Keeps k e (submitSend c e).2 := by
  have hsub := submitOp_keeps ⟨.send, some c.connId⟩ hk.symm e
  unfold submitSend
  split
  all_goals
    next hop =>
      rw [hop] at hsub
      exact hsub.trans (setConn_keeps _ _)

/-! ## Connections -/

theorem erase_keeps (c : Connection) (e : Engine) :
    Keeps k e { e with toTable := e.toTable.erase c } := by
  unfold Table.erase
  split <;> exact .of_eq rfl

theorem maybeFinalize_keeps (c : Connection) (e : Engine) : Keeps k e (maybeFinalize c e) := by
  unfold maybeFinalize
  split
  · exact setConn_keeps c e
  · exact (Keeps.of_eq rfl : Keeps k e { e with toTable := e.toTable.closeFd c.fd }).trans
      (erase_keeps _ _)

theorem closeConn_keeps (c : Connection) (e : Engine) : Keeps k e (closeConn c e) := by
  have hcancel : ∀ (b : Bool) (e : Engine), Keeps k e (if b then e.submitCancel else e) := by
    intro b e
    cases b with
    | false => exact .refl k e
    | true => exact getSqe_keeps e
  unfold closeConn
  split
  · exact setConn_keeps c e
  · exact ((hcancel _ e).trans (hcancel _ _)).trans (maybeFinalize_keeps _ _)

theorem closeId_keeps (id : Nat) (e : Engine) : Keeps k e (closeId id e) := by
  unfold closeId
  split
  · exact closeConn_keeps _ _
  · exact .refl k e

theorem makeConn_keeps (opt : GatewayOptions) (fd : Int) (e : Engine) : Keeps k e (makeConn opt fd e).2 :=
  ⟨id, id, Nat.le_succ _, rfl, id, fun hb => ⟨hb, fun _ => .rfl⟩⟩

/-! ## Replies, the outbox and the response ring -/

section

variable (hrecv : k ≠ .recv) (hsend : k ≠ .send)

include hsend in
theorem pushResponse_keeps (frame : Bytes) (c : Connection) (e : Engine) :
    Keeps k e (pushResponse opt frame c e) := by
  unfold pushResponse
  split
  · exact closeConn_keeps c e
  · dsimp only
    split
    · exact setConn_keeps _ e
    · exact submitSend_keeps hsend _ e

include hrecv in
theorem rearm_keeps (c : Connection) (e : Engine) : Keeps k e (rearm opt c e) := by
  have hsub := submitRecv_keeps opt hrecv c e
  unfold rearm
  split
  next e₁ hop =>
    rw [hop] at hsub
    exact hsub
  next e₁ hop =>
    rw [hop] at hsub
    exact hsub.trans (closeId_keeps _ _)

include hrecv hsend

theorem drainItem_keeps (e : Engine) (it : OutboxItem) : Keeps k e (drainItem opt e it) := by
  unfold drainItem
  split
  · exact .refl k e
  · split
    · exact .refl k e
    · cases it.kind with
      | respond => exact pushResponse_keeps hsend _ _ e
      | close => exact closeConn_keeps _ e
      | rearmRecv =>
        dsimp only
        split
        · exact closeConn_keeps _ e
        · split
          · exact .refl k e
          · exact rearm_keeps hrecv _ e

theorem drainOutbox_keeps (items : List OutboxItem) (e : Engine) :
    Keeps k e (drainOutbox opt items e) := Keeps.foldl (drainItem_keeps hrecv hsend) items e

omit hrecv in
theorem deliver_keeps (opt : GatewayOptions) (e : Engine) (r : Response) :
    Keeps k e (deliver opt e r) := by
  unfold deliver
  split
  · exact .refl k e
  · split
    · exact .refl k e
    · split
      · exact .refl k e
      · split
        · exact .refl k e
        · exact pushResponse_keeps hsend _ _ e

omit hrecv in
theorem drainResponseRing_keeps (peerDead : Bool) (rs : List Response) (e : Engine) :
    Keeps k e (drainResponseRing opt peerDead rs e) := by
  unfold drainResponseRing
  split
  · have hflag : Keeps k e { e with stopping := e.stopping || peerDead } := .of_eq rfl
    exact hflag.trans (Keeps.foldl (deliver_keeps hsend opt) rs _)
  · exact .refl k e

/-! ## Completions -/

omit hrecv hsend in
/-- The batches aside: a `recv` that brought bytes may post one, for a connection that
is open. -/
theorem completeRecv_keeps (opt : GatewayOptions) (res : Int) (data : Bytes) (c : Connection)
    (e : Engine) :
    Keeps k e { completeRecv opt res data c e with batches := e.batches } ∧
      ((completeRecv opt res data c e).batches = e.batches ∨ c.state ≠ .closing ∧ 0 < res ∧
        ∃ raw, (completeRecv opt res data c e).batches =
          e.batches ++ [Batch.start c.connId raw]) := by
  have hkept : ∀ {e₁ : Engine}, Keeps k e e₁ → Keeps k e { e₁ with batches := e.batches } ∧
      (e₁.batches = e.batches ∨ c.state ≠ .closing ∧ 0 < res ∧
        ∃ raw, e₁.batches = e.batches ++ [Batch.start c.connId raw]) :=
    fun h => ⟨h.forget, .inl h.batches⟩
  unfold completeRecv
  dsimp only
  split
  · exact hkept (maybeFinalize_keeps _ e)
  next hopen =>
    split
    · exact hkept (closeConn_keeps _ e)
    next hneg =>
      split
      · exact hkept (closeConn_keeps _ e)
      next hzero =>
        split
        · exact hkept (closeConn_keeps _ e)
        · exact ⟨.of_eq rfl, .inr ⟨hopen, by omega, _, rfl⟩⟩

omit hrecv in
theorem completeSend_keeps (res : Int) (c : Connection) (e : Engine) :
    Keeps k e (completeSend res c e) := by
  unfold completeSend
  dsimp only
  split
  · exact maybeFinalize_keeps _ e
  · split
    · exact closeConn_keeps _ e
    · split
      · exact submitSend_keeps hsend _ e
      · exact setConn_keeps _ e

omit hrecv in
theorem completeRspNotify_keeps (hk : k ≠ .rspNotify) (res : Int) (peerDead : Bool)
    (rs : List Response) (e : Engine) : Keeps k e (completeRspNotify opt res peerDead rs e) := by
  have harm : ∀ n, Keeps k e (submitRspNotifyRead { e with rspNotifyFailStreak := n }) := by
    intro n
    have hstreak : Keeps k e { e with rspNotifyFailStreak := n } := .of_eq rfl
    exact hstreak.trans (submitRspNotifyRead_keeps hk.symm _)
  unfold completeRspNotify
  split
  · exact .refl k e
  · split
    · split
      · exact .of_eq rfl
      · exact harm _
    · exact (harm 0).trans (drainResponseRing_keeps hsend peerDead rs _)

end

theorem completeAccept_keeps (hrecv : k ≠ .recv) (hk : .accept ≠ k) (res : Int) (e : Engine) :
    Keeps k e (completeAccept opt res e) := by
  have harm : ∀ {e₁ : Engine}, Keeps k e e₁ → Keeps k e e₁.submitAccept :=
    fun h => h.trans (submitOp_keeps _ hk _)
  unfold completeAccept
  split
  · split <;> exact .of_eq rfl
  · split
    · split
      · split
        · exact .of_eq rfl
        · exact harm (.of_eq rfl)
      · exact harm (.refl k e)
    · generalize hg : ({ e with acceptFailStreak := 0, opened := e.opened ++ [res] } : Engine) = e₀
      have h₀ : Keeps k e e₀ := by rw [← hg]; exact .of_eq rfl
      have hfirst := (h₀.trans (makeConn_keeps opt res e₀)).trans
        (submitRecv_keeps opt hrecv (makeConn opt res e₀).1 (makeConn opt res e₀).2)
      dsimp only
      split
      next e₁ hop =>
        rw [hop] at hfirst
        exact harm hfirst
      next e₁ hop =>
        rw [hop] at hfirst
        exact harm (hfirst.trans (erase_keeps _ _))

/-- A completion leaves the operations of other kinds alone, the `recv` and
`send` of connections aside. -/
theorem onCqe_keeps (hrecv : k ≠ .recv) (hsend : k ≠ .send) {o : Nat} (ho : e.ops o = some op)
    (hop : op.kind ≠ k) (q : Completion) (items : List OutboxItem) :
    Keeps k e { onCqe opt o op q items e with batches := e.batches } := by
  have hdrop : Keeps k e { e with toTable := e.toTable.dropOp o } := by
    refine ⟨id, id, Nat.le_refl _, rfl, id, fun hb => ⟨hb.dropOp o, fun o' => ?_⟩⟩
    rw [Table.inFlight_dropOp]
    refine and_iff_right_of_imp ?_
    rintro ⟨x, hx, hk⟩ rfl
    rw [ho] at hx
    cases hx
    exact hop hk
  have hat : ∀ {f : Connection → Engine → Engine},
      (∀ c e, Keeps k e { f c e with batches := e.batches }) →
        ∀ e, Keeps k e { atConn op f e with batches := e.batches } := by
    intro f hf e
    unfold atConn
    split
    · exact hf _ e
    · exact .of_eq rfl
  unfold onCqe
  refine hdrop.trans ?_
  cases hkind : op.kind with
  | accept => exact (completeAccept_keeps hrecv (hkind ▸ hop) q.res _).forget
  | recv => exact hat (fun c e => (completeRecv_keeps opt q.res q.data c e).1) _
  | send => exact hat (fun c e => (completeSend_keeps hsend q.res c e).forget) _
  | wakeup =>
    exact ((submitEventfdRead_keeps (hkind ▸ hop) _).trans
      (drainOutbox_keeps hrecv hsend items _)).forget
  | stop => exact .of_eq rfl
  | rspNotify =>
    exact (completeRspNotify_keeps hsend (hkind ▸ hop.symm) q.res q.peerDead q.responses _).forget

/-- Only a `recv` that brought bytes for an open connection posts a batch, and one
for it. -/
theorem onCqe_batches (opt : GatewayOptions) {free : Nat → Prop} {due : List OutboxItem}
    (h : e.toTable.Lifecycle free due) {o : Nat} (ho : e.ops o = some op) (q : Completion)
    (items : List OutboxItem) :
    (onCqe opt o op q items e).batches = e.batches ∨
      ∃ id c raw, op = ⟨.recv, some id⟩ ∧ e.conns id = some c ∧ c.state ≠ .closing ∧ 0 < q.res ∧
        (onCqe opt o op q items e).batches = e.batches ++ [Batch.start id raw] := by
  obtain ⟨kind, conn⟩ := op
  unfold onCqe
  cases kind with
  | accept =>
    exact .inl (completeAccept_keeps (k := .stop) (by decide) (by decide) q.res
      { e with toTable := e.toTable.dropOp o }).batches
  | recv =>
    obtain ⟨id, c, rfl, hc, -⟩ := h.booked.owned ho (.inl rfl)
    simp only [atConn, Option.bind_some, Table.dropOp, hc]
    rcases (completeRecv_keeps (k := .stop) opt q.res q.data c
      { e with toTable := e.toTable.dropOp o }).2 with hsame | ⟨hopen, hres, raw, hposted⟩
    · exact .inl hsame
    · rw [(h.booked.named hc).1] at hposted
      exact .inr ⟨id, c, raw, rfl, hc, hopen, hres, hposted⟩
  | send =>
    obtain ⟨id, c, rfl, hc, -⟩ := h.booked.owned ho (.inr rfl)
    simp only [atConn, Option.bind_some, Table.dropOp, hc]
    exact .inl (completeSend_keeps (k := .stop) (by decide) q.res c
      { e with toTable := e.toTable.dropOp o }).batches
  | wakeup =>
    exact .inl ((submitEventfdRead_keeps (k := .stop) (by decide) _).trans
      (drainOutbox_keeps (k := .stop) (by decide) (by decide) items _)).batches
  | stop => exact .inl rfl
  | rspNotify =>
    exact .inl (completeRspNotify_keeps (k := .stop) (by decide) (by decide) q.res q.peerDead q.responses
      { e with toTable := e.toTable.dropOp o }).batches

/-! ## The accept -/

/-- No accept is in flight. -/
def Unarmed (e : Engine) : Prop := ∀ o, ¬ e.InFlight .accept o

/-- As long as the engine accepts and does not drain, one accept is in flight. -/
structure Armed (e : Engine) : Prop where
  bounded : e.toTable.Bounded
  armed : e.accepting = true → e.draining = false → ∃! o, e.InFlight .accept o

/-- The batches do not matter for this. -/
theorem Armed.of_batches {batches : List Batch} (h : Armed { e with batches := batches }) :
    e.Armed := ⟨h.bounded, h.armed⟩

theorem Keeps.unarmed (h : Keeps .accept e e₁) (hb : e.toTable.Bounded) (hu : e.Unarmed) :
    e₁.Unarmed := fun o ho => hu o (((h.books hb).2 o).mp ho)

theorem Keeps.armed (h : Keeps .accept e e₁) (ha : e.Armed) : e₁.Armed := by
  obtain ⟨hb, hops⟩ := h.books ha.bounded
  refine ⟨hb, fun haccepting hdraining => ?_⟩
  obtain ⟨o, ho, hunique⟩ := ha.armed (h.accepting haccepting) (h.not_draining hdraining)
  exact ⟨o, (hops o).mpr ho, fun o' ho' => hunique o' ((hops o').mp ho')⟩

/-- The accept is put in flight where none is, or the engine drains. -/
theorem submitAccept_armed (hb : e.toTable.Bounded)
    (hu : e.accepting = true → e.draining = false → e.Unarmed) : e.submitAccept.Armed := by
  have hsqe : Keeps .wakeup e e.submitAccept :=
    submitOp_keeps (k := .wakeup) ⟨.accept, none⟩ nofun e
  refine ⟨(hsqe.books hb).1, fun haccepting hdraining => ?_⟩
  have hnone := hu (hsqe.accepting haccepting) (hsqe.not_draining hdraining)
  unfold submitAccept at hdraining ⊢
  rcases submitOp_snd ⟨.accept, none⟩ e with ⟨-, hfull⟩ | hbooks
  · rw [hfull] at hdraining
    cases hdraining
  · rw [hbooks]
    refine ⟨e.nextOp, (Table.inFlight_addOp hb).mpr (.inl ⟨rfl, rfl⟩), fun o ho => ?_⟩
    rcases (Table.inFlight_addOp hb).mp ho with ⟨rfl, -⟩ | hold
    · rfl
    · exact absurd hold (hnone o)

/-- `complete_accept` gives up on this result: the eighth error in a row. -/
def givesUp (e : Engine) (res : Int) : Bool :=
  e.accepting && (res < 0 && res ≠ -eIntr && 7 ≤ e.acceptFailStreak)

/-- Short of giving up, the completion of the accept puts in the next one. -/
theorem completeAccept_armed {res : Int} (hb : e.toTable.Bounded)
    (hu : e.accepting = true → e.draining = false → e.Unarmed) (hgo : e.givesUp res = false) :
    (completeAccept opt res e).Armed := by
  unfold completeAccept
  split
  next hoff =>
    have hoff : e.accepting = false := by simpa using hoff
    have hclosed : ∀ e₁ : Engine, e₁.accepting = e.accepting → e₁.toTable.Bounded → e₁.Armed := by
      intro e₁ heq hb₁
      exact ⟨hb₁, fun ha => by rw [heq, hoff] at ha; cases ha⟩
    split
    · exact hclosed _ rfl hb
    · exact hclosed _ rfl hb
  next hon =>
    have hon : e.accepting = true := by simpa using hon
    split
    next hneg =>
      split
      next herr =>
        split
        next hstreak =>
          have hup : e.givesUp res = true := by
            simp only [givesUp, hon, Bool.true_and, Bool.and_eq_true, decide_eq_true_eq]
            exact ⟨⟨hneg, herr⟩, by omega⟩
          rw [hup] at hgo
          cases hgo
        · exact submitAccept_armed hb hu
      · exact submitAccept_armed hb hu
    · -- the new connection and its first `recv` do not touch the accept
      generalize hg : ({ e with acceptFailStreak := 0, opened := e.opened ++ [res] } : Engine) = e₀
      have h₀ : Keeps .accept e e₀ := by rw [← hg]; exact .of_eq rfl
      have hmake : Keeps .accept e₀ (makeConn opt res e₀).2 := makeConn_keeps opt res e₀
      have hfirst := submitRecv_keeps (k := .accept) opt nofun (makeConn opt res e₀).1
        (makeConn opt res e₀).2
      have hrearm : ∀ {e₁}, Keeps .accept e e₁ → e₁.submitAccept.Armed := by
        intro e₁ hkeep
        refine submitAccept_armed (hkeep.books hb).1 fun haccepting hdraining => ?_
        exact hkeep.unarmed hb (hu hon (hkeep.not_draining hdraining))
      dsimp only
      split
      next e₁ hop =>
        rw [hop] at hfirst
        exact hrearm ((h₀.trans hmake).trans hfirst)
      next e₁ hop =>
        rw [hop] at hfirst
        exact hrearm (((h₀.trans hmake).trans hfirst).trans (erase_keeps _ _))

theorem onCqe_armed {o : Nat} (h : e.Armed) (ho : e.ops o = some op) {q : Completion}
    (hgo : op.kind = .accept → e.givesUp q.res = false) (items : List OutboxItem) :
    (onCqe opt o op q items e).Armed := by
  by_cases hk : op.kind = .accept
  · unfold onCqe
    rw [hk]
    refine completeAccept_armed (h.bounded.dropOp o) (fun haccepting hdraining o' ho' => ?_) (hgo hk)
    obtain ⟨hne, hin⟩ := Table.inFlight_dropOp.mp ho'
    exact hne ((h.armed haccepting hdraining).unique hin ⟨op, ho, hk⟩)
  · exact ((onCqe_keeps (k := .accept) nofun nofun ho hk q items).armed h).of_batches

theorem start_armed (opt : GatewayOptions) (answers : List Bool) : (start opt answers).Armed := by
  have hnew : (new answers).submitAccept.Armed :=
    submitAccept_armed (by intro o op ho; cases ho) fun _ _ o ho => by
      obtain ⟨op, hop, -⟩ := ho
      cases hop
  have hreads : Keeps .accept (new answers).submitAccept
      (submitStopRead (submitEventfdRead (new answers).submitAccept)) :=
    (submitEventfdRead_keeps (k := .accept) nofun _).trans
      (submitStopRead_keeps (k := .accept) nofun _)
  unfold start
  dsimp only
  split
  · exact (hreads.trans (submitRspNotifyRead_keeps (k := .accept) nofun _)).armed hnew
  · exact hreads.armed hnew

end Engine

namespace MainLoop

variable {opt : GatewayOptions} {g g' : MainLoop}

/-- Whether an action is the completion with which the engine gives up accepting. -/
def backsOff (g : MainLoop) : Action → Bool
  | .cqe o q => (g.engine.ops o).any fun op => op.kind = .accept && g.engine.givesUp q.res
  | _ => false

/-- Neither a completion nor a worker: the outbox and the batches are left alone too. -/
theorem turn_keeps {k : OpKind} (hsend : k ≠ .send) {action : Action}
    (hcqe : ∀ o q, action ≠ .cqe o q) (hwork : ∀ i r, action ≠ .work i r)
    (hstep : g.step opt action = some g') :
    Engine.Keeps k g.engine g'.engine ∧ g'.outbox = g.outbox := by
  have hturn : ∀ {ok : Bool} {e : Engine} {stage : Stage}, g.turn ok e stage = some g' →
      Engine.Keeps k g.engine e → Engine.Keeps k g.engine g'.engine ∧ g'.outbox = g.outbox := by
    intro ok e stage hturn he
    obtain ⟨-, rfl⟩ := turn_eq hturn
    exact ⟨he, rfl⟩
  cases action with
  | cqe o q => exact absurd rfl (hcqe o q)
  | work i r => exact absurd rfl (hwork i r)
  | drainResponses peerDead rs =>
    exact hturn hstep (Engine.drainResponseRing_keeps hsend peerDead rs _)
  | sweep order =>
    refine hturn hstep ?_
    unfold Engine.sweepIdle
    split
    · exact .refl _ _
    · exact Engine.Keeps.foldl (fun e id => Engine.closeId_keeps id e) _ _
  | requestStop =>
    cases hstep
    exact ⟨.of_eq rfl, rfl⟩
  | checkStop =>
    refine hturn hstep ?_
    unfold Engine.checkStop
    split
    · exact ⟨nofun, fun _ => rfl, Nat.le_refl _, rfl, id, fun hb => ⟨hb, fun _ => .rfl⟩⟩
    · exact .refl _ _
  | leave failed => exact hturn hstep (.refl _ _)
  | reap order =>
    exact hturn hstep (Engine.Keeps.foldl (fun e id => Engine.closeId_keeps id e) _ _)
  | exit => exact hturn hstep (.refl _ _)
  | forceClose order => exact hturn hstep (.of_eq rfl)

/-- Every action but the completion of an operation of the kind `k` leaves that
kind alone. -/
theorem step_keeps {k : OpKind} (hrecv : k ≠ .recv) (hsend : k ≠ .send) {action : Action}
    (hstep : g.step opt action = some g')
    (hother : ∀ o q, action = .cqe o q → ∀ op, g.engine.ops o = some op → op.kind ≠ k) :
    Engine.Keeps k g.engine { g'.engine with batches := g.engine.batches } := by
  cases action with
  | cqe o q =>
    obtain ⟨op, ho, -, -, rfl⟩ := cqe_eq hstep
    exact Engine.onCqe_keeps hrecv hsend ho (hother o q rfl op ho) q _
  | work i r =>
    obtain ⟨b, -, rfl⟩ := work_eq hstep
    exact .of_eq rfl
  | _ => exact (turn_keeps hsend (by nofun) (by nofun) hstep).1.forget

/-- Some kind of operation is always left alone, so what else the frame says holds
of every step. -/
theorem next_keeps {ev : Event} (hnext : g.next opt ev = some g') :
    ∃ k, Engine.Keeps k { g.engine with answers := ev.answers, now := ev.now }
      { g'.engine with batches := g.engine.batches } := by
  by_cases hother : ∀ o q, ev.action = .cqe o q →
      ∀ op, g.engine.ops o = some op → op.kind ≠ .accept
  · exact ⟨.accept, step_keeps (k := .accept) nofun nofun hnext hother⟩
  · refine ⟨.stop, step_keeps (k := .stop) nofun nofun hnext ?_⟩
    push Not at hother
    obtain ⟨o, q, haction, op, ho, haccept⟩ := hother
    intro o' q' haction' op' ho' hstop
    rw [haction] at haction'
    cases haction'
    change g.engine.ops o = some op' at ho'
    rw [ho] at ho'
    cases ho'
    rw [haccept] at hstop
    cases hstop

/-- **One step** that is not the one with which the engine gives up. -/
theorem next_armed {ev : Event} (h : g.engine.Armed) (hgo : g.backsOff ev.action = false)
    (hnext : g.next opt ev = some g') : g'.engine.Armed := by
  have h' : Engine.Armed { g.engine with answers := ev.answers, now := ev.now } :=
    ⟨h.bounded, h.armed⟩
  by_cases hother : ∀ o q, ev.action = .cqe o q →
      ∀ op, g.engine.ops o = some op → op.kind ≠ .accept
  · exact ((step_keeps (k := .accept) nofun nofun hnext hother).armed h').of_batches
  · push Not at hother
    obtain ⟨o, q, haction, op, ho, hkind⟩ := hother
    simp only [backsOff, haction, ho, Option.any_some, hkind, decide_true, Bool.true_and] at hgo
    simp only [next, haction, step, cqe, ho] at hnext
    split at hnext
    · cases hnext
      exact Engine.onCqe_armed h' ho (fun _ => hgo) _
    · cases hnext

/-- Without an accept in flight no step puts one in. -/
theorem next_unarmed {ev : Event} (hb : g.engine.toTable.Bounded) (hu : g.engine.Unarmed)
    (hnext : g.next opt ev = some g') : g'.engine.toTable.Bounded ∧ g'.engine.Unarmed := by
  have hkeep := step_keeps (k := .accept) nofun nofun hnext fun o _ _ op ho hkind => hu o ⟨op, ho, hkind⟩
  exact ⟨(hkeep.books hb).1, hkeep.unarmed hb hu⟩

/-- **A gateway that has lost its accept never accepts again.** -/
theorem unarmed_play {events : List Event} (hb : g.engine.toTable.Bounded) (hu : g.engine.Unarmed)
    (hplay : (machine opt).play g events = some g') : g'.engine.Unarmed := by
  induction events generalizing g with
  | nil =>
    cases hplay
    exact hu
  | cons ev rest ih =>
    obtain ⟨g₁, hg₁, hrest⟩ := Option.bind_eq_some_iff.mp hplay
    obtain ⟨hb₁, hu₁⟩ := next_unarmed hb hu hg₁
    exact ih hb₁ hu₁ hrest

end MainLoop

/-- **The gateway keeps accepting.** In every state that is reached without the
completion with which the engine gives up, exactly one accept is in flight as
long as the engine accepts and does not drain. -/
theorem accept_armed {opt : GatewayOptions} {g : MainLoop}
    (h : (MainLoop.machine opt).ReachableWhile (fun g ev => g.backsOff ev.action = false) g)
    (haccepting : g.engine.accepting = true) (hdraining : g.engine.draining = false) :
    ∃! o, g.engine.InFlight .accept o := by
  refine (Machine.invariant (I := fun g : MainLoop => g.engine.Armed) ?_ ?_ h).armed haccepting hdraining
  · rintro g ⟨answers, rfl⟩
    exact Engine.start_armed opt answers
  · exact fun g ev g' harmed hgo hnext => MainLoop.next_armed harmed hgo hnext

/-- A turn of the loop in which an accept fails for lack of descriptors. -/
def failedAccept (o : Nat) : List MainLoop.Event :=
  [⟨.cqe o ⟨-24, [], false, []⟩, [], 1⟩, ⟨.drainResponses false [], [], 1⟩, ⟨.sweep [], [], 1⟩,
    ⟨.checkStop, [], 1⟩]

/-- Seven failures in a row, and then a client. -/
theorem accept_armed_seven :
    ((MainLoop.machine ⟨8, 1000, 0, false⟩).playWhile (fun g ev => !g.backsOff ev.action)
        (MainLoop.start ⟨8, 1000, 0, false⟩ [])
        ([0, 3, 4, 5, 6, 7, 8].flatMap failedAccept ++ [⟨.cqe 9 ⟨7, [], false, []⟩, [], 2⟩])).map
        (fun g => (g.engine.accepting, g.engine.draining, g.engine.ids)) = some (true, false, [1]) ∧
      ∀ g, (MainLoop.machine ⟨8, 1000, 0, false⟩).playWhile (fun g ev => !g.backsOff ev.action)
        (MainLoop.start ⟨8, 1000, 0, false⟩ [])
        ([0, 3, 4, 5, 6, 7, 8].flatMap failedAccept ++ [⟨.cqe 9 ⟨7, [], false, []⟩, [], 2⟩]) =
          some g → ∃! o, g.engine.InFlight .accept o := by
  have hplay : ((MainLoop.machine ⟨8, 1000, 0, false⟩).playWhile
      (fun g ev => !g.backsOff ev.action) (MainLoop.start ⟨8, 1000, 0, false⟩ [])
      ([0, 3, 4, 5, 6, 7, 8].flatMap failedAccept ++ [⟨.cqe 9 ⟨7, [], false, []⟩, [], 2⟩])).map
      (fun g => (g.engine.accepting, g.engine.draining, g.engine.ids)) =
        some (true, false, [1]) := by decide +kernel
  refine ⟨hplay, fun g hg => ?_⟩
  rw [hg, Option.map_some, Option.some.injEq, Prod.mk.injEq, Prod.mk.injEq] at hplay
  exact accept_armed (Machine.reachableWhile_of_playWhile
    (fun g ev hok => by simpa using hok) (.start ⟨[], rfl⟩) hg) hplay.1 hplay.2.1

/-- After eight failures in a row the gateway runs on, accepting and not
draining, without an accept in flight, now and in every state after. -/
theorem accept_lost : ∃ g, (MainLoop.machine ⟨8, 1000, 0, false⟩).Reachable g ∧
    g.stage = .running ∧ g.engine.accepting = true ∧ g.engine.draining = false ∧
      g.engine.stopping = false ∧
        ∀ events g', (MainLoop.machine ⟨8, 1000, 0, false⟩).play g events = some g' →
          ∀ o, ¬ g'.engine.InFlight .accept o := by
  obtain ⟨g, hreach, hstage, haccepting, hdraining, hstopping, hnext, hnone⟩ :
      ∃ g, (MainLoop.machine ⟨8, 1000, 0, false⟩).Reachable g ∧ g.stage = .running ∧
        g.engine.accepting = true ∧ g.engine.draining = false ∧ g.engine.stopping = false ∧
        g.engine.nextOp = 10 ∧ ((List.range 10).all fun o =>
          (g.engine.ops o).all (·.kind ≠ .accept)) = true :=
    Machine.exists_of_play (MainLoop.start _ []) ⟨[], rfl⟩
      ([0, 3, 4, 5, 6, 7, 8, 9].flatMap failedAccept) (by decide +kernel)
  have hbooks := (MainLoop.Inv.of_reachable hreach).lifecycle (by rw [hstage]; decide)
  have hb : g.engine.toTable.Bounded := fun _ _ ho => hbooks.booked.bounded ho
  refine ⟨g, hreach, hstage, haccepting, hdraining, hstopping, fun events g' hg' =>
    MainLoop.unarmed_play hb ?_ hg'⟩
  rintro o ⟨op, ho, hkind⟩
  have hlt := hb o op ho
  rw [hnext] at hlt
  have hop := List.all_eq_true.mp hnone o (List.mem_range.mpr hlt)
  simp [ho, hkind] at hop

end SharedBike.Gateway
