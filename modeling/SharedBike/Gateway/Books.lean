import SharedBike.Gateway.Engine

/-!
# The books of the engine

What holds between the connections, the operations in flight and the
descriptors at every moment, also in the middle of a handler
(`Table.Booked free`): a connection's counters match its operation pointers, a
pointer and the operation it points to name each other, and a descriptor
has been closed as often as it was accepted, or once less while a
connection holds it.

A handler has a connection in its hands that is ahead of the table.
`Table.Focus` says that the books are right with that connection put back
and that every other connection is where its state says it should be
(`Connection.Settled`). The lemmas are the moves a handler is made of: it
changes a field that is not in the books, an operation starts, an operation
ends, the connection is erased.
-/

namespace SharedBike.Gateway

open SharedBike.Lib SharedBike.Wire Function

/-! ## What is asked of one connection -/

namespace Connection

/-- The operation of a kind that a connection has in flight. -/
def op (c : Connection) : OpKind → Option Nat
  | .recv => c.recvOp
  | .send => c.sendOp
  | _ => none

/-- The counters match the pointers, and the descriptor is there. -/
structure Counted (c : Connection) : Prop where
  pendingOps : c.pendingOps = (if c.recvOp.isSome then 1 else 0) + if c.sendOp.isSome then 1 else 0
  sendActive : c.sendActive = c.sendOp.isSome
  fd : 0 ≤ c.fd

/-- A connection is where its state says, given how many batches and terminal
items are still owed to it. -/
structure Settled (owed : Nat) (c : Connection) : Prop where
  active : c.state = .active → c.recvOp.isSome ∧ owed = 0
  parsing : c.state = .parsing → c.recvOp = none ∧ owed = 1
  closing : c.state = .closing → 0 < c.pendingOps

/-- Two connections that the books cannot tell apart. -/
structure SameBooks (c d : Connection) : Prop where
  connId : d.connId = c.connId
  fd : d.fd = c.fd
  pendingOps : d.pendingOps = c.pendingOps
  sendActive : d.sendActive = c.sendActive
  recvOp : d.recvOp = c.recvOp
  sendOp : d.sendOp = c.sendOp

theorem SameBooks.op {c d : Connection} (h : SameBooks c d) (k : OpKind) : d.op k = c.op k := by
  cases k with
  | recv => exact h.recvOp
  | send => exact h.sendOp
  | _ => rfl

theorem SameBooks.counted {c d : Connection} (h : SameBooks c d) (hc : c.Counted) : d.Counted := by
  obtain ⟨hpending, hactive, hfd⟩ := hc
  refine ⟨?_, ?_, ?_⟩
  · rw [h.pendingOps, h.recvOp, h.sendOp, hpending]
  · rw [h.sendActive, h.sendOp, hactive]
  · rw [h.fd]
    exact hfd

/-- Without operations in flight the pointers are null. -/
theorem Counted.op_none {c : Connection} (h : c.Counted) (hzero : ¬ 0 < c.pendingOps)
    (k : OpKind) : c.op k = none := by
  have hpending := h.pendingOps
  cases hr : c.recvOp <;> cases hs : c.sendOp <;> simp only [hr, hs, Option.isSome] at hpending
  case none.none => cases k <;> simp [op, hr, hs]
  all_goals simp at hpending; omega

end Connection

/-! ## What is asked of the tables -/

namespace Table

/-- Each accepted descriptor is closed exactly once: not yet while a connection
holds it, and once it is gone as often as it was accepted. -/
structure Fds (T : Table) : Prop where
  held : ∀ {id c}, T.conns id = some c → T.opened.count c.fd = T.closed.count c.fd + 1
  distinct : ∀ {i j c d}, T.conns i = some c → T.conns j = some d → c.fd = d.fd → i = j
  gone : ∀ {fd}, (∀ id c, T.conns id = some c → c.fd ≠ fd) → T.opened.count fd = T.closed.count fd

structure Booked (free : Nat → Prop) (T : Table) : Prop where
  named : ∀ {id c}, T.conns id = some c → c.connId = id ∧ id < T.nextConnId
  counted : ∀ {id c}, T.conns id = some c → c.Counted
  owns : ∀ {id c k o}, T.conns id = some c → c.op k = some o → T.ops o = some ⟨k, some id⟩
  owned : ∀ {o k conn}, T.ops o = some ⟨k, conn⟩ → k = .recv ∨ k = .send →
    ∃ id c, conn = some id ∧ T.conns id = some c ∧ c.op k = some o
  bounded : ∀ {o op}, T.ops o = some op → o < T.nextOp
  fds : T.Fds
  live : T.dangling = false
  absent : ∀ {id}, free id → T.conns id = none

/-- How many unfinished batches and undelivered terminal items a connection id
has, with the outbox items `due`. -/
def owed (T : Table) (due : List OutboxItem) (id : Nat) : Nat :=
  T.batches.countP (·.connId = id) + due.countP fun it => it.connId = id ∧ it.kind ≠ .respond

/-- The whole invariant. The ids in `free` are out of use for good. -/
structure Lifecycle (free : Nat → Prop) (due : List OutboxItem) (T : Table) : Prop where
  booked : T.Booked free
  settled : ∀ {id c}, T.conns id = some c → c.Settled (T.owed due id)
  fresh : ∀ {id}, T.nextConnId ≤ id → T.owed due id = 0

/-- The invariant with the connection `c` in a handler's hands. -/
structure Focus (free : Nat → Prop) (due : List OutboxItem) (T : Table) (c : Connection) :
    Prop where
  booked : (T.setConn c).Booked free
  settled : ∀ {id d}, id ≠ c.connId → T.conns id = some d → d.Settled (T.owed due id)
  fresh : ∀ {id}, T.nextConnId ≤ id → T.owed due id = 0

variable {free : Nat → Prop} {T : Table} {due : List OutboxItem} {c d : Connection} {id : Nat}
  {o : Nat} {it : OutboxItem} {op : UringOp}

@[simp] theorem setConn_self : (T.setConn c).conns c.connId = some c := update_self ..

theorem setConn_of_ne (h : id ≠ c.connId) : (T.setConn c).conns id = T.conns id :=
  update_of_ne h _ _

theorem setConn_setConn (h : d.connId = c.connId) : (T.setConn c).setConn d = T.setConn d := by
  simp only [setConn, h, update_idem]

theorem setConn_eq (h : T.conns c.connId = some c) : T.setConn c = T := by
  rw [setConn, ← h, update_eq_self]

/-- Who is in the table after a connection was put back. -/
theorem setConn_cases {x : Connection} (h : (T.setConn d).conns id = some x) :
    id = d.connId ∧ x = d ∨ id ≠ d.connId ∧ T.conns id = some x := by
  by_cases hid : id = d.connId
  · rw [hid, setConn_self] at h
    exact .inl ⟨hid, (Option.some.inj h).symm⟩
  · rw [setConn_of_ne hid] at h
    exact .inr ⟨hid, h⟩

theorem addOp_new (op : UringOp) : (T.addOp op).ops T.nextOp = some op := update_self ..

theorem addOp_of_lt (h : o < T.nextOp) : (T.addOp op).ops o = T.ops o :=
  update_of_ne (Nat.ne_of_lt h) _ _

theorem addOp_cases {op x : UringOp} (h : (T.addOp op).ops o = some x) :
    o = T.nextOp ∧ x = op ∨ T.ops o = some x := by
  by_cases ho : o = T.nextOp
  · rw [ho, addOp_new] at h
    exact .inl ⟨ho, (Option.some.inj h).symm⟩
  · exact .inr ((update_of_ne ho _ _).symm.trans h)

theorem dropOp_of_ne {o o' : Nat} (h : o' ≠ o) : (T.dropOp o).ops o' = T.ops o' :=
  update_of_ne h _ _

theorem dropOp_cases {o o' : Nat} {x : UringOp} (h : (T.dropOp o).ops o' = some x) :
    o' ≠ o ∧ T.ops o' = some x := by
  by_cases ho : o' = o
  · have hnone : (T.dropOp o).ops o = none := update_self ..
    rw [ho, hnone] at h
    cases h
  · exact ⟨ho, (dropOp_of_ne ho).symm.trans h⟩

theorem empty_lifecycle : Table.empty.Lifecycle free [] where
  booked :=
    { named := nofun, counted := nofun, owns := nofun, owned := nofun, bounded := nofun
      fds := ⟨nofun, nofun, fun _ => rfl⟩, live := rfl, absent := fun _ => rfl }
  settled := nofun
  fresh _ := rfl

/-! ## Replacing a connection -/

/-- A connection that holds the same descriptor replaces another. -/
theorem Fds.replace (h : T.Fds) (hc : T.conns id = some c) (hid : d.connId = id)
    (hfd : d.fd = c.fd) : (T.setConn d).Fds := by
  subst hid
  -- whoever is in the new table stands for one with the same descriptor in the old one
  have hold : ∀ {j x}, (T.setConn d).conns j = some x → ∃ y, T.conns j = some y ∧ y.fd = x.fd := by
    intro j x hj
    rcases setConn_cases hj with ⟨rfl, rfl⟩ | ⟨-, hj⟩
    · exact ⟨c, hc, hfd.symm⟩
    · exact ⟨x, hj, rfl⟩
  constructor
  case held =>
    intro j x hj
    obtain ⟨y, hy, hxy⟩ := hold hj
    rw [← hxy]
    exact h.held hy
  case distinct =>
    intro i j x y hi hj hxy
    obtain ⟨x', hx', hfx⟩ := hold hi
    obtain ⟨y', hy', hfy⟩ := hold hj
    exact h.distinct hx' hy' (by rw [hfx, hfy, hxy])
  case gone =>
    intro fd hnone
    refine h.gone fun j x hj => ?_
    by_cases hjd : j = d.connId
    · subst hjd
      rw [hc] at hj
      cases hj
      rw [← hfd]
      exact hnone _ d setConn_self
    · exact hnone j x (by rw [setConn_of_ne hjd]; exact hj)

/-- A connection and the operations change together: its own pointers and its
own operations name each other, and the operations of all others stay. -/
theorem Booked.replace (h : T.Booked free) (hc : T.conns id = some c) (hid : d.connId = id)
    (hfd : d.fd = c.fd) (hcount : d.Counted) {ops : Nat → Option UringOp} {nextOp : Nat}
    (howns : ∀ {k o}, d.op k = some o → ops o = some ⟨k, some id⟩)
    (hkept : ∀ {o k j}, j ≠ id → T.ops o = some ⟨k, some j⟩ → ops o = some ⟨k, some j⟩)
    (howned : ∀ {o k conn}, ops o = some ⟨k, conn⟩ → k = .recv ∨ k = .send →
      conn = some id ∧ d.op k = some o ∨ conn ≠ some id ∧ T.ops o = some ⟨k, conn⟩)
    (hbound : ∀ {o op}, ops o = some op → o < nextOp) :
    (Table.setConn { T with ops := ops, nextOp := nextOp } d).Booked free := by
  subst hid
  constructor
  case named =>
    intro j x hj
    rcases setConn_cases hj with ⟨rfl, rfl⟩ | ⟨-, hj⟩
    · exact ⟨rfl, (h.named hc).2⟩
    · exact h.named hj
  case counted =>
    intro j x hj
    rcases setConn_cases hj with ⟨rfl, rfl⟩ | ⟨-, hj⟩
    · exact hcount
    · exact h.counted hj
  case owns =>
    intro j x k o hj hk
    rcases setConn_cases hj with ⟨rfl, rfl⟩ | ⟨hne, hj⟩
    · exact howns hk
    · exact hkept hne (h.owns hj hk)
  case owned =>
    intro o k conn ho hk
    rcases howned ho hk with ⟨rfl, hop⟩ | ⟨hne, hold⟩
    · exact ⟨d.connId, d, rfl, setConn_self, hop⟩
    · obtain ⟨j, x, rfl, hj, hop⟩ := h.owned hold hk
      refine ⟨j, x, rfl, ?_, hop⟩
      rw [setConn_of_ne fun hjd => hne (by rw [hjd])]
      exact hj
  case bounded => exact hbound
  case fds =>
    have hfds := h.fds.replace hc rfl hfd
    exact ⟨hfds.held, hfds.distinct, hfds.gone⟩
  case live => exact h.live
  case absent =>
    intro j hj
    have hnone := h.absent hj
    refine (setConn_of_ne fun hjd => ?_).trans hnone
    rw [hjd, hc] at hnone
    cases hnone

/-! ## The moves of a handler -/

/-- Fewer ids may be kept out of use. -/
theorem Lifecycle.mono {free' : Nat → Prop} (hsub : ∀ id, free' id → free id)
    (h : T.Lifecycle free due) : T.Lifecycle free' due := by
  have hb := h.booked
  exact ⟨⟨hb.named, hb.counted, hb.owns, hb.owned, hb.bounded, hb.fds, hb.live,
    fun hid => hb.absent (hsub _ hid)⟩, h.settled, h.fresh⟩

/-- A handler takes a connection from the table. -/
theorem Lifecycle.focus (h : T.Lifecycle free due) (hc : T.conns id = some c) : T.Focus free due c := by
  have hid := (h.booked.named hc).1
  refine ⟨?_, fun _ hd => h.settled hd, h.fresh⟩
  rw [setConn_eq (by rw [hid]; exact hc)]
  exact h.booked

/-- A handler puts a connection back where its state says it should be. -/
theorem Focus.settle (h : T.Focus free due c) (hs : c.Settled (T.owed due c.connId)) :
    (T.setConn c).Lifecycle free due := by
  refine ⟨h.booked, fun hj => ?_, h.fresh⟩
  rcases setConn_cases hj with ⟨rfl, rfl⟩ | ⟨hne, hj⟩
  · exact hs
  · exact h.settled hne hj

theorem Focus.counted (h : T.Focus free due c) : c.Counted := h.booked.counted setConn_self

/-- The connection may be in the table already. -/
theorem Focus.stored (h : T.Focus free due c) : (T.setConn c).Focus free due c := by
  refine ⟨?_, fun hne hd => ?_, h.fresh⟩
  · rw [setConn_setConn rfl]
    exact h.booked
  · rw [setConn_of_ne hne] at hd
    exact h.settled hne hd

/-- Fields that are not in the books may change. -/
theorem Focus.reshape (h : T.Focus free due c) (hsame : c.SameBooks d) : T.Focus free due d := by
  have hcount := hsame.counted h.counted
  refine ⟨?_, fun hne => h.settled (by rwa [← hsame.connId]), h.fresh⟩
  rw [← setConn_setConn hsame.connId]
  refine h.booked.replace setConn_self hsame.connId hsame.fd hcount ?_ ?_ ?_ ?_
  · intro k o hk
    rw [hsame.op] at hk
    exact h.booked.owns setConn_self hk
  · exact fun _ ho => ho
  · intro o k conn ho hk
    obtain ⟨j, x, rfl, hj, hop⟩ := h.booked.owned ho hk
    rcases setConn_cases hj with ⟨rfl, rfl⟩ | ⟨hne, -⟩
    · exact .inl ⟨rfl, by rw [hsame.op, hop]⟩
    · exact .inr ⟨fun hj => hne (Option.some.inj hj), ho⟩
  · exact h.booked.bounded

/-- An operation of the connection starts. -/
theorem Focus.startOp (h : T.Focus free due c) {k : OpKind} (hnone : c.op k = none)
    (hcount : d.Counted) (hid : d.connId = c.connId) (hfd : d.fd = c.fd)
    (hk : d.op k = some T.nextOp) (hothers : ∀ j, j ≠ k → d.op j = c.op j) :
    (T.addOp ⟨k, some c.connId⟩).Focus free due d := by
  refine ⟨?_, fun hne => h.settled (by rwa [← hid]), h.fresh⟩
  rw [← setConn_setConn hid]
  refine h.booked.replace setConn_self hid hfd hcount ?_ ?_ ?_ ?_
  · intro j o hj
    by_cases hjk : j = k
    · subst hjk
      rw [hk] at hj
      cases hj
      exact addOp_new _
    · rw [hothers j hjk] at hj
      have ho := h.booked.owns setConn_self hj
      exact (addOp_of_lt (h.booked.bounded ho)).trans ho
  · exact fun _ ho => (addOp_of_lt (h.booked.bounded ho)).trans ho
  · intro o j conn ho hj
    rcases addOp_cases ho with ⟨rfl, hnew⟩ | ho
    · cases hnew
      exact .inl ⟨rfl, hk⟩
    · obtain ⟨i, x, rfl, hi, hop⟩ := h.booked.owned ho hj
      rcases setConn_cases hi with ⟨rfl, rfl⟩ | ⟨hne, -⟩
      · have hjk : j ≠ k := fun hjk => by
          rw [hjk, hnone] at hop
          cases hop
        exact .inl ⟨rfl, (hothers j hjk).trans hop⟩
      · exact .inr ⟨fun hi => hne (Option.some.inj hi), ho⟩
  · intro o op ho
    rcases addOp_cases ho with ⟨rfl, -⟩ | ho
    · exact Nat.lt_succ_self _
    · exact Nat.lt_succ_of_lt (h.booked.bounded ho)

/-- An operation of a connection ends. -/
theorem Lifecycle.endOp (h : T.Lifecycle free due) (hc : T.conns id = some c) {k : OpKind}
    (hop : c.op k = some o) (hcount : d.Counted) (hid : d.connId = c.connId) (hfd : d.fd = c.fd)
    (hk : d.op k = none) (hothers : ∀ j, j ≠ k → d.op j = c.op j) :
    (T.dropOp o).Focus free due d := by
  have hname := (h.booked.named hc).1
  have hmine := h.booked.owns hc hop
  refine ⟨?_, fun _ hj => h.settled hj, h.fresh⟩
  refine h.booked.replace hc (hid.trans hname) hfd hcount ?_ ?_ ?_ ?_
  · intro j o' hj
    have hjk : j ≠ k := fun hjk => by rw [hjk, hk] at hj; cases hj
    rw [hothers j hjk] at hj
    have ho' := h.booked.owns hc hj
    refine (dropOp_of_ne ?_).trans ho'
    rintro rfl
    rw [hmine] at ho'
    cases ho'
    exact hjk rfl
  · intro o' j i hi ho'
    refine (dropOp_of_ne ?_).trans ho'
    rintro rfl
    rw [hmine] at ho'
    cases ho'
    exact hi rfl
  · intro o' j conn ho' hj
    obtain ⟨hne, ho'⟩ := dropOp_cases ho'
    obtain ⟨i, x, rfl, hi, hopx⟩ := h.booked.owned ho' hj
    by_cases hii : i = id
    · subst hii
      rw [hc] at hi
      cases hi
      refine .inl ⟨rfl, ?_⟩
      rw [hothers j fun hjk => hne ?_, hopx]
      rw [hjk, hop] at hopx
      exact (Option.some.inj hopx).symm
    · exact .inr ⟨fun heq => hii (Option.some.inj heq), ho'⟩
  · exact fun ho' => h.booked.bounded (dropOp_cases ho').2

/-- An operation that belongs to no connection starts. -/
theorem Lifecycle.addOp (h : T.Lifecycle free due) (hk : op.kind ≠ .recv ∧ op.kind ≠ .send) :
    (T.addOp op).Lifecycle free due := by
  have hb := h.booked
  refine ⟨?_, h.settled, h.fresh⟩
  constructor
  case named => exact hb.named
  case counted => exact hb.counted
  case owns =>
    intro id c k o hc hop
    have ho := hb.owns hc hop
    exact (addOp_of_lt (hb.bounded ho)).trans ho
  case owned =>
    intro o k conn ho hkind
    rcases addOp_cases ho with ⟨-, rfl⟩ | ho
    · exact absurd hkind (not_or.mpr hk)
    · exact hb.owned ho hkind
  case bounded =>
    intro o x ho
    rcases addOp_cases ho with ⟨rfl, -⟩ | ho
    · exact Nat.lt_succ_self _
    · exact Nat.lt_succ_of_lt (hb.bounded ho)
  case fds => exact ⟨hb.fds.held, hb.fds.distinct, hb.fds.gone⟩
  case live => exact hb.live
  case absent => exact hb.absent

/-- An operation that belongs to no connection ends. -/
theorem Lifecycle.dropOp (h : T.Lifecycle free due) (ho : T.ops o = some op)
    (hk : op.kind ≠ .recv ∧ op.kind ≠ .send) : (T.dropOp o).Lifecycle free due := by
  have hb := h.booked
  refine ⟨?_, h.settled, h.fresh⟩
  constructor
  case named => exact hb.named
  case counted => exact hb.counted
  case owns =>
    intro id c k o' hc hop
    have ho' := hb.owns hc hop
    refine (dropOp_of_ne ?_).trans ho'
    rintro rfl
    rw [ho] at ho'
    cases ho'
    cases k <;> simp [Connection.op] at hop hk
  case owned => exact fun ho' hkind => hb.owned (dropOp_cases ho').2 hkind
  case bounded => exact fun ho' => hb.bounded (dropOp_cases ho').2
  case fds => exact ⟨hb.fds.held, hb.fds.distinct, hb.fds.gone⟩
  case live => exact hb.live
  case absent => exact hb.absent

/-! ## Connections come and go -/

theorem erase_conns : (T.erase c).conns = update T.conns c.connId none := by
  unfold erase
  split <;> rfl

/-- Who is in the table after a connection was erased. -/
theorem erase_cases {x : Connection} (h : (T.erase c).conns id = some x) :
    id ≠ c.connId ∧ T.conns id = some x := by
  rw [erase_conns] at h
  by_cases hid : id = c.connId
  · rw [hid, update_self] at h
    cases h
  · exact ⟨hid, by rwa [update_of_ne hid] at h⟩

theorem erase_eq (h : 0 ≤ c.fd) :
    T.erase c = { T with conns := update T.conns c.connId none
                         closed := T.closed ++ [c.fd] } := by
  rw [erase, if_pos h]
  rfl

/-- Closing first and then erasing without the descriptor closes it once. -/
theorem closeFd_erase (h : 0 ≤ c.fd) : (T.closeFd c.fd).erase c.releaseFd.2 = T.erase c := by
  rw [erase_eq h]
  rfl

/-- The descriptor of an erased connection has been closed. -/
theorem Fds.erase (h : (T.setConn c).Fds) (hfd : 0 ≤ c.fd) : (T.erase c).Fds := by
  have hmine := h.held (setConn_self (T := T) (c := c))
  rw [erase_eq hfd]
  have hother : ∀ {j x}, update T.conns c.connId none j = some x →
      (T.setConn c).conns j = some x ∧ x.fd ≠ c.fd := by
    intro j x hj
    obtain ⟨hne, hj⟩ := erase_cases (T := T) (c := c) (by rw [erase_eq hfd]; exact hj)
    have hx := (setConn_of_ne hne).trans hj
    exact ⟨hx, fun heq => hne (h.distinct hx setConn_self heq)⟩
  constructor
  case held =>
    intro j x hj
    obtain ⟨hx, hne⟩ := hother hj
    have hheld := h.held hx
    simp only [List.count_append, List.count_singleton, beq_eq_false_iff_ne.mpr hne.symm]
    exact hheld
  case distinct => exact fun hi hj => h.distinct (hother hi).1 (hother hj).1
  case gone =>
    intro fd hnone
    simp only [List.count_append, List.count_singleton]
    by_cases heq : c.fd = fd
    · subst heq
      rw [beq_self_eq_true, if_pos rfl]
      exact hmine
    · simp only [beq_eq_false_iff_ne.mpr heq]
      refine h.gone fun j x hj => ?_
      rcases setConn_cases hj with ⟨rfl, rfl⟩ | ⟨hne, hj⟩
      · exact heq
      · exact hnone j x ((update_of_ne hne _ _).trans hj)

/-- A connection without operations in flight is erased. -/
theorem Focus.erase (h : T.Focus free due c) (hzero : ¬ 0 < c.pendingOps) :
    (T.erase c).Lifecycle free due := by
  have hb := h.booked
  have hcount := h.counted
  have hfds := Fds.erase hb.fds hcount.fd
  have hkept : ∀ {j x}, (T.erase c).conns j = some x → j ≠ c.connId ∧
      (T.setConn c).conns j = some x := by
    intro j x hj
    obtain ⟨hne, hj⟩ := erase_cases hj
    exact ⟨hne, (setConn_of_ne hne).trans hj⟩
  refine ⟨?_, fun hj => ?_, ?_⟩
  · constructor
    case named =>
      intro j x hj
      have hname := hb.named (hkept hj).2
      rw [erase_eq hcount.fd]
      exact hname
    case counted => exact fun hj => hb.counted (hkept hj).2
    case owns =>
      intro j x k o hj hop
      have ho := hb.owns (hkept hj).2 hop
      rw [erase_eq hcount.fd]
      exact ho
    case owned =>
      intro o k conn ho hk
      rw [erase_eq hcount.fd] at ho ⊢
      obtain ⟨j, x, rfl, hj, hop⟩ := hb.owned ho hk
      rcases setConn_cases hj with ⟨rfl, rfl⟩ | ⟨hne, hj⟩
      · rw [hcount.op_none hzero] at hop
        cases hop
      · exact ⟨j, x, rfl, (update_of_ne hne _ _).trans hj, hop⟩
    case bounded =>
      intro o op ho
      rw [erase_eq hcount.fd] at ho ⊢
      exact hb.bounded ho
    case fds => exact hfds
    case live =>
      rw [erase_eq hcount.fd]
      exact hb.live
    case absent =>
      intro j hj
      refine Option.eq_none_iff_forall_ne_some.mpr fun x hx => ?_
      have hnone := hb.absent hj
      rw [(hkept hx).2] at hnone
      cases hnone
  · obtain ⟨hne, hj⟩ := erase_cases hj
    have hs := h.settled hne hj
    rw [erase_eq hcount.fd]
    exact hs
  · rw [erase_eq hcount.fd]
    exact h.fresh

/-- A descriptor that is open nowhere is accepted for a new connection. -/
theorem Lifecycle.accept (h : T.Lifecycle free due) {fd : Int}
    (hnew : T.opened.count fd = T.closed.count fd) (hfree : ¬ free T.nextConnId)
    (hid : c.connId = T.nextConnId) (hfd : c.fd = fd) (hcount : c.Counted) (hidle : ∀ k, c.op k = none) :
    Focus free due { T with opened := T.opened ++ [fd], nextConnId := T.nextConnId + 1 } c := by
  have hb := h.booked
  subst hfd
  -- nobody holds the descriptor, and nobody has the id
  have hnobody : ∀ {j x}, T.conns j = some x → x.fd ≠ c.fd := fun hj heq => by
    have hheld := hb.fds.held hj
    rw [heq] at hheld
    omega
  have hlt : ∀ {j x}, T.conns j = some x → j ≠ c.connId := fun hj heq => by
    have hname := (hb.named hj).2
    omega
  refine ⟨?_, fun _ hd => h.settled hd, fun hle => h.fresh (Nat.le_of_succ_le hle)⟩
  constructor
  case named =>
    intro j x hj
    rcases setConn_cases hj with ⟨rfl, rfl⟩ | ⟨-, hj⟩
    · exact ⟨rfl, by rw [hid]; exact Nat.lt_succ_self _⟩
    · exact ⟨(hb.named hj).1, Nat.lt_succ_of_lt (hb.named hj).2⟩
  case counted =>
    intro j x hj
    rcases setConn_cases hj with ⟨rfl, rfl⟩ | ⟨-, hj⟩
    · exact hcount
    · exact hb.counted hj
  case owns =>
    intro j x k o hj hop
    rcases setConn_cases hj with ⟨rfl, rfl⟩ | ⟨-, hj⟩
    · rw [hidle] at hop
      cases hop
    · exact hb.owns hj hop
  case owned =>
    intro o k conn ho hk
    obtain ⟨j, x, rfl, hj, hop⟩ := hb.owned ho hk
    exact ⟨j, x, rfl, (setConn_of_ne (hlt hj)).trans hj, hop⟩
  case bounded => exact hb.bounded
  case fds =>
    constructor
    case held =>
      intro j x hj
      simp only [setConn, List.count_append, List.count_singleton]
      rcases setConn_cases hj with ⟨rfl, rfl⟩ | ⟨-, hj⟩
      · rw [beq_self_eq_true, if_pos rfl, hnew]
      · simp only [beq_eq_false_iff_ne.mpr (hnobody hj).symm]
        exact hb.fds.held hj
    case distinct =>
      intro i j x y hi hj hxy
      rcases setConn_cases hi with ⟨rfl, rfl⟩ | ⟨-, hi⟩ <;>
        rcases setConn_cases hj with ⟨rfl, rfl⟩ | ⟨-, hj⟩
      · rfl
      · exact absurd hxy.symm (hnobody hj)
      · exact absurd hxy (hnobody hi)
      · exact hb.fds.distinct hi hj hxy
    case gone =>
      intro fd hnone
      have hne : c.fd ≠ fd := hnone _ c setConn_self
      simp only [setConn, List.count_append, List.count_singleton, beq_eq_false_iff_ne.mpr hne]
      exact hb.fds.gone fun j x hj => hnone j x ((setConn_of_ne (hlt hj)).trans hj)
  case live => exact hb.live
  case absent =>
    intro j hj
    refine (setConn_of_ne fun hjc => hfree ?_).trans (hb.absent hj)
    rwa [hjc, hid] at hj

/-- A descriptor that is accepted and closed at once. -/
theorem Lifecycle.refuse (h : T.Lifecycle free due) (fd : Int) :
    ({ T with opened := T.opened ++ [fd] }.closeFd fd).Lifecycle free due := by
  have hb := h.booked
  have hsame : ∀ x, (T.opened ++ [fd]).count x = T.opened.count x + [fd].count x ∧
      (T.closed ++ [fd]).count x = T.closed.count x + [fd].count x :=
    fun _ => ⟨List.count_append .., List.count_append ..⟩
  refine ⟨⟨hb.named, hb.counted, hb.owns, hb.owned, hb.bounded, ⟨?_, hb.fds.distinct, ?_⟩, hb.live,
    hb.absent⟩, h.settled, h.fresh⟩
  · intro j x hj
    have hheld := hb.fds.held hj
    have ⟨hopened, hclosed⟩ := hsame x.fd
    simp only [closeFd, hopened, hclosed]
    omega
  · intro x hnone
    have hgone := hb.fds.gone hnone
    have ⟨hopened, hclosed⟩ := hsame x
    simp only [closeFd, hopened, hclosed]
    omega

/-! ## What is owed -/

theorem owed_cons (it : OutboxItem) (id : Nat) :
    T.owed (it :: due) id =
      T.owed due id + if it.connId = id ∧ it.kind ≠ .respond then 1 else 0 := by
  simp only [owed, List.countP_cons, decide_eq_true_eq]
  omega

/-- Whoever has a batch at work, or the end of one in the outbox, is owed something. -/
theorem owed_of_batch {b : Batch} (hb : b ∈ T.batches) : 0 < T.owed due b.connId := by
  have hpos : 0 < T.batches.countP (·.connId = b.connId) :=
    List.countP_pos_iff.mpr ⟨b, hb, by simp⟩
  rw [owed]
  omega

theorem owed_of_end (hit : it ∈ due) (hkind : it.kind ≠ .respond) :
    0 < T.owed due it.connId := by
  have hpos : 0 < due.countP fun x => x.connId = it.connId ∧ x.kind ≠ .respond :=
    List.countP_pos_iff.mpr ⟨it, hit, by simp [hkind]⟩
  rw [owed]
  omega

/-- An item is taken from the outbox for its connection. -/
theorem Lifecycle.consume (h : T.Lifecycle free (it :: due)) (hc : T.conns it.connId = some c) :
    T.Focus free due c := by
  have hid := (h.booked.named hc).1
  have hfocus := h.focus hc
  refine ⟨hfocus.booked, fun {id d} hne hd => ?_, fun hle => ?_⟩
  · have hs := hfocus.settled hne hd
    rwa [owed_cons, if_neg fun hit => hne (hit.1.symm.trans hid.symm)] at hs
  · have hfresh := h.fresh hle
    rw [owed_cons] at hfresh
    omega

/-- An item is dropped when it tells its connection nothing, or the connection
no longer listens. -/
theorem Lifecycle.discard (h : T.Lifecycle free (it :: due))
    (hok : ∀ c, T.conns it.connId = some c → c.state = .closing ∨ it.kind = .respond) :
    T.Lifecycle free due := by
  refine ⟨h.booked, fun {id c} hc => ?_, fun hle => ?_⟩
  · have hs := h.settled hc
    by_cases hit : it.connId = id ∧ it.kind ≠ .respond
    · obtain ⟨rfl, hkind⟩ := hit
      have hstate := (hok c hc).resolve_right hkind
      refine ⟨fun ha => ?_, fun hp => ?_, hs.closing⟩
      · exact absurd (hstate.symm.trans ha) (by decide)
      · exact absurd (hstate.symm.trans hp) (by decide)
    · rwa [owed_cons, if_neg hit] at hs
  · have hfresh := h.fresh hle
    rw [owed_cons] at hfresh
    omega

/-- A batch is posted for a connection that has just been handed over. -/
theorem Focus.post (h : T.Focus free due c) {b : Batch} (hb : b.connId = c.connId)
    (hstate : c.state = .parsing) (hnone : c.recvOp = none) (howed : T.owed due c.connId = 0) :
    Lifecycle free due { T.setConn c with batches := T.batches ++ [b] } := by
  have hcount : ∀ id, owed { T.setConn c with batches := T.batches ++ [b] } due id =
      T.owed due id + if c.connId = id then 1 else 0 := fun id => by
    simp only [owed, List.countP_append, List.countP_singleton, hb, decide_eq_true_eq]
    omega
  have hk := h.booked
  refine ⟨⟨hk.named, hk.counted, hk.owns, hk.owned, hk.bounded, ⟨hk.fds.held, hk.fds.distinct,
    hk.fds.gone⟩, hk.live, hk.absent⟩, fun {id d} hd => ?_, fun {id} hle => ?_⟩
  · rw [hcount]
    rcases setConn_cases hd with ⟨rfl, rfl⟩ | ⟨hne, hd⟩
    · rw [howed, if_pos rfl]
      refine ⟨fun ha => ?_, fun _ => ⟨hnone, rfl⟩, fun hc => ?_⟩
      · exact absurd (hstate.symm.trans ha) (by decide)
      · exact absurd (hstate.symm.trans hc) (by decide)
    · rw [if_neg hne.symm]
      exact h.settled hne hd
  · have hlt : c.connId < T.nextConnId := (hk.named setConn_self).2
    change T.nextConnId ≤ id at hle
    rw [hcount, h.fresh hle, if_neg (by omega)]

/-- Whoever has a `recv` in flight and is not closing waits for bytes, and is owed
nothing. -/
theorem Lifecycle.of_recv (h : T.Lifecycle free due) (ho : T.ops o = some ⟨.recv, some id⟩)
    (hc : T.conns id = some c) (hopen : c.state ≠ .closing) :
    c.state = .active ∧ T.owed due id = 0 := by
  obtain ⟨id', c', hid, hc', hrecv⟩ := h.booked.owned ho (.inl rfl)
  cases hid
  cases hc.symm.trans hc'
  have hs := h.settled hc
  cases hstate : c.state with
  | active => exact ⟨rfl, (hs.active hstate).2⟩
  | parsing => cases hrecv.symm.trans (hs.parsing hstate).1
  | closing => exact absurd hstate hopen

/-- What is owed may be written differently. -/
theorem Lifecycle.of_owed {due' : List OutboxItem} {batches : List Batch} (h : T.Lifecycle free due)
    (howed : ∀ id, owed { T with batches := batches } due' id = T.owed due id) :
    Lifecycle free due' { T with batches := batches } := by
  have hk := h.booked
  refine ⟨⟨hk.named, hk.counted, hk.owns, hk.owned, hk.bounded, ⟨hk.fds.held, hk.fds.distinct,
    hk.fds.gone⟩, hk.live, hk.absent⟩, fun hc => ?_, fun hle => ?_⟩
  · rw [howed]
    exact h.settled hc
  · rw [howed]
    exact h.fresh hle

end Table

end SharedBike.Gateway
