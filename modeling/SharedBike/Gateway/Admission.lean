import SharedBike.Gateway.Each
import Mathlib.Data.Fintype.EquivFin

/-!
# New connections while the gateway drains

The gateway drains for one of two reasons: it was asked to stop, or `get_sqe` found
no entry in the submission queue. The main loop's reaction to a stop also clears
`accepting_`, and `complete_accept` then closes what it is given; `get_sqe` clears
nothing, and a stop that comes later finds `draining_` set and is not reacted to. So an
accept that is in flight when the queue runs full still makes a connection, which is
received from and whose requests go to the workers (`drain_connects`).

`OnlyShrinks` says of a state that from it on no connection is added and nothing is
posted for a connection that was not already received from or parsed. A state has that
exactly if the engine does not accept or has no accept in flight (`onlyShrinks_iff`).
-/

namespace SharedBike.Gateway

open SharedBike.Lib SharedBike.Wire

namespace MainLoop

variable {opt : GatewayOptions} {g g₀ g' : MainLoop}

/-- A connection from which bytes are awaited, or whose bytes are with a worker. -/
def Served (g : MainLoop) (id : Nat) : Prop :=
  ∃ c, g.engine.conns id = some c ∧
    (c.state = .active ∧ c.recvOp.isSome ∨ c.state = .parsing)

/-- From here on no connection is added, and no batch is posted but for connections
that are served now. -/
def OnlyShrinks (opt : GatewayOptions) (g : MainLoop) : Prop :=
  ∀ {events g₁}, (machine opt).play g events = some g₁ →
    (∀ id, g.engine.conns id = none → g₁.engine.conns id = none) ∧
    ∀ {ev g₂ id raw}, g₁.next opt ev = some g₂ →
      g₂.engine.batches = g₁.engine.batches ++ [Batch.start id raw] → g.Served id

/-! ## Without an accept -/

/-- Whoever is not closing is served. -/
theorem served_of_open (hinv : g.Inv fun _ => False) (hstage : g.stage ≠ .exited) {id : Nat}
    {c : Connection} (hc : g.engine.conns id = some c) (hopen : c.state ≠ .closing) :
    g.Served id := by
  refine ⟨c, hc, ?_⟩
  cases hstate : c.state with
  | active => exact .inl ⟨rfl, (((hinv.lifecycle hstage).settled hc).active hstate).1⟩
  | parsing => exact .inr rfl
  | closing => exact absurd hstate hopen

/-- The end of `run` adds no connection. -/
theorem conns_of_exited {ev : Event} (hnext : g.next opt ev = some g') (hexit : g'.stage = .exited)
    {id : Nat} (hid : g.engine.conns id = none) : g'.engine.conns id = none := by
  unfold next at hnext
  have hturn : ∀ {ok : Bool} {e : Engine} {stage : Stage},
      turn { g with engine := { g.engine with answers := ev.answers, now := ev.now } } ok e stage =
        some g' → stage = .exited ∧ g'.engine = e := by
    intro ok e stage hturn
    obtain ⟨-, rfl⟩ := turn_eq hturn
    exact ⟨hexit, rfl⟩
  cases haction : ev.action with
  | cqe o q =>
    rw [haction] at hnext
    obtain ⟨op, -, hstage, -, rfl⟩ := cqe_eq hnext
    exact absurd hexit hstage
  | work i r =>
    rw [haction] at hnext
    obtain ⟨b, -, rfl⟩ := work_eq hnext
    exact hid
  | requestStop =>
    rw [haction] at hnext
    cases hnext
    exact hid
  | exit =>
    rw [haction] at hnext
    rw [(hturn hnext).2]
    exact hid
  | forceClose order =>
    rw [haction] at hnext
    rw [(hturn hnext).2]
    rfl
  | _ =>
    rw [haction] at hnext
    cases (hturn hnext).1

/-- What holds from `g₀` on if no accept can complete. -/
structure Shrinking (g₀ g : MainLoop) : Prop where
  inv : g.Inv fun id => g₀.engine.conns id = none
  conns : ∀ id, g₀.engine.conns id = none → g.engine.conns id = none
  served : g.EachInv (fun _ _ => True) fun c => c.state ≠ .closing → g₀.Served c.connId
  bounded : g.engine.toTable.Bounded
  off : g.engine.accepting = false ∨ g.engine.Unarmed

/-- Being served survives what handlers do; only a new connection is not served. -/
theorem served_upheld (opt : GatewayOptions) (g₀ : MainLoop) :
    Upheld opt (fun _ => False) (fun _ _ => True) fun c => c.state ≠ .closing → g₀.Served c.connId where
  closing h hopen := absurd h hopen
  made _ _ _ hfresh := hfresh.elim
  posted h _ _ hopen := h hopen
  rearmed h hparsing _ _ _ _ := h (by rw [hparsing]; nofun)
  pushed h hopen _ _ := h hopen
  sending h _ _ hopen := h hopen
  received h hopen _ _ _ := h hopen
  sent h hopen _ _ _ _ := h hopen

theorem Shrinking.not_accepts (h : g₀.Shrinking g) (action : Action) : g.accepts action = false := by
  cases action with
  | cqe o q =>
    change (g.engine.accepting &&
      (g.engine.ops o).any fun op => op.kind = .accept && 0 ≤ q.res) = false
    rcases h.off with hoff | hunarmed
    · rw [hoff, Bool.false_and]
    · cases ho : g.engine.ops o with
      | none => exact Bool.and_false _
      | some op =>
        have hkind : op.kind ≠ .accept := fun hkind => hunarmed o ⟨op, ho, hkind⟩
        simp [hkind]
  | _ => rfl

theorem Shrinking.next (h : g₀.Shrinking g) {ev : Event} (hnext : g.next opt ev = some g') :
    g₀.Shrinking g' := by
  have hno := h.not_accepts ev.action
  have hinv := h.inv.next (by rw [hno]; nofun) hnext
  obtain ⟨k, hkeeps⟩ := next_keeps hnext
  refine ⟨hinv, fun id hid => ?_, ?_, (hkeeps.books h.bounded).1, ?_⟩
  · by_cases hexit : g'.stage = .exited
    · exact conns_of_exited hnext hexit (h.conns id hid)
    · exact (hinv.lifecycle hexit).booked.absent hid
  · exact h.served.next (served_upheld opt g₀) (fun _ _ _ => trivial) h.inv (by rw [hno]; nofun) hnext
  · rcases h.off with hoff | hunarmed
    · refine .inl (Bool.eq_false_iff.mpr fun hon => ?_)
      cases hoff.symm.trans (hkeeps.accepting hon)
    · exact .inr (next_unarmed h.bounded hunarmed hnext).2

theorem Shrinking.play (h : g₀.Shrinking g) {events : List Event}
    (hplay : (machine opt).play g events = some g') : g₀.Shrinking g' := by
  induction events generalizing g with
  | nil =>
    cases hplay
    exact h
  | cons ev rest ih =>
    obtain ⟨g₁, hg₁, hrest⟩ := Option.bind_eq_some_iff.mp hplay
    exact ih (h.next hg₁) hrest

/-- A step that posts a batch is the end of a `recv` on a connection that is not closing. -/
theorem next_posts {free : Nat → Prop} (hinv : g.Inv free) {ev : Event} {id : Nat} {raw : Bytes}
    (hnext : g.next opt ev = some g')
    (hposts : g'.engine.batches = g.engine.batches ++ [Batch.start id raw]) :
    ∃ c, g.engine.conns id = some c ∧ c.connId = id ∧ c.state ≠ .closing := by
  unfold next at hnext
  have hsame : g'.engine.batches ≠ g.engine.batches := by
    rw [hposts]
    exact fun h => by simpa using congrArg List.length h
  cases haction : ev.action with
  | cqe o q =>
    rw [haction] at hnext
    obtain ⟨op, ho, hstage, -, rfl⟩ := cqe_eq hnext
    have hlife := hinv.lifecycle hstage
    have hbatches := Engine.onCqe_batches opt
      (e := { g.engine with answers := ev.answers, now := ev.now }) hlife ho q g.outbox
    rcases hbatches with hkept | ⟨id', c, raw', -, hc, hopen, -, hposted⟩
    · exact absurd hkept hsame
    · have hlast := List.append_cancel_left (hposts.symm.trans hposted)
      cases (congrArg Batch.connId (List.cons.inj hlast).1 : id = id')
      exact ⟨c, hc, (hlife.booked.named hc).1, hopen⟩
  | work i r =>
    -- a worker replaces one batch by one at most
    rw [haction] at hnext
    obtain ⟨b, hb, rfl⟩ := work_eq hnext
    have hi := (List.getElem?_eq_some_iff.mp hb).1
    have hlen := congrArg List.length hposts
    have hone : ((b.step r).2.toList).length ≤ 1 := by cases (b.step r).2 <;> simp
    simp only [List.length_append, List.length_take, List.length_drop, List.length_singleton] at hlen hi
    omega
  | _ =>
    rw [haction] at hnext
    exact absurd (turn_keeps (k := .stop) nofun (by nofun) (by nofun) hnext).1.batches hsame

theorem Shrinking.start (hinv : g.Inv fun _ => False) (hstage : g.stage ≠ .exited)
    (hoff : g.engine.accepting = false ∨ g.engine.Unarmed) : g.Shrinking g := by
  have hlife := hinv.lifecycle hstage
  have hb := hlife.booked
  refine ⟨.of_lifecycle ⟨⟨hb.named, hb.counted, hb.owns, hb.owned, hb.bounded, hb.fds, hb.live, id⟩,
    hlife.settled, hlife.fresh⟩, fun _ => id, ⟨fun id c hc hopen => ?_, fun _ _ _ => trivial,
    fun _ _ _ => trivial⟩, fun _ _ => hb.bounded, hoff⟩
  rw [(hb.named hc).1]
  exact served_of_open hinv hstage hc hopen

theorem Shrinking.onlyShrinks (h : g.Shrinking g) : g.OnlyShrinks opt := by
  intro events g₁ hplay
  have h₁ := h.play hplay
  refine ⟨h₁.conns, fun hnext hposts => ?_⟩
  obtain ⟨c, hc, hid, hopen⟩ := next_posts h₁.inv hnext hposts
  rw [← hid]
  exact h₁.served.conns _ c hc hopen

/-! ## With an accept -/

/-- There is always a descriptor that is not open. -/
theorem exists_fd (e : Engine) : ∃ fd : Int, 0 ≤ fd ∧ e.opened.count fd = e.closed.count fd := by
  obtain ⟨n, hn⟩ := Infinite.exists_notMem_finset ((e.opened ++ e.closed).map Int.toNat).toFinset
  have hfd : (n : Int) ∉ e.opened ++ e.closed := fun hmem =>
    hn (List.mem_toFinset.mpr (List.mem_map.mpr ⟨n, hmem, Int.toNat_natCast n⟩))
  rw [List.mem_append, not_or] at hfd
  exact ⟨n, Int.natCast_nonneg n, by
    rw [List.count_eq_zero.mpr hfd.1, List.count_eq_zero.mpr hfd.2]⟩

/-- An accept that completes on an engine that accepts makes a connection, if the
submission queue has room for its `recv`. -/
theorem completeAccept_connects (opt : GatewayOptions) {e : Engine} {fd : Int}
    (hon : e.accepting = true) (hroom : e.answers = []) (hfd : 0 ≤ fd) :
    (Engine.completeAccept opt fd e).conns e.nextConnId ≠ none := by
  unfold Engine.completeAccept
  rw [if_neg (by simp [hon]), if_neg (Int.not_lt.mpr hfd)]
  simp only [Engine.makeConn, Engine.submitRecv, Engine.submitOp, Engine.getSqe, Engine.setConn, hroom]
  rw [Engine.submitAccept, Engine.submitOp_conns]
  exact fun h => by cases (Function.update_self ..).symm.trans h

theorem exists_next_connects (hon : g.engine.accepting = true) (hstage : g.stage ≠ .exited) {o : Nat}
    (ho : g.engine.InFlight .accept o) :
    ∃ ev g', g.next opt ev = some g' ∧ g'.engine.conns g.engine.nextConnId ≠ none := by
  obtain ⟨⟨kind, conn⟩, hop, hkind⟩ := ho
  cases hkind
  obtain ⟨fd, hfd, hcount⟩ := exists_fd g.engine
  have hpromised : g.engine.promised ⟨.accept, conn⟩ ⟨fd, [], false, []⟩ = true := by
    simp [Engine.promised, hcount]
  refine ⟨⟨.cqe o ⟨fd, [], false, []⟩, [], 0⟩, { g with
    engine := Engine.onCqe opt o ⟨.accept, conn⟩ ⟨fd, [], false, []⟩ g.outbox
      { g.engine with answers := [], now := 0 } }, ?_, ?_⟩
  · simp only [next, step, cqe, hop]
    exact if_pos ⟨hstage, hpromised⟩
  · exact completeAccept_connects (e := { g.engine with
      toTable := g.engine.toTable.dropOp o, answers := [], now := 0 }) opt hon rfl hfd

end MainLoop

/-- **Which drains only shrink.** In any state of a run that is not over, whether it
drains or not: from there on no connection is added and no batch is posted for a
connection that was not served, exactly if the engine does not accept or has no accept
in flight. The drain that a stop begins is such a state. -/
theorem onlyShrinks_iff {opt : GatewayOptions} {g : MainLoop}
    (h : (MainLoop.machine opt).Reachable g) (hstage : g.stage ≠ .exited) :
    (g.OnlyShrinks opt ↔ g.engine.accepting = false ∨ g.engine.Unarmed) ∧
      ∀ {answers now g'}, g.engine.stopping = true → g.engine.draining = false →
        g.next opt ⟨.checkStop, answers, now⟩ = some g' →
          g'.engine.draining = true ∧ g'.OnlyShrinks opt := by
  have hinv := MainLoop.Inv.of_reachable h
  refine ⟨⟨fun hshrinks => ?_, fun hoff => (MainLoop.Shrinking.start hinv hstage hoff).onlyShrinks⟩,
    fun {answers now g'} hstopping hdraining hnext => ?_⟩
  · by_contra hnot
    rw [not_or, Bool.not_eq_false] at hnot
    obtain ⟨hon, harmed⟩ := hnot
    obtain ⟨o, ho⟩ := not_forall_not.mp harmed
    obtain ⟨ev, g', hnext, hconn⟩ := @MainLoop.exists_next_connects opt _ hon hstage o ho
    have hplay : (MainLoop.machine opt).play g [ev] = some g' :=
      (congrArg (Option.bind · _) hnext).trans rfl
    refine hconn ((hshrinks hplay).1 _ ?_)
    by_contra hsome
    obtain ⟨c, hc⟩ := Option.ne_none_iff_exists'.mp hsome
    exact Nat.lt_irrefl _ ((hinv.lifecycle hstage).booked.named hc).2
  · have hreach' : (MainLoop.machine opt).Reachable g' :=
      .step (e := ⟨.checkStop, answers, now⟩) h trivial hnext
    have hchecked : g'.stage = .running ∧ g'.engine.draining = true ∧ g'.engine.accepting = false := by
      obtain ⟨-, rfl⟩ := MainLoop.turn_eq hnext
      simp [Engine.checkStop, hstopping, hdraining]
    obtain ⟨hrunning, hdrains, hoff⟩ := hchecked
    exact ⟨hdrains, (MainLoop.Shrinking.start (.of_reachable hreach') (by rw [hrunning]; nofun)
      (.inl hoff)).onlyShrinks⟩

/-- Two clients connect; when the first is handed back, the queue is full. -/
def exhausted : List MainLoop.Event :=
  [⟨.cqe 0 ⟨7, [], false, []⟩, [], 1⟩, ⟨.cqe 4 ⟨8, [], false, []⟩, [], 1⟩,
    ⟨.cqe 3 ⟨2, [0x46, 0x42], false, []⟩, [], 2⟩, ⟨.work 0 .threw, [], 3⟩,
    ⟨.cqe 1 ⟨8, [], false, []⟩, [true, false], 4⟩]

/-- A third connects after that, and sends. -/
theorem drain_connects :
    ((MainLoop.machine ⟨8, 1000, 0, false⟩).play (MainLoop.start ⟨8, 1000, 0, false⟩ [])
        (exhausted.take 4)).map (fun g => (g.engine.draining, g.engine.ids)) =
      some (false, [1, 2]) ∧
    ((MainLoop.machine ⟨8, 1000, 0, false⟩).play (MainLoop.start ⟨8, 1000, 0, false⟩ [])
        exhausted).map (fun g => (g.engine.draining, g.engine.ids)) = some (true, [2]) ∧
    ((MainLoop.machine ⟨8, 1000, 0, false⟩).play (MainLoop.start ⟨8, 1000, 0, false⟩ [])
        (exhausted ++ [⟨.cqe 6 ⟨9, [], false, []⟩, [], 5⟩])).map
        (fun g => (g.engine.draining, g.engine.ids)) = some (true, [2, 3]) ∧
    ((MainLoop.machine ⟨8, 1000, 0, false⟩).play (MainLoop.start ⟨8, 1000, 0, false⟩ [])
        (exhausted ++ [⟨.cqe 6 ⟨9, [], false, []⟩, [], 5⟩,
          ⟨.cqe 8 ⟨2, [0x46, 0x42], false, []⟩, [], 6⟩])).map
        (fun g => g.engine.batches.map (·.connId)) = some [3] := by
  decide +kernel

/-- A stop is asked for before the third client. -/
theorem onlyShrinks_stopped : ∃ g, (MainLoop.machine ⟨8, 1000, 0, false⟩).Reachable g ∧
    g.engine.ids = [1, 2] ∧ g.engine.draining = true ∧ g.OnlyShrinks ⟨8, 1000, 0, false⟩ := by
  obtain ⟨g, hreach, hstage, hids, hdraining, hoff⟩ :
      ∃ g, (MainLoop.machine ⟨8, 1000, 0, false⟩).Reachable g ∧ g.stage = .running ∧
        g.engine.ids = [1, 2] ∧ g.engine.draining = true ∧ g.engine.accepting = false :=
    Machine.exists_of_play (MainLoop.start _ []) ⟨[], rfl⟩
      (exhausted.take 2 ++ [⟨.requestStop, [], 2⟩, ⟨.checkStop, [], 2⟩]) (by decide +kernel)
  exact ⟨g, hreach, hids, hdraining,
    (onlyShrinks_iff hreach (by rw [hstage]; nofun)).1.mpr (.inl hoff)⟩

end SharedBike.Gateway
