import SharedBike.Gateway.Receiving
import SharedBike.Wire.Codec

/-!
# The stream of a connection in the gateway

`Stream` is the receive loop of one connection on its own. Here it is found in the
runs of the whole gateway, where the completions and the workers of all connections
come in any order. A record is kept beside the main loop, which no branch reads: the
bytes that `complete_recv` took in for each connection, and the requests that the
sink was handed, with what it said.

`Tracks` says where each connection stands: what was handed over for it, what a worker
has still to hand over and what waits for more bytes are together what cutting its bytes
gives. So every valid frame that has come in is handed to the sink or is with a worker,
and no check for too much data stands in its way (`recv_fits`); and what a connection
that waits for bytes has come to is what its stream has (`seen_as_stream`).
-/

namespace SharedBike.Gateway

open SharedBike.Lib SharedBike.Wire

/-! ## The record -/

namespace MainLoop

/-- The bytes that `complete_recv` takes in. -/
def takesIn (g : MainLoop) : Action → List (Nat × Bytes)
  | .cqe o q =>
    match g.engine.ops o with
    | some ⟨.recv, some id⟩ =>
      if 0 < q.res ∧ (g.engine.conns id).any (·.state ≠ .closing) then [(id, q.data)] else []
    | _ => []
  | _ => []

/-- Bytes are taken in by a `recv` that brought some for an open connection, and by
nothing else. -/
theorem takesIn_cases {g : MainLoop} {o : Nat} {op : UringOp} (ho : g.engine.ops o = some op)
    (q : Engine.Completion) :
    (∃ id c, op = ⟨.recv, some id⟩ ∧ g.engine.conns id = some c ∧ c.state ≠ .closing ∧ 0 < q.res ∧
        g.takesIn (.cqe o q) = [(id, q.data)]) ∨
      g.takesIn (.cqe o q) = [] ∧ ∀ id c, op = ⟨.recv, some id⟩ → g.engine.conns id = some c →
        c.state ≠ .closing → ¬ 0 < q.res := by
  simp only [takesIn, ho]
  split
  next id heq =>
    cases heq
    split
    next hin =>
      obtain ⟨hres, hopen⟩ := hin
      cases hc : g.engine.conns id with
      | none => simp [hc] at hopen
      | some c => exact .inl ⟨id, c, rfl, hc, by simpa [hc] using hopen, hres, rfl⟩
    next hout =>
      refine .inr ⟨rfl, ?_⟩
      rintro id' c ⟨⟩ hc hopen hres
      exact hout ⟨hres, by simp [hc, hopen]⟩
  next hother =>
    refine .inr ⟨rfl, ?_⟩
    rintro id c rfl
    exact absurd rfl (hother id)

/-- The request that a worker hands to the sink, with what the sink says. -/
def asks (g : MainLoop) : Action → List (Request × SinkResult)
  | .work i r =>
    match g.engine.batches[i]? with
    | some b => (b.frames.head?.map fun f => (request b.connId f, r)).toList
    | none => []
  | _ => []

end MainLoop

/-- The requests of one connection, with what the sink said. -/
def askedFor (id : Nat) (asked : List (Request × SinkResult)) : List (Request × SinkResult) :=
  asked.filter (·.1.connId = id)

@[simp] theorem askedFor_append (id : Nat) (l₁ l₂ : List (Request × SinkResult)) :
    askedFor id (l₁ ++ l₂) = askedFor id l₁ ++ askedFor id l₂ := List.filter_append ..

structure Recorded where
  loop : MainLoop
  received : List (Nat × Bytes)
  asked : List (Request × SinkResult)

namespace Recorded

def next (opt : GatewayOptions) (s : Recorded) (ev : MainLoop.Event) : Option Recorded :=
  (s.loop.next opt ev).map fun g =>
    ⟨g, s.received ++ s.loop.takesIn ev.action, s.asked ++ s.loop.asks ev.action⟩

def start (opt : GatewayOptions) (answers : List Bool) : Recorded := ⟨.start opt answers, [], []⟩

/-- The runs of a gateway, with the record. -/
def machine (opt : GatewayOptions) : Machine Recorded MainLoop.Event where
  init s := ∃ answers, s = start opt answers
  next := next opt

/-- What a connection has taken in, completion by completion. -/
def chunks (s : Recorded) (id : Nat) : List Bytes := forConn id s.received

/-- The requests of a connection that the sink was handed. -/
def handed (s : Recorded) (id : Nat) : List Request := (askedFor id s.asked).map Prod.fst

/-- The sink has taken what it was handed for a connection. -/
def Taken (s : Recorded) (id : Nat) : Prop := ∀ x ∈ askedFor id s.asked, x.2.Accepts

/-- The requests of a connection that a worker has cut off and not handed over yet. -/
def waiting (s : Recorded) (id : Nat) : List Request :=
  (s.loop.engine.batches.filter (·.connId = id)).flatMap fun b => b.frames.map (request id)

/-- The record takes nothing from the runs. -/
theorem loop_reachable {opt : GatewayOptions} {s : Recorded} (h : (machine opt).Reachable s) :
    (MainLoop.machine opt).Reachable s.loop := by
  apply Machine.reachable_map _ _ h
  · rintro s ⟨answers, rfl⟩
    exact .start ⟨answers, rfl⟩
  · intro s ev s' _ _ hnext
    obtain ⟨g, hg, rfl⟩ := Option.map_eq_some_iff.mp hnext
    exact .inr ⟨ev, hg⟩

end Recorded

/-! ## Where a connection stands -/

namespace Recorded

variable {opt : GatewayOptions} {s s' : Recorded} {id : Nat} {left : List Frame} {bad : Bool}
  {leftover : Bytes} {c : Connection}

/-- The sink has taken what it was handed for a connection. With the frames that are left to
hand over it is what cutting the bytes of the connection gives, and so are the leftover and
whether the bytes are bad. -/
structure Reads (opt : GatewayOptions) (s : Recorded) (id : Nat) (left : List Frame) (bad : Bool)
    (leftover : Bytes) : Prop where
  sizes : ∀ data ∈ s.chunks id, 0 < data.length ∧ data.length ≤ opt.rxBufBytes
  taken : s.Taken id
  cut : ∃ frames, cutFrames (s.chunks id).flatten = ⟨frames, bad, leftover⟩ ∧
    s.handed id ++ left.map (request id) = frames.map (request id)

/-- The record of one connection is left as it is. -/
structure SameFor (id : Nat) (s s' : Recorded) : Prop where
  chunks : s'.chunks id = s.chunks id
  asked : askedFor id s'.asked = askedFor id s.asked

theorem Reads.congr (h : s.Reads opt id left bad leftover) (hsame : SameFor id s s') :
    s'.Reads opt id left bad leftover := by
  obtain ⟨hsizes, htaken, hcut⟩ := h
  rw [← hsame.chunks] at hsizes hcut
  rw [Taken, ← hsame.asked] at htaken
  rw [handed, ← hsame.asked] at hcut
  exact ⟨hsizes, htaken, hcut⟩

/-- A connection that waits for bytes holds what was left over. -/
structure Tracked (opt : GatewayOptions) (s : Recorded) (c : Connection) : Prop where
  receives : c.Receives opt
  active : c.state = .active → s.Reads opt c.connId [] false c.rx.data

theorem Tracked.congr (h : s.Tracked opt c) (hsame : SameFor c.connId s s') :
    s'.Tracked opt c :=
  ⟨h.receives, fun hactive => (h.active hactive).congr hsame⟩

/-- With the record as it is, no handler takes a connection away from this. -/
theorem tracked_upheld (opt : GatewayOptions) (s : Recorded) :
    Upheld opt (fun id => s.chunks id = [] ∧ askedFor id s.asked = [])
      (fun id bytes => HalfFrame bytes ∧ s.Reads opt id [] false bytes) (s.Tracked opt) where
  closing h := by
    refine ⟨(receives_upheld opt).closing h, fun hactive => ?_⟩
    cases h.symm.trans hactive
  made fd id now hfresh := by
    refine ⟨(receives_upheld opt).made fd id now trivial, fun _ => ?_⟩
    change s.Reads opt id [] false []
    refine ⟨?_, ?_, [], ?_⟩
    · rw [hfresh.1]
      exact nofun
    · rw [Taken, hfresh.2]
      exact nofun
    · rw [hfresh.1, handed, hfresh.2]
      exact ⟨rfl, rfl⟩
  posted {c} h op n := by
    refine ⟨(receives_upheld opt).posted h.receives op n, fun hactive => ?_⟩
    obtain ⟨hok, -, hroom⟩ := h.receives.active hactive
    have hsame := Rx.prepare_of_writable hok hroom
    simp only [hsame]
    exact h.active hactive
  rearmed {c bytes} h hparsing hback op n := by
    refine ⟨(receives_upheld opt).rearmed h.receives hparsing hback.1 op n, fun _ => ?_⟩
    simp only [h.receives.parsing hparsing, (Stream.rearm bytes).2.1]
    exact hback.2
  pushed h hopen hfits := ⟨(receives_upheld opt).pushed h.receives hopen hfits, h.active⟩
  sending h op n := ⟨(receives_upheld opt).sending h.receives op n, h.active⟩
  received h hopen n now :=
    ⟨(receives_upheld opt).received h.receives hopen n now, fun hactive => nomatch hactive⟩
  sent h hopen res n now := ⟨(receives_upheld opt).sent h.receives hopen res n now, h.active⟩

/-- A batch at work has the frames that are left. -/
def Working (opt : GatewayOptions) (s : Recorded) (b : Batch) : Prop :=
  s.Reads opt b.connId b.frames b.bad b.leftover

/-- The end of a batch: all frames were handed over, or the sink has refused one. -/
structure Ending (opt : GatewayOptions) (s : Recorded) (it : OutboxItem) : Prop where
  rearm : it.kind = .rearmRecv → s.Reads opt it.connId [] false it.bytes
  close : it.kind = .close → s.Taken it.connId → ∃ rest, s.Reads opt it.connId [] true rest

theorem Ending.congr {it : OutboxItem} (h : s.Ending opt it) (hsame : SameFor it.connId s s') :
    s'.Ending opt it := by
  refine ⟨fun hkind => (h.rearm hkind).congr hsame, fun hkind htaken => ?_⟩
  rw [Taken, hsame.asked] at htaken
  obtain ⟨rest, hreads⟩ := h.close hkind htaken
  exact ⟨rest, hreads.congr hsame⟩

/-- The invariant. -/
structure Tracks (opt : GatewayOptions) (s : Recorded) : Prop where
  fresh : ∀ {id}, s.loop.engine.nextConnId ≤ id → s.chunks id = [] ∧ askedFor id s.asked = []
  conns : s.loop.engine.Each (s.Tracked opt)
  batches : ∀ b ∈ s.loop.engine.batches, s.Working opt b
  ends : ∀ it ∈ s.loop.outbox, it.kind ≠ .respond → s.Ending opt it

/-! ## One step -/

/-- A step goes on with the connections that are busy, which wait for no bytes behind it,
and leaves the record of the others alone. -/
theorem Tracks.frame (h : s.Tracks opt) (busy : Nat → Prop)
    (hsame : ∀ {id}, ¬ busy id → SameFor id s s')
    (hfresh : ∀ {id}, s'.loop.engine.nextConnId ≤ id → s.loop.engine.nextConnId ≤ id ∧ ¬ busy id)
    (hconns : s'.loop.engine.Each fun c => s.Tracked opt c ∧ (busy c.connId → c.state ≠ .active))
    (hbatches : ∀ b ∈ s'.loop.engine.batches,
      b ∈ s.loop.engine.batches ∧ ¬ busy b.connId ∨ s'.Working opt b)
    (hends : ∀ it ∈ s'.loop.outbox, it.kind ≠ .respond →
      it ∈ s.loop.outbox ∧ ¬ busy it.connId ∨ s'.Ending opt it) : s'.Tracks opt := by
  refine ⟨fun {id} hid => ?_, fun id c hc => ?_, fun b hb => ?_, fun it hit hkind => ?_⟩
  · obtain ⟨hold, hidle⟩ := hfresh hid
    rw [(hsame hidle).asked, (hsame hidle).chunks]
    exact h.fresh hold
  · obtain ⟨htracked, hstate⟩ := hconns id c hc
    by_cases hbusy : busy c.connId
    · exact ⟨htracked.receives, fun hactive => absurd hactive (hstate hbusy)⟩
    · exact htracked.congr (hsame hbusy)
  · rcases hbatches b hb with ⟨hold, hidle⟩ | hnew
    · exact Reads.congr (h.batches b hold) (hsame hidle)
    · exact hnew
  · rcases hends it hit hkind with ⟨hold, hidle⟩ | hnew
    · exact (h.ends it hold hkind).congr (hsame hidle)
    · exact hnew

/-- A worker goes on with its batch. -/
theorem Working.work {b : Batch} {i : Nat} {r : SinkResult}
    (hb : s.loop.engine.batches[i]? = some b) (h : s.Working opt b)
    (hchunks : s'.chunks b.connId = s.chunks b.connId)
    (hasked : s'.asked = s.asked ++ s.loop.asks (.work i r)) :
    (∀ b', (b.step r).2 = some b' → s'.Working opt b') ∧
      ∀ it ∈ (b.step r).1, it.kind ≠ .respond → s'.Ending opt it := by
  cases hframes : b.frames with
  | nil =>
    -- the end of the batch is all that is left of it
    have hsame : SameFor b.connId s s' := by
      refine ⟨hchunks, ?_⟩
      simp [hasked, MainLoop.asks, hb, hframes]
    have hreads := h.congr hsame
    simp only [Batch.step, hframes, Batch.last] at hreads ⊢
    refine ⟨nofun, List.forall_mem_singleton.mpr fun _ => ?_⟩
    split
    next hbad =>
      rw [hbad] at hreads
      exact ⟨nofun, fun _ _ => ⟨b.leftover, hreads⟩⟩
    next hgood =>
      rw [Bool.not_eq_true] at hgood
      rw [hgood] at hreads
      exact ⟨fun _ => hreads, nofun⟩
  | cons f rest =>
    have hrecord : askedFor b.connId s'.asked =
        askedFor b.connId s.asked ++ [(request b.connId f, r)] := by
      rw [hasked, askedFor_append]
      simp [MainLoop.asks, hb, hframes, askedFor, request]
    have hgoes : r.Accepts → s'.Working opt { b with frames := rest } := by
      intro haccepts
      obtain ⟨hsizes, htaken, frames, hcut, hhanded⟩ := h
      change s'.Reads opt b.connId rest b.bad b.leftover
      refine ⟨by rw [hchunks]; exact hsizes, ?_, frames, by rw [hchunks]; exact hcut, ?_⟩
      · rw [Taken, hrecord]
        exact List.forall_mem_append.mpr ⟨htaken, List.forall_mem_singleton.mpr haccepts⟩
      · rw [← hhanded, hframes, handed, hrecord, handed, List.map_append, List.append_assoc]
        rfl
    have hends : ¬ r.Accepts → s'.Ending opt ⟨.close, b.connId, []⟩ := by
      refine fun hrefuses => ⟨nofun, fun _ htaken => absurd ?_ hrefuses⟩
      exact htaken (request b.connId f, r) (by rw [hrecord]; simp)
    simp only [Batch.step, hframes]
    cases r with
    | reply bytes =>
      refine ⟨?_, fun it hit hkind => absurd (Batch.respond_kind hit).1 hkind⟩
      rintro b' ⟨⟩
      exact hgoes trivial
    | threw =>
      refine ⟨?_, nofun⟩
      rintro b' ⟨⟩
      exact hgoes trivial
    | overload | malformed => exact ⟨nofun, List.forall_mem_singleton.mpr fun _ => hends id⟩

/-- A worker touches the record of its own connection only, and that one is with it. -/
theorem Tracks.work (h : s.Tracks opt) (hs : (machine opt).Reachable s)
    (hstage : s.loop.stage ≠ .exited) {i : Nat} {r : SinkResult} {answers : List Bool} {now : Int}
    (hnext : s.next opt ⟨.work i r, answers, now⟩ = some s') : s'.Tracks opt := by
  obtain ⟨g, hg, rfl⟩ := Option.map_eq_some_iff.mp hnext
  obtain ⟨b, hb, rfl⟩ := MainLoop.work_eq hg
  change s.loop.engine.batches[i]? = some b at hb
  have hlife := (MainLoop.Inv.of_reachable (loop_reachable hs)).lifecycle hstage
  have hmem := List.mem_of_getElem? hb
  have howed : 0 < s.loop.engine.toTable.owed s.loop.outbox b.connId := Table.owed_of_batch hmem
  obtain ⟨hothers, hends⟩ := (MainLoop.Orderly.of_reachable (loop_reachable hs)).alone hb
  obtain ⟨hnew, hitems⟩ := @Working.work opt s ⟨_, _, s.asked ++ s.loop.asks (.work i r)⟩ b i r hb
    (h.batches b hmem) (congrArg (forConn b.connId) (List.append_nil s.received)) rfl
  refine h.frame (· = b.connId) (fun {id} hne => ⟨?_, ?_⟩) (fun {id} hid => ⟨hid, ?_⟩)
    (fun id c hc => ⟨h.conns id c hc, fun hid hactive => ?_⟩) (fun b' hb' => ?_)
    fun it hit hkind => ?_
  · exact congrArg (forConn id) (List.append_nil s.received)
  · have hnothing : askedFor id (s.loop.asks (.work i r)) = [] := by
      simp only [MainLoop.asks, hb]
      cases b.frames with
      | nil => rfl
      | cons f rest => simp [askedFor, request, Ne.symm hne]
    rw [askedFor_append, hnothing, List.append_nil]
  · rintro rfl
    rw [hlife.fresh hid] at howed
    omega
  · -- the connection of the batch is not waiting for bytes
    have hzero := ((hlife.settled hc).active hactive).2
    rw [← (hlife.booked.named hc).1, hid] at hzero
    omega
  · have hrest : b' ∈ s.loop.engine.batches.take i ++ s.loop.engine.batches.drop (i + 1) ∨
        b' ∈ (b.step r).2.toList := by
      simp only [List.mem_append] at hb' ⊢
      tauto
    rcases hrest with hold | hstep
    · exact .inl ⟨(List.mem_append.mp hold).elim List.mem_of_mem_take List.mem_of_mem_drop,
        hothers b' hold⟩
    · exact .inr (hnew b' (Option.mem_toList.mp hstep))
  · rcases List.mem_append.mp hit with hold | hstep
    · exact .inl ⟨hold, hends it hold hkind⟩
    · exact .inr (hitems it hstep hkind)

/-- A step that leaves the record alone, and adds no batch and nothing to the outbox. -/
theorem Tracks.aside (h : s.Tracks opt) {g : MainLoop}
    (hnextId : s.loop.engine.nextConnId ≤ g.engine.nextConnId)
    (hconns : g.engine.Each (s.Tracked opt)) (hbatches : g.engine.batches = s.loop.engine.batches)
    (houtbox : ∀ it ∈ g.outbox, it ∈ s.loop.outbox) :
    Tracks opt ⟨g, s.received ++ [], s.asked ++ []⟩ := by
  rw [List.append_nil, List.append_nil]
  exact h.frame (fun _ => False) (fun _ => ⟨rfl, rfl⟩)
    (fun hid => ⟨Nat.le_trans hnextId hid, id⟩) (fun id c hc => ⟨hconns id c hc, False.elim⟩)
    (fun b hb => .inl ⟨hbatches ▸ hb, id⟩) fun it hit _ => .inl ⟨houtbox it hit, id⟩

/-- A `recv` brings bytes for a connection that waits for them: they go to a worker with
what was left over. -/
theorem Tracked.receive {data : Bytes} (hc : s.Tracked opt c) (hactive : c.state = .active)
    (hpos : 0 < data.length) (hfit : data.length ≤ c.rx.writable)
    (hchunks : s'.chunks c.connId = s.chunks c.connId ++ [data])
    (hasked : askedFor c.connId s'.asked = askedFor c.connId s.asked) :
    s'.Working opt (Batch.start c.connId (c.rx.data ++ data)) := by
  obtain ⟨hsizes, htaken, frames, hcut, hhanded⟩ := hc.active hactive
  obtain ⟨-, -, hroom⟩ := hc.receives.active hactive
  have hwhole := frameDecoder.cut_append (s.chunks c.connId).flatten data
  rw [← cutFrames, ← cutFrames, hcut, if_neg Bool.false_ne_true, ← cutFrames] at hwhole
  change s'.Reads opt c.connId (cutFrames (c.rx.data ++ data)).frames _ _
  refine ⟨?_, ?_, frames ++ (cutFrames (c.rx.data ++ data)).frames, ?_, ?_⟩
  · rw [hchunks]
    exact List.forall_mem_append.mpr
      ⟨hsizes, List.forall_mem_singleton.mpr ⟨hpos, hroom ▸ hfit⟩⟩
  · rw [Taken, hasked]
    exact htaken
  · rw [hchunks, List.flatten_append, List.flatten_singleton]
    exact hwhole
  · rw [handed, hasked, List.map_append, ← hhanded, List.map_nil, List.append_nil]
    rfl

/-- A completion, which brings bytes for one connection or for none. -/
theorem Tracks.cqe (h : s.Tracks opt) (hs : (machine opt).Reachable s)
    (hstage : s.loop.stage ≠ .exited) {o : Nat} {q : Engine.Completion} {answers : List Bool}
    {now : Int} (hnext : s.next opt ⟨.cqe o q, answers, now⟩ = some s') : s'.Tracks opt := by
  have hs' : (machine opt).Reachable s' := .step hs trivial hnext
  obtain ⟨g, hg, rfl⟩ := Option.map_eq_some_iff.mp hnext
  obtain ⟨k, hkeeps⟩ := MainLoop.next_keeps hg
  have hnextId : s.loop.engine.nextConnId ≤ g.engine.nextConnId := hkeeps.nextConnId
  obtain ⟨op, ho, hrun, hpromised, hg⟩ := MainLoop.cqe_eq hg
  change s.loop.engine.ops o = some op at ho
  have hengine : g.engine = Engine.onCqe opt o op q s.loop.outbox
      { s.loop.engine with answers := answers, now := now } := by rw [hg]
  have hlife := (MainLoop.Inv.of_reachable (loop_reachable hs)).lifecycle hstage
  have hconns : g.engine.Each (s.Tracked opt) := by
    rw [hengine]
    exact Engine.Each.onCqe (e := { s.loop.engine with answers := answers, now := now })
      (tracked_upheld opt s) h.conns ho q hlife (fun _ _ _ => h.fresh (Nat.le_refl _))
      fun it hit hkind => ⟨(MainLoop.receives (loop_reachable hs)).outbox it hit hkind,
        (h.ends it hit (by rw [hkind]; nofun)).rearm hkind⟩
  have houtbox : ∀ it ∈ g.outbox, it ∈ s.loop.outbox := by
    intro it hit
    rw [hg] at hit
    dsimp only at hit
    split at hit
    · cases hit
    · exact hit
  rcases MainLoop.takesIn_cases ho q with ⟨id, c, rfl, hc, hopen, hres, hin⟩ | ⟨hin, hnone⟩
  · obtain ⟨hnamed, hknown⟩ := hlife.booked.named hc
    obtain ⟨hactive, howed⟩ := hlife.of_recv ho hc hopen
    obtain ⟨hdata, hfit⟩ := Engine.promised_recv hpromised hc
    obtain ⟨-, hposted, d, hd, hparsing⟩ := Engine.onCqe_posts
      (e := { s.loop.engine with answers := answers, now := now }) hlife ho hc
      (h.conns id c hc).receives hopen hres hpromised s.loop.outbox
    rw [← hengine] at hposted hd
    have hlife' := (MainLoop.Inv.of_reachable (loop_reachable hs')).lifecycle
      (by rw [hg]; exact hrun)
    simp only [MainLoop.asks, hin, List.append_nil]
    refine h.frame (· = id) (fun {j} hne => ⟨?_, rfl⟩)
      (fun {j} hj => ⟨Nat.le_trans hnextId hj, ?_⟩)
      (fun j d' hd' => ⟨hconns j d' hd', fun hid hstate => ?_⟩) (fun b hb => ?_)
      fun it hit hkind => .inl ⟨houtbox it hit, ?_⟩
    · rw [chunks, forConn_append, forConn_of_ne (Ne.symm hne), List.append_nil]
      rfl
    · change g.engine.nextConnId ≤ j at hj
      omega
    · -- the bytes are with a worker now
      rw [(hlife'.booked.named hd').1] at hid
      subst hid
      cases hd'.symm.trans hd
      cases hstate.symm.trans hparsing
    · change b ∈ g.engine.batches at hb
      rw [hposted] at hb
      rcases List.mem_append.mp hb with hold | hnew
      · refine .inl ⟨hold, ?_⟩
        rintro rfl
        have hpos : 0 < s.loop.engine.toTable.owed s.loop.outbox b.connId := Table.owed_of_batch hold
        omega
      · rw [List.mem_singleton.mp hnew, ← hnamed]
        refine .inr ((h.conns id c hc).receive hactive (by omega) hfit ?_ rfl)
        rw [hnamed, chunks, forConn_append, forConn_self]
        rfl
    · rintro rfl
      have hpos : 0 < s.loop.engine.toTable.owed s.loop.outbox it.connId :=
        Table.owed_of_end (houtbox it hit) hkind
      omega
  · simp only [hin, MainLoop.asks]
    refine h.aside hnextId hconns ?_ houtbox
    rcases Engine.onCqe_batches opt
      (e := { s.loop.engine with answers := answers, now := now }) hlife ho q s.loop.outbox with
      hsame | ⟨id, c, raw, hop, hc, hopen, hres, -⟩
    · rw [hengine]
      exact hsame
    · exact absurd hres (hnone id c hop hc hopen)

/-- **One step** of the main loop or of a worker. -/
theorem Tracks.next (h : s.Tracks opt) (hs : (machine opt).Reachable s)
    (hstage : s.loop.stage ≠ .exited) {ev : MainLoop.Event} (hnext : s.next opt ev = some s') :
    s'.Tracks opt := by
  obtain ⟨action, answers, now⟩ := ev
  cases action with
  | work i r => exact h.work hs hstage hnext
  | cqe o q => exact h.cqe hs hstage hnext
  | _ =>
    obtain ⟨g, hg, rfl⟩ := Option.map_eq_some_iff.mp hnext
    obtain ⟨k, hnextId⟩ := MainLoop.next_keeps hg
    obtain ⟨hkeeps, houtbox⟩ := MainLoop.turn_keeps (k := .stop) nofun (by nofun) (by nofun) hg
    have hconns := MainLoop.each_turn (tracked_upheld opt s) (g := { s.loop with
      engine := { s.loop.engine with answers := answers, now := now } }) h.conns (by nofun)
      (by nofun) hg
    exact h.aside hnextId.nextConnId hconns hkeeps.batches (by rw [houtbox]; exact fun _ => id)

/-- **Every run**, until it is over. -/
theorem Tracks.of_reachable (h : (machine opt).Reachable s) (hstage : s.loop.stage ≠ .exited) :
    s.Tracks opt := by
  induction h with
  | start hs =>
    obtain ⟨answers, rfl⟩ := hs
    refine ⟨fun _ => ⟨rfl, rfl⟩, fun id c hc => ?_, fun b hb => ?_, nofun⟩
    · cases (Engine.out_of_conns hc).symm.trans (Engine.start_out opt answers id)
    · rw [show (start opt answers).loop.engine.batches = [] from
        MainLoop.start_batches opt answers] at hb
      cases hb
  | step hs _ hnext ih =>
    obtain ⟨g, hg, rfl⟩ := Option.map_eq_some_iff.mp hnext
    have hrun := fun hexit => hstage (MainLoop.next_exited hexit hg)
    exact (ih hrun).next hs hrun hnext

/-! ## What has come in -/

/-- The worker of a connection has what it has cut off and not handed over yet. -/
theorem waiting_eq {b : Batch} (hb : b ∈ s.loop.engine.batches) (hid : b.connId = id)
    (howed : s.loop.engine.toTable.owed s.loop.outbox id = 1) :
    s.waiting id = b.frames.map (request id) := by
  have hmem : b ∈ s.loop.engine.batches.filter (·.connId = id) :=
    List.mem_filter.mpr ⟨hb, by simpa using hid⟩
  have hlength : (s.loop.engine.batches.filter (·.connId = id)).length ≤ 1 := by
    rw [Table.owed, List.countP_eq_length_filter] at howed
    omega
  have hone : s.loop.engine.batches.filter (·.connId = id) = [b] := by
    obtain ⟨b', hb'⟩ := List.length_eq_one_iff.mp
      (Nat.le_antisymm hlength (List.length_pos_of_mem hmem))
    rw [hb', List.mem_singleton] at hmem
    rw [hb', hmem]
  rw [waiting, hone, List.flatMap_singleton]

theorem waiting_nil (h : ∀ b ∈ s.loop.engine.batches, b.connId ≠ id) : s.waiting id = [] := by
  rw [waiting, List.filter_eq_nil_iff.mpr fun b hb => by simpa using h b hb]
  rfl

/-- The bytes that an open connection has taken in are, frame by frame, with the sink or
with a worker, as long as the sink has taken what it was handed. -/
theorem handed_waiting (h : (machine opt).Reachable s) (hc : s.loop.engine.conns id = some c)
    (hopen : c.state ≠ .closing) (htaken : s.Taken id) :
    s.handed id ++ s.waiting id =
        (cutFrames (s.chunks id).flatten).frames.map (request id) ∧
      (c.state = .active → s.waiting id = []) ∧
      ((cutFrames (s.chunks id).flatten).bad = false →
        ∀ it ∈ s.loop.outbox, it.connId = id → it.kind ≠ .close) := by
  have hstage := MainLoop.running_of_conns (loop_reachable h) hc
  have htracks := Tracks.of_reachable h hstage
  have hlife := (MainLoop.Inv.of_reachable (loop_reachable h)).lifecycle hstage
  have hreads : ∃ left bad rest, s.Reads opt id left bad rest ∧
      s.waiting id = left.map (request id) ∧ (c.state = .active → left = []) := by
    cases hstate : c.state with
    | closing => exact absurd hstate hopen
    | active =>
      have hactive := (htracks.conns id c hc).active hstate
      rw [(hlife.booked.named hc).1] at hactive
      refine ⟨[], false, _, hactive, waiting_nil fun b hb hid => ?_, fun _ => rfl⟩
      have hpos : 0 < s.loop.engine.toTable.owed s.loop.outbox b.connId := Table.owed_of_batch hb
      rw [hid, ((hlife.settled hc).active hstate).2] at hpos
      cases hpos
    | parsing =>
      have howed := ((hlife.settled hc).parsing hstate).2
      have hbusy : ConnState.parsing ≠ .active := by decide
      by_cases hbatch : ∃ b ∈ s.loop.engine.batches, b.connId = id
      · obtain ⟨b, hb, rfl⟩ := hbatch
        exact ⟨_, _, _, htracks.batches b hb, waiting_eq hb rfl howed, (absurd · hbusy)⟩
      · -- the batch is done, and its end is in the outbox
        push Not at hbatch
        have hend : 0 < s.loop.outbox.countP fun it => it.connId = id ∧ it.kind ≠ .respond := by
          have hzero : s.loop.engine.batches.countP (·.connId = id) = 0 :=
            List.countP_eq_zero.mpr fun b hb => by simpa using hbatch b hb
          rw [Table.owed] at howed
          omega
        obtain ⟨it, hit, hends⟩ := List.countP_pos_iff.mp hend
        obtain ⟨rfl, hkind⟩ := of_decide_eq_true hends
        have hending := htracks.ends it hit hkind
        cases hk : it.kind with
        | respond => exact absurd hk hkind
        | rearmRecv => exact ⟨[], _, _, hending.rearm hk, waiting_nil hbatch, (absurd · hbusy)⟩
        | close =>
          obtain ⟨rest, hreads⟩ := hending.close hk htaken
          exact ⟨[], _, _, hreads, waiting_nil hbatch, (absurd · hbusy)⟩
  obtain ⟨left, bad, rest, hreads, hwaiting, hactive⟩ := hreads
  obtain ⟨frames, hcut, hhanded⟩ := hreads.cut
  refine ⟨?_, fun hstate => ?_, fun hgood it hit hid hkind => ?_⟩
  · rw [hwaiting, hcut, hhanded]
  · rw [hwaiting, hactive hstate]
    rfl
  · -- a close would mean that the bytes are bad
    subst hid
    obtain ⟨rest, hbad⟩ := (htracks.ends it hit (by rw [hkind]; decide)).close hkind htaken
    obtain ⟨frames, hcut, -⟩ := hbad.cut
    rw [hcut] at hgood
    cases hgood

/-- Pieces that fit a receive buffer fit the room that a stream has for them. -/
theorem admits_of_sizes {sink : List Request → Request → SinkResult}
    (hsink : ∀ handled req, (sink handled req).Accepts) {got : Bytes} {x : Stream}
    {chunks : List Bytes} (h : x.Follows opt.rxBufBytes id got)
    (hsizes : ∀ data ∈ chunks, 0 < data.length ∧ data.length ≤ opt.rxBufBytes) :
    x.Admits opt.rxBufBytes id sink chunks := by
  induction chunks generalizing got x with
  | nil => trivial
  | cons data rest ih =>
    obtain ⟨⟨hpos, hfit⟩, hrest⟩ := List.forall_mem_cons.mp hsizes
    intro hactive
    have hgood : (cutFrames got).bad = false := by
      cases hbad : (cutFrames got).bad with
      | false => rfl
      | true => cases hactive.symm.trans (h.bad hbad)
    have hroom : data.length ≤ x.rx.writable := by
      rw [(h.good hgood).2.2.2]
      exact hfit
    exact ⟨⟨hpos, hroom⟩, ih (h.round hsink hgood hroom) hrest⟩

/-- **A run of the gateway, seen from one connection, is a run of its stream.** While it
waits for bytes, the valid bytes of its receive area, the room behind them and the
requests that were handed over for it are those of the stream after the bytes that it
took in. -/
theorem seen_as_stream (h : (machine opt).Reachable s) (hc : s.loop.engine.conns id = some c)
    (hactive : c.state = .active) {sink : List Request → Request → SinkResult}
    (hsink : ∀ handled req, (sink handled req).Accepts) :
    (Stream.start opt.rxBufBytes).Admits opt.rxBufBytes id sink (s.chunks id) ∧
      ∃ rx, (Stream.start opt.rxBufBytes).run opt.rxBufBytes id sink (s.chunks id) =
        ⟨rx, .active, s.handed id⟩ ∧ rx.data = c.rx.data ∧ rx.writable = c.rx.writable := by
  have hstage := MainLoop.running_of_conns (loop_reachable h) hc
  have hlife := (MainLoop.Inv.of_reachable (loop_reachable h)).lifecycle hstage
  have htracked := (Tracks.of_reachable h hstage).conns id c hc
  have hreads := htracked.active hactive
  rw [(hlife.booked.named hc).1] at hreads
  obtain ⟨frames, hcut, hhanded⟩ := hreads.cut
  have hadmits := @admits_of_sizes opt id _ hsink _ _ _ Stream.start_follows hreads.sizes
  have hfollows := Stream.start_follows.run hsink hadmits
  rw [List.nil_append] at hfollows
  obtain ⟨hstate, -, hdata, hroom⟩ := hfollows.good (by rw [hcut])
  have hhandled := hfollows.handled
  rw [hcut, ← hhanded, List.map_nil, List.append_nil] at hhandled
  refine ⟨hadmits, _, ?_, ?_, hroom.trans (htracked.receives.active hactive).2.2.symm⟩
  · rw [← hstate, ← hhandled]
  · rw [hdata, hcut]

end Recorded

/-! ## The largest frame -/

/-- **The check for too much data never fires.** In every run of a gateway with a
receive buffer of at least 4096 bytes, an open connection has a posted `recv` or is with a
worker. A posted `recv` was given between 1 byte and the size of the buffer and can
complete with any bytes within it, what its completion makes valid stays below the limit,
and all of it is handed to a worker. Of the valid frames, up to the largest, that have
come in, each is with the sink or with a worker, and no worker has a connection closed
for what is the beginning of such frames. -/
theorem recv_fits {opt : GatewayOptions} (hbuf : 4096 ≤ opt.rxBufBytes) :
    (∀ g, (MainLoop.machine opt).Reachable g → ∀ id c, g.engine.conns id = some c →
      c.state ≠ .closing →
      ((∃ o, g.engine.ops o = some ⟨.recv, some id⟩) ∨
        c.state = .parsing ∧ g.engine.toTable.owed g.outbox id = 1) ∧
      ∀ o, g.engine.ops o = some ⟨.recv, some id⟩ →
        (1 ≤ c.rx.writable ∧ c.rx.writable ≤ opt.rxBufBytes) ∧
        (∀ data answers now, 1 ≤ data.length → data.length ≤ c.rx.writable →
          (g.next opt ⟨.cqe o ⟨data.length, data, false, []⟩, answers, now⟩).isSome) ∧
        ∀ q answers now g', g.next opt ⟨.cqe o q, answers, now⟩ = some g' → 0 < q.res →
          ((c.rx.receive q.data).commit q.res.toNat).rxLen ≤
              kHeaderLen + kMaxMessageLen - 1 + opt.rxBufBytes ∧
            g'.engine.batches = g.engine.batches ++ [Batch.start id (c.rx.data ++ q.data)]) ∧
    ∀ s, (Recorded.machine opt).Reachable s → ∀ id c, s.loop.engine.conns id = some c →
      c.state ≠ .closing → s.Taken id → ∀ (frames : List Frame) (encoded : List Bytes),
        List.Forall₂ (fun f bs => encode f = .ok bs) frames encoded →
        (encoded.flatten <+: (s.chunks id).flatten →
          frames.map (request id) <+: s.handed id ++ s.waiting id ∧
            (c.state = .active → frames.map (request id) <+: s.handed id)) ∧
        ((s.chunks id).flatten <+: encoded.flatten →
          ∀ it ∈ s.loop.outbox, it.connId = id → it.kind ≠ .close) := by
  constructor
  · intro g h id c hc hopen
    have hstage := MainLoop.running_of_conns h hc
    have hlife := (MainLoop.Inv.of_reachable h).lifecycle hstage
    have hreceives := (MainLoop.receives h).conns id c hc
    refine ⟨?_, fun o ho => ⟨?_, fun data answers now _ hfit => ?_, ?_⟩⟩
    · cases hstate : c.state with
      | closing => exact absurd hstate hopen
      | parsing => exact .inr ⟨rfl, ((hlife.settled hc).parsing hstate).2⟩
      | active =>
        obtain ⟨o, hrecv⟩ := Option.isSome_iff_exists.mp ((hlife.settled hc).active hstate).1
        exact .inl ⟨o, hlife.booked.owns (k := .recv) hc hrecv⟩
    · obtain ⟨-, -, hroom⟩ := hreceives.active (hlife.of_recv ho hc hopen).1
      omega
    · have hpromised : Engine.promised { g.engine with answers := answers, now := now }
          ⟨.recv, some id⟩ ⟨data.length, data, false, []⟩ = true := by
        simp [Engine.promised, hc, hfit]
      simp only [MainLoop.next, MainLoop.step, MainLoop.cqe, ho]
      rw [if_pos ⟨hstage, hpromised⟩]
      rfl
    · intro q answers now g' hnext hres
      obtain ⟨op, hop, -, hpromised, rfl⟩ := MainLoop.cqe_eq hnext
      cases ho.symm.trans hop
      obtain ⟨hmark, hposted, -⟩ := Engine.onCqe_posts
        (e := { g.engine with answers := answers, now := now }) hlife ho hc hreceives hopen hres
        hpromised g.outbox
      exact ⟨hmark, hposted⟩
  · intro s h id c hc hopen htaken frames encoded hencoded
    obtain ⟨hcut, hactive, hends⟩ := Recorded.handed_waiting h hc hopen htaken
    refine ⟨fun hcame => ?_, fun hbegins => hends (cutFrames_prefix_good hencoded hbegins)⟩
    have hwith : frames.map (request id) <+: s.handed id ++ s.waiting id := by
      rw [hcut]
      exact (frames_prefix_cutFrames hencoded hcame).map _
    refine ⟨hwith, fun hstate => ?_⟩
    rwa [hactive hstate, List.append_nil] at hwith

/-- Two frames come in, in three pieces that split them both, one inside its header. The
sink gets both, and the connection waits with the room for more. -/
theorem recv_fits_pieces :
    ∃ s, (Recorded.machine ⟨4096, 1000, 0, false⟩).Reachable s ∧
      s.chunks 1 = [[0x46, 0x42, 0x45, 0x42, 0x15, 0, 7, 0, 0, 0],
        [2, 0, 0, 0, 1, 2, 0x46, 0x42, 0x45, 0x42, 0x15], [0, 8, 0, 0, 0, 1, 0, 0, 0, 3]] ∧
      [⟨1, ridePositionReport, 7, [1, 2]⟩, ⟨1, ridePositionReport, 8, [3]⟩] <+: s.handed 1 ∧
      ∃ o c, s.loop.engine.ops o = some ⟨.recv, some 1⟩ ∧ s.loop.engine.conns 1 = some c ∧
        1 ≤ c.rx.writable ∧ c.rx.writable ≤ 4096 := by
  obtain ⟨hroom, hframes⟩ := @recv_fits ⟨4096, 1000, 0, false⟩ (by decide)
  obtain ⟨s, h, hchunks, ⟨c, hc, hactive⟩, htaken⟩ :
      ∃ s, (Recorded.machine ⟨4096, 1000, 0, false⟩).Reachable s ∧
        s.chunks 1 = [[0x46, 0x42, 0x45, 0x42, 0x15, 0, 7, 0, 0, 0],
          [2, 0, 0, 0, 1, 2, 0x46, 0x42, 0x45, 0x42, 0x15], [0, 8, 0, 0, 0, 1, 0, 0, 0, 3]] ∧
        (∃ c ∈ s.loop.engine.conns 1, c.state = .active) ∧
        ∀ x ∈ askedFor 1 s.asked, x.2.Accepts :=
    Machine.exists_of_play (Recorded.start _ []) ⟨[], rfl⟩
      [⟨.cqe 0 ⟨7, [], false, []⟩, [], 1⟩,
        ⟨.cqe 3 ⟨10, [0x46, 0x42, 0x45, 0x42, 0x15, 0, 7, 0, 0, 0], false, []⟩, [], 1⟩,
        ⟨.work 0 (.reply []), [], 1⟩, ⟨.cqe 1 ⟨8, [], false, []⟩, [], 1⟩,
        ⟨.cqe 6 ⟨11, [2, 0, 0, 0, 1, 2, 0x46, 0x42, 0x45, 0x42, 0x15], false, []⟩, [], 1⟩,
        ⟨.work 0 (.reply []), [], 1⟩, ⟨.work 0 (.reply []), [], 1⟩,
        ⟨.cqe 5 ⟨8, [], false, []⟩, [], 1⟩,
        ⟨.cqe 8 ⟨10, [0, 8, 0, 0, 0, 1, 0, 0, 0, 3], false, []⟩, [], 1⟩,
        ⟨.work 0 (.reply []), [], 1⟩, ⟨.work 0 (.reply []), [], 1⟩,
        ⟨.cqe 7 ⟨8, [], false, []⟩, [], 1⟩] (by decide +kernel)
  have hopen : c.state ≠ .closing := by rw [hactive]; nofun
  refine ⟨s, h, hchunks, ?_, ?_⟩
  · exact ((hframes s h 1 c hc hopen htaken
      [⟨ridePositionReport, 7, [1, 2]⟩, ⟨ridePositionReport, 8, [3]⟩] _ (.cons rfl (.cons rfl .nil))).1
      (by rw [hchunks]; exact List.prefix_refl _)).2 hactive
  · obtain ⟨⟨o, ho⟩ | ⟨hparsing, -⟩, hgiven⟩ := hroom _ (Recorded.loop_reachable h) 1 c hc hopen
    · exact ⟨o, c, ho, hc, (hgiven o ho).1⟩
    · cases hactive.symm.trans hparsing

end SharedBike.Gateway
