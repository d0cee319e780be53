import SharedBike.Client.Bridge

/-!
# The client finds its way back

The life of the socket in `net/tcp_worker.cpp`. `Client.Bridge` has a worker that
is connected or not; here is how it comes to be so: the three flags, the back-off
timer, and the socket object, which is made when it is first needed and thrown away
after a bad frame. A `SocketEvent` is a slot call, a signal of the socket, or a timer.

What Qt does is taken as follows. A failed attempt leaves the socket unconnected
before `errorOccurred`, and gives no `disconnected`. `connectToHost` on a socket that
is not unconnected does nothing but signal an error. `disconnectFromHost` in
`dropSocket` may signal `disconnected` at once, from inside the call, or not at all.

`never_stranded` is the law: a worker that has a host and is not shut down is
connected, or is in an attempt whose failure it will act on, or has exactly one timer
running. Two paths can ask for that timer, and `reconnect_scheduled_` makes it one.
After `shutdown` nothing is begun again (`shutdown_final`).
-/

namespace SharedBike.Client

open SharedBike.Lib

inductive SocketState where
  | unconnected
  /-- the host is looked up or the connection is being made -/
  | connecting
  | connected
  deriving DecidableEq

def kBackoffInitMs : Nat := 500
def kBackoffCapMs : Nat := 10000

/-- `TcpWorker`, without the receive buffer (`Client.Frames`). -/
structure NetWorker where
  host : String
  shuttingDown : Bool
  connecting : Bool
  reconnectScheduled : Bool
  backoffMs : Nat
  /-- `sock_`; null is `none` -/
  sock : Option SocketState
  pending : List Sent
  /-- the delays of the timers that are running -/
  timers : List Nat
  /-- how many timers were started since the last connection -/
  waits : Nat

inductive SocketEvent where
  | connectToServer (host : String)
  | sendFrame (x : Sent)
  /-- `shutdown`, and whether `disconnectFromHost` signals at once -/
  | shutdown (atOnce : Bool)
  | connected
  | disconnected
  /-- `errorOccurred` at the end of a failed attempt -/
  | failed
  /-- `errorOccurred` on a socket that stays in its state -/
  | error
  /-- `readyRead` with a bad frame -/
  | badFrame (atOnce : Bool)
  | timeout (i : Nat)

namespace NetWorker

/-- As the bridge's worker sees it. -/
def view (w : NetWorker) : TcpWorker := ⟨w.sock = some .connected, w.pending⟩

def ensureSocket (w : NetWorker) : NetWorker := { w with sock := some (w.sock.getD .unconnected) }

/-- `connectToHost` on the socket. -/
def connectToHost (w : NetWorker) : NetWorker :=
  if w.sock = some .unconnected then { w with sock := some .connecting } else w

/-- `abort` on a socket that is there leaves it unconnected. -/
def scheduleReconnect (w : NetWorker) : NetWorker :=
  if w.shuttingDown ∨ w.host = "" then w
  else if w.reconnectScheduled then w
  else
    { w with
      reconnectScheduled := true
      sock := w.sock.map fun _ => .unconnected
      timers := w.timers ++ [w.backoffMs]
      backoffMs := min (w.backoffMs * 2) kBackoffCapMs
      waits := w.waits + 1 }

def connectToServer (w : NetWorker) (host : String) : NetWorker :=
  if w.shuttingDown then w
  else
    let w := { w with host }
    if w.connecting ∨ (w.sock.isSome ∧ w.sock ≠ some .unconnected) then w
    else { w.ensureSocket with connecting := true }.connectToHost

def onConnected (w : NetWorker) : NetWorker :=
  { w with connecting := false, backoffMs := kBackoffInitMs, pending := [], waits := 0 }

def onDisconnected (w : NetWorker) : NetWorker :=
  { w with connecting := false }.scheduleReconnect

/-- The slot of `errorOccurred`. -/
def onError (w : NetWorker) : NetWorker :=
  if w.connecting ∧ ¬w.shuttingDown ∧ w.sock = some .unconnected then
    { w with connecting := false }.scheduleReconnect
  else w

/-- A socket that signals `disconnected` at once does so before it is given up. -/
def dropSocket (w : NetWorker) (atOnce : Bool) : NetWorker :=
  if w.sock = some .connected ∧ atOnce then
    { { w with sock := some .unconnected }.onDisconnected with sock := none }
  else { w with sock := none }

/-- The body of the timer. -/
def onTimeout (w : NetWorker) : NetWorker :=
  let w := { w with reconnectScheduled := false }
  if w.shuttingDown then w else { w with connecting := true }.ensureSocket.connectToHost

def step (w : NetWorker) : SocketEvent → Option NetWorker
  | .connectToServer host => some (w.connectToServer host)
  | .sendFrame x => some { w with pending := (w.view.sendFrame x).2.pending }
  | .shutdown atOnce => some ({ w with shuttingDown := true, pending := [] }.dropSocket atOnce)
  | .connected =>
    if w.sock = some .connecting then some { w with sock := some .connected }.onConnected else none
  | .disconnected =>
    if w.sock = some .connected then some { w with sock := some .unconnected }.onDisconnected
    else none
  | .failed =>
    if w.sock = some .connecting then some { w with sock := some .unconnected }.onError else none
  | .error => if w.sock.isSome then some w.onError else none
  | .badFrame atOnce =>
    if w.sock = some .connected then some (w.dropSocket atOnce).onDisconnected else none
  | .timeout i =>
    if i < w.timers.length then some { w with timers := w.timers.eraseIdx i }.onTimeout else none

def start : NetWorker := ⟨"", false, false, false, kBackoffInitMs, none, [], [], 0⟩

def machine : Machine NetWorker SocketEvent where
  init w := w = start
  next := step

/-! ## The invariant -/

/-- The delay after so many timers. -/
def backoff (n : Nat) : Nat := min (kBackoffInitMs * 2 ^ n) kBackoffCapMs

theorem backoff_succ (n : Nat) : min (backoff n * 2) kBackoffCapMs = backoff (n + 1) := by
  simp only [backoff, kBackoffInitMs, kBackoffCapMs, pow_succ]
  omega

theorem backoff_range (n : Nat) : kBackoffInitMs ≤ backoff n ∧ backoff n ≤ kBackoffCapMs := by
  have hpos : 0 < 2 ^ n := Nat.two_pow_pos n
  simp only [backoff, kBackoffInitMs, kBackoffCapMs]
  omega

/-- Something is going to happen about the connection. -/
def Underway (w : NetWorker) : Prop :=
  w.sock = some .connected ∨ w.sock = some .connecting ∨ w.reconnectScheduled = true

/-- One timer at most, and its delay follows the waits. -/
structure Paced (scheduled : Bool) (timers : List Nat) (backoffMs waits : Nat) : Prop where
  one : timers.length = if scheduled then 1 else 0
  range : ∀ t ∈ timers, kBackoffInitMs ≤ t ∧ t ≤ kBackoffCapMs
  backoff : backoffMs = backoff waits

/-- What holds inside a slot. -/
abbrev Loose (w : NetWorker) : Prop := Paced w.reconnectScheduled w.timers w.backoffMs w.waits

/-- What holds between two events. -/
structure Inv (w : NetWorker) : Prop where
  loose : w.Loose
  /-- an attempt is watched -/
  watched : w.sock = some .connecting → w.connecting = true
  /-- the flag stands for an attempt or outlives it -/
  attempt : w.shuttingDown = false → w.connecting = true →
    w.sock = some .connecting ∨ w.sock = some .connected
  underway : w.shuttingDown = false → w.host ≠ "" → w.Underway
  down : w.shuttingDown = true → w.sock = none

variable {w : NetWorker}

theorem scheduleReconnect_loose (h : w.Loose) : w.scheduleReconnect.Loose := by
  unfold NetWorker.scheduleReconnect
  split
  · exact h
  · split
    · exact h
    next hfree =>
      have hnone : w.timers.length = 0 := by
        have := h.one
        rwa [if_neg hfree] at this
      refine ⟨?_, ?_, ?_⟩
      · simp [hnone]
      · intro t ht
        rcases List.mem_append.mp ht with ht | ht
        · exact h.range t ht
        · rw [List.mem_singleton.mp ht, h.backoff]
          exact backoff_range _
      · show min (w.backoffMs * 2) kBackoffCapMs = _
        rw [h.backoff, backoff_succ]

/-- **The slot that ends a connection or an attempt.** With a host and no shutdown there is
a timer afterwards. -/
theorem onDisconnected_inv (h : w.Loose) (hsock : w.sock = none ∨ w.sock = some .unconnected)
    (hdown : w.shuttingDown = true → w.sock = none) : w.onDisconnected.Inv := by
  have hloose : w.onDisconnected.Loose :=
    scheduleReconnect_loose (w := { w with connecting := false }) h
  have hstate : w.onDisconnected.sock = w.sock ∧ w.onDisconnected.connecting = false ∧
      w.onDisconnected.shuttingDown = w.shuttingDown ∧ w.onDisconnected.host = w.host ∧
      (w.shuttingDown = false → w.host ≠ "" → w.onDisconnected.reconnectScheduled = true) := by
    unfold onDisconnected scheduleReconnect
    split
    next hquiet =>
      refine ⟨rfl, rfl, rfl, rfl, fun hup hhost => ?_⟩
      rcases hquiet with hquiet | hquiet
      · exact absurd (hup.symm.trans hquiet) (by decide)
      · exact absurd hquiet hhost
    · split
      next hset => exact ⟨rfl, rfl, rfl, rfl, fun _ _ => hset⟩
      · refine ⟨?_, rfl, rfl, rfl, fun _ _ => rfl⟩
        rcases hsock with hsock | hsock <;> simp [hsock]
  obtain ⟨hs, hc, hshut, hhost, hset⟩ := hstate
  refine ⟨hloose, ?_, ?_, ?_, ?_⟩
  · intro hconn
    rw [hs] at hconn
    rcases hsock with hsock | hsock <;> rw [hsock] at hconn <;> cases hconn
  · intro _ hconn
    rw [hc] at hconn
    cases hconn
  · rw [hshut, hhost]
    exact fun hup hne => .inr (.inr (hset hup hne))
  · rw [hshut, hs]
    exact hdown

/-- After `connectToHost` the socket is at work. -/
theorem connectToHost_ensureSocket (w : NetWorker) :
    ∃ state, w.ensureSocket.connectToHost = { w with sock := some state } ∧
      (state = .connecting ∨ state = .connected) := by
  obtain ⟨host, shut, conn, sched, ms, sock, pending, timers, waits⟩ := w
  match sock with
  | none | some .unconnected | some .connecting => exact ⟨.connecting, rfl, .inl rfl⟩
  | some .connected => exact ⟨.connected, rfl, .inr rfl⟩

theorem connect_inv (h : w.Loose) (hup : w.shuttingDown = false) :
    { w with connecting := true }.ensureSocket.connectToHost.Inv := by
  obtain ⟨state, heq, hstate⟩ := connectToHost_ensureSocket { w with connecting := true }
  have hbusy : some state = some .connecting ∨ some state = some SocketState.connected :=
    hstate.imp (congrArg some) (congrArg some)
  rw [heq]
  exact
    { loose := h
      watched := fun _ => rfl
      attempt := fun _ _ => hbusy
      underway := fun _ _ => hbusy.symm.imp id .inl
      down := fun hdown => absurd (hup.symm.trans hdown) (by decide) }

theorem Inv.connectToServer (h : w.Inv) (host : String) : (w.connectToServer host).Inv := by
  unfold NetWorker.connectToServer
  split
  · exact h
  next hup =>
    have hup : w.shuttingDown = false := Bool.eq_false_iff.mpr hup
    dsimp only
    split
    next hbusy =>
      refine ⟨h.loose, h.watched, h.attempt, fun _ _ => ?_, h.down⟩
      rcases hbusy with hconn | ⟨hsome, hne⟩
      · exact (h.attempt hup hconn).elim (fun hs => .inr (.inl hs)) .inl
      · obtain ⟨state, hstate⟩ := Option.isSome_iff_exists.mp hsome
        cases state with
        | unconnected => exact absurd hstate hne
        | connecting => exact .inr (.inl hstate)
        | connected => exact .inl hstate
    · exact connect_inv (w := { w with host }) h.loose hup

/-- Giving the socket up inside a slot. -/
theorem dropSocket_spec (h : w.Loose) (atOnce : Bool) :
    (w.dropSocket atOnce).Loose ∧ (w.dropSocket atOnce).sock = none ∧
      (w.dropSocket atOnce).shuttingDown = w.shuttingDown := by
  unfold dropSocket
  split
  · refine ⟨?_, rfl, ?_⟩
    · exact scheduleReconnect_loose
        (w := { w with sock := some .unconnected, connecting := false }) h
    · unfold onDisconnected scheduleReconnect
      split
      · rfl
      · split <;> rfl
  · exact ⟨h, rfl, rfl⟩

/-- A worker that is shut down keeps its timer, which will do nothing. -/
theorem closed_inv (h : w.Loose) (hdown : w.shuttingDown = true) (hsock : w.sock = none) :
    w.Inv where
  loose := h
  watched hconn := by rw [hsock] at hconn; cases hconn
  attempt hup := absurd (hdown.symm.trans hup) (by decide)
  underway hup := absurd (hdown.symm.trans hup) (by decide)
  down _ := hsock

/-- The timer that runs out was the only one. -/
theorem Inv.onTimeout (h : w.Inv) {i : Nat} (hi : i < w.timers.length) :
    { w with timers := w.timers.eraseIdx i }.onTimeout.Inv := by
  have hone := h.loose.one
  have hset : w.reconnectScheduled = true := by
    by_contra hfree
    rw [if_neg hfree] at hone
    omega
  rw [if_pos hset] at hone
  have hpaced : Paced false (w.timers.eraseIdx i) w.backoffMs w.waits := by
    refine ⟨?_, fun t ht => h.loose.range t (List.mem_of_mem_eraseIdx ht), h.loose.backoff⟩
    rw [List.length_eraseIdx_of_lt hi, hone]
    rfl
  unfold NetWorker.onTimeout
  dsimp only
  split
  next hdown => exact closed_inv hpaced hdown (h.down hdown)
  next hup =>
    exact connect_inv (w := { w with timers := w.timers.eraseIdx i, reconnectScheduled := false })
      hpaced (Bool.eq_false_iff.mpr hup)

/-- **One event.** -/
theorem Inv.step (h : w.Inv) {e : SocketEvent} {w' : NetWorker} (hs : w.step e = some w') :
    w'.Inv := by
  have hlive : ∀ {state}, w.sock = some state → w.shuttingDown = false := by
    intro state hsock
    by_contra hdown
    rw [h.down (Bool.eq_true_of_not_eq_false hdown)] at hsock
    cases hsock
  cases e with
  | connectToServer host =>
    cases hs
    exact h.connectToServer host
  | sendFrame x =>
    cases hs
    exact ⟨h.loose, h.watched, h.attempt, h.underway, h.down⟩
  | shutdown atOnce =>
    cases hs
    obtain ⟨hloose, hsock, hdown⟩ :=
      dropSocket_spec (w := { w with shuttingDown := true, pending := [] }) h.loose atOnce
    exact closed_inv hloose hdown hsock
  | connected =>
    obtain ⟨hsock, heq⟩ := Option.ite_none_right_eq_some.mp hs
    cases heq
    exact
      { loose := ⟨h.loose.one, h.loose.range, rfl⟩
        watched := nofun
        attempt := nofun
        underway := fun _ _ => .inl rfl
        down := fun hdown => absurd ((hlive hsock).symm.trans hdown) (by decide) }
  | disconnected =>
    obtain ⟨hsock, heq⟩ := Option.ite_none_right_eq_some.mp hs
    cases heq
    refine onDisconnected_inv (w := { w with sock := some .unconnected }) h.loose (.inr rfl) ?_
    exact fun hdown => absurd ((hlive hsock).symm.trans hdown) (by decide)
  | failed =>
    -- the attempt was watched, so its end is acted on
    obtain ⟨hsock, heq⟩ := Option.ite_none_right_eq_some.mp hs
    cases heq
    have hup : ¬w.shuttingDown := by rw [hlive hsock]; decide
    rw [onError, if_pos ⟨h.watched hsock, hup, rfl⟩]
    refine onDisconnected_inv (w := { w with sock := some .unconnected }) h.loose (.inr rfl) ?_
    exact fun hdown => absurd hdown hup
  | error =>
    obtain ⟨-, heq⟩ := Option.ite_none_right_eq_some.mp hs
    cases heq
    unfold onError
    split
    next hfail => exact onDisconnected_inv h.loose (.inr hfail.2.2) h.down
    · exact h
  | badFrame atOnce =>
    obtain ⟨-, heq⟩ := Option.ite_none_right_eq_some.mp hs
    cases heq
    obtain ⟨hloose, hsock, -⟩ := dropSocket_spec h.loose atOnce
    exact onDisconnected_inv hloose (.inl hsock) fun _ => hsock
  | timeout i =>
    obtain ⟨hi, heq⟩ := Option.ite_none_right_eq_some.mp hs
    cases heq
    exact h.onTimeout hi

theorem start_inv : start.Inv :=
  ⟨⟨rfl, nofun, rfl⟩, nofun, nofun, fun _ hhost => absurd rfl hhost, nofun⟩

theorem inv_of_reachable (h : machine.Reachable w) : w.Inv :=
  Machine.invariant (fun _ hw => hw ▸ start_inv) (fun _ _ _ hw _ hs => hw.step hs) h

/-! ## Back to a connection -/

/-- At most two events away. -/
theorem Underway.reconnects (h : w.Inv) (hup : w.shuttingDown = false) (hway : w.Underway) :
    ∃ es w', es.length ≤ 2 ∧ machine.play w es = some w' ∧ w'.sock = some .connected := by
  have hmade : ∀ {v : NetWorker}, v.sock = some .connecting →
      ∃ w', machine.play v [.connected] = some w' ∧ w'.sock = some .connected := by
    intro v hv
    refine ⟨{ v with sock := some .connected }.onConnected, ?_, rfl⟩
    rw [Machine.play, show machine.next v .connected = some _ from if_pos hv]
    rfl
  rcases hway with hconn | hconn | hset
  · exact ⟨[], w, Nat.zero_le 2, rfl, hconn⟩
  · obtain ⟨w', hplay, hw'⟩ := hmade hconn
    exact ⟨[.connected], w', by decide, hplay, hw'⟩
  · have hlen : 0 < w.timers.length := by
      rw [h.loose.one, if_pos hset]
      exact Nat.one_pos
    obtain ⟨v, hfire, hv⟩ : ∃ v, machine.next w (.timeout 0) = some v ∧
        (v.sock = some .connecting ∨ v.sock = some .connected) := by
      obtain ⟨state, heq, hstate⟩ := connectToHost_ensureSocket
        { w with timers := w.timers.eraseIdx 0, reconnectScheduled := false, connecting := true }
      refine ⟨{ w with
        timers := w.timers.eraseIdx 0
        reconnectScheduled := false
        connecting := true
        sock := some state }, ?_, hstate.imp (congrArg some) (congrArg some)⟩
      show w.step (.timeout 0) = _
      rw [NetWorker.step, if_pos hlen, onTimeout]
      dsimp only
      rw [if_neg (by rw [hup]; decide), heq]
    rcases hv with hv | hv
    · obtain ⟨w', hplay, hw'⟩ := hmade hv
      refine ⟨[.timeout 0, .connected], w', le_refl 2, ?_, hw'⟩
      rw [Machine.play, hfire]
      exact hplay
    · refine ⟨[.timeout 0], v, by decide, ?_, hv⟩
      rw [Machine.play, hfire]
      rfl

/-- **Never stranded.** A worker with a host that is not shut down is connected, is in an attempt
that it watches, or has its one timer running; the next delay doubles with every wait up
to the cap, and two events can bring the connection back. -/
theorem never_stranded (h : machine.Reachable w) (hup : w.shuttingDown = false)
    (hhost : w.host ≠ "") :
    (w.sock = some .connected ∨ (w.sock = some .connecting ∧ w.connecting = true) ∨
        ∃ t, w.timers = [t] ∧ kBackoffInitMs ≤ t ∧ t ≤ kBackoffCapMs) ∧
      w.timers.length ≤ 1 ∧ w.backoffMs = min (kBackoffInitMs * 2 ^ w.waits) kBackoffCapMs ∧
      ∃ es w', es.length ≤ 2 ∧ machine.play w es = some w' ∧ w'.sock = some .connected := by
  have hinv := inv_of_reachable h
  have hway := hinv.underway hup hhost
  have hone := hinv.loose.one
  refine ⟨?_, ?_, hinv.loose.backoff, hway.reconnects hinv hup⟩
  · rcases hway with hconn | hconn | hset
    · exact .inl hconn
    · exact .inr (.inl ⟨hconn, hinv.watched hconn⟩)
    · rw [if_pos hset] at hone
      obtain ⟨t, ht⟩ := List.length_eq_one_iff.mp hone
      exact .inr (.inr ⟨t, ht, hinv.loose.range t (by rw [ht]; exact List.mem_singleton_self t)⟩)
  · rw [hone]
    split <;> decide

/-- The server refuses the first attempt. -/
theorem never_stranded_refused :
    ∃ w, machine.Reachable w ∧ w.timers = [500] ∧ w.backoffMs = 1000 ∧ w.timers.length ≤ 1 := by
  obtain ⟨w, hreach, htimers, hms, hup, hhost⟩ : ∃ w, machine.Reachable w ∧ w.timers = [500] ∧
      w.backoffMs = 1000 ∧ w.shuttingDown = false ∧ w.host = "localhost" :=
    Machine.exists_of_play start rfl [.connectToServer "localhost", .failed] (by decide)
  exact ⟨w, hreach, htimers, hms, (never_stranded hreach hup (by rw [hhost]; decide)).2.1⟩

/-! ## The end -/

theorem Inv.shut_step (h : w.Inv) (hdown : w.shuttingDown = true) {e : SocketEvent}
    {w' : NetWorker} (hs : w.step e = some w') :
    w'.shuttingDown = true ∧ w'.timers.Sublist w.timers ∧ w'.waits = w.waits := by
  have hsock := h.down hdown
  cases e with
  | connectToServer host =>
    cases hs
    rw [NetWorker.connectToServer, if_pos hdown]
    exact ⟨hdown, .refl _, rfl⟩
  | sendFrame x =>
    cases hs
    exact ⟨hdown, .refl _, rfl⟩
  | shutdown atOnce =>
    cases hs
    rw [dropSocket, if_neg (by simp [hsock])]
    exact ⟨rfl, .refl _, rfl⟩
  | timeout i =>
    obtain ⟨-, ⟨⟩⟩ := Option.ite_none_right_eq_some.mp hs
    rw [NetWorker.onTimeout, if_pos hdown]
    exact ⟨hdown, List.eraseIdx_sublist _ _, rfl⟩
  | _ =>
    -- without a socket there are no signals
    obtain ⟨hsome, -⟩ := Option.ite_none_right_eq_some.mp hs
    rw [hsock] at hsome
    cases hsome

/-- **Nothing comes after `shutdown`.** Whatever is called and whatever runs out, there is
no socket again, and no timer is started: those that run are among the old ones. -/
theorem shutdown_final (h : machine.Reachable w) (hdown : w.shuttingDown = true)
    {es : List SocketEvent} {w' : NetWorker} (hs : machine.play w es = some w') :
    w'.sock = none ∧ w'.timers.Sublist w.timers ∧ w'.waits = w.waits := by
  induction es generalizing w with
  | nil =>
    cases hs
    exact ⟨(inv_of_reachable h).down hdown, .refl _, rfl⟩
  | cons e es ih =>
    obtain ⟨v, hv, hrest⟩ := Option.bind_eq_some_iff.mp hs
    obtain ⟨hdown', hsub, hwaits⟩ := (inv_of_reachable h).shut_step hdown hv
    obtain ⟨hsock, hsub', hwaits'⟩ := ih (.step h trivial hv) hdown' hrest
    exact ⟨hsock, hsub'.trans hsub, hwaits'.trans hwaits⟩

/-- A timer outlives the worker; when it runs out, `connectToServer` is called in vain. -/
theorem shutdown_final_timer :
    ∃ w w', machine.Reachable w ∧ w.timers = [500] ∧ w.waits = 1 ∧
      machine.play w [.connectToServer "localhost", .timeout 0, .connectToServer "localhost"] =
        some w' ∧
      w'.sock = none ∧ w'.timers.Sublist [500] ∧ w'.waits = 1 := by
  obtain ⟨w, w', hplay, hfire, htimers, hwaits, hdown⟩ : ∃ w w',
      machine.play start [.connectToServer "localhost", .failed, .shutdown false] = some w ∧
      machine.play w [.connectToServer "localhost", .timeout 0, .connectToServer "localhost"] =
        some w' ∧
      w.timers = [500] ∧ w.waits = 1 ∧ w.shuttingDown = true :=
    ⟨_, _, rfl, rfl, rfl, rfl, rfl⟩
  have hreach : machine.Reachable w := Machine.reachable_of_play (.start rfl) hplay
  have hfinal := shutdown_final hreach hdown hfire
  rw [htimers, hwaits] at hfinal
  exact ⟨w, w', hreach, htimers, hwaits, hfire, hfinal⟩

end NetWorker

end SharedBike.Client
