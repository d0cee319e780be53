import SharedBike.Dispatch.Pipeline
import SharedBike.Ipc.RingNotify

/-!
# The reader loop and its business threads

The loop of `dispatch_main.cpp`. In each turn the reader loads
`inflight_replies`, then, if that is 0, the size of the `ReplyQueue`, and waits
in `wait_pop` with a slice of 5 ms when it saw something and of 200 ms when it
did not. For each request it finds it adds one to `inflight_replies` and posts
a task; a task pushes its reply, or nothing, and then takes one off. Nothing
wakes the reader when a reply is pushed, so it must not wait long while a task
is still to push one.

The rings are not part of this model: `wait_pop` is its control flow, and what
a sweep over the rings finds is any slots at all. Every load and store of the
counter and every locked section of the queue is a step of its own.

The counter is one ahead of the tasks between its addition and the end of
`post`. It has 32 bits, and so has the number of slots that `pop_once` returns;
with `2 ^ 32` of either the reader does wait long over its tasks
(`counter_ahead_and_long_wait`). `Few` excludes that; under it the counter is
the tasks and the one that is being handed over, and nothing is left when the
reader waits long (`long_wait_idle`).
-/

namespace SharedBike.Dispatch

open SharedBike.Lib SharedBike.Ipc

/-- Where the reader stands in the callback of `wait_pop`. -/
inductive Callback where
  | outside
  | entered (slot : ReqSlot)
  /-- behind `fetch_add` -/
  | counted (slot : ReqSlot)
  /-- `post` has thrown -/
  | refused
  deriving DecidableEq

/-- Where the reader stands in `wait_pop`. -/
inductive Waiting where
  /-- in `pop_once`, with so many callbacks made -/
  | popping (sweep : Sweep) (read : Nat) (cb : Callback)
  | polling
  | woken (wake : Bool)
  deriving DecidableEq

/-- What follows when `pop_once` returns; `none` is the return of `wait_pop`. -/
def Waiting.popped (sweep : Sweep) (total : UInt32) : Option Waiting :=
  if total > 0 then none
  else
    match sweep with
    | .before (left + 1) => some (.popping (.before left) 0 .outside)
    | .before 0 => some .polling
    | .last => none

/-- Where the reader stands in its loop. -/
inductive Turn where
  | head
  | sampling
  /-- `inflight_replies` was 0 -/
  | sizing
  /-- in `wait_pop`, with a slice of so many milliseconds -/
  | waiting (slice : Nat) (w : Waiting)
  | flushing
  | beating
  | exited
  deriving DecidableEq

/-- A task that was posted and has not taken itself off the counter. -/
structure BizTask where
  slot : ReqSlot
  /-- it has pushed its reply, or has none -/
  answered : Bool

structure Reader where
  turn : Turn
  inflight : UInt32
  queue : List ReplyItem
  tasks : List BizTask
  stopping : Bool

inductive ReaderEvent where
  | loop
  | loadInflight
  | loadSize
  | slot (s : ReqSlot)
  /-- the payload is copied and the counter raised, or the copy throws -/
  | copy (ok : Bool)
  | post (ok : Bool)
  | rollback
  | swept
  | pollReturns (wake : Bool)
  | pollFails
  | drainFifo
  | drain
  /-- the heartbeats, and whether the gateway is found dead -/
  | beat (dead : Bool)
  /-- an exception reaches the loop -/
  | throws
  | stop
  /-- a task has run; `none` is a handler that threw -/
  | answer (i : Nat) (frame : Option Wire.Bytes)
  | finish (i : Nat)

namespace Reader

def setTurn (s : Reader) (turn : Turn) : Reader := { s with turn := turn }

/-- The callback returns. -/
def leave (s : Reader) (slice : Nat) (sweep : Sweep) (read : Nat) : Reader :=
  s.setTurn (.waiting slice (.popping sweep (read + 1) .outside))

def next (spinTries : Nat) (s : Reader) : ReaderEvent → Option Reader
  | .loop =>
    match s.turn with
    | .head => some (s.setTurn (if s.stopping then .exited else .sampling))
    | _ => none
  | .loadInflight =>
    match s.turn with
    | .sampling => some (s.setTurn (if s.inflight > 0 then
        .waiting 5 (.popping (.before spinTries) 0 .outside) else .sizing))
    | _ => none
  | .loadSize =>
    match s.turn with
    | .sizing => some (s.setTurn (.waiting (if s.queue.length > 0 then 5 else 200)
        (.popping (.before spinTries) 0 .outside)))
    | _ => none
  | .slot slot =>
    match s.turn with
    | .waiting slice (.popping sweep read .outside) =>
      -- a length that no slot has is dropped
      some (if slot.req.payload.length > ReqRing.kPayloadMax then s.leave slice sweep read
        else s.setTurn (.waiting slice (.popping sweep read (.entered slot))))
    | _ => none
  | .copy ok =>
    match s.turn with
    | .waiting slice (.popping sweep read (.entered slot)) =>
      some (if ok then { s with
          turn := .waiting slice (.popping sweep read (.counted slot)), inflight := s.inflight + 1 }
        else s.leave slice sweep read)
    | _ => none
  | .post ok =>
    match s.turn with
    | .waiting slice (.popping sweep read (.counted slot)) =>
      some (if ok then { s.leave slice sweep read with tasks := s.tasks ++ [⟨slot, false⟩] }
        else s.setTurn (.waiting slice (.popping sweep read .refused)))
    | _ => none
  | .rollback =>
    match s.turn with
    | .waiting slice (.popping sweep read .refused) =>
      some { s.leave slice sweep read with inflight := s.inflight - 1 }
    | _ => none
  | .swept =>
    match s.turn with
    | .waiting slice (.popping sweep read .outside) =>
      match Waiting.popped sweep (UInt32.ofNat read) with
      | some w => some (s.setTurn (.waiting slice w))
      | none => some (s.setTurn .flushing)
    | _ => none
  | .pollReturns wake =>
    match s.turn with
    | .waiting slice .polling => some (s.setTurn (.waiting slice (.woken wake)))
    | _ => none
  | .pollFails =>
    match s.turn with
    | .waiting _ .polling => some (s.setTurn .flushing)
    | _ => none
  | .drainFifo =>
    match s.turn with
    | .waiting slice (.woken wake) =>
      some (s.setTurn (if wake then .flushing else .waiting slice (.popping .last 0 .outside)))
    | _ => none
  | .drain =>
    match s.turn with
    | .flushing => some { s with turn := .beating, queue := [] }
    | _ => none
  | .beat dead =>
    match s.turn with
    | .beating => some { s with turn := .head, stopping := s.stopping || dead }
    | _ => none
  | .throws =>
    match s.turn with
    -- `post` and what follows it catch everything
    | .waiting _ (.popping _ _ (.counted _)) => none
    | .waiting _ (.popping _ _ .refused) => none
    | .head => none
    | .exited => none
    | _ => some (s.setTurn .head)
  | .stop => some { s with stopping := true }
  | .answer i frame =>
    match s.tasks[i]? with
    | some ⟨slot, false⟩ => some { s with
        tasks := s.tasks.set i ⟨slot, true⟩, queue := s.queue ++ slot.reply frame }
    | _ => none
  | .finish i =>
    match s.tasks[i]? with
    | some ⟨_, true⟩ =>
      some { s with tasks := s.tasks.eraseIdx i, inflight := s.inflight - 1 }
    | _ => none

/-- All interleavings of the reader with its tasks. -/
def machine (spinTries : Nat) : Machine Reader ReaderEvent where
  init s := s.turn = .head ∧ s.inflight = 0 ∧ s.queue = [] ∧ s.tasks = []
  next := next spinTries

/-! ## What the counter counts -/

end Reader

/-- The request that is counted and not posted yet, or not any more. -/
def Turn.handing : Turn → Nat
  | .waiting _ (.popping _ _ (.counted _)) => 1
  | .waiting _ (.popping _ _ .refused) => 1
  | _ => 0

/-- The callbacks of the `pop_once` that the reader is in. -/
def Turn.read : Turn → Nat
  | .waiting _ (.popping _ read _) => read
  | _ => 0

/-- The reader waits long, and no request has come meanwhile. -/
def Turn.LongWait : Turn → Prop
  | .waiting slice (.popping _ read _) => slice = 200 ∧ read = 0
  | .waiting slice _ => slice = 200
  | _ => False

namespace Reader

variable {spinTries : Nat} {s t : Reader} {slice : Nat}

/-- There is room in both counters. -/
def Few (s : Reader) : ReaderEvent → Prop
  | .copy true => s.tasks.length + 1 < 2 ^ 32
  | .swept => s.turn.read < 2 ^ 32
  | _ => True

instance (s : Reader) (e : ReaderEvent) : Decidable (s.Few e) := by
  unfold Few
  split <;> infer_instance

/-- The tasks, and the one that is being handed over. -/
def outstanding (s : Reader) : Nat := s.tasks.length + s.turn.handing

structure Inv (s : Reader) : Prop where
  count : s.inflight = UInt32.ofNat s.outstanding
  few : s.outstanding < 2 ^ 32
  sizing : s.turn = .sizing → s.tasks = []
  idle : s.turn.LongWait → s.tasks = [] ∧ s.queue = []

namespace Inv

theorem inflight_toNat (h : Inv s) : s.inflight.toNat = s.outstanding := by
  rw [h.count]
  exact UInt32.toNat_ofNat_of_lt' h.few

/-- A step that only moves the reader. -/
theorem setTurn (h : Inv s) {turn : Turn} (hhanding : turn.handing = s.turn.handing)
    (hsizing : turn = .sizing → s.tasks = [])
    (hidle : turn.LongWait → s.tasks = [] ∧ s.queue = []) : Inv (s.setTurn turn) := by
  refine ⟨?_, ?_, hsizing, hidle⟩
  · unfold outstanding Reader.setTurn
    rw [hhanding]
    exact h.count
  · unfold outstanding Reader.setTurn
    rw [hhanding]
    exact h.few

/-- A callback that hands nothing over. -/
theorem leave (h : Inv s) {sweep : Sweep} {read : Nat} (hhanding : s.turn.handing = 0) :
    Inv (s.leave slice sweep read) :=
  h.setTurn (by rw [hhanding]; rfl) nofun fun hlong => absurd hlong.2 (Nat.succ_ne_zero _)

/-- `pop_once` returns. -/
theorem swept (h : Inv s) {sweep : Sweep} {read : Nat}
    (hturn : s.turn = .waiting slice (.popping sweep read .outside)) (hfew : read < 2 ^ 32)
    {w : Waiting} (hw : Waiting.popped sweep (UInt32.ofNat read) = some w) :
    Inv (s.setTurn (.waiting slice w)) := by
  -- the count is 0 only when nothing was read
  unfold Waiting.popped at hw
  split at hw
  next => cases hw
  next hzero =>
    have hread : read = 0 := by
      rw [gt_iff_lt, UInt32.lt_iff_toNat_lt, UInt32.toNat_ofNat_of_lt' hfew] at hzero
      exact Nat.le_zero.mp (Nat.not_lt.mp hzero)
    have hidle : slice = 200 → s.tasks = [] ∧ s.queue = [] := by
      intro hslice
      refine h.idle ?_
      rw [hturn]
      exact ⟨hslice, hread⟩
    have hhanding : s.turn.handing = 0 := by rw [hturn]; rfl
    split at hw
    next => cases hw; exact h.setTurn (by rw [hhanding]; rfl) nofun fun hlong => hidle hlong.1
    next => cases hw; exact h.setTurn (by rw [hhanding]; rfl) nofun hidle
    next => cases hw

/-- A task has pushed its reply, or nothing. -/
theorem answer (h : Inv s) {i : Nat} {slot : ReqSlot} (htask : s.tasks[i]? = some ⟨slot, false⟩)
    (queue : List ReplyItem) : Inv { s with tasks := s.tasks.set i ⟨slot, true⟩, queue } := by
  have hne : s.tasks ≠ [] := by
    intro hnil
    rw [hnil] at htask
    cases htask
  refine ⟨?_, ?_, fun hsizing => absurd (h.sizing hsizing) hne, fun hlong => absurd (h.idle hlong).1 hne⟩
  · simpa only [outstanding, List.length_set] using h.count
  · simpa only [outstanding, List.length_set] using h.few

/-- A task takes itself off the counter. -/
theorem finish (h : Inv s) {i : Nat} (htask : (s.tasks[i]?).isSome = true) :
    Inv { s with tasks := s.tasks.eraseIdx i, inflight := s.inflight - 1 } := by
  have hi : i < s.tasks.length := by simpa using htask
  have hlen : s.tasks.length = (s.tasks.eraseIdx i).length + 1 := by
    rw [List.length_eraseIdx_of_lt hi]
    omega
  have hnil : s.tasks ≠ [] := List.ne_nil_of_length_pos (Nat.lt_of_le_of_lt (Nat.zero_le _) hi)
  refine ⟨?_, ?_, fun hsizing => absurd (h.sizing hsizing) hnil,
    fun hlong => absurd (h.idle hlong).1 hnil⟩
  · have hcount := h.count
    unfold outstanding at hcount ⊢
    rw [hcount, hlen, Nat.add_right_comm, UInt32.ofNat_add]
    exact UInt32.add_sub_cancel _ _
  · have hfew := h.few
    unfold outstanding at hfew
    change (s.tasks.eraseIdx i).length + s.turn.handing < 2 ^ 32
    omega

theorem init (h : (machine spinTries).init s) : Inv s := by
  obtain ⟨hturn, hinflight, -, htasks⟩ := h
  refine ⟨?_, ?_, fun _ => htasks, fun hlong => ?_⟩
  · rw [hinflight, outstanding, htasks, hturn]
    rfl
  · rw [outstanding, htasks, hturn]
    decide
  · rw [hturn] at hlong
    exact hlong.elim

theorem step (h : Inv s) {e : ReaderEvent} (hfew : s.Few e) (hs : s.next spinTries e = some t) :
    Inv t := by
  cases e with
  | loop =>
    simp only [next] at hs
    split at hs
    next hturn =>
      cases hs
      refine h.setTurn ?_ ?_ ?_
      · rw [hturn]
        split <;> rfl
      · split <;> nofun
      · split <;> exact False.elim
    next => cases hs
  | loadInflight =>
    simp only [next] at hs
    split at hs
    next hturn =>
      cases hs
      have hhanding : s.turn.handing = 0 := by rw [hturn]; rfl
      split
      next => exact h.setTurn (by rw [hhanding]; rfl) nofun fun hlong => absurd hlong.1 (by decide)
      next hzero =>
        -- the counter is 0, so there is no task
        refine h.setTurn (by rw [hhanding]; rfl) (fun _ => ?_) False.elim
        rw [gt_iff_lt, UInt32.lt_iff_toNat_lt, h.inflight_toNat, outstanding, hhanding] at hzero
        exact List.length_eq_zero_iff.mp (Nat.le_zero.mp (Nat.not_lt.mp hzero))
    next => cases hs
  | loadSize =>
    simp only [next] at hs
    split at hs
    next hturn =>
      cases hs
      refine h.setTurn (by rw [hturn]; rfl) nofun fun hlong => ⟨h.sizing hturn, ?_⟩
      have hslice := hlong.1
      split at hslice
      next => cases hslice
      next hzero => exact List.length_eq_zero_iff.mp (Nat.le_zero.mp (Nat.not_lt.mp hzero))
    next => cases hs
  | slot slot =>
    simp only [next] at hs
    split at hs
    next hturn =>
      cases hs
      have hhanding : s.turn.handing = 0 := by rw [hturn]; rfl
      split
      next => exact h.leave hhanding
      next =>
        refine h.setTurn (by rw [hhanding]; rfl) nofun fun hlong => h.idle ?_
        rw [hturn]
        exact hlong
    next => cases hs
  | copy ok =>
    simp only [next] at hs
    split at hs
    next slice sweep read slot hturn =>
      cases hs
      have hhanding : s.turn.handing = 0 := by rw [hturn]; rfl
      cases ok with
      | false => exact h.leave hhanding
      | true =>
        have hcount := h.count
        rw [outstanding, hhanding] at hcount
        refine ⟨?_, hfew, nofun, fun hlong => h.idle ?_⟩
        · change s.inflight + 1 = _
          rw [hcount]
          exact (UInt32.ofNat_add _ 1).symm
        · rw [hturn]
          exact hlong
    next => cases hs
  | post ok =>
    simp only [next] at hs
    split at hs
    next slice sweep read slot hturn =>
      cases hs
      have hhanding : s.turn.handing = 1 := by rw [hturn]; rfl
      cases ok with
      | false =>
        refine h.setTurn (by rw [hhanding]; rfl) nofun fun hlong => h.idle ?_
        rw [hturn]
        exact hlong
      | true =>
        have hsame : s.outstanding = (s.tasks ++ [(⟨slot, false⟩ : BizTask)]).length + 0 := by
          rw [outstanding, hhanding, List.length_append]
          rfl
        exact ⟨h.count.trans (congrArg _ hsame), lt_of_eq_of_lt hsame.symm h.few, nofun,
          fun hlong => absurd hlong.2 (Nat.succ_ne_zero _)⟩
    next => cases hs
  | rollback =>
    simp only [next] at hs
    split at hs
    next slice sweep read hturn =>
      cases hs
      have hhanding : s.turn.handing = 1 := by rw [hturn]; rfl
      have hcount := h.count
      have hlt := h.few
      rw [outstanding, hhanding] at hcount hlt
      refine ⟨?_, Nat.lt_of_succ_lt hlt, nofun, fun hlong => absurd hlong.2 (Nat.succ_ne_zero _)⟩
      change s.inflight - 1 = UInt32.ofNat (s.tasks.length + 0)
      rw [hcount, UInt32.ofNat_add]
      exact UInt32.add_sub_cancel _ _
    next => cases hs
  | swept =>
    simp only [next] at hs
    split at hs
    next slice sweep read hturn =>
      have hread : read < 2 ^ 32 := by
        have hfew : s.turn.read < 2 ^ 32 := hfew
        rwa [hturn] at hfew
      split at hs
      next w hw => cases hs; exact h.swept hturn hread hw
      next => cases hs; exact h.setTurn (by rw [hturn]; rfl) nofun False.elim
    next => cases hs
  | pollReturns wake =>
    simp only [next] at hs
    split at hs
    next hturn =>
      cases hs
      refine h.setTurn (by rw [hturn]; rfl) nofun fun hlong => h.idle ?_
      rw [hturn]
      exact hlong
    next => cases hs
  | pollFails =>
    simp only [next] at hs
    split at hs
    next hturn => cases hs; exact h.setTurn (by rw [hturn]; rfl) nofun False.elim
    next => cases hs
  | drainFifo =>
    simp only [next] at hs
    split at hs
    next wake hturn =>
      cases hs
      have hhanding : s.turn.handing = 0 := by rw [hturn]; rfl
      split
      next => exact h.setTurn (by rw [hhanding]; rfl) nofun False.elim
      next =>
        refine h.setTurn (by rw [hhanding]; rfl) nofun fun hlong => h.idle ?_
        rw [hturn]
        exact hlong.1
    next => cases hs
  | drain =>
    simp only [next] at hs
    split at hs
    next hturn =>
      cases hs
      have hmoved := (h.setTurn (by rw [hturn]; rfl) nofun False.elim : Inv (s.setTurn .beating))
      exact ⟨hmoved.count, hmoved.few, nofun, False.elim⟩
    next => cases hs
  | beat dead =>
    simp only [next] at hs
    split at hs
    next hturn =>
      cases hs
      have hmoved := (h.setTurn (by rw [hturn]; rfl) nofun False.elim : Inv (s.setTurn .head))
      exact ⟨hmoved.count, hmoved.few, nofun, False.elim⟩
    next => cases hs
  | throws =>
    simp only [next] at hs
    split at hs
    next => cases hs
    next => cases hs
    next => cases hs
    next => cases hs
    next hcounted hrefused _ _ =>
      cases hs
      refine h.setTurn (Eq.symm ?_) nofun False.elim
      change s.turn.handing = 0
      unfold Turn.handing
      split
      next hturn => exact absurd hturn (hcounted _ _ _ _)
      next hturn => exact absurd hturn (hrefused _ _ _)
      next => rfl
  | stop => cases hs; exact ⟨h.count, h.few, h.sizing, h.idle⟩
  | answer i frame =>
    simp only [next] at hs
    split at hs
    next htask => cases hs; exact h.answer htask _
    next => cases hs
  | finish i =>
    simp only [next] at hs
    split at hs
    next htask => cases hs; exact h.finish (by rw [htask]; rfl)
    next => cases hs

end Inv

theorem inv_of_reachable (h : (machine spinTries).ReachableWhile Few s) : Inv s :=
  Machine.invariant (fun _ hs => .init hs) (fun _ _ _ hs hfew ht => hs.step hfew ht) h

/-- The steps that take one off the counter. -/
def takesOff : ReaderEvent → Bool
  | .rollback | .finish _ => true
  | _ => false

/-- Only what was counted is taken off. -/
theorem Inv.takesOff (h : Inv s) {e : ReaderEvent} (he : takesOff e = true)
    (hs : s.next spinTries e = some t) :
    0 < s.inflight.toNat ∧ t.inflight = s.inflight - 1 := by
  rw [h.inflight_toNat, outstanding]
  cases e with
  | rollback =>
    simp only [next] at hs
    split at hs
    next hturn =>
      cases hs
      rw [hturn]
      exact ⟨Nat.succ_pos _, rfl⟩
    next => cases hs
  | finish i =>
    simp only [next] at hs
    split at hs
    next htask =>
      cases hs
      have hi := (List.getElem?_eq_some_iff.mp htask).1
      exact ⟨by omega, rfl⟩
    next => cases hs
  | _ => cases he

/-- **The reader does not wait long over its tasks.** In `poll` with the slice
of 200 ms, and in the sweeps before and behind it that find nothing, every task
has finished and the queue is empty. The counter is the tasks that are posted
and not finished, and the request that is being handed over, and nothing is
taken off it when it is 0. -/
theorem long_wait_idle (h : (machine spinTries).ReachableWhile Few s) :
    (s.turn.LongWait → s.tasks = [] ∧ s.queue = []) ∧
    s.inflight.toNat = s.tasks.length + s.turn.handing ∧
    ∀ e t, takesOff e = true → s.next spinTries e = some t → 0 < s.inflight.toNat ∧
      t.inflight.toNat + 1 = s.inflight.toNat := by
  have hinv := inv_of_reachable h
  refine ⟨hinv.idle, hinv.inflight_toNat, fun e t he hs => ?_⟩
  obtain ⟨hpos, heq⟩ := hinv.takesOff he hs
  refine ⟨hpos, ?_⟩
  have hone : (1 : UInt32) ≤ s.inflight := UInt32.le_iff_toNat_le.mpr hpos
  rw [heq, UInt32.toNat_sub_of_le _ _ hone]
  exact Nat.sub_add_cancel hpos

/-- Before the first turn. -/
def fresh : Reader := ⟨.head, 0, [], [], false⟩

theorem fresh_init : (machine spinTries).init fresh := ⟨rfl, rfl, rfl, rfl⟩

/-- A request without a payload. -/
def ping : ReqSlot := ⟨⟨7, 1, 1, []⟩, false, ⟨0, 7⟩⟩

/-- A turn up to the first `pop_once`. -/
def turns : List ReaderEvent := [.loop, .loadInflight, .loadSize]

/-- A request is read and answered, and then the reader waits long. -/
theorem long_wait_idle_after_one :
    ∃ s : Reader, s.turn = .waiting 200 .polling ∧ s.tasks = [] ∧ s.queue = [] ∧
      s.inflight.toNat = s.tasks.length + s.turn.handing := by
  obtain ⟨s, hreach, hturn⟩ :
      ∃ s, (machine 0).ReachableWhile Few s ∧ s.turn = .waiting 200 .polling :=
    Machine.exists_of_playWhile (fun _ _ => of_decide_eq_true) fresh fresh_init
      (turns ++ [.slot ping, .copy true, .post true, .swept, .drain, .beat false, .answer 0 none,
        .finish 0] ++ turns ++ [.swept]) (by decide +kernel)
  obtain ⟨hidle, hcount, -⟩ := long_wait_idle hreach
  obtain ⟨htasks, hqueue⟩ := hidle (by rw [hturn]; rfl)
  exact ⟨s, hturn, htasks, hqueue, hcount⟩

/-! ## Where the counter is not the tasks -/

/-- In one `pop_once` the reader hands any number of requests over. -/
theorem hands_over (n : Nat) :
    ∃ s, (machine 0).Reachable s ∧ s.turn = .waiting 200 (.popping (.before 0) n .outside) ∧
      s.tasks.length = n := by
  induction n with
  | zero =>
    exact Machine.exists_of_play fresh fresh_init turns (by decide)
  | succ n ih =>
    obtain ⟨⟨turn, inflight, queue, tasks, stopping⟩, hreach, rfl, hlen⟩ := ih
    have hplay : (machine 0).play
        ⟨.waiting 200 (.popping (.before 0) n .outside), inflight, queue, tasks, stopping⟩
        [.slot ping, .copy true, .post true] =
        some ⟨.waiting 200 (.popping (.before 0) (n + 1) .outside), inflight + 1, queue,
          tasks ++ [⟨ping, false⟩], stopping⟩ := rfl
    refine ⟨_, Machine.reachable_of_play hreach hplay, rfl, ?_⟩
    rw [← hlen]
    exact List.length_append

/-- Between `fetch_add` and `post` the counter is one ahead; and after `2 ^ 32`
requests in one `pop_once`, which then returns 0, the reader waits long over
tasks that have not begun. -/
theorem counter_ahead_and_long_wait :
    (∃ s, (machine 0).Reachable s ∧ s.inflight.toNat = 1 ∧ s.tasks = []) ∧
    ∃ s, (machine 0).Reachable s ∧ s.turn = .waiting 200 .polling ∧ s.tasks.length = 2 ^ 32 := by
  constructor
  · exact Machine.exists_of_play fresh fresh_init (turns ++ [.slot ping, .copy true]) (by decide)
  · obtain ⟨s, hreach, hturn, hlen⟩ := hands_over (2 ^ 32)
    have hzero : UInt32.ofNat (2 ^ 32) = 0 := rfl
    have hs : s.next 0 .swept = some (s.setTurn (.waiting 200 .polling)) := by
      simp only [next, hturn, hzero, Waiting.popped]
      rfl
    exact ⟨_, .step (e := .swept) hreach trivial hs, rfl, hlen⟩

end Reader

end SharedBike.Dispatch
