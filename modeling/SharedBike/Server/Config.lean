import SharedBike.Ipc.SpscRing
import SharedBike.Lib.MachineInt

/-!
# The configuration

`config.cpp`. A section of the TOML document is read key by key over the
defaults, and the ranges are checked after that: a value below its range is
refused, a value above it is refused or cut down, key by key.

`get_or` reads a 64-bit integer. All but two of the numeric fields are `int`, so
the assignment narrows the value before any check sees it. A value that does not
fit an `int` is checked and stored as another one: the port `4294976184` is
taken as `8888`. `loadConfig_stored_iff` says for which values a key is stored as
its range asks.

The TOML library is the input here: what `parse_file` returns or throws, and
what `value<T>()` gives for a node.
-/

namespace SharedBike.Server

open SharedBike.Ipc SharedBike.Lib.MachineInt

/-! ## The document -/

/-- A node, by its kind. The library converts some of the other kinds, which the
node carries. -/
inductive TomlNode where
  | integer (v : Int64)
  | text (s : String)
  | other (asInteger : Option Int64) (asText : Option String)

namespace TomlNode

/-- `value<std::int64_t>()`. -/
def toInteger : TomlNode → Option Int64
  | .integer v => some v
  | .text _ => none
  | .other v _ => v

/-- `value<std::string>()`. -/
def toText : TomlNode → Option String
  | .integer _ => none
  | .text s => some s
  | .other _ s => s

end TomlNode

abbrev TomlTable := List (String × TomlNode)

/-- The tables of the root, under their names. -/
abbrev TomlRoot := List (String × TomlTable)

def getOr {T : Type} (value : TomlNode → Option T) (t : TomlTable) (key : String) (dflt : T) : T :=
  match t.lookup key with
  | none => dflt
  | some node => (value node).getD dflt

def getText : TomlTable → String → String → String := getOr TomlNode.toText

def getInt64 : TomlTable → String → Int64 → Int64 := getOr TomlNode.toInteger

/-- A `get_or<std::int64_t>` whose result is assigned to an `int`. -/
def getInt (t : TomlTable) (key : String) (dflt : Int32) : Int32 :=
  (getInt64 t key dflt.toInt64).toInt32

/-! ## The sections -/

namespace Config

structure ServerSection where
  listen : String := "0.0.0.0"
  port : Int32 := 8888
  deriving DecidableEq

structure MysqlSection where
  host : String := "127.0.0.1"
  port : Int32 := 3306
  user : String := "bike"
  password : String := ""
  database : String := "shared_bike"
  poolSize : Int32 := 8
  deriving DecidableEq

structure RedisSection where
  host : String := "127.0.0.1"
  port : Int32 := 6379
  poolSize : Int32 := 4
  deriving DecidableEq

structure LogSection where
  level : String := "info"
  file : String := "/var/log/bike-server/server.log"
  deriving DecidableEq

structure UringSection where
  sqDepth : Int32 := 256
  cqDepth : Int32 := 512
  workers : Int32 := 8
  rxBufBytes : Int64 := 65536
  sendBacklogLimitBytes : Int64 := 1048576
  idleTimeoutMs : Int32 := 60000
  acceptBacklog : Int32 := 1024
  deriving DecidableEq

structure IpcSection where
  mode : String := "ring"
  shmRoot : String := "/dev/shm"
  shmPrefix : String := "bike"
  inst : Int32 := 0
  openTimeoutMs : Int32 := 10000
  peerTimeoutMs : Int32 := 5000
  spinTries : Int32 := 64
  dispatchWorkers : Int32 := 8
  reqRingSlots : Int32 := 512
  rspRingSlots : Int32 := 256
  deriving DecidableEq

end Config

structure Config where
  server : Config.ServerSection := {}
  mysql : Config.MysqlSection := {}
  redis : Config.RedisSection := {}
  log : Config.LogSection := {}
  uring : Config.UringSection := {}
  ipc : Config.IpcSection := {}
  deriving DecidableEq

namespace Config

/-- The key `threads`, which only prints a warning, is not read. -/
def ServerSection.read (s : TomlTable) (d : ServerSection) : ServerSection where
  listen := getText s "listen" d.listen
  port := getInt s "port" d.port

def MysqlSection.read (m : TomlTable) (d : MysqlSection) : MysqlSection where
  host := getText m "host" d.host
  port := getInt m "port" d.port
  user := getText m "user" d.user
  password := getText m "password" d.password
  database := getText m "database" d.database
  poolSize := getInt m "pool_size" d.poolSize

def RedisSection.read (r : TomlTable) (d : RedisSection) : RedisSection where
  host := getText r "host" d.host
  port := getInt r "port" d.port
  poolSize := getInt r "pool_size" d.poolSize

def LogSection.read (l : TomlTable) (d : LogSection) : LogSection where
  level := getText l "level" d.level
  file := getText l "file" d.file

def UringSection.read (u : TomlTable) (d : UringSection) : UringSection where
  sqDepth := getInt u "sq_depth" d.sqDepth
  cqDepth := getInt u "cq_depth" d.cqDepth
  workers := getInt u "workers" d.workers
  rxBufBytes := getInt64 u "rx_buf_bytes" d.rxBufBytes
  sendBacklogLimitBytes := getInt64 u "send_backlog_limit_bytes" d.sendBacklogLimitBytes
  idleTimeoutMs := getInt u "idle_timeout_ms" d.idleTimeoutMs
  acceptBacklog := getInt u "accept_backlog" d.acceptBacklog

def IpcSection.read (i : TomlTable) (d : IpcSection) : IpcSection where
  mode := getText i "mode" d.mode
  shmRoot := getText i "shm_root" d.shmRoot
  shmPrefix := getText i "shm_prefix" d.shmPrefix
  inst := getInt i "instance" d.inst
  openTimeoutMs := getInt i "open_timeout_ms" d.openTimeoutMs
  peerTimeoutMs := getInt i "peer_timeout_ms" d.peerTimeoutMs
  spinTries := getInt i "spin_tries" d.spinTries
  dispatchWorkers := getInt i "dispatch_workers" d.dispatchWorkers
  reqRingSlots := getInt i "req_ring_slots" d.reqRingSlots
  rspRingSlots := getInt i "rsp_ring_slots" d.rspRingSlots

end Config

/-! ## The checks -/

/-- `if (fails) bad(msg)`. -/
def badIf (fails : Prop) [Decidable fails] (msg : String) : Except String Unit :=
  if fails then .error ("invalid config: " ++ msg) else .ok ()

/-- `if (x > high) x = high`. -/
def cap {T : Type} [LT T] [DecidableLT T] (high x : T) : T := if x > high then high else x

def validateUring (u : Config.UringSection) : Except String Config.UringSection := do
  badIf (u.sqDepth < 16) "[uring].sq_depth must be >= 16"
  let sqDepth := cap 65536 u.sqDepth
  badIf (u.cqDepth < 16) "[uring].cq_depth must be >= 16"
  let cqDepth := cap 131072 (if u.cqDepth < sqDepth then sqDepth else u.cqDepth)
  badIf (u.workers < 1) "[uring].workers must be >= 1"
  let workers := cap 1024 u.workers
  badIf (u.rxBufBytes < 4096) "[uring].rx_buf_bytes must be >= 4096"
  let rxBufBytes := cap (16 * 1024 * 1024) u.rxBufBytes
  badIf (u.sendBacklogLimitBytes < 1) "[uring].send_backlog_limit_bytes must be >= 1"
  badIf (u.idleTimeoutMs < 0) "[uring].idle_timeout_ms must be >= 0 (0 = disable sweep)"
  let idleTimeoutMs := cap 3600000 u.idleTimeoutMs
  badIf (u.acceptBacklog < 1) "[uring].accept_backlog must be >= 1"
  let acceptBacklog := cap 65535 u.acceptBacklog
  return ⟨sqDepth, cqDepth, workers, rxBufBytes, u.sendBacklogLimitBytes, idleTimeoutMs,
    acceptBacklog⟩

def validateIpc (ipc : Config.IpcSection) : Except String Unit := do
  badIf (ipc.mode ≠ "ring" ∧ ipc.mode ≠ "inprocess")
    "[ipc].mode must be \"ring\" or \"inprocess\""
  badIf (ipc.shmPrefix = "") "[ipc].shm_prefix must be non-empty"
  badIf (ipc.inst < 0 ∨ ipc.inst > 99) "[ipc].instance must be in [0, 99]"
  badIf (ipc.openTimeoutMs < 100) "[ipc].open_timeout_ms must be >= 100"
  badIf (ipc.peerTimeoutMs < 100) "[ipc].peer_timeout_ms must be >= 100"
  badIf (ipc.spinTries < 0 ∨ ipc.spinTries > 10000) "[ipc].spin_tries must be in [0, 10000]"
  badIf (ipc.dispatchWorkers < 1 ∨ ipc.dispatchWorkers > 1024)
    "[ipc].dispatch_workers must be in [1, 1024]"
  badIf (ipc.reqRingSlots ≠ ReqRing.kSlotCount.toInt32)
    ("[ipc].req_ring_slots must equal compiled ReqRing::kSlotCount (" ++
      toString ReqRing.kSlotCount ++ ")")
  badIf (ipc.rspRingSlots ≠ RspRing.kSlotCount.toInt32)
    ("[ipc].rsp_ring_slots must equal compiled RspRing::kSlotCount (" ++
      toString RspRing.kSlotCount ++ ")")

/-- `if (auto* t = root[name].as_table())`: the section is read over its defaults. -/
def readSection {α : Type} (root : TomlRoot) (name : String) (read : TomlTable → α → α) (d : α) :
    α :=
  match root.lookup name with
  | some t => read t d
  | none => d

/-- `load_config`, from what the parser returns or the text of what it throws. -/
def loadConfig (parsed : Except String TomlRoot) : Except String Config := do
  let root ← parsed.mapError ("config parse failed: " ++ ·)
  let cfg : Config := {}
  let server := readSection root "server" Config.ServerSection.read cfg.server
  badIf (server.port < 1 ∨ server.port > 65535) "[server].port must be in [1, 65535]"
  let mysql := readSection root "mysql" Config.MysqlSection.read cfg.mysql
  let redis := readSection root "redis" Config.RedisSection.read cfg.redis
  let log := readSection root "log" Config.LogSection.read cfg.log
  let uring ← validateUring (readSection root "uring" Config.UringSection.read cfg.uring)
  let ipc := readSection root "ipc" Config.IpcSection.read cfg.ipc
  validateIpc ipc
  return ⟨server, mysql, redis, log, uring, ipc⟩

example : loadConfig (.ok []) = .ok {} := by decide

/-! ## The rules of the keys -/

/-- What a key's error text and comment ask of its value. -/
inductive Rule where
  | free
  | atLeast (low : Int)
  | within (low high : Int)
  /-- refused below `least`, else moved into the range -/
  | clamped (least low high : Int)

namespace Rule

/-- What the rule stores for a value; `none` is a refusal. -/
def apply : Rule → Int → Option Int
  | .free, x => some x
  | .atLeast low, x => if low ≤ x then some x else none
  | .within low high, x => if low ≤ x ∧ x ≤ high then some x else none
  | .clamped least low high, x => if least ≤ x then some (max low (min x high)) else none

/-- The numbers of a rule are numbers of its field. -/
def Proper : Rule → Prop
  | .free => True
  | .atLeast low => Fits low
  | .within low high => Fits low ∧ Fits high
  | .clamped least low high => Fits least ∧ low < high ∧ Fits high

/-- Both values lie past the upper end of a range that is clamped. -/
def BothAbove (r : Rule) (x y : Int) : Prop :=
  ∃ least low high, r = .clamped least low high ∧ high ≤ x ∧ high ≤ y

/-- A value that does not fit the field is stored as another one that does. The
rule would have done the same only where both are cut down to the upper end. -/
theorem apply_eq_iff {r : Rule} (hr : r.Proper) {t v stored : Int} (ht : Fits t) (hv : ¬ Fits v)
    (hstored : r.apply t = some stored) : r.apply v = some stored ↔ r.BothAbove v t := by
  have hne : v ≠ t := fun h => hv (h ▸ ht)
  unfold Fits at ht hv
  cases r with
  | free =>
    simp only [apply, Option.some.injEq] at hstored ⊢
    simp only [BothAbove, reduceCtorEq, false_and, exists_false, iff_false]
    omega
  | atLeast low | within low high =>
    simp only [apply, Option.ite_none_right_eq_some, Option.some.injEq] at hstored ⊢
    simp only [BothAbove, reduceCtorEq, false_and, exists_false, iff_false]
    omega
  | clamped least low high =>
    obtain ⟨hleast, hlt, hhigh⟩ := hr
    unfold Fits at hleast hhigh
    simp only [apply, Option.ite_none_right_eq_some, Option.some.injEq] at hstored ⊢
    obtain ⟨-, rfl⟩ := hstored
    constructor
    · rintro ⟨hv', hsame⟩
      have habove : high ≤ v := by omega
      refine ⟨least, low, high, rfl, habove, ?_⟩
      rw [min_eq_right habove, max_eq_right hlt.le] at hsame
      omega
    · rintro ⟨_, _, _, heq, hv', ht'⟩
      cases heq
      refine ⟨by omega, ?_⟩
      rw [min_eq_right hv', min_eq_right ht']

end Rule

/-! ## The keys -/

/-- The numeric keys, by section. -/
inductive Key where
  | serverPort
  | mysqlPort
  | mysqlPoolSize
  | redisPort
  | redisPoolSize
  | sqDepth
  | cqDepth
  | workers
  | rxBufBytes
  | sendBacklogLimitBytes
  | idleTimeoutMs
  | acceptBacklog
  | inst
  | openTimeoutMs
  | peerTimeoutMs
  | spinTries
  | dispatchWorkers
  | reqRingSlots
  | rspRingSlots
  deriving DecidableEq

namespace Key

/-- The table and the name of a key in the document. -/
def table : Key → String
  | .serverPort => "server"
  | .mysqlPort | .mysqlPoolSize => "mysql"
  | .redisPort | .redisPoolSize => "redis"
  | .sqDepth | .cqDepth | .workers | .rxBufBytes | .sendBacklogLimitBytes | .idleTimeoutMs
  | .acceptBacklog => "uring"
  | .inst | .openTimeoutMs | .peerTimeoutMs | .spinTries | .dispatchWorkers | .reqRingSlots
  | .rspRingSlots => "ipc"

def name : Key → String
  | .serverPort | .mysqlPort | .redisPort => "port"
  | .mysqlPoolSize | .redisPoolSize => "pool_size"
  | .sqDepth => "sq_depth"
  | .cqDepth => "cq_depth"
  | .workers => "workers"
  | .rxBufBytes => "rx_buf_bytes"
  | .sendBacklogLimitBytes => "send_backlog_limit_bytes"
  | .idleTimeoutMs => "idle_timeout_ms"
  | .acceptBacklog => "accept_backlog"
  | .inst => "instance"
  | .openTimeoutMs => "open_timeout_ms"
  | .peerTimeoutMs => "peer_timeout_ms"
  | .spinTries => "spin_tries"
  | .dispatchWorkers => "dispatch_workers"
  | .reqRingSlots => "req_ring_slots"
  | .rspRingSlots => "rsp_ring_slots"

/-- The number a configuration holds for a key. -/
def stored (cfg : Config) : Key → Int
  | .serverPort => cfg.server.port.toInt
  | .mysqlPort => cfg.mysql.port.toInt
  | .mysqlPoolSize => cfg.mysql.poolSize.toInt
  | .redisPort => cfg.redis.port.toInt
  | .redisPoolSize => cfg.redis.poolSize.toInt
  | .sqDepth => cfg.uring.sqDepth.toInt
  | .cqDepth => cfg.uring.cqDepth.toInt
  | .workers => cfg.uring.workers.toInt
  | .rxBufBytes => cfg.uring.rxBufBytes.toInt
  | .sendBacklogLimitBytes => cfg.uring.sendBacklogLimitBytes.toInt
  | .idleTimeoutMs => cfg.uring.idleTimeoutMs.toInt
  | .acceptBacklog => cfg.uring.acceptBacklog.toInt
  | .inst => cfg.ipc.inst.toInt
  | .openTimeoutMs => cfg.ipc.openTimeoutMs.toInt
  | .peerTimeoutMs => cfg.ipc.peerTimeoutMs.toInt
  | .spinTries => cfg.ipc.spinTries.toInt
  | .dispatchWorkers => cfg.ipc.dispatchWorkers.toInt
  | .reqRingSlots => cfg.ipc.reqRingSlots.toInt
  | .rspRingSlots => cfg.ipc.rspRingSlots.toInt

/-- The rule of a key. The completion queue must not be smaller than the
submission queue, and the slot counts are those of the compiled rings. -/
def rule (cfg : Config) : Key → Rule
  | .serverPort => .within 1 65535
  | .mysqlPort | .mysqlPoolSize | .redisPort | .redisPoolSize => .free
  | .sqDepth => .clamped 16 16 65536
  | .cqDepth => .clamped 16 cfg.uring.sqDepth.toInt 131072
  | .workers => .clamped 1 1 1024
  | .rxBufBytes => .clamped 4096 4096 16777216
  | .sendBacklogLimitBytes => .atLeast 1
  | .idleTimeoutMs => .clamped 0 0 3600000
  | .acceptBacklog => .clamped 1 1 65535
  | .inst => .within 0 99
  | .openTimeoutMs | .peerTimeoutMs => .atLeast 100
  | .spinTries => .within 0 10000
  | .dispatchWorkers => .within 1 1024
  | .reqRingSlots => .within 512 512
  | .rspRingSlots => .within 256 256

/-- The two keys whose field has 64 bits. -/
def wide : Key → Bool
  | .rxBufBytes | .sendBacklogLimitBytes => true
  | _ => false

/-- What is left of a value once it is assigned to the key's field. -/
def assigned (k : Key) (v : Int64) : Int := if k.wide then v.toInt else v.toInt32.toInt

/-- The document gives the key a 64-bit integer. -/
def Given (root : TomlRoot) (k : Key) (v : Int64) : Prop :=
  ∃ t, root.lookup k.table = some t ∧ t.lookup k.name = some (.integer v)

theorem rule_proper {cfg : Config} (hsq : cfg.uring.sqDepth.toInt ≤ 65536) (k : Key) :
    (k.rule cfg).Proper := by
  cases k with
  | cqDepth => exact ⟨by decide, by omega, by decide⟩
  | _ => trivial

end Key

/-! ## What a load that succeeds has checked -/

/-- The sections as they are read over their defaults, before any check. -/
def Config.unchecked (root : TomlRoot) : Config where
  server := readSection root "server" Config.ServerSection.read {}
  mysql := readSection root "mysql" Config.MysqlSection.read {}
  redis := readSection root "redis" Config.RedisSection.read {}
  log := readSection root "log" Config.LogSection.read {}
  uring := readSection root "uring" Config.UringSection.read {}
  ipc := readSection root "ipc" Config.IpcSection.read {}

/-- What is stored for the key is what its rule makes of what was read. -/
def Key.Obeyed (raw cfg : Config) (k : Key) : Prop :=
  (k.rule cfg).apply (k.stored raw) = some (k.stored cfg)

theorem badIf_eq_ok {fails : Prop} [Decidable fails] {msg : String} :
    badIf fails msg = .ok () ↔ ¬ fails := by
  unfold badIf
  split <;> simp [*]

theorem badIf_bind_eq_ok {α : Type} {fails : Prop} [Decidable fails] {msg : String}
    {f : Unit → Except String α} {a : α} :
    (badIf fails msg >>= f) = .ok a ↔ ¬ fails ∧ f () = .ok a := by
  unfold badIf
  split <;> simp [bind, Except.bind, *]

theorem cap_eq_min {T : Type} [LT T] [DecidableLT T] {toInt : T → Int}
    (hlt : ∀ {a b : T}, a < b ↔ toInt a < toInt b) (high x : T) :
    toInt (cap high x) = min (toInt x) (toInt high) := by
  unfold cap
  split
  all_goals
    next h =>
      rw [gt_iff_lt, hlt] at h
      omega

theorem toInt_cap (high x : Int32) : (cap high x).toInt = min x.toInt high.toInt :=
  cap_eq_min Int32.lt_iff_toInt_lt high x

theorem toInt_cap64 (high x : Int64) : (cap high x).toInt = min x.toInt high.toInt :=
  cap_eq_min Int64.lt_iff_toInt_lt high x

/-- A check from below and a cut from above. -/
theorem clamped_apply {low high x : Int} (h : low ≤ x) (hle : low ≤ high) :
    (Rule.clamped low low high).apply x = some (min x high) := by
  simp only [Rule.apply, if_pos h, Option.some.injEq]
  omega

theorem validateUring_ok {raw cfg : Config} (h : validateUring raw.uring = .ok cfg.uring) :
    cfg.uring.sqDepth.toInt ≤ 65536 ∧ ∀ k : Key, k.table = "uring" → k.Obeyed raw cfg := by
  simp only [validateUring, badIf_bind_eq_ok] at h
  obtain ⟨hsq, hcq, hworkers, hrx, hsend, hidle, haccept, hu⟩ := h
  have hu := (Except.ok.inj hu).symm
  rw [Int32.lt_iff_toInt_lt, Int.not_lt] at hsq hcq hworkers hidle haccept
  rw [Int64.lt_iff_toInt_lt, Int.not_lt] at hrx hsend
  have hsq' : (cap 65536 raw.uring.sqDepth).toInt = min raw.uring.sqDepth.toInt 65536 :=
    toInt_cap _ _
  refine ⟨?_, fun k hk => ?_⟩
  · rw [hu, hsq']
    omega
  unfold Key.Obeyed
  cases k with
  | sqDepth =>
    simp only [Key.rule, Key.stored, hu, hsq']
    exact clamped_apply hsq (by decide)
  | cqDepth =>
    -- the lower end is the depth of the submission queue
    have hbound : (131072 : Int32).toInt = 131072 := by decide
    simp only [Key.rule, Key.stored, hu, toInt_cap 131072, hbound, hsq', Rule.apply]
    rw [if_pos (show (16 : Int) ≤ raw.uring.cqDepth.toInt from hcq), Option.some.injEq]
    split
    next hlt =>
      rw [Int32.lt_iff_toInt_lt, hsq'] at hlt
      rw [hsq']
      omega
    next hge =>
      rw [Int32.lt_iff_toInt_lt, hsq'] at hge
      omega
  | workers =>
    simp only [Key.rule, Key.stored, hu, toInt_cap]
    exact clamped_apply hworkers (by decide)
  | rxBufBytes =>
    simp only [Key.rule, Key.stored, hu, toInt_cap64]
    exact clamped_apply hrx (by decide)
  | sendBacklogLimitBytes =>
    simp only [Key.rule, Key.stored, hu]
    exact if_pos hsend
  | idleTimeoutMs =>
    simp only [Key.rule, Key.stored, hu, toInt_cap]
    exact clamped_apply hidle (by decide)
  | acceptBacklog =>
    simp only [Key.rule, Key.stored, hu, toInt_cap]
    exact clamped_apply haccept (by decide)
  | _ => exact absurd hk (by decide)

theorem validateIpc_ok {raw cfg : Config} (hsame : cfg.ipc = raw.ipc)
    (h : validateIpc raw.ipc = .ok ()) : ∀ k : Key, k.table = "ipc" → k.Obeyed raw cfg := by
  simp only [validateIpc, badIf_bind_eq_ok, badIf_eq_ok] at h
  obtain ⟨-, -, hinst, hopen, hpeer, hspin, hworkers, hreq, hrsp⟩ := h
  rw [not_or, gt_iff_lt, Int32.lt_iff_toInt_lt, Int32.lt_iff_toInt_lt, Int.not_lt, Int.not_lt]
    at hinst hspin hworkers
  rw [Int32.lt_iff_toInt_lt, Int.not_lt] at hopen hpeer
  rw [not_not] at hreq hrsp
  intro k hk
  obtain ⟨server, mysql, redis, log, uring, ipc⟩ := cfg
  obtain rfl : ipc = raw.ipc := hsame
  cases k with
  | inst => exact if_pos hinst
  | openTimeoutMs => exact if_pos hopen
  | peerTimeoutMs => exact if_pos hpeer
  | spinTries => exact if_pos hspin
  | dispatchWorkers => exact if_pos hworkers
  | reqRingSlots =>
    simp only [Key.Obeyed, Key.rule, Key.stored, hreq]
    decide
  | rspRingSlots =>
    simp only [Key.Obeyed, Key.rule, Key.stored, hrsp]
    decide
  | _ => exact absurd hk (by decide)

/-- A load that succeeds has let every number through its rule. -/
theorem loadConfig_ok {root : TomlRoot} {cfg : Config} (h : loadConfig (.ok root) = .ok cfg) :
    cfg.uring.sqDepth.toInt ≤ 65536 ∧ ∀ k : Key, k.Obeyed (.unchecked root) cfg := by
  rw [loadConfig, Except.mapError] at h
  change (badIf _ _ >>= _) = _ at h
  rw [badIf_bind_eq_ok] at h
  obtain ⟨hport, h⟩ := h
  cases huring : validateUring (readSection root "uring" Config.UringSection.read {}) with
  | error e =>
    rw [huring] at h
    cases h
  | ok uring =>
    rw [huring] at h
    change (validateIpc _ >>= _) = _ at h
    cases hipc : validateIpc (readSection root "ipc" Config.IpcSection.read {}) with
    | error e =>
      rw [hipc] at h
      cases h
    | ok _ =>
      rw [hipc] at h
      cases h
      rw [not_or, gt_iff_lt, Int32.lt_iff_toInt_lt, Int32.lt_iff_toInt_lt, Int.not_lt,
        Int.not_lt] at hport
      obtain ⟨hsq, hchecked⟩ := @validateUring_ok (.unchecked root)
        { Config.unchecked root with uring } huring
      have hpassed := @validateIpc_ok (.unchecked root) { Config.unchecked root with uring } rfl hipc
      refine ⟨hsq, fun k => ?_⟩
      cases k with
      | serverPort => exact if_pos hport
      | mysqlPort | mysqlPoolSize | redisPort | redisPoolSize => rfl
      | sqDepth | cqDepth | workers | rxBufBytes | sendBacklogLimitBytes | idleTimeoutMs
      | acceptBacklog => exact hchecked _ rfl
      | _ => exact hpassed _ rfl

theorem getInt64_given {t : TomlTable} {key : String} {v : Int64}
    (h : t.lookup key = some (.integer v)) (dflt : Int64) : getInt64 t key dflt = v := by
  simp [getInt64, getOr, h, TomlNode.toInteger]

theorem readSection_given {α : Type} {root : TomlRoot} {name : String} {t : TomlTable}
    (h : root.lookup name = some t) (read : TomlTable → α → α) (d : α) :
    readSection root name read d = read t d := by
  simp [readSection, h]

/-- A number of the document is read into the field of its key. -/
theorem Key.stored_unchecked {root : TomlRoot} {k : Key} {v : Int64} (hgiven : k.Given root v) :
    k.stored (.unchecked root) = k.assigned v := by
  obtain ⟨t, htable, hkey⟩ := hgiven
  have hint64 : ∀ d, (getInt64 t k.name d).toInt = v.toInt :=
    fun d => congrArg Int64.toInt (getInt64_given hkey d)
  have hint : ∀ d, (getInt t k.name d).toInt = v.toInt32.toInt := fun d => by
    rw [getInt, getInt64_given hkey]
  cases k <;> simp only [table, stored, Config.unchecked] at htable ⊢ <;>
    rw [readSection_given htable]
  case rxBufBytes => exact hint64 _
  case sendBacklogLimitBytes => exact hint64 _
  all_goals exact hint _

/-- **When a key is stored as its rule asks.** A load that succeeds has stored for a
key what the key's rule makes of the number in the document exactly when the
field has 64 bits, the number fits an `int`, or both the number and what the
assignment leaves of it are cut down to the upper end of the range. -/
theorem loadConfig_stored_iff {root : TomlRoot} {cfg : Config}
    (hload : loadConfig (.ok root) = .ok cfg) {k : Key} {v : Int64} (hgiven : k.Given root v) :
    (k.rule cfg).apply v.toInt = some (k.stored cfg) ↔
      k.wide = true ∨ Fits v.toInt ∨ (k.rule cfg).BothAbove v.toInt v.toInt32.toInt := by
  obtain ⟨hsq, hobeyed⟩ := loadConfig_ok hload
  have happly := hobeyed k
  rw [Key.Obeyed, Key.stored_unchecked hgiven, Key.assigned] at happly
  cases hwide : k.wide with
  | true =>
    rw [hwide] at happly
    exact iff_of_true happly (.inl rfl)
  | false =>
    rw [hwide] at happly
    by_cases hfits : Fits v.toInt
    · rw [← (toInt_toInt32_eq_iff v).mpr hfits]
      exact iff_of_true happly (.inr (.inl (fits_toInt _)))
    · rw [Rule.apply_eq_iff (k.rule_proper hsq) (fits_toInt _) hfits happly]
      simp [hfits]

/-- A port of the range. -/
theorem loadConfig_stored_port :
    (Key.serverPort.rule { server := { port := 7777 } }).apply (7777 : Int64).toInt =
      some (Key.serverPort.stored { server := { port := 7777 } }) := by
  have hload : loadConfig (.ok [("server", [("port", .integer 7777)])]) =
      .ok { server := { port := 7777 } } := by decide
  have hgiven : Key.serverPort.Given [("server", [("port", .integer 7777)])] 7777 :=
    ⟨[("port", .integer 7777)], rfl, rfl⟩
  exact (loadConfig_stored_iff hload hgiven).mpr (.inr (.inl (by decide)))

/-- A port far out of the range is accepted as the default one. -/
theorem loadConfig_port_narrowed :
    loadConfig (.ok [("server", [("port", .integer 4294976184)])]) = .ok {} ∧
      Key.serverPort.stored {} = 8888 ∧
      (Key.serverPort.rule {}).apply (4294976184 : Int64).toInt = none := by
  decide

end SharedBike.Server
