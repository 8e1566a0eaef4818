import PokerServer.Application.BlockingExecutor
import PokerServer.Application.RoomExecutor
import PokerServer.Cluster.NodeFailureReaper
import PokerServer.Lib.Text
import PokerServer.Net.LengthFieldCodec
import PokerServer.Server.Connections

/-!
# What a server starts with

Model of `src/poker/config/server_config.cpp`: the configuration that `loadFromEnvironment` reads
from the variables of the environment, with its errors in their order.

* A call of `integer` is an `IntegerSetting`; `read` is the function. A call that reports an error
  gives the default.
* A `Char` of a string stands for one byte of it.

`accepted_config_starts` says what the checks are for: an error is reported for each variable that
is wrong, and for no other; a configuration is returned iff there is none; and with it the
constructors that `main` and each connection call do not throw.
-/

namespace PokerServer

/-- `std::getenv`. -/
abbrev Environment := String → Option String

structure MySqlConfig where
  host : String := "127.0.0.1"
  port : Nat := 3306
  user : String := "poker"
  password : String := ""
  database : String := "poker"
  poolSize : Nat := 8
  connectTimeoutSeconds : Nat := 5
  deriving DecidableEq

structure RedisConfig where
  host : String := "127.0.0.1"
  port : Nat := 6379
  password : String := ""
  database : Nat := 0
  connectTimeoutMs : Nat := 2000
  deriving DecidableEq

structure ServerConfig where
  role : ServerRole := .standalone
  nodeId : String := "game-1"
  publicEndpoint : String := "127.0.0.1:7000"
  listenHost : String := "0.0.0.0"
  listenPort : Nat := 7000
  metricsHost : String := "0.0.0.0"
  metricsPort : Nat := 9100
  ioThreads : Nat := 4
  logicShards : Nat := 4
  actionTimeoutMs : Nat := 20000
  connectionIdleTimeoutMs : Nat := 45000
  nodeFailureGraceMs : Nat := 15000
  maxFrameBytes : Nat := 1024 * 1024
  maxPendingSendBytes : Nat := 4 * 1024 * 1024
  requestsPerSecond : Nat := 100
  requestBurst : Nat := 200
  sessionTtlSeconds : Nat := 86400
  mysql : MySqlConfig := {}
  redis : RedisConfig := {}
  deriving DecidableEq

structure ConfigResult where
  value : Option ServerConfig := none
  errors : List String := []
  deriving DecidableEq

/-- `TokenBucket`, as it is made. What it counts in are doubles; a whole number of 32 bits is one of
them. -/
structure TokenBucket where
  rate : Nat
  capacity : Nat
  positive : 0 < rate ∧ 0 < capacity

/-- The constructor. -/
def TokenBucket.create (tokensPerSecond burst : Nat) : Except String TokenBucket :=
  if h : tokensPerSecond ≤ 0 ∨ burst = 0 then
    .error "token bucket rate and burst must be positive"
  else .ok { rate := tokensPerSecond, capacity := burst, positive := by omega }

/-! ## Reading one variable -/

def text (env : Environment) (name fallback : String) : String := (env name).getD fallback

/-- The arguments of `integer`. The type that it casts to holds the numbers below `2 ^ width`. -/
structure IntegerSetting where
  name : String
  width : Nat
  fallback : Nat
  minimum : Nat
  maximum : Nat
  inside : minimum ≤ fallback ∧ fallback ≤ maximum := by decide
  fits : maximum < 2 ^ width := by decide
  signed : maximum < 2 ^ 63 := by decide

namespace IntegerSetting

variable (s : IntegerSetting) (env : Environment)

def message : String :=
  s.name ++ " must be an integer in [" ++ toString s.minimum ++ ", " ++ toString s.maximum ++ "]"

/-- `integer`. -/
def read : Except String Nat :=
  match env s.name with
  | none => .ok s.fallback
  | some value =>
    match Text.stoll value.toList with
    | none => .error s.message
    | some (parsed, consumed) =>
      if consumed ≠ value.toList.length ∨ parsed < s.minimum ∨ s.maximum < parsed then
        .error s.message
      else .ok (parsed.toNat % 2 ^ s.width)

/-- What `integer` returns. -/
def value : Nat :=
  match s.read env with
  | .ok value => value
  | .error _ => s.fallback

/-- What `integer` adds to the errors. -/
def errors : List String :=
  match s.read env with
  | .ok _ => []
  | .error message => [message]

end IntegerSetting

/-- `role`, with what it adds to the errors. -/
def readRole (env : Environment) : ServerRole × List String :=
  let value := text env "POKER_ROLE" "standalone"
  if value = "standalone" then (.standalone, [])
  else if value = "lobby" then (.lobby, [])
  else if value = "game" then (.game, [])
  else (.standalone, ["POKER_ROLE must be standalone, lobby, or game"])

namespace ServerConfig

def listenPortSetting : IntegerSetting :=
  { name := "POKER_LISTEN_PORT", width := 16, fallback := 7000, minimum := 1, maximum := 65535 }

def metricsPortSetting : IntegerSetting :=
  { name := "POKER_METRICS_PORT", width := 16, fallback := 9100, minimum := 1, maximum := 65535 }

def ioThreadsSetting : IntegerSetting :=
  { name := "POKER_IO_THREADS", width := 64, fallback := 4, minimum := 1, maximum := 128 }

def logicShardsSetting : IntegerSetting :=
  { name := "POKER_LOGIC_SHARDS", width := 64, fallback := 4, minimum := 1, maximum := 128 }

def actionTimeoutMsSetting : IntegerSetting :=
  { name := "POKER_ACTION_TIMEOUT_MS", width := 32, fallback := 20000
    minimum := 1000, maximum := 300000 }

def connectionIdleTimeoutMsSetting : IntegerSetting :=
  { name := "POKER_CONNECTION_IDLE_TIMEOUT_MS", width := 32, fallback := 45000
    minimum := 10000, maximum := 600000 }

def nodeFailureGraceMsSetting : IntegerSetting :=
  { name := "POKER_NODE_FAILURE_GRACE_MS", width := 32, fallback := 15000
    minimum := 6000, maximum := 300000 }

def maxFrameBytesSetting : IntegerSetting :=
  { name := "POKER_MAX_FRAME_BYTES", width := 64, fallback := 1024 * 1024
    minimum := 1024, maximum := 16 * 1024 * 1024 }

def maxPendingSendBytesSetting : IntegerSetting :=
  { name := "POKER_MAX_PENDING_SEND_BYTES", width := 64, fallback := 4 * 1024 * 1024
    minimum := 64 * 1024, maximum := 64 * 1024 * 1024 }

def requestsPerSecondSetting : IntegerSetting :=
  { name := "POKER_REQUESTS_PER_SECOND", width := 32, fallback := 100
    minimum := 1, maximum := 1000000 }

def requestBurstSetting : IntegerSetting :=
  { name := "POKER_REQUEST_BURST", width := 32, fallback := 200, minimum := 1, maximum := 1000000 }

def sessionTtlSecondsSetting : IntegerSetting :=
  { name := "POKER_SESSION_TTL_SECONDS", width := 32, fallback := 86400
    minimum := 300, maximum := 30 * 24 * 60 * 60 }

def mysqlPortSetting : IntegerSetting :=
  { name := "POKER_MYSQL_PORT", width := 16, fallback := 3306, minimum := 1, maximum := 65535 }

def mysqlPoolSizeSetting : IntegerSetting :=
  { name := "POKER_MYSQL_POOL_SIZE", width := 64, fallback := 8, minimum := 1, maximum := 128 }

def redisPortSetting : IntegerSetting :=
  { name := "POKER_REDIS_PORT", width := 16, fallback := 6379, minimum := 1, maximum := 65535 }

def redisDatabaseSetting : IntegerSetting :=
  { name := "POKER_REDIS_DATABASE", width := 31, fallback := 0, minimum := 0, maximum := 15 }

/-- The calls of `integer`, in their order. -/
def settings : List IntegerSetting :=
  [listenPortSetting, metricsPortSetting, ioThreadsSetting, logicShardsSetting,
    actionTimeoutMsSetting, connectionIdleTimeoutMsSetting, nodeFailureGraceMsSetting,
    maxFrameBytesSetting, maxPendingSendBytesSetting, requestsPerSecondSetting,
    requestBurstSetting, sessionTtlSecondsSetting, mysqlPortSetting, mysqlPoolSizeSetting,
    redisPortSetting, redisDatabaseSetting]

/-- The numbers of a configuration, in the order of the `settings`. -/
def numbers (config : ServerConfig) : List Nat :=
  [config.listenPort, config.metricsPort, config.ioThreads, config.logicShards,
    config.actionTimeoutMs, config.connectionIdleTimeoutMs, config.nodeFailureGraceMs,
    config.maxFrameBytes, config.maxPendingSendBytes, config.requestsPerSecond,
    config.requestBurst, config.sessionTtlSeconds, config.mysql.port, config.mysql.poolSize,
    config.redis.port, config.redis.database]

/-- The calls of `text` for a configuration: the variable and the default. -/
def textSettings : List (String × String) :=
  [("POKER_NODE_ID", "game-1"), ("POKER_PUBLIC_ENDPOINT", "127.0.0.1:7000"),
    ("POKER_LISTEN_HOST", "0.0.0.0"), ("POKER_METRICS_HOST", "0.0.0.0"),
    ("POKER_MYSQL_HOST", "127.0.0.1"), ("POKER_MYSQL_USER", "poker"), ("POKER_MYSQL_PASSWORD", ""),
    ("POKER_MYSQL_DATABASE", "poker"), ("POKER_REDIS_HOST", "127.0.0.1"),
    ("POKER_REDIS_PASSWORD", "")]

/-- The texts of a configuration, in the order of the `textSettings`. -/
def texts (config : ServerConfig) : List String :=
  [config.nodeId, config.publicEndpoint, config.listenHost, config.metricsHost, config.mysql.host,
    config.mysql.user, config.mysql.password, config.mysql.database, config.redis.host,
    config.redis.password]

/-- The configuration that `loadFromEnvironment` puts together. -/
def ofEnvironment (env : Environment) : ServerConfig where
  role := (readRole env).1
  nodeId := text env "POKER_NODE_ID" "game-1"
  publicEndpoint := text env "POKER_PUBLIC_ENDPOINT" "127.0.0.1:7000"
  listenHost := text env "POKER_LISTEN_HOST" "0.0.0.0"
  listenPort := listenPortSetting.value env
  metricsHost := text env "POKER_METRICS_HOST" "0.0.0.0"
  metricsPort := metricsPortSetting.value env
  ioThreads := ioThreadsSetting.value env
  logicShards := logicShardsSetting.value env
  actionTimeoutMs := actionTimeoutMsSetting.value env
  connectionIdleTimeoutMs := connectionIdleTimeoutMsSetting.value env
  nodeFailureGraceMs := nodeFailureGraceMsSetting.value env
  maxFrameBytes := maxFrameBytesSetting.value env
  maxPendingSendBytes := maxPendingSendBytesSetting.value env
  requestsPerSecond := requestsPerSecondSetting.value env
  requestBurst := requestBurstSetting.value env
  sessionTtlSeconds := sessionTtlSecondsSetting.value env
  mysql :=
    { host := text env "POKER_MYSQL_HOST" "127.0.0.1"
      port := mysqlPortSetting.value env
      user := text env "POKER_MYSQL_USER" "poker"
      password := text env "POKER_MYSQL_PASSWORD" ""
      database := text env "POKER_MYSQL_DATABASE" "poker"
      poolSize := mysqlPoolSizeSetting.value env }
  redis :=
    { host := text env "POKER_REDIS_HOST" "127.0.0.1"
      port := redisPortSetting.value env
      password := text env "POKER_REDIS_PASSWORD" ""
      database := redisDatabaseSetting.value env }

/-- The texts that must not be empty, each with its error. -/
def required (config : ServerConfig) : List (String × String) :=
  [(config.nodeId, "POKER_NODE_ID must not be empty"),
    (config.publicEndpoint, "POKER_PUBLIC_ENDPOINT must not be empty"),
    (config.metricsHost, "POKER_METRICS_HOST must not be empty"),
    (config.mysql.password,
      "POKER_MYSQL_PASSWORD must be provided; credentials are never compiled in")]

/-- The errors of a configuration that is put together. -/
def missing (config : ServerConfig) : List String :=
  (config.required.filter fun r => r.1 = "").map Prod.snd

end ServerConfig

open ServerConfig in
def loadFromEnvironment (env : Environment) : ConfigResult :=
  let config := ServerConfig.ofEnvironment env
  let errors := (readRole env).2 ++ settings.flatMap (·.errors env) ++ config.missing
  { value := if errors = [] then some config else none, errors }

/-! ## What is accepted -/

/-- `toString(ServerRole)`. -/
def ServerRole.toString : ServerRole → String
  | .standalone => "standalone"
  | .lobby => "lobby"
  | .game => "game"

namespace IntegerSetting

variable {s : IntegerSetting} {env : Environment} {n : Nat}

/-- The variable says `n`: it is a numeral within the bounds, or it is not set and `n` is the
default. -/
def Denotes (s : IntegerSetting) (env : Environment) (n : Nat) : Prop :=
  (env s.name = none ∧ n = s.fallback) ∨
    ∃ value, env s.name = some value ∧ Text.Numeral value.toList n ∧
      s.minimum ≤ n ∧ n ≤ s.maximum

theorem Denotes.inside (h : s.Denotes env n) : s.minimum ≤ n ∧ n ≤ s.maximum := by
  rcases h with ⟨-, rfl⟩ | ⟨value, -, -, hbounds⟩
  · exact s.inside
  · exact hbounds

/-- A number within the bounds fits the type it is cast to. -/
theorem cast_eq (h : n ≤ s.maximum) : n % 2 ^ s.width = n :=
  Nat.mod_eq_of_lt (Nat.lt_of_le_of_lt h s.fits)

theorem read_eq_ok : s.read env = .ok n ↔ s.Denotes env n := by
  unfold read Denotes
  cases hvalue : env s.name with
  | none =>
    constructor
    · intro h
      exact Or.inl ⟨rfl, (Except.ok.inj h).symm⟩
    · rintro (⟨-, rfl⟩ | ⟨value, heq, -⟩)
      · rfl
      · cases heq
  | some value =>
    constructor
    · intro h
      simp only at h
      split at h
      · cases h
      rename_i parsed consumed hparsed
      split at h
      · cases h
      rename_i hbounds
      rw [not_or, not_or, not_not, not_lt, not_lt] at hbounds
      obtain ⟨rfl, hlow, hhigh⟩ := hbounds
      obtain ⟨m, rfl⟩ := Int.eq_ofNat_of_zero_le (Int.le_trans (Int.natCast_nonneg _) hlow)
      have hm : m ≤ s.maximum := Int.ofNat_le.mp hhigh
      obtain rfl : m = n := (cast_eq hm).symm.trans (Except.ok.inj h)
      exact Or.inr ⟨value, rfl, (Text.stoll_eq_some.mp hparsed).1, Int.ofNat_le.mp hlow, hm⟩
    · rintro (⟨heq, -⟩ | ⟨value', heq, hnumeral, hlow, hhigh⟩)
      · cases heq
      obtain rfl := Option.some.inj heq
      have hsigned := s.signed
      have hparsed : Text.stoll value.toList = some ((n : Int), value.toList.length) :=
        Text.stoll_eq_some.mpr ⟨hnumeral, by omega, by omega⟩
      simp only [hparsed]
      rw [if_neg (by omega), Int.toNat_natCast, cast_eq hhigh]

theorem read_eq_error (h : ∀ n, ¬ s.Denotes env n) : s.read env = .error s.message := by
  have herror : ∀ message, s.read env = .error message → message = s.message := by
    intro message hread
    unfold read at hread
    split at hread
    · cases hread
    split at hread
    · exact (Except.error.inj hread).symm
    split at hread
    · exact (Except.error.inj hread).symm
    · cases hread
  cases hread : s.read env with
  | ok n => exact absurd (read_eq_ok.mp hread) (h n)
  | error message => rw [herror message hread]

theorem value_of_denotes (h : s.Denotes env n) : s.value env = n := by
  rw [value, read_eq_ok.mpr h]

/-- An error is reported iff the variable says no number. -/
theorem mem_errors {message : String} :
    message ∈ s.errors env ↔ message = s.message ∧ ∀ n, ¬ s.Denotes env n := by
  by_cases h : ∃ n, s.Denotes env n
  · obtain ⟨n, hn⟩ := h
    rw [errors, read_eq_ok.mpr hn]
    exact ⟨fun hmem => absurd hmem List.not_mem_nil, fun hnone => absurd hn (hnone.2 n)⟩
  · rw [not_exists] at h
    rw [errors, read_eq_error h]
    exact ⟨fun hmem => ⟨List.mem_singleton.mp hmem, h⟩, fun hm => List.mem_singleton.mpr hm.1⟩

end IntegerSetting

variable {env : Environment} {message : String}

theorem readRole_spec (env : Environment) :
    ((readRole env).2 = [] ∧ (readRole env).1.toString = text env "POKER_ROLE" "standalone") ∨
      ((readRole env).2 = ["POKER_ROLE must be standalone, lobby, or game"] ∧
        ∀ role : ServerRole, text env "POKER_ROLE" "standalone" ≠ role.toString) := by
  unfold readRole
  simp only
  split
  · rename_i h
    exact Or.inl ⟨rfl, h.symm⟩
  split
  · rename_i h
    exact Or.inl ⟨rfl, h.symm⟩
  split
  · rename_i h
    exact Or.inl ⟨rfl, h.symm⟩
  · rename_i hstandalone hlobby hgame
    refine Or.inr ⟨rfl, fun role => ?_⟩
    cases role with
    | standalone => exact hstandalone
    | lobby => exact hlobby
    | game => exact hgame

namespace ServerConfig

theorem mem_missing {config : ServerConfig} :
    message ∈ config.missing ↔ ("", message) ∈ config.required := by
  simp [missing]

/-- What is wrong with the environment, with the error that says so. -/
inductive Wrong (env : Environment) : String → Prop
  | role : (∀ role : ServerRole, text env "POKER_ROLE" "standalone" ≠ role.toString) →
      Wrong env "POKER_ROLE must be standalone, lobby, or game"
  | integer {s : IntegerSetting} : s ∈ settings → (∀ n, ¬ s.Denotes env n) → Wrong env s.message
  | missing {message : String} : ("", message) ∈ (ofEnvironment env).required → Wrong env message

theorem mem_errors : message ∈ (loadFromEnvironment env).errors ↔ Wrong env message := by
  simp only [loadFromEnvironment, List.mem_append, List.mem_flatMap, IntegerSetting.mem_errors,
    mem_missing]
  constructor
  · rintro ((hrole | ⟨s, hs, rfl, hnone⟩) | hmissing)
    · rcases readRole_spec env with ⟨heq, -⟩ | ⟨heq, hwrong⟩
      · rw [heq] at hrole
        exact absurd hrole List.not_mem_nil
      · rw [heq] at hrole
        obtain rfl := List.mem_singleton.mp hrole
        exact .role hwrong
    · exact .integer hs hnone
    · exact .missing hmissing
  · rintro (hwrong | ⟨hs, hnone⟩ | hmissing)
    · rcases readRole_spec env with ⟨-, heq⟩ | ⟨heq, -⟩
      · exact absurd heq.symm (hwrong _)
      · exact Or.inl (Or.inl (heq ▸ List.mem_singleton_self _))
    · exact Or.inl (Or.inr ⟨_, hs, rfl, hnone⟩)
    · exact Or.inr hmissing

/-- The variables that are checked. -/
def checked : List String :=
  "POKER_ROLE" :: settings.map IntegerSetting.name ++
    ["POKER_NODE_ID", "POKER_PUBLIC_ENDPOINT", "POKER_METRICS_HOST", "POKER_MYSQL_PASSWORD"]

/-- **Every error names the variable it checks.** -/
theorem Wrong.names (h : Wrong env message) :
    ∃ name ∈ checked, name.toList <+: message.toList := by
  cases h with
  | role => exact ⟨"POKER_ROLE", by simp [checked], by decide +kernel⟩
  | @integer s hs =>
    refine ⟨s.name, ?_, ?_⟩
    · exact List.mem_append_left _ (List.mem_cons_of_mem _ (List.mem_map_of_mem hs))
    · simp only [IntegerSetting.message, String.toList_append, List.append_assoc]
      exact List.prefix_append _ _
  | missing hrequired =>
    simp only [required, List.mem_cons, Prod.mk.injEq, List.not_mem_nil, or_false] at hrequired
    rcases hrequired with ⟨-, rfl⟩ | ⟨-, rfl⟩ | ⟨-, rfl⟩ | ⟨-, rfl⟩
    · exact ⟨"POKER_NODE_ID", by simp [checked], by decide +kernel⟩
    · exact ⟨"POKER_PUBLIC_ENDPOINT", by simp [checked], by decide +kernel⟩
    · exact ⟨"POKER_METRICS_HOST", by simp [checked], by decide +kernel⟩
    · exact ⟨"POKER_MYSQL_PASSWORD", by simp [checked], by decide +kernel⟩

/-! ## Starting -/

/-- The configuration says what the environment says, and the parts of a server can be made from
it: the codec and the limiter of a connection, the rooms, the storage executor and the reaper. -/
structure Starts (env : Environment) (config : ServerConfig) : Prop where
  role : config.role.toString = text env "POKER_ROLE" "standalone"
  texts : config.texts = textSettings.map fun setting => text env setting.1 setting.2
  numbers : List.Forall₂ (fun s n => s.Denotes env n) settings config.numbers
  /-- No variable sets the timeouts of the connections to the stores. -/
  timeouts : config.mysql.connectTimeoutSeconds = 5 ∧ config.redis.connectTimeoutMs = 2000
  named : ∀ required ∈ config.required, required.1 ≠ ""
  codec : ∃ codec, LengthFieldCodec.create config.maxFrameBytes = .ok codec
  limiter : ∃ limiter, TokenBucket.create config.requestsPerSecond config.requestBurst = .ok limiter
  rooms : ∀ T : Type, ∃ executor : RoomExecutor T,
    RoomExecutor.create config.logicShards 16384 = .ok executor
  storage : ∀ T : Type, ∃ executor : BlockingExecutor T,
    BlockingExecutor.create config.mysql.poolSize 8192 = .ok executor
  reaper : ∃ reaper, NodeFailureReaper.create config.nodeFailureGraceMs = .ok reaper

theorem starts_of_errors (h : (loadFromEnvironment env).errors = []) :
    (ofEnvironment env).Starts env := by
  have hright : ∀ message, ¬ Wrong env message := by
    intro message hwrong
    have hmem := mem_errors.mpr hwrong
    rw [h] at hmem
    exact List.not_mem_nil hmem
  have hdenotes : ∀ s ∈ settings, s.Denotes env (s.value env) := by
    intro s hs
    by_contra hnone
    refine hright _ (.integer hs fun n hn => hnone ?_)
    rwa [IntegerSetting.value_of_denotes hn]
  have hframe := (hdenotes maxFrameBytesSetting (by simp [settings])).inside
  have hrate := (hdenotes requestsPerSecondSetting (by simp [settings])).inside
  have hburst := (hdenotes requestBurstSetting (by simp [settings])).inside
  have hshards := (hdenotes logicShardsSetting (by simp [settings])).inside
  have hpool := (hdenotes mysqlPoolSizeSetting (by simp [settings])).inside
  have hgrace := (hdenotes nodeFailureGraceMsSetting (by simp [settings])).inside
  refine ⟨?_, rfl, ?_, ⟨rfl, rfl⟩, ?_, ⟨_, dif_neg ?_⟩, ⟨_, dif_neg ?_⟩, fun T => ⟨_, dif_neg ?_⟩,
    fun T => ⟨_, dif_neg ?_⟩, ⟨_, dif_neg ?_⟩⟩
  · rcases readRole_spec env with ⟨-, hrole⟩ | ⟨-, hwrong⟩
    · exact hrole
    · exact absurd (.role hwrong) (hright _)
  · change List.Forall₂ _ settings (settings.map fun s => s.value env)
    rw [List.forall₂_map_right_iff, List.forall₂_same]
    exact hdenotes
  · rintro ⟨value, error⟩ hrequired rfl
    exact hright error (.missing hrequired)
  · change ¬ (maxFrameBytesSetting.value env = 0 ∨ 2 ^ 32 - 1 < maxFrameBytesSetting.value env)
    simp only [maxFrameBytesSetting] at hframe ⊢
    omega
  · change ¬ (requestsPerSecondSetting.value env ≤ 0 ∨ requestBurstSetting.value env = 0)
    simp only [requestsPerSecondSetting, requestBurstSetting] at hrate hburst ⊢
    omega
  · change ¬ (logicShardsSetting.value env = 0 ∨ _)
    simp only [logicShardsSetting] at hshards ⊢
    omega
  · change ¬ (mysqlPoolSizeSetting.value env = 0 ∨ _)
    simp only [mysqlPoolSizeSetting] at hpool ⊢
    omega
  · change ¬ ((nodeFailureGraceMsSetting.value env : Int) ≤ 0)
    simp only [nodeFailureGraceMsSetting] at hgrace ⊢
    omega

/-- **An accepted configuration starts a server.** Every wrong variable is reported, under its name,
and nothing else is; a configuration is returned iff nothing is reported. It says what the
environment says, and no constructor refuses what it says. -/
theorem accepted_config_starts (env : Environment) :
    (∀ message, message ∈ (loadFromEnvironment env).errors ↔ Wrong env message) ∧
      (∀ message ∈ (loadFromEnvironment env).errors,
        ∃ name ∈ checked, name.toList <+: message.toList) ∧
      ((loadFromEnvironment env).value.isSome = true ↔ (loadFromEnvironment env).errors = []) ∧
      ∀ config, (loadFromEnvironment env).value = some config → config.Starts env := by
  refine ⟨fun message => mem_errors, fun message hmem => (mem_errors.mp hmem).names, ?_, ?_⟩
  · have hvalue : (loadFromEnvironment env).value =
        if (loadFromEnvironment env).errors = [] then some (ofEnvironment env) else none := rfl
    rw [hvalue, Option.isSome_ite]
  · intro config hvalue
    obtain ⟨herrors, hconfig⟩ := Option.ite_none_right_eq_some.mp hvalue
    obtain rfl := Option.some.inj hconfig
    exact starts_of_errors herrors

/-- A host, a number and the password are set. -/
def threeSet : Environment
  | "POKER_LISTEN_HOST" => some "10.0.0.7"
  | "POKER_MYSQL_PASSWORD" => some "secret"
  | "POKER_REQUEST_BURST" => some " +50"
  | _ => none

theorem accepted_config_starts_threeSet : ∃ config,
    (loadFromEnvironment threeSet).value = some config ∧ config.listenHost = "10.0.0.7" ∧
      config.requestBurst = 50 ∧ config.mysql.database = "poker" ∧ config.Starts threeSet := by
  have hvalue : (loadFromEnvironment threeSet).value =
      some { listenHost := "10.0.0.7", requestBurst := 50, mysql := { password := "secret" } } := by
    decide +kernel
  exact ⟨_, hvalue, rfl, rfl, rfl, (accepted_config_starts _).2.2.2 _ hvalue⟩

end ServerConfig

end PokerServer
