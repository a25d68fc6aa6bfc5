import BistColo.Ouch.Session
/-!
# The configuration file

`config/config.hpp` and `src/config/config.cpp`, with what `run_live` makes of
the numbers: the endpoint of a partition, the FIX ports and the heartbeat of the
session. A file is the tree that toml++ makes of it, and the file beside it with
`.local` in its name is read over it. `numbers_as_written_iff` says which
numbers arrive as they are written: those that fit where they go.
-/

open StreamKit

namespace BistColo.App

open Ouch

/-! ## TOML -/

inductive Toml
  | scalar (source : Bytes)
  | array (elements : List Toml)
  | table (entries : List (String × Toml))

/-- toml++'s `value<T>()` of a scalar. A narrower integer is the integer if it fits. -/
structure Getters where
  integer : Bytes → Option Int64
  text : Bytes → Option Bytes
  boolean : Bytes → Option Bool
  real : Bytes → Option Float

/-- An integer as one of 32 bits, if it fits. -/
def narrow (v : Int64) : Option UInt32 := if 0 ≤ v ∧ v < 4294967296 then some v.toUInt64.toUInt32 else none

namespace Toml

/-- `operator[]` of a table; there is nothing in any other node. -/
def find (n : Toml) (key : String) : Option Toml :=
  match n with
  | table entries => (entries.find? fun e => e.1 = key).map Prod.snd
  | _ => none

def asArray : Toml → Option (List Toml)
  | array elements => some elements
  | _ => none

variable (get : Getters)

def int64 : Toml → Option Int64
  | scalar source => get.integer source
  | _ => none

def string : Toml → Option Bytes
  | scalar source => get.text source
  | _ => none

def uint32 (n : Toml) : Option UInt32 := (n.int64 get).bind narrow

def uint64 (n : Toml) : Option UInt64 := (n.int64 get).bind fun v => if 0 ≤ v then some v.toUInt64 else none

def bool : Toml → Option Bool
  | scalar source => get.boolean source
  | _ => none

def double : Toml → Option Float
  | scalar source => get.real source
  | _ => none

/-- `t[section]` if it is a table, and `key` in it. -/
def setting (t : Toml) (section_ key : String) : Option Toml :=
  match t.find section_ with
  | some (table entries) => (table entries).find key
  | _ => none

/-- `key` in the table `sub` of a section. -/
def subsetting (t : Toml) (section_ sub key : String) : Option Toml :=
  match t.setting section_ sub with
  | some (table entries) => (table entries).find key
  | _ => none

end Toml

/-! ## The settings -/

structure EnvironmentCfg where
  name : Bytes := []
  description : Bytes := []
  weekend : Bool := false

structure UeaCfg where
  host : Bytes := []
  ports : List UInt16 := []

structure OuchCfg where
  hostPrimary : Bytes := []
  hostSecondary : Bytes := []
  ports : List UInt16 := []
  heartbeatMs : UInt32 := 800
  username : Bytes := []
  password : Bytes := []
  session : Bytes := []
  sequence : UInt64 := 0
  codReconnectDeadlineMs : UInt32 := 30000
  uea : UeaCfg := {}

structure FixPasswordCfg where
  current : Bytes := []
  next : Bytes := []

structure FixChannelCfg where
  senderCompId : Bytes := []
  targetCompId : Bytes := []
  username : Bytes := []

structure FixCfg where
  hostPrimary : Bytes := []
  hostColo : Bytes := []
  oePort : UInt16 := 0
  rdPort : UInt16 := 0
  dcPort : UInt16 := 0
  senderCompId : Bytes := []
  targetCompId : Bytes := []
  username : Bytes := []
  dataDictionary : Bytes := []
  transportDictionary : Bytes := []
  heartbeatSecs : UInt32 := 30
  sessionStorage : Bytes := []
  password : FixPasswordCfg := {}
  oe : FixChannelCfg := {}
  rd : FixChannelCfg := {}
  dc : FixChannelCfg := {}

structure ThrottlerCfg where
  ordersPerSec : UInt32 := 100

structure RiskCfg where
  maxQtyPerOrder : UInt64 := 0
  maxOpenOrders : UInt64 := 0
  allowedPriceMinTl : Float := 0.0
  allowedPriceMaxTl : Float := 0.0

structure RunnerCfg where
  defaultTimeoutMs : UInt32 := 5000
  abortOnFailure : Bool := true

structure LoggingCfg where
  level : Bytes := ascii "info"
  directory : Bytes := []
  auditDir : Bytes := []
  rotateAtSizeMb : UInt32 := 256
  keepFiles : UInt32 := 30

structure ReactorCfg where
  hotCpuPin : Int32 := -1
  busyPoll : Bool := false
  tcpNodelay : Bool := true
  recvBufBytes : UInt32 := 1048576
  sendBufBytes : UInt32 := 1048576

structure Config where
  environment : EnvironmentCfg := {}
  ouch : OuchCfg := {}
  fix : FixCfg := {}
  throttler : ThrottlerCfg := {}
  risk : RiskCfg := {}
  runner : RunnerCfg := {}
  logging : LoggingCfg := {}
  reactor : ReactorCfg := {}

/-! ## Loading -/

section Loading

variable (get : Getters)

def setIfPresent {α : Type} (value : Toml → Option α) (n : Option Toml) (dst : α) : α := (n.bind value).getD dst

/-- The empty text counts as absent. -/
def setIfNonempty (n : Option Toml) (dst : Bytes) : Bytes :=
  setIfPresent (fun n => (n.string get).filter (· ≠ [])) n dst

/-- An element of a list of ports; one that is no port is left out. -/
def port (el : Toml) : Option UInt16 :=
  (el.int64 get).bind fun v => if 0 ≤ v ∧ v ≤ 0xFFFF then some v.toUInt64.toUInt16 else none

def loadPorts (n : Option Toml) (out : List UInt16) : List UInt16 :=
  setIfPresent (fun n => n.asArray.map fun elements => elements.filterMap (port get)) n out

/-- `static_cast<std::uint16_t>(*p)`, if there is an integer. -/
def fixPort (n : Option Toml) (dst : UInt16) : UInt16 :=
  setIfPresent (fun n => (n.int64 get).map fun v => v.toUInt64.toUInt16) n dst

/-- `static_cast<int>(*v)`, if there is an integer. -/
def cpuPin (n : Option Toml) (dst : Int32) : Int32 :=
  setIfPresent (fun n => (n.int64 get).map Int64.toInt32) n dst

/-- `load_channel`, for the table of that name in `[fix]`. -/
def loadChannel (t : Toml) (channel : String) (dst : FixChannelCfg) : FixChannelCfg where
  senderCompId := setIfNonempty get (t.subsetting "fix" channel "sender_comp_id") dst.senderCompId
  targetCompId := setIfNonempty get (t.subsetting "fix" channel "target_comp_id") dst.targetCompId
  username := setIfNonempty get (t.subsetting "fix" channel "username") dst.username

def apply (cfg : Config) (t : Toml) : Config where
  environment :=
    { name := setIfNonempty get (t.setting "environment" "name") cfg.environment.name
      description := setIfNonempty get (t.setting "environment" "description") cfg.environment.description
      weekend := setIfPresent (Toml.bool get) (t.setting "environment" "weekend") cfg.environment.weekend }
  ouch :=
    { hostPrimary := setIfNonempty get (t.setting "ouch" "host_primary") cfg.ouch.hostPrimary
      hostSecondary := setIfNonempty get (t.setting "ouch" "host_secondary") cfg.ouch.hostSecondary
      ports := loadPorts get (t.setting "ouch" "ports") cfg.ouch.ports
      heartbeatMs := setIfPresent (Toml.uint32 get) (t.setting "ouch" "heartbeat_ms") cfg.ouch.heartbeatMs
      username := setIfNonempty get (t.setting "ouch" "username") cfg.ouch.username
      password := setIfNonempty get (t.setting "ouch" "password") cfg.ouch.password
      session := setIfNonempty get (t.setting "ouch" "session") cfg.ouch.session
      sequence := setIfPresent (Toml.uint64 get) (t.setting "ouch" "sequence") cfg.ouch.sequence
      codReconnectDeadlineMs :=
        setIfPresent (Toml.uint32 get) (t.setting "ouch" "cod_reconnect_deadline_ms") cfg.ouch.codReconnectDeadlineMs
      uea :=
        { host := setIfNonempty get (t.subsetting "ouch" "uea" "host") cfg.ouch.uea.host
          ports := loadPorts get (t.subsetting "ouch" "uea" "ports") cfg.ouch.uea.ports } }
  fix :=
    { hostPrimary := setIfNonempty get (t.setting "fix" "host_primary") cfg.fix.hostPrimary
      hostColo := setIfNonempty get (t.setting "fix" "host_colo") cfg.fix.hostColo
      oePort := fixPort get (t.setting "fix" "oe_port") cfg.fix.oePort
      rdPort := fixPort get (t.setting "fix" "rd_port") cfg.fix.rdPort
      dcPort := fixPort get (t.setting "fix" "dc_port") cfg.fix.dcPort
      senderCompId := setIfNonempty get (t.setting "fix" "sender_comp_id") cfg.fix.senderCompId
      targetCompId := setIfNonempty get (t.setting "fix" "target_comp_id") cfg.fix.targetCompId
      username := setIfNonempty get (t.setting "fix" "username") cfg.fix.username
      dataDictionary := setIfNonempty get (t.setting "fix" "data_dictionary") cfg.fix.dataDictionary
      transportDictionary := setIfNonempty get (t.setting "fix" "transport_dictionary") cfg.fix.transportDictionary
      heartbeatSecs := setIfPresent (Toml.uint32 get) (t.setting "fix" "heartbeat_secs") cfg.fix.heartbeatSecs
      sessionStorage := setIfNonempty get (t.setting "fix" "session_storage") cfg.fix.sessionStorage
      password :=
        { current := setIfNonempty get (t.subsetting "fix" "password" "current") cfg.fix.password.current
          next := setIfNonempty get (t.subsetting "fix" "password" "next") cfg.fix.password.next }
      oe := loadChannel get t "oe" cfg.fix.oe
      rd := loadChannel get t "rd" cfg.fix.rd
      dc := loadChannel get t "dc" cfg.fix.dc }
  throttler :=
    { ordersPerSec := setIfPresent (Toml.uint32 get) (t.setting "throttler" "orders_per_sec") cfg.throttler.ordersPerSec }
  risk :=
    { maxQtyPerOrder := setIfPresent (Toml.uint64 get) (t.setting "risk" "max_qty_per_order") cfg.risk.maxQtyPerOrder
      maxOpenOrders := setIfPresent (Toml.uint64 get) (t.setting "risk" "max_open_orders") cfg.risk.maxOpenOrders
      allowedPriceMinTl :=
        setIfPresent (Toml.double get) (t.setting "risk" "allowed_price_min_tl") cfg.risk.allowedPriceMinTl
      allowedPriceMaxTl :=
        setIfPresent (Toml.double get) (t.setting "risk" "allowed_price_max_tl") cfg.risk.allowedPriceMaxTl }
  runner :=
    { defaultTimeoutMs := setIfPresent (Toml.uint32 get) (t.setting "runner" "default_timeout_ms") cfg.runner.defaultTimeoutMs
      abortOnFailure := setIfPresent (Toml.bool get) (t.setting "runner" "abort_on_failure") cfg.runner.abortOnFailure }
  logging :=
    { level := setIfNonempty get (t.setting "logging" "level") cfg.logging.level
      directory := setIfNonempty get (t.setting "logging" "directory") cfg.logging.directory
      auditDir := setIfNonempty get (t.setting "logging" "audit_dir") cfg.logging.auditDir
      rotateAtSizeMb := setIfPresent (Toml.uint32 get) (t.setting "logging" "rotate_at_size_mb") cfg.logging.rotateAtSizeMb
      keepFiles := setIfPresent (Toml.uint32 get) (t.setting "logging" "keep_files") cfg.logging.keepFiles }
  reactor :=
    { hotCpuPin := cpuPin get (t.setting "reactor" "hot_cpu_pin") cfg.reactor.hotCpuPin
      busyPoll := setIfPresent (Toml.bool get) (t.setting "reactor" "busy_poll") cfg.reactor.busyPoll
      tcpNodelay := setIfPresent (Toml.bool get) (t.setting "reactor" "tcp_nodelay") cfg.reactor.tcpNodelay
      recvBufBytes := setIfPresent (Toml.uint32 get) (t.setting "reactor" "recv_buf_bytes") cfg.reactor.recvBufBytes
      sendBufBytes := setIfPresent (Toml.uint32 get) (t.setting "reactor" "send_buf_bytes") cfg.reactor.sendBufBytes }

def validate (cfg : Config) : Result Unit :=
  if cfg.environment.name = [] then .error (makeError .validation "config: [environment].name is empty")
  else if cfg.ouch.hostPrimary = [] then .error (makeError .validation "config: [ouch].host_primary is empty")
  else if cfg.ouch.ports = [] then .error (makeError .validation "config: [ouch].ports is empty")
  else if cfg.ouch.username = [] then
    .error (makeError .validation "config: [ouch].username is empty (set in *.local.toml)")
  else if cfg.ouch.password = [] then
    .error (makeError .validation "config: [ouch].password is empty (set in *.local.toml)")
  else if cfg.throttler.ordersPerSec = 0 then
    .error (makeError .validation "config: [throttler].orders_per_sec must be > 0")
  else .ok ()

/-- How reading a file can fail. -/
inductive TomlFailure
  | parseError (what : String)
  | unreadable (what : String)
deriving DecidableEq

/-- `beside` is the file with `.local` in its name, if it exists, and `localPath` its path. -/
def loadConfig (path localPath : String) (base : Except TomlFailure Toml) (beside : Option (Except String Toml)) :
    Result Config :=
  match base with
  | .error (.parseError what) => .error (makeError .validation ("toml parse failed for " ++ path ++ ": " ++ what))
  | .error (.unreadable what) => .error (makeError .io ("failed to read " ++ path ++ ": " ++ what))
  | .ok base =>
    let cfg := apply get {} base
    match beside with
    | some (.error what) => .error (makeError .validation ("toml parse failed for " ++ localPath ++ ": " ++ what))
    | some (.ok beside) => (validate (apply get cfg beside)).map fun _ => apply get cfg beside
    | none => (validate cfg).map fun _ => cfg

end Loading

/-! ## What the numbers are used for -/

structure ResolvedEndpoint where
  host : Bytes
  port : UInt16 := 0
deriving DecidableEq

/-- Partitions are counted from 1. -/
def resolveOuchEndpoint (cfg : OuchCfg) (partition_ : Int) (secondary : Bool) : Result ResolvedEndpoint :=
  let outOfRange : Result ResolvedEndpoint :=
    .error (makeError .validation "partition out of range for [ouch].ports")
  if partition_ < 1 then outOfRange
  else
    match cfg.ports[(partition_ - 1).toNat]? with
    | none => outOfRange
    | some port =>
      .ok { host := if secondary = true ∧ cfg.hostSecondary ≠ [] then cfg.hostSecondary else cfg.hostPrimary, port }

/-- `hb_send_ns` of `run_live`, a product of 32 bits. -/
def hbSendNs (cfg : Config) : UInt32 := cfg.ouch.heartbeatMs * 1000000

/-- The session that `run_live` has its transport build. -/
def liveSession (cfg : Config) (socket : TcpSocket) (clock : Clock) (login : LoginParams) : OuchSession :=
  .create socket clock login (hbSendNs cfg)

/-! ## What the files say -/

/-- The value of the last file that has one. -/
def latest {α : Type} (read : Toml → Option α) : List Toml → Option α
  | [] => none
  | t :: ts => (latest read ts).or (read t)

section Written

variable (get : Getters)

/-- The configuration that the files leave, in the order they are read. -/
def merged (files : List Toml) : Config := files.foldl (apply get) {}

/-- The list of ports that is in force, as it is written. -/
def portsWritten (files : List Toml) : Option (List Toml) :=
  latest (fun t => (t.setting "ouch" "ports").bind Toml.asArray) files

/-- The integer that is in force for a key. -/
def inForce (files : List Toml) (section_ key : String) : Option Int64 :=
  latest (fun t => (t.setting section_ key).bind (Toml.int64 get)) files

/-- A setting that each file gives or leaves alone is what the last file gives. -/
theorem foldl_setting {α : Type} (field : Config → α) (read : Toml → Option α)
    (h : ∀ cfg t, field (apply get cfg t) = (read t).getD (field cfg)) (files : List Toml) (cfg : Config) :
    field (files.foldl (apply get) cfg) = (latest read files).getD (field cfg) := by
  induction files generalizing cfg with
  | nil => rfl
  | cons t ts ih =>
    rw [List.foldl_cons, ih, h, latest]
    cases latest read ts <;> rfl

theorem latest_map {α β : Type} (f : α → β) (read : Toml → Option α) (files : List Toml) :
    latest (fun t => (read t).map f) files = (latest read files).map f := by
  induction files with
  | nil => rfl
  | cons t ts ih =>
    rw [latest, latest, ih, Option.map_or]

theorem ports_merged (files : List Toml) :
    (merged get files).ouch.ports = ((portsWritten files).map fun els => els.filterMap (port get)).getD [] := by
  rw [portsWritten, ← latest_map]
  apply foldl_setting get fun cfg => cfg.ouch.ports
  intro cfg t
  simp only [apply, loadPorts, setIfPresent]
  rw [Option.map_bind]
  rfl

/-- The FIX ports, each by its key. -/
theorem fix_merged (key : String) (field : Config → UInt16) (hnew : field {} = 0)
    (hfield : ∀ cfg t, field (apply get cfg t) = fixPort get (t.setting "fix" key) (field cfg)) (files : List Toml) :
    field (merged get files) = ((inForce get files "fix" key).getD 0).toUInt64.toUInt16 := by
  have hlast := foldl_setting get field
    (fun t => ((t.setting "fix" key).bind (Toml.int64 get)).map fun v => v.toUInt64.toUInt16) ?_ files {}
  · rw [merged, hlast, latest_map, hnew, inForce]
    cases latest _ files <;> rfl
  · intro cfg t
    rw [hfield, fixPort, setIfPresent, Option.map_bind]
    rfl

theorem heartbeat_merged (files : List Toml) :
    (merged get files).ouch.heartbeatMs =
      (latest (fun t => (t.setting "ouch" "heartbeat_ms").bind (Toml.uint32 get)) files).getD 800 :=
  foldl_setting get (fun cfg => cfg.ouch.heartbeatMs) _ (fun _ _ => rfl) files {}

end Written

/-! ## Numbers that fit -/

/-- `v` is a number of `0..top`. -/
def Within (top : Int) (v : Int64) : Prop := 0 ≤ v.toInt ∧ v.toInt ≤ top

instance (top : Int) (v : Int64) : Decidable (Within top v) := inferInstanceAs (Decidable (_ ∧ _))

theorem toNat_toUInt64 {v : Int64} (h : 0 ≤ v.toInt) : (v.toUInt64.toNat : Int) = v.toInt := by
  rw [Int64.toNat_toUInt64_of_le (Int64.le_iff_toInt_le.2 h), Int64.toNatClampNeg]
  exact Int.toNat_of_nonneg h

/-- The cast to a port keeps exactly the ports. -/
theorem toUInt16_iff (v : Int64) : (v.toUInt64.toUInt16.toNat : Int) = v.toInt ↔ Within 65535 v := by
  have hlt := v.toUInt64.toUInt16.toNat_lt
  constructor
  · intro h
    constructor
    all_goals omega
  · rintro ⟨hnonneg, htop⟩
    have heq := toNat_toUInt64 hnonneg
    rw [UInt64.toNat_toUInt16]
    omega

theorem port_eq_some_iff (get : Getters) (el : Toml) (p : UInt16) :
    port get el = some p ↔ ∃ v, el.int64 get = some v ∧ Within 65535 v ∧ (p.toNat : Int) = v.toInt := by
  unfold port
  rw [Option.bind_eq_some_iff]
  refine exists_congr fun v => and_congr_right fun _ => ?_
  have hwithin : (0 ≤ v ∧ v ≤ 0xFFFF) ↔ Within 65535 v := and_congr Int64.le_iff_toInt_le Int64.le_iff_toInt_le
  rw [Option.ite_none_right_eq_some, hwithin]
  refine and_congr_right fun h => ?_
  have hcast := (toUInt16_iff v).2 h
  rw [Option.some.injEq, ← hcast, Int.natCast_inj, ← UInt16.toNat_inj, eq_comm]

/-- If no element is left out, each keeps its place. -/
theorem getElem?_filterMap {α β : Type} {f : α → Option β} {xs : List α} (h : ∀ x ∈ xs, (f x).isSome) (k : Nat) :
    (xs.filterMap f)[k]? = xs[k]?.bind f := by
  induction xs generalizing k with
  | nil => rfl
  | cons x xs ih =>
    obtain ⟨y, hy⟩ := Option.isSome_iff_exists.1 (h x List.mem_cons_self)
    rw [List.filterMap_cons_some hy]
    cases k with
    | zero => exact hy.symm
    | succ k => exact ih (fun x' hx' => h x' (List.mem_cons_of_mem x hx')) k

theorem narrow_of_within {v : Int64} (h : Within 4294967295 v) : narrow v = some v.toUInt64.toUInt32 := by
  apply if_pos
  rw [Int64.le_iff_toInt_le, Int64.lt_iff_toInt_lt]
  exact ⟨h.1, Int.lt_of_le_of_lt h.2 (by decide)⟩

theorem latest_bind_none {α β : Type} {read : Toml → Option α} {files : List Toml} (h : latest read files = none)
    (f : α → Option β) : latest (fun t => (read t).bind f) files = none := by
  induction files with
  | nil => rfl
  | cons t ts ih =>
    rw [latest, Option.or_eq_none_iff] at h
    rw [latest, ih h.1, h.2]
    rfl

/-- A value in force that converts is in force. -/
theorem latest_bind {α β : Type} {read : Toml → Option α} {files : List Toml} {v : α} {f : α → Option β} {w : β}
    (h : latest read files = some v) (hf : f v = some w) : latest (fun t => (read t).bind f) files = some w := by
  induction files with
  | nil => cases h
  | cons t ts ih =>
    rw [latest, Option.or_eq_some_iff] at h
    rw [latest]
    rcases h with hlater | ⟨hnone, hhere⟩
    · rw [ih hlater]
      rfl
    · rw [latest_bind_none hnone, hhere]
      exact hf

/-- The heartbeat in force, read as 32 bits. -/
theorem heartbeat_narrowed (get : Getters) (files : List Toml) :
    (merged get files).ouch.heartbeatMs =
      (latest (fun t => ((t.setting "ouch" "heartbeat_ms").bind (Toml.int64 get)).bind narrow) files).getD 800 := by
  rw [heartbeat_merged]
  simp only [Option.bind_assoc]
  rfl

/-- The heartbeat that the session is given is the one in force exactly if its
nanoseconds fit 32 bits. -/
theorem hbSendNs_iff (get : Getters) (files : List Toml) :
    ((hbSendNs (merged get files)).toNat : Int) = ((inForce get files "ouch" "heartbeat_ms").getD 800).toInt * 1000000 ↔
      Within 4294 ((inForce get files "ouch" "heartbeat_ms").getD 800) := by
  have hlt := (hbSendNs (merged get files)).toNat_lt
  constructor
  · intro h
    constructor
    all_goals omega
  · intro h
    have hms : ((merged get files).ouch.heartbeatMs.toNat : Int) =
        ((inForce get files "ouch" "heartbeat_ms").getD 800).toInt := by
      rw [heartbeat_narrowed]
      cases hv : inForce get files "ouch" "heartbeat_ms" with
      | none =>
        rw [latest_bind_none hv]
        rfl
      | some v =>
        rw [hv] at h
        have hnarrow := narrow_of_within ⟨h.1, Int.le_trans h.2 (by decide)⟩
        have hnat := toNat_toUInt64 h.1
        have htop := h.2
        rw [latest_bind hv hnarrow]
        dsimp only [Option.getD_some] at hnat htop ⊢
        rw [UInt64.toNat_toUInt32]
        omega
    have hnonneg := h.1
    have htop := h.2
    rw [hbSendNs, UInt32.toNat_mul]
    rw [← hms] at hnonneg htop ⊢
    have hmillion : (1000000 : UInt32).toNat = 1000000 := rfl
    rw [hmillion]
    omega

/-! ## The property -/

/-- The ports, the FIX ports and the heartbeat are used as the files have them. -/
structure AsWritten (get : Getters) (files : List Toml) (cfg : Config) : Prop where
  ports : ∀ elements, portsWritten files = some elements → ∀ (k : Nat) el, elements[k]? = some el → ∀ secondary,
    ∃ v host p, el.int64 get = some v ∧ resolveOuchEndpoint cfg.ouch (k + 1) secondary = .ok ⟨host, p⟩ ∧
      (p.toNat : Int) = v.toInt
  oePort : (cfg.fix.oePort.toNat : Int) = ((inForce get files "fix" "oe_port").getD 0).toInt
  rdPort : (cfg.fix.rdPort.toNat : Int) = ((inForce get files "fix" "rd_port").getD 0).toInt
  dcPort : (cfg.fix.dcPort.toNat : Int) = ((inForce get files "fix" "dc_port").getD 0).toInt
  heartbeat : ∀ socket clock login, ((liveSession cfg socket clock login).heartbeatSendNs.toNat : Int) =
    ((inForce get files "ouch" "heartbeat_ms").getD 800).toInt * 1000000

/-- Every number fits where it goes. -/
structure Fit (get : Getters) (files : List Toml) : Prop where
  ports : ∀ elements, portsWritten files = some elements → ∀ el ∈ elements, ∃ v, el.int64 get = some v ∧ Within 65535 v
  fixPorts : ∀ key ∈ ["oe_port", "rd_port", "dc_port"], Within 65535 ((inForce get files "fix" key).getD 0)
  heartbeat : Within 4294 ((inForce get files "ouch" "heartbeat_ms").getD 800)

theorem loadConfig_ok {get : Getters} {path localPath : String} {base : Toml} {beside : Option Toml} {cfg : Config}
    (h : loadConfig get path localPath (.ok base) (beside.map .ok) = .ok cfg) :
    cfg = merged get (base :: beside.toList) := by
  have hvalid : ∀ {c : Config}, (validate c).map (fun _ => c) = .ok cfg → cfg = c := by
    intro c hc
    cases hv : validate c with
    | error e =>
      rw [hv] at hc
      cases hc
    | ok u =>
      rw [hv] at hc
      cases hc
      rfl
  cases beside with
  | none => exact hvalid h
  | some beside => exact hvalid h

/-- A partition is dialled at the port that stands in its place exactly if no
element before it or in it is left out. -/
theorem resolves_iff (get : Getters) {cfg : OuchCfg} {elements : List Toml}
    (hports : cfg.ports = elements.filterMap (port get)) :
    (∀ (k : Nat) el, elements[k]? = some el → ∀ secondary, ∃ v host p, el.int64 get = some v ∧
        resolveOuchEndpoint cfg (k + 1) secondary = .ok ⟨host, p⟩ ∧ (p.toNat : Int) = v.toInt) ↔
      ∀ el ∈ elements, ∃ v, el.int64 get = some v ∧ Within 65535 v := by
  constructor
  · intro h el hel
    obtain ⟨k, hk, rfl⟩ := List.getElem_of_mem hel
    obtain ⟨v, host, p, hv, -, hp⟩ := h k _ (List.getElem?_eq_getElem hk) false
    have hlt := p.toNat_lt
    refine ⟨v, hv, ?_, ?_⟩
    all_goals omega
  · intro h k el hel secondary
    have hkept : ∀ el' ∈ elements, (port get el').isSome := by
      intro el' hel'
      obtain ⟨v, hv, hwithin⟩ := h el' hel'
      exact Option.isSome_iff_exists.2 ⟨_, (port_eq_some_iff get el' _).2 ⟨v, hv, hwithin, (toUInt16_iff v).2 hwithin⟩⟩
    obtain ⟨p, hp⟩ := Option.isSome_iff_exists.1 (hkept el (List.mem_of_getElem? hel))
    obtain ⟨v, hv, -, hpv⟩ := (port_eq_some_iff get el p).1 hp
    have hplace : cfg.ports[((k : Int) + 1 - 1).toNat]? = some p := by
      rw [Int.add_sub_cancel, Int.toNat_natCast, hports, getElem?_filterMap hkept, hel]
      exact hp
    refine ⟨v, if secondary = true ∧ cfg.hostSecondary ≠ [] then cfg.hostSecondary else cfg.hostPrimary, p, hv, ?_, hpv⟩
    unfold resolveOuchEndpoint
    dsimp only
    rw [if_neg (by omega), hplace]

/-- Of the files that `load_config` accepts, exactly those whose numbers fit are
used as they are written. -/
theorem numbers_as_written_iff (get : Getters) {path localPath : String} {base : Toml} {beside : Option Toml} {cfg : Config}
    (h : loadConfig get path localPath (.ok base) (beside.map .ok) = .ok cfg) :
    AsWritten get (base :: beside.toList) cfg ↔ Fit get (base :: beside.toList) := by
  obtain rfl := loadConfig_ok h
  generalize base :: beside.toList = files
  have hports : ∀ elements, portsWritten files = some elements →
      (merged get files).ouch.ports = elements.filterMap (port get) := by
    intro elements hel
    rw [ports_merged, hel]
    rfl
  have hfix : ∀ (key : String) (field : Config → UInt16), field {} = 0 →
      (∀ cfg t, field (apply get cfg t) = fixPort get (t.setting "fix" key) (field cfg)) →
      ((field (merged get files)).toNat = ((inForce get files "fix" key).getD 0).toInt ↔
        Within 65535 ((inForce get files "fix" key).getD 0)) := by
    intro key field hnew hfield
    rw [fix_merged get key field hnew hfield, toUInt16_iff]
  have hoe := hfix "oe_port" (fun cfg => cfg.fix.oePort) rfl fun _ _ => rfl
  have hrd := hfix "rd_port" (fun cfg => cfg.fix.rdPort) rfl fun _ _ => rfl
  have hdc := hfix "dc_port" (fun cfg => cfg.fix.dcPort) rfl fun _ _ => rfl
  constructor
  · intro hw
    refine ⟨?_, ?_, ?_⟩
    · intro elements hel
      exact (resolves_iff get (hports elements hel)).1 (hw.ports elements hel)
    · simp only [List.forall_mem_cons]
      exact ⟨hoe.1 hw.oePort, hrd.1 hw.rdPort, hdc.1 hw.dcPort, nofun⟩
    · exact (hbSendNs_iff get files).1 (hw.heartbeat {} ⟨fun _ => 0, 0⟩ ⟨[], [], [], 0⟩)
  · intro hfit
    have hf := hfit.fixPorts
    simp only [List.forall_mem_cons] at hf
    refine ⟨?_, hoe.2 hf.1, hrd.2 hf.2.1, hdc.2 hf.2.2.1, ?_⟩
    · intro elements hel
      exact (resolves_iff get (hports elements hel)).2 (hfit.ports elements hel)
    · intro socket clock login
      exact (hbSendNs_iff get files).2 hfit.heartbeat

/-- A decimal integer. -/
def plainInteger (source : Bytes) : Option Int64 :=
  if source ≠ [] ∧ source.all isDigit then some (strtoull (source ++ [0])).toInt64 else none

/-- Decimal integers, quoted texts and the two truth values. -/
def plainGetters : Getters where
  integer := plainInteger
  text source := if source.head? = some 34 then some source.tail.dropLast else none
  boolean source := if source = ascii "true" then some true else if source = ascii "false" then some false else none
  real source := (plainInteger source).map Int64.toFloat

def setText (key value : String) : String × Toml := (key, .scalar (34 :: ascii value ++ [34]))

def setInteger (key value : String) : String × Toml := (key, .scalar (ascii value))

/-- A file with these ports, heartbeat and FIX port. -/
def sampleFile (ports : List String) (heartbeatMs oePort : String) : Toml :=
  .table [("environment", .table [setText "name" "test"]),
    ("ouch", .table [setText "host_primary" "10.57.3.146", setText "username" "TEST01", setText "password" "secret",
      ("ports", .array (ports.map fun p => .scalar (ascii p))), setInteger "heartbeat_ms" heartbeatMs]),
    ("fix", .table [setInteger "oe_port" oePort])]

/-- The file beside it changes the heartbeat. -/
def sampleLocal : Toml := .table [("ouch", .table [setInteger "heartbeat_ms" "1500"])]

def sampleConfig : Config := merged plainGetters [sampleFile ["21501", "21502"] "800" "9880", sampleLocal]

theorem sample_loads : loadConfig plainGetters "base.toml" "base.local.toml"
    (.ok (sampleFile ["21501", "21502"] "800" "9880")) (some (.ok sampleLocal)) = .ok sampleConfig := by
  rfl

theorem numbers_as_written_iff_sample :
    AsWritten plainGetters [sampleFile ["21501", "21502"] "800" "9880", sampleLocal] sampleConfig ↔
      Fit plainGetters [sampleFile ["21501", "21502"] "800" "9880", sampleLocal] :=
  @numbers_as_written_iff plainGetters _ _ _ (some sampleLocal) _ sample_loads

/-- A port that is none, a FIX port that is none and a heartbeat of 5 seconds. -/
def strayFile : Toml := sampleFile ["70000", "21502"] "5000" "70000"

def strayConfig : Config := merged plainGetters [strayFile]

/-- Partition 1 is dialled at the port of partition 2. -/
theorem numbers_not_as_written : ¬ ∀ (get : Getters) (path localPath : String) (base : Toml) (beside : Option Toml)
    (cfg : Config), loadConfig get path localPath (.ok base) (beside.map .ok) = .ok cfg →
      AsWritten get (base :: beside.toList) cfg := by
  intro h
  have hw := h plainGetters "base.toml" "base.local.toml" strayFile none strayConfig rfl
  obtain ⟨v, host, p, hv, hr, hp⟩ := hw.ports _ rfl 0 _ rfl false
  have hfirst : resolveOuchEndpoint strayConfig.ouch 1 false = .ok ⟨ascii "10.57.3.146", 21502⟩ := rfl
  have hseventy : (Toml.scalar (ascii "70000")).int64 plainGetters = some 70000 := rfl
  cases hfirst.symm.trans hr
  cases hseventy.symm.trans hv
  revert hp
  decide

/-- The three numbers that the stray file leaves. -/
example : resolveOuchEndpoint strayConfig.ouch 1 false = .ok ⟨ascii "10.57.3.146", 21502⟩ ∧
    strayConfig.fix.oePort = 4464 ∧ hbSendNs strayConfig = 705032704 := ⟨rfl, rfl, rfl⟩

end BistColo.App
