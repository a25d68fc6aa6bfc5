import BistColo.App.Config
/-!
# The local file

What the file beside the base file changes. A setting is where a value stands
in a file, how it is read and which field it goes to; `settings` are all of
them, and a configuration is no more than its settings. There is one lemma for
each kind of setter: it leaves the field alone unless the file gives a value,
except that an empty list of ports empties it. `local_overrides_iff` says for
which files that shows.
-/

open StreamKit

namespace BistColo.App

open Ouch

/-! ## Settings -/

inductive Value
  | text (v : Bytes)
  | ports (v : List UInt16)
  | bool (v : Bool)
  | int (v : Int32)
  | uint16 (v : UInt16)
  | uint32 (v : UInt32)
  | uint64 (v : UInt64)
  | double (v : Float)

/-- The empty text counts as no value. -/
def Value.blank : Value → Bool
  | text [] => true
  | _ => false

def Toml.emptyArray : Toml → Bool
  | array [] => true
  | _ => false

/-- A key of a section, or of a table in it, and the field that it sets. -/
structure Setting where
  section_ : String
  sub : Option String
  key : String
  value : Toml → Option Value
  field : Config → Value

namespace Setting

def find (s : Setting) (t : Toml) : Option Toml :=
  match s.sub with
  | none => t.setting s.section_ s.key
  | some sub => t.subsetting s.section_ sub s.key

/-- The value that a file gives, if the key is there and not empty. -/
def given (s : Setting) (t : Toml) : Option Value :=
  (s.find t).bind fun n => if n.emptyArray then none else (s.value n).filter fun v => !v.blank

end Setting

section Settings

variable (get : Getters)

def textSetting (section_ : String) (sub : Option String) (key : String) (field : Config → Bytes) : Setting :=
  ⟨section_, sub, key, fun n => (n.string get).map .text, fun cfg => .text (field cfg)⟩

def portsSetting (section_ : String) (sub : Option String) (key : String) (field : Config → List UInt16) : Setting :=
  ⟨section_, sub, key, fun n => n.asArray.map fun elements => .ports (elements.filterMap (port get)),
    fun cfg => .ports (field cfg)⟩

def boolSetting (section_ key : String) (field : Config → Bool) : Setting :=
  ⟨section_, none, key, fun n => (n.bool get).map .bool, fun cfg => .bool (field cfg)⟩

def uint32Setting (section_ key : String) (field : Config → UInt32) : Setting :=
  ⟨section_, none, key, fun n => (n.uint32 get).map .uint32, fun cfg => .uint32 (field cfg)⟩

def uint64Setting (section_ key : String) (field : Config → UInt64) : Setting :=
  ⟨section_, none, key, fun n => (n.uint64 get).map .uint64, fun cfg => .uint64 (field cfg)⟩

def doubleSetting (section_ key : String) (field : Config → Float) : Setting :=
  ⟨section_, none, key, fun n => (n.double get).map .double, fun cfg => .double (field cfg)⟩

/-- An integer, cut to a port. -/
def uint16Setting (section_ key : String) (field : Config → UInt16) : Setting :=
  ⟨section_, none, key, fun n => ((n.int64 get).map fun v => v.toUInt64.toUInt16).map .uint16,
    fun cfg => .uint16 (field cfg)⟩

/-- An integer, cut to 32 bits. -/
def intSetting (section_ key : String) (field : Config → Int32) : Setting :=
  ⟨section_, none, key, fun n => ((n.int64 get).map Int64.toInt32).map .int, fun cfg => .int (field cfg)⟩

def ouchPorts : Setting := portsSetting get "ouch" none "ports" (·.ouch.ports)

def ueaPorts : Setting := portsSetting get "ouch" (some "uea") "ports" (·.ouch.uea.ports)

/-- All that a file can set. -/
def settings : List Setting :=
  [textSetting get "environment" none "name" (·.environment.name),
    textSetting get "environment" none "description" (·.environment.description),
    boolSetting get "environment" "weekend" (·.environment.weekend),
    textSetting get "ouch" none "host_primary" (·.ouch.hostPrimary),
    textSetting get "ouch" none "host_secondary" (·.ouch.hostSecondary),
    ouchPorts get,
    uint32Setting get "ouch" "heartbeat_ms" (·.ouch.heartbeatMs),
    textSetting get "ouch" none "username" (·.ouch.username),
    textSetting get "ouch" none "password" (·.ouch.password),
    textSetting get "ouch" none "session" (·.ouch.session),
    uint64Setting get "ouch" "sequence" (·.ouch.sequence),
    uint32Setting get "ouch" "cod_reconnect_deadline_ms" (·.ouch.codReconnectDeadlineMs),
    textSetting get "ouch" (some "uea") "host" (·.ouch.uea.host),
    ueaPorts get,
    textSetting get "fix" none "host_primary" (·.fix.hostPrimary),
    textSetting get "fix" none "host_colo" (·.fix.hostColo),
    uint16Setting get "fix" "oe_port" (·.fix.oePort),
    uint16Setting get "fix" "rd_port" (·.fix.rdPort),
    uint16Setting get "fix" "dc_port" (·.fix.dcPort),
    textSetting get "fix" none "sender_comp_id" (·.fix.senderCompId),
    textSetting get "fix" none "target_comp_id" (·.fix.targetCompId),
    textSetting get "fix" none "username" (·.fix.username),
    textSetting get "fix" none "data_dictionary" (·.fix.dataDictionary),
    textSetting get "fix" none "transport_dictionary" (·.fix.transportDictionary),
    uint32Setting get "fix" "heartbeat_secs" (·.fix.heartbeatSecs),
    textSetting get "fix" none "session_storage" (·.fix.sessionStorage),
    textSetting get "fix" (some "password") "current" (·.fix.password.current),
    textSetting get "fix" (some "password") "next" (·.fix.password.next),
    textSetting get "fix" (some "oe") "sender_comp_id" (·.fix.oe.senderCompId),
    textSetting get "fix" (some "oe") "target_comp_id" (·.fix.oe.targetCompId),
    textSetting get "fix" (some "oe") "username" (·.fix.oe.username),
    textSetting get "fix" (some "rd") "sender_comp_id" (·.fix.rd.senderCompId),
    textSetting get "fix" (some "rd") "target_comp_id" (·.fix.rd.targetCompId),
    textSetting get "fix" (some "rd") "username" (·.fix.rd.username),
    textSetting get "fix" (some "dc") "sender_comp_id" (·.fix.dc.senderCompId),
    textSetting get "fix" (some "dc") "target_comp_id" (·.fix.dc.targetCompId),
    textSetting get "fix" (some "dc") "username" (·.fix.dc.username),
    uint32Setting get "throttler" "orders_per_sec" (·.throttler.ordersPerSec),
    uint64Setting get "risk" "max_qty_per_order" (·.risk.maxQtyPerOrder),
    uint64Setting get "risk" "max_open_orders" (·.risk.maxOpenOrders),
    doubleSetting get "risk" "allowed_price_min_tl" (·.risk.allowedPriceMinTl),
    doubleSetting get "risk" "allowed_price_max_tl" (·.risk.allowedPriceMaxTl),
    uint32Setting get "runner" "default_timeout_ms" (·.runner.defaultTimeoutMs),
    boolSetting get "runner" "abort_on_failure" (·.runner.abortOnFailure),
    textSetting get "logging" none "level" (·.logging.level),
    textSetting get "logging" none "directory" (·.logging.directory),
    textSetting get "logging" none "audit_dir" (·.logging.auditDir),
    uint32Setting get "logging" "rotate_at_size_mb" (·.logging.rotateAtSizeMb),
    uint32Setting get "logging" "keep_files" (·.logging.keepFiles),
    intSetting get "reactor" "hot_cpu_pin" (·.reactor.hotCpuPin),
    boolSetting get "reactor" "busy_poll" (·.reactor.busyPoll),
    boolSetting get "reactor" "tcp_nodelay" (·.reactor.tcpNodelay),
    uint32Setting get "reactor" "recv_buf_bytes" (·.reactor.recvBufBytes),
    uint32Setting get "reactor" "send_buf_bytes" (·.reactor.sendBufBytes)]

end Settings

/-- A configuration is no more than its settings. -/
theorem settings_ext {get : Getters} {a b : Config} (h : ∀ s ∈ settings get, s.field a = s.field b) : a = b := by
  obtain ⟨⟨⟩, ⟨_, _, _, _, _, _, _, _, _, ⟨⟩⟩, ⟨_, _, _, _, _, _, _, _, _, _, _, _, ⟨⟩, ⟨⟩, ⟨⟩, ⟨⟩⟩, ⟨⟩, ⟨⟩, ⟨⟩, ⟨⟩, ⟨⟩⟩ := a
  obtain ⟨⟨⟩, ⟨_, _, _, _, _, _, _, _, _, ⟨⟩⟩, ⟨_, _, _, _, _, _, _, _, _, _, _, _, ⟨⟩, ⟨⟩, ⟨⟩, ⟨⟩⟩, ⟨⟩, ⟨⟩, ⟨⟩, ⟨⟩, ⟨⟩⟩ := b
  simpa [settings, textSetting, portsSetting, boolSetting, uint16Setting, uint32Setting, uint64Setting,
    doubleSetting, intSetting, ouchPorts, ueaPorts, and_assoc] using h

/-! ## What a file changes -/

section Apply

variable {get : Getters} {s : Setting} {cfg : Config} {t : Toml}

/-- A setting whose setter takes exactly the values that are given. -/
theorem field_of_read {α : Type} {read : Toml → Option α} (wrap : α → Value) {field : Config → α}
    (hgiven : ∀ n, (if n.emptyArray then none else (s.value n).filter fun v => !v.blank) = (read n).map wrap)
    (hfield : ∀ cfg, s.field cfg = wrap (field cfg))
    (happly : field (apply get cfg t) = setIfPresent read (s.find t) (field cfg)) :
    s.field (apply get cfg t) = (s.given t).getD (s.field cfg) := by
  rw [hfield, hfield, happly, Setting.given, setIfPresent]
  cases s.find t with
  | none => rfl
  | some n =>
    rw [Option.bind_some, Option.bind_some, hgiven]
    cases read n <;> rfl

theorem field_text {section_ : String} {sub : Option String} {key : String} {field : Config → Bytes}
    (happly : field (apply get cfg t) =
      setIfNonempty get ((textSetting get section_ sub key field).find t) (field cfg)) :
    (textSetting get section_ sub key field).field (apply get cfg t) =
      ((textSetting get section_ sub key field).given t).getD ((textSetting get section_ sub key field).field cfg) := by
  apply field_of_read .text ?_ (fun _ => rfl) happly
  rintro (source | _ | _)
  · simp only [textSetting, Toml.string, Toml.emptyArray]
    rcases get.text source with - | - | ⟨c, v⟩ <;> rfl
  · simp [textSetting, Toml.string]
  · simp [textSetting, Toml.string]

/-- A value that is never blank, read from no array. -/
theorem field_present {α : Type} {section_ key : String} {read : Toml → Option α} {wrap : α → Value} {field : Config → α}
    (hnil : read (.array []) = none) (hwrap : ∀ v, (wrap v).blank = false)
    (hs : s = ⟨section_, none, key, fun n => (read n).map wrap, fun cfg => wrap (field cfg)⟩)
    (happly : field (apply get cfg t) = setIfPresent read (t.setting section_ key) (field cfg)) :
    s.field (apply get cfg t) = (s.given t).getD (s.field cfg) := by
  subst hs
  apply field_of_read wrap ?_ (fun _ => rfl) happly
  intro n
  have hkept : ((read n).map wrap).filter (fun v => !v.blank) = (read n).map wrap := by
    cases read n with
    | none => rfl
    | some v => simp [hwrap]
  dsimp only
  rw [hkept]
  split
  · rename_i hempty
    obtain rfl : n = .array [] := by
      unfold Toml.emptyArray at hempty
      split at hempty
      · rfl
      · cases hempty
    rw [hnil]
    rfl
  · rfl

/-- An empty list of ports is a value to `load_ports`. -/
theorem field_ports {section_ : String} {sub : Option String} {key : String} {field : Config → List UInt16}
    (happly : field (apply get cfg t) = loadPorts get ((portsSetting get section_ sub key field).find t) (field cfg)) :
    (portsSetting get section_ sub key field).field (apply get cfg t) =
      if ((portsSetting get section_ sub key field).find t).any Toml.emptyArray then .ports []
      else ((portsSetting get section_ sub key field).given t).getD ((portsSetting get section_ sub key field).field cfg) := by
  change Value.ports (field (apply get cfg t)) = _
  rw [happly, loadPorts, setIfPresent, Setting.given]
  cases (portsSetting get section_ sub key field).find t with
  | none => rfl
  | some n => rcases n with _ | ⟨- | _⟩ | _ <;> rfl

/-- Nothing is given by an empty array. -/
theorem Setting.given_of_emptyArray (h : (s.find t).any Toml.emptyArray) : s.given t = none := by
  unfold Setting.given
  cases hfind : s.find t with
  | none => rfl
  | some n =>
    rw [hfind] at h
    exact if_pos h

end Apply

theorem setIfPresent_twice {α : Type} (value : Toml → Option α) (n : Option Toml) (dst : α) :
    setIfPresent value n (setIfPresent value n dst) = setIfPresent value n dst := by
  unfold setIfPresent
  cases n.bind value <;> rfl

/-- A file read twice is a file read once. -/
theorem apply_twice (get : Getters) (cfg : Config) (t : Toml) : apply get (apply get cfg t) t = apply get cfg t := by
  simp only [apply, loadChannel, setIfNonempty, loadPorts, fixPort, cpuPin, setIfPresent_twice]

/-! ## The merge -/

section Merge

variable (get : Getters)

/-- `m` has every setting that the file gives, and the others as they are in `cfg`. -/
def IsMerge (cfg : Config) (t : Toml) (m : Config) : Prop :=
  ∀ s ∈ settings get, s.field m = (s.given t).getD (s.field cfg)

/-- The configuration if it is valid. -/
def validated (cfg : Config) : Result Config := (validate cfg).map fun _ => cfg

/-- The ports as they were, where the file has an empty list of them. -/
def unemptied (n : Option Toml) (before after : List UInt16) : List UInt16 :=
  if n.any Toml.emptyArray then before else after

/-- What the file makes of `cfg` if its empty lists are taken for absent. -/
def overlay (cfg : Config) (t : Toml) : Config :=
  let applied := apply get cfg t
  { applied with
    ouch :=
      { applied.ouch with
        ports := unemptied (t.setting "ouch" "ports") cfg.ouch.ports applied.ouch.ports
        uea :=
          { applied.ouch.uea with
            ports := unemptied (t.subsetting "ouch" "uea" "ports") cfg.ouch.uea.ports applied.ouch.uea.ports } } }

variable {get} {cfg : Config} {t : Toml}

theorem unemptied_given {section_ : String} {sub : Option String} {key : String} {field : Config → List UInt16}
    (happly : field (apply get cfg t) = loadPorts get ((portsSetting get section_ sub key field).find t) (field cfg)) :
    Value.ports (unemptied ((portsSetting get section_ sub key field).find t) (field cfg) (field (apply get cfg t))) =
      ((portsSetting get section_ sub key field).given t).getD ((portsSetting get section_ sub key field).field cfg) := by
  have hfield := field_ports happly
  unfold unemptied
  split
  · rename_i hempty
    rw [Setting.given_of_emptyArray hempty]
    rfl
  · rename_i hfilled
    rw [if_neg hfilled] at hfield
    exact hfield

theorem overlay_isMerge (get : Getters) (cfg : Config) (t : Toml) : IsMerge get cfg t (overlay get cfg t) := by
  unfold IsMerge
  simp only [settings, List.forall_mem_cons]
  and_intros
  all_goals first
    | refine Eq.trans ?_ (field_text rfl)
      rfl
    | refine Eq.trans ?_ (field_present rfl (fun _ => rfl) rfl rfl)
      rfl
    | refine Eq.trans ?_ (unemptied_given rfl)
      rfl
    | exact fun _ hs => absurd hs List.not_mem_nil

theorem isMerge_iff {m : Config} : IsMerge get cfg t m ↔ m = overlay get cfg t := by
  constructor
  · intro h
    exact settings_ext fun s hs => (h s hs).trans (overlay_isMerge get cfg t s hs).symm
  · rintro rfl
    exact overlay_isMerge get cfg t

theorem ports_of_emptyArray {n : Option Toml} (h : n.any Toml.emptyArray) (before : List UInt16) :
    loadPorts get n before = [] ∧ ∀ after, unemptied n before after = before := by
  refine ⟨?_, fun _ => if_pos h⟩
  rcases n with - | _ | ⟨- | _⟩ | _
  case some.array.nil => rfl
  all_goals cases h

/-- Ports that are not emptied are merged. -/
theorem ports_unemptied {n : Option Toml} {before : List UInt16} (h : n.any Toml.emptyArray → before = []) :
    loadPorts get n before = unemptied n before (loadPorts get n before) := by
  by_cases hempty : n.any Toml.emptyArray
  · obtain ⟨hload, hkept⟩ := @ports_of_emptyArray get n hempty before
    rw [hkept, hload, h hempty]
  · exact (if_neg hempty).symm

/-- Every setter but that of the ports merges. -/
theorem apply_eq_overlay (hports : (t.setting "ouch" "ports").any Toml.emptyArray → cfg.ouch.ports = [])
    (huea : (t.subsetting "ouch" "uea" "ports").any Toml.emptyArray → cfg.ouch.uea.ports = []) :
    apply get cfg t = overlay get cfg t := by
  have ho := @ports_unemptied get _ _ hports
  have hu := @ports_unemptied get _ _ huea
  simp only [overlay, apply]
  rw [← ho, ← hu]

end Merge

/-! ## The property -/

/-- The result of `load_config` is the merge, and the local file counts once. -/
structure LocalOverrides (get : Getters) (base beside : Toml) : Prop where
  merged : ∃ m, IsMerge get (apply get {} base) beside m ∧ ∀ path localPath,
    loadConfig get path localPath (.ok base) (some (.ok beside)) = validated m
  twice : apply get (apply get (apply get {} base) beside) beside = apply get (apply get {} base) beside

/-- The local file has `[]` for ports that the base file has. -/
def EmptiesPorts (get : Getters) (base beside : Toml) : Prop :=
  ((ouchPorts get).find beside).any Toml.emptyArray ∧ (apply get {} base).ouch.ports ≠ []

def EmptiesUeaPorts (get : Getters) (base beside : Toml) : Prop :=
  ((ueaPorts get).find beside).any Toml.emptyArray ∧ (apply get {} base).ouch.uea.ports ≠ []

/-- No ports are emptied, or the files are refused for what is checked before. -/
structure PortsKept (get : Getters) (base beside : Toml) : Prop where
  ouch : EmptiesPorts get base beside → ∀ m, IsMerge get (apply get {} base) beside m →
    m.environment.name = [] ∨ m.ouch.hostPrimary = []
  uea : EmptiesUeaPorts get base beside → ¬ EmptiesPorts get base beside →
    ∀ m, IsMerge get (apply get {} base) beside m → (validate m).isOk = false

theorem validated_eq_iff {a b : Config} :
    validated a = validated b ↔ validate a = validate b ∧ ((validate a).isOk = true → a = b) := by
  unfold validated
  cases validate a <;> cases validate b <;> simp [Except.map, Except.isOk, Except.toBool]

theorem localOverrides_iff_validated (get : Getters) (base beside : Toml) :
    LocalOverrides get base beside ↔
      validated (apply get (apply get {} base) beside) = validated (overlay get (apply get {} base) beside) := by
  constructor
  · rintro ⟨⟨m, hm, hload⟩, -⟩
    rw [isMerge_iff.1 hm] at hload
    exact hload "" ""
  · intro h
    exact ⟨⟨_, overlay_isMerge _ _ _, fun _ _ => h⟩, apply_twice _ _ _⟩

/-- Emptied ports are refused, unless a check before that refuses the files. -/
theorem validate_emptied {a b : Config} (hname : a.environment.name = b.environment.name)
    (hhost : a.ouch.hostPrimary = b.ouch.hostPrimary) (ha : a.ouch.ports = []) (hb : b.ouch.ports ≠ []) :
    validate a = validate b ↔ b.environment.name = [] ∨ b.ouch.hostPrimary = [] := by
  unfold validate
  rw [hname, hhost, if_pos ha, if_neg hb]
  by_cases h₁ : b.environment.name = []
  · simp [h₁]
  · by_cases h₂ : b.ouch.hostPrimary = []
    · simp [h₂]
    · rw [if_neg h₁, if_neg h₂, if_neg h₁, if_neg h₂]
      refine iff_of_false ?_ (not_or.2 ⟨h₁, h₂⟩)
      -- no other check has this text
      split_ifs
      all_goals simp [makeError]

theorem validate_apply_emptied {get : Getters} {cfg : Config} {t : Toml} (hempty : ((ouchPorts get).find t).any Toml.emptyArray)
    (hbefore : cfg.ouch.ports ≠ []) : validate (apply get cfg t) = validate (overlay get cfg t) ↔
      (overlay get cfg t).environment.name = [] ∨ (overlay get cfg t).ouch.hostPrimary = [] := by
  obtain ⟨hload, hkept⟩ := @ports_of_emptyArray get _ hempty cfg.ouch.ports
  have hports : (overlay get cfg t).ouch.ports = cfg.ouch.ports := hkept _
  exact validate_emptied rfl rfl hload (hports ▸ hbefore)

theorem validate_congr {a b : Config} (henv : a.environment = b.environment) (hhost : a.ouch.hostPrimary = b.ouch.hostPrimary)
    (hports : a.ouch.ports = b.ouch.ports) (huser : a.ouch.username = b.ouch.username)
    (hpass : a.ouch.password = b.ouch.password) (hthrottler : a.throttler = b.throttler) : validate a = validate b := by
  unfold validate
  rw [henv, hhost, hports, huser, hpass, hthrottler]

theorem ports_of_valid {cfg : Config} (h : (validate cfg).isOk = true) : cfg.ouch.ports ≠ [] := by
  intro hports
  unfold validate at h
  rw [if_pos hports] at h
  split_ifs at h
  all_goals cases h

/-- For every base and local file, the result of `load_config` is the merge
exactly if the local file empties no ports, or the files are refused anyway. -/
theorem local_overrides_iff (get : Getters) (base beside : Toml) :
    LocalOverrides get base beside ↔ PortsKept get base beside := by
  rw [localOverrides_iff_validated, validated_eq_iff]
  constructor
  · rintro ⟨hvalid, hsame⟩
    refine ⟨?_, ?_⟩
    · rintro ⟨hempty, hbefore⟩ m hm
      obtain rfl := isMerge_iff.1 hm
      exact (validate_apply_emptied hempty hbefore).1 hvalid
    · rintro ⟨hempty, hbefore⟩ - m hm
      obtain rfl := isMerge_iff.1 hm
      by_contra hok
      have hports := @ports_of_emptyArray get _ hempty (apply get {} base).ouch.uea.ports
      rw [Bool.not_eq_false, ← hvalid] at hok
      have huea := congrArg (·.ouch.uea.ports) (hsame hok)
      exact hbefore ((hports.2 _).symm.trans (huea.symm.trans hports.1))
  · intro hkept
    by_cases he : EmptiesPorts get base beside
    · refine ⟨(validate_apply_emptied he.1 he.2).2 (hkept.ouch he _ (overlay_isMerge _ _ _)), ?_⟩
      intro hok
      exact absurd (ports_of_emptyArray he.1 _).1 (ports_of_valid hok)
    · have hsame := not_and_not_right.1 he
      have hvalid : validate (apply get (apply get {} base) beside) = validate (overlay get (apply get {} base) beside) :=
        validate_congr rfl rfl (ports_unemptied hsame) rfl rfl rfl
      refine ⟨hvalid, ?_⟩
      intro hok
      apply apply_eq_overlay hsame
      intro hempty
      by_contra hbefore
      rw [hvalid, hkept.uea ⟨hempty, hbefore⟩ he _ (overlay_isMerge _ _ _)] at hok
      cases hok

/-- The local file takes the ports away. -/
def portlessLocal : Toml := .table [("ouch", .table [("ports", .array [])])]

/-- The base file alone is accepted, and with the local file it is refused. -/
theorem ports_emptied : ¬ ∀ (get : Getters) (base beside : Toml), LocalOverrides get base beside := by
  intro hall
  obtain ⟨m, hm, hload⟩ := (hall plainGetters (sampleFile ["21501", "21502"] "800" "9880") portlessLocal).merged
  obtain rfl := isMerge_iff.1 hm
  have hrefused : (loadConfig plainGetters "base.toml" "base.local.toml"
      (.ok (sampleFile ["21501", "21502"] "800" "9880")) (some (.ok portlessLocal))).isOk = false := rfl
  rw [hload] at hrefused
  cases hrefused

end BistColo.App
