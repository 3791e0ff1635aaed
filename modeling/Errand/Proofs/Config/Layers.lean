/-
# Layers of a configuration

The command line, the variables, the file and the defaults each say something about some of the
values, and they lie over each other in this order. Loading a configuration makes one pass for each
of them. Every pass is here seen as a layer laid onto the configuration before it, so what becomes
of a value can be read off the four layers, and a value takes no part in what becomes of another.
-/
import Errand.Proofs.Config.Given

namespace Errand.Config

/-! ## Fields and layers -/

/-- A value that a configuration has or may have. -/
inductive Field where
  | host
  | user
  | password
  | port
  | timeoutSecs
  | maxRetryTimes
  | connectTimeoutSecs
  | level
  deriving DecidableEq, Repr

/-- What kind of value a field has. -/
abbrev Field.Value : Field → Type
  | .host | .user | .password | .level => Text
  | .port => UInt16
  | .maxRetryTimes => UInt32
  | .timeoutSecs | .connectTimeoutSecs => UInt64

/-- What is said about the fields. A field that nothing is said about has none. -/
abbrev Layer : Type := (field : Field) → Option field.Value

namespace Layer

/-- Two layers, where the upper one hides the lower. -/
def above (upper lower : Layer) : Layer := fun field => (upper field).or (lower field)

/-- A configuration with a layer laid over it. -/
def onto (layer : Layer) (config : Config) : Config where
  backend :=
    { host := (layer .host).or config.backend.host
      user := (layer .user).or config.backend.user
      password := (layer .password).or config.backend.password
      port := (layer .port).getD config.backend.port }
  execution :=
    { timeoutSecs := (layer .timeoutSecs).or config.execution.timeoutSecs
      maxRetryTimes := (layer .maxRetryTimes).getD config.execution.maxRetryTimes
      connectTimeoutSecs := (layer .connectTimeoutSecs).getD config.execution.connectTimeoutSecs }
  logging := ⟨(layer .level).getD config.logging.level⟩

/-- What an upper layer hides does not matter. -/
theorem above_congr {upper lower other : Layer}
    (agree : ∀ field, upper field = none → lower field = other field) :
    upper.above lower = upper.above other := by
  funext field
  cases hides : upper field with
  | none => rw [above, above, agree field hides]
  | some value => rw [above, above, hides, Option.some_or, Option.some_or]

end Layer

/-- What a configuration says. -/
def layer (config : Config) : Layer
  | .host => config.backend.host
  | .user => config.backend.user
  | .password => config.backend.password
  | .port => some config.backend.port
  | .timeoutSecs => config.execution.timeoutSecs
  | .maxRetryTimes => some config.execution.maxRetryTimes
  | .connectTimeoutSecs => some config.execution.connectTimeoutSecs
  | .level => some config.logging.level

/-- What the command line says. -/
def Overrides.layer (overrides : Overrides) : Layer
  | .host => overrides.host
  | .user => overrides.user
  | .port => overrides.port
  | .timeoutSecs => overrides.timeoutSecs
  | .level => overrides.logLevel
  | .password | .maxRetryTimes | .connectTimeoutSecs => none

/-- What variables say. An empty host or user says nothing, and neither does a port that is not a
number or a value that is not text. -/
def ofVariables (vars : ProcessVariables) : Layer
  | .host => Backend.nonempty? (vars.text? "FLEET_SHELL_HOST".toList)
  | .user => Backend.nonempty? (vars.text? "FLEET_SHELL_USER".toList)
  | .password => vars.text? "FLEET_SHELL_PASSWORD".toList
  | .port => (vars.text? "FLEET_SHELL_PORT".toList).bind fun text =>
      (Decimal.unsigned? UInt16.size text).map UInt16.ofNat
  | .level => (vars.text? "FLEET_SHELL_LOG_LEVEL".toList).or (vars.text? "RUST_LOG".toList)
  | .timeoutSecs | .maxRetryTimes | .connectTimeoutSecs => none

/-- What a file says. -/
def Given.layer (given : Given) : Layer
  | .host => given.backend.host
  | .user => given.backend.user
  | .password => given.backend.password
  | .port => given.backend.port
  | .timeoutSecs => given.execution.timeoutSecs
  | .maxRetryTimes => given.execution.maxRetryTimes
  | .connectTimeoutSecs => given.execution.connectTimeoutSecs
  | .level => given.logging.level

/-- What goes without saying. -/
def defaults : Layer
  | .port => some (22 : UInt16)
  | .maxRetryTimes => some (5 : UInt32)
  | .connectTimeoutSecs => some (10 : UInt64)
  | .level => some "info".toList
  | .host | .user | .password | .timeoutSecs => none

/-- A configuration is all that it says. -/
theorem layer_injective : Function.Injective layer := by
  intro config other same
  have host : config.backend.host = other.backend.host := congrFun same .host
  have user : config.backend.user = other.backend.user := congrFun same .user
  have password : config.backend.password = other.backend.password := congrFun same .password
  have port := Option.some.inj (congrFun same .port)
  have secs : config.execution.timeoutSecs = other.execution.timeoutSecs :=
    congrFun same .timeoutSecs
  have times := Option.some.inj (congrFun same .maxRetryTimes)
  have wait := Option.some.inj (congrFun same .connectTimeoutSecs)
  have level := Option.some.inj (congrFun same .level)
  obtain ⟨⟨_, _, _, _⟩, ⟨_, _, _⟩, ⟨_⟩⟩ := config
  obtain ⟨⟨_, _, _, _⟩, ⟨_, _, _⟩, ⟨_⟩⟩ := other
  cases host
  cases user
  cases password
  cases port
  cases secs
  cases times
  cases wait
  cases level
  rfl

theorem layer_standard : standard.layer = defaults := by
  funext field
  cases field <;> rfl

theorem layer_onto (upper : Layer) (config : Config) :
    (upper.onto config).layer = upper.above config.layer := by
  funext field
  cases field with
  | host | user | password | timeoutSecs => rfl
  | port | maxRetryTimes | connectTimeoutSecs | level => exact Option.or_some.symm

/-! ## Passes -/

/-- A port in the variables that is not a number. -/
def spoiltPort? (vars : ProcessVariables) : Option Text :=
  (vars.text? "FLEET_SHELL_PORT".toList).filter fun text =>
    (Decimal.unsigned? UInt16.size text).isNone

theorem applyOverrides_eq_onto (overrides : Overrides) (config : Config) :
    applyOverrides overrides config = overrides.layer.onto config := by
  apply layer_injective
  funext field
  rw [layer_onto]
  cases field with
  | host | user | timeoutSecs => exact Option.orElse_eq_or
  | password | maxRetryTimes | connectTimeoutSecs => rfl
  | port | level => exact Option.or_some.symm

private theorem eq_onto_ofVariables (vars : ProcessVariables) (config : Config) :
    { config with
      backend :=
        { host := Backend.nonempty? (vars.text? "FLEET_SHELL_HOST".toList) <|> config.backend.host
          user := Backend.nonempty? (vars.text? "FLEET_SHELL_USER".toList) <|> config.backend.user
          password := vars.text? "FLEET_SHELL_PASSWORD".toList <|> config.backend.password
          port := (ofVariables vars .port).getD config.backend.port }
      logging := ⟨(levelOf vars).getD config.logging.level⟩ } =
      (ofVariables vars).onto config := by
  apply layer_injective
  funext field
  rw [layer_onto]
  cases field with
  | host | user | password => exact Option.orElse_eq_or
  | port => exact Option.or_some.symm
  | timeoutSecs | maxRetryTimes | connectTimeoutSecs => rfl
  | level =>
      rw [show levelOf vars = ofVariables vars .level from Option.orElse_eq_or]
      exact Option.or_some.symm

/-- The pass of the variables lays their layer over the configuration, unless their port is
spoilt. -/
theorem applyVariables_eq (vars : ProcessVariables) (config : Config) :
    applyVariables vars config =
      match spoiltPort? vars with
      | some text => .error (.invalidPort text)
      | none => .ok ((ofVariables vars).onto config) := by
  rw [← eq_onto_ofVariables, applyVariables, spoiltPort?, ofVariables]
  cases vars.text? "FLEET_SHELL_PORT".toList with
  | none => rfl
  | some text =>
      simp only [Option.filter_some, Option.bind_some, readPortText]
      cases Decimal.unsigned? UInt16.size text <;> rfl

theorem filled_eq_onto (given : Given) : given.filled = given.layer.onto standard := by
  apply layer_injective
  funext field
  rw [layer_onto, layer_standard]
  cases field with
  | host | user | password | timeoutSecs => exact Option.or_none.symm
  | port | maxRetryTimes | connectTimeoutSecs | level => exact Option.or_some.symm

/-- What comes of loading a configuration: the fault of the file, else a spoilt port, else what the
file holds with two layers laid onto it. -/
theorem load_eq (file : Option (Except OsFault (List UInt8))) (vars : ProcessVariables)
    (overrides : Overrides) :
    load file vars overrides = (ofFile file).bind fun base =>
      match spoiltPort? vars with
      | some text => .error (.invalidPort text)
      | none => .ok (overrides.layer.onto ((ofVariables vars).onto base)) := by
  rw [load]
  cases ofFile file with
  | error fault => rfl
  | ok base =>
      simp only [Except.bind, bind, applyVariables_eq, applyOverrides_eq_onto]
      cases spoiltPort? vars <;> rfl

/-- A configuration is loaded if the file can be read and the port of the variables is not spoilt.
Each of its values is that of the highest layer with one. -/
theorem load_eq_ok_iff {file : Option (Except OsFault (List UInt8))} {vars : ProcessVariables}
    {overrides : Overrides} {config : Config} :
    load file vars overrides = .ok config ↔
      ∃ given, Given.ofFile file = .ok given ∧ spoiltPort? vars = none ∧
        config.layer =
          overrides.layer.above ((ofVariables vars).above (given.layer.above defaults)) := by
  have laid (given : Given) :
      (overrides.layer.onto ((ofVariables vars).onto given.filled)).layer =
        overrides.layer.above ((ofVariables vars).above (given.layer.above defaults)) := by
    rw [filled_eq_onto, layer_onto, layer_onto, layer_onto, layer_standard]
  rw [load_eq, Given.ofFile_filled]
  cases Given.ofFile file with
  | error fault => simp [Except.bind, Except.map]
  | ok given =>
      dsimp only [Except.bind, Except.map]
      cases spoiltPort? vars with
      | some text => simp
      | none =>
          constructor
          · rintro ⟨⟩
            exact ⟨given, rfl, rfl, laid given⟩
          · rintro ⟨_, ⟨⟩, -, settled⟩
            rw [layer_injective (settled.trans (laid given).symm)]

/-- A positive number of seconds bounds a call, and nothing else does. -/
theorem timeout_runOptions_eq_some_iff {config : Config} {limit : Duration} :
    config.runOptions.timeout = some limit ↔
      ∃ secs, config.execution.timeoutSecs = some secs ∧ 0 < secs ∧
        limit = .ofSecs secs.toNat := by
  rw [runOptions, Run.Options.withTimeoutSecs]
  cases config.execution.timeoutSecs with
  | none => simp
  | some secs =>
      have positive : 0 < secs ↔ secs.toNat ≠ 0 := by
        rw [UInt64.lt_iff_toNat_lt]
        exact Nat.pos_iff_ne_zero
      by_cases isZero : secs.toNat = 0
      · simp [isZero, positive]
      · simp [isZero, positive, eq_comm]

/-! ## Changes in one place -/

/-- The variables that a field is read from. -/
def Field.variables : Field → List Text
  | .host => ["FLEET_SHELL_HOST".toList]
  | .user => ["FLEET_SHELL_USER".toList]
  | .password => ["FLEET_SHELL_PASSWORD".toList]
  | .port => ["FLEET_SHELL_PORT".toList]
  | .level => ["FLEET_SHELL_LOG_LEVEL".toList, "RUST_LOG".toList]
  | .timeoutSecs | .maxRetryTimes | .connectTimeoutSecs => []

/-- No variable is read for two fields. -/
theorem Field.not_mem_variables {field other : Field} (differs : field ≠ other) :
    ∀ name ∈ field.variables, name ∉ other.variables := by
  cases field <;> cases other <;> first | exact absurd rfl differs | decide

/-- Variables that differ in no other name than some. -/
def AgreeOutside (names : List Text) (vars others : ProcessVariables) : Prop :=
  ∀ name, name ∉ names → vars.text? name = others.text? name

theorem ofVariables_congr {field : Field} {vars others : ProcessVariables}
    (agree : ∀ name ∈ field.variables, vars.text? name = others.text? name) :
    ofVariables vars field = ofVariables others field := by
  cases field with
  | timeoutSecs | maxRetryTimes | connectTimeoutSecs => rfl
  | host | user | password | port => simp only [ofVariables, agree _ List.mem_cons_self]
  | level =>
      simp only [ofVariables, agree _ List.mem_cons_self,
        agree _ (List.mem_cons_of_mem _ List.mem_cons_self)]

namespace AgreeOutside

variable {changed : Field} {vars others : ProcessVariables}

theorem mono {names more : List Text} (agree : AgreeOutside names vars others)
    (within : names ⊆ more) : AgreeOutside more vars others :=
  fun name outside => agree name fun member => outside (within member)

/-- Changing the variables of a field leaves what they say on the other fields. -/
theorem ofVariables (agree : AgreeOutside changed.variables vars others) {field : Field}
    (kept : field ≠ changed) : Config.ofVariables vars field = Config.ofVariables others field :=
  ofVariables_congr fun name member => agree name (field.not_mem_variables kept name member)

theorem spoiltPort? (agree : AgreeOutside changed.variables vars others)
    (kept : changed ≠ .port) : Config.spoiltPort? vars = Config.spoiltPort? others := by
  rw [Config.spoiltPort?, Config.spoiltPort?,
    agree _ (Field.not_mem_variables kept.symm _ List.mem_cons_self)]

end AgreeOutside

/-- Every value of a configuration that is loaded is that of the command line, else of the
variables, else of the file, else the default. Where commands run and how long they may take is
taken from these values, and only a positive number of seconds is a bound. A change to one field, in
any of the layers, changes no other field. -/
theorem layers_settle_values {file : Option (Except OsFault (List UInt8))}
    {vars : ProcessVariables} {overrides : Overrides} {config : Config}
    (loads : load file vars overrides = .ok config) :
    ∃ given, Given.ofFile file = .ok given ∧
      let settled := overrides.layer.above ((ofVariables vars).above (given.layer.above defaults))
      config.layer = settled ∧
      (config.target.host = settled .host ∧ config.target.user = settled .user ∧
        config.target.password = settled .password ∧ some config.target.port = settled .port) ∧
      (∀ limit, config.runOptions.timeout = some limit ↔
        ∃ secs, settled .timeoutSecs = some secs ∧ 0 < secs ∧ limit = .ofSecs secs.toNat) ∧
      ∀ (changed : Field) (otherFile : Option (Except OsFault (List UInt8)))
        (others : ProcessVariables) (otherOverrides : Overrides) (otherGiven : Given)
        (other : Config), load otherFile others otherOverrides = .ok other →
        Given.ofFile otherFile = .ok otherGiven → AgreeOutside changed.variables vars others →
        (∀ field, field ≠ changed → overrides.layer field = otherOverrides.layer field ∧
          given.layer field = otherGiven.layer field) →
        ∀ field, field ≠ changed → config.layer field = other.layer field := by
  obtain ⟨given, reads, -, settled⟩ := load_eq_ok_iff.mp loads
  refine ⟨given, reads, ?_⟩
  rw [← settled]
  refine ⟨rfl, ⟨rfl, rfl, rfl, rfl⟩, fun _ => timeout_runOptions_eq_some_iff, ?_⟩
  intro changed otherFile others otherOverrides otherGiven other loadsToo readsToo agree same
    field kept
  obtain ⟨_, again, -, settledToo⟩ := load_eq_ok_iff.mp loadsToo
  obtain rfl := Except.ok.inj (readsToo.symm.trans again)
  obtain ⟨commandLine, inFile⟩ := same field kept
  rw [settled, settledToo]
  simp only [Layer.above, commandLine, inFile, agree.ofVariables kept]

/-- All four layers have a part in a configuration: the host is the file's, since the variable is
empty, user and port are those of variables, the timeout is that of the command line, and the time
to connect is the default. -/
theorem four_layers_settle_values :
    let json := "\x7b\"backend\":\x7b\"host\":\"db01\",\"user\":\"omm\",\"port\":2200\x7d," ++
      "\"execution\":\x7b\"timeout_secs\":60,\"max_retry_times\":2\x7d\x7d"
    let file : Option (Except OsFault (List UInt8)) := some (.ok (Utf8.encode json.toList))
    let vars : ProcessVariables :=
      [("FLEET_SHELL_HOST", ""), ("FLEET_SHELL_USER", "root"), ("FLEET_SHELL_PORT", "+2300"),
        ("RUST_LOG", "warn")].map fun (name, value) =>
          (Utf8.encode name.toList, Utf8.encode value.toList)
    let overrides : Overrides := ⟨none, none, none, some 15, none⟩
    let config : Config :=
      ⟨⟨some "db01".toList, some "root".toList, none, 2300⟩, ⟨some 15, 2, 10⟩, ⟨"warn".toList⟩⟩
    load file vars overrides = .ok config ∧
      ∃ given, Given.ofFile file = .ok given ∧
        config.layer =
          overrides.layer.above ((ofVariables vars).above (given.layer.above defaults)) := by
  intro json file vars overrides config
  have loads : load file vars overrides = .ok config := by decide +kernel
  obtain ⟨given, reads, settled, -⟩ := layers_settle_values loads
  exact ⟨loads, given, reads, settled⟩

end Errand.Config
