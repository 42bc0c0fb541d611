/-
MuxControl.Config.Validation — which configurations make sense.

The checks are independent of each other and are made in one fixed
order; a configuration is valid when none of them finds a violation.
-/
import MuxControl.Config.Endpoint
import MuxControl.Config.Settings
import MuxControl.Text.Blank

namespace MuxControl

/-- What is wrong with a configuration of the right shape. -/
inductive Violation where
  | lineLimitTooSmall (limit : Nat)
  | emptyServiceName
  | zeroNoDataTimeout
  | zeroUnstableThreshold
  | silenceLevelOutOfRange (level : Int)
  | unknownLogLevel (level : String)
  | invalidMetricsAddress (address : String)
deriving DecidableEq, Repr, Inhabited

namespace Violation

/-- The wording of a violation. -/
def message : Violation → String
  | .lineLimitTooSmall limit => s!"server.max_line_bytes must be at least 2, got {limit}"
  | .emptyServiceName => "server.service_name must not be empty"
  | .zeroNoDataTimeout => "inputs.nodata_timeout_secs must be greater than 0"
  | .zeroUnstableThreshold => "inputs.unstable_threshold must be greater than 0"
  | .silenceLevelOutOfRange level =>
    s!"inputs.silence_level_db must be between -90 and 0, got {level}"
  | .unknownLogLevel level =>
    s!"observability.log_level '{level}' is not one of trace, debug, info, warn, error"
  | .invalidMetricsAddress address =>
    s!"observability.metrics_address '{address}' is not a socket address"

/-- The name of a kind of violation. -/
def name : Violation → String
  | .lineLimitTooSmall _ => "LineLimitTooSmall"
  | .emptyServiceName => "EmptyServiceName"
  | .zeroNoDataTimeout => "ZeroNoDataTimeout"
  | .zeroUnstableThreshold => "ZeroUnstableThreshold"
  | .silenceLevelOutOfRange _ => "SilenceLevelOutOfRange"
  | .unknownLogLevel _ => "UnknownLogLevel"
  | .invalidMetricsAddress _ => "InvalidMetricsAddress"

/-- The violation of a kind, about a number or a text. -/
def ofName? (name : String) (number : Int) (text : String) : Option Violation :=
  [ .lineLimitTooSmall (number % (Word.max64 + 1)).toNat, .emptyServiceName, .zeroNoDataTimeout,
    .zeroUnstableThreshold, .silenceLevelOutOfRange number, .unknownLogLevel text,
    .invalidMetricsAddress text ].find? (·.name = name)

end Violation

namespace Settings

/-- The levels that a log can have. -/
def logLevels : List String := ["trace", "debug", "info", "warn", "error"]

/-- A violation, if a check failed. -/
def require (holds : Bool) (violation : Violation) : List Violation :=
  if holds then [] else [violation]

/-- The violations of a configuration, in the order of the checks. Log
levels may be written in either case of the ASCII letters; the address
matters only if metrics are enabled. -/
def violations (s : Settings) : List Violation :=
  require (2 ≤ s.server.lineLimit) (.lineLimitTooSmall s.server.lineLimit) ++
  require (!Text.isBlankText s.server.serviceName) .emptyServiceName ++
  require (0 < s.inputs.noDataTimeout) .zeroNoDataTimeout ++
  require (0 < s.inputs.unstable) .zeroUnstableThreshold ++
  require (-90 ≤ s.inputs.silenceLevel && s.inputs.silenceLevel ≤ 0)
    (.silenceLevelOutOfRange s.inputs.silenceLevel) ++
  require (logLevels.contains (s.observability.logLevel.map Char.toLower))
    (.unknownLogLevel s.observability.logLevel) ++
  require (!s.observability.metricsEnabled || Endpoint.isValid s.observability.metricsAddress)
    (.invalidMetricsAddress s.observability.metricsAddress)

/-- A configuration without violations. -/
def Valid (s : Settings) : Prop := s.violations = []

instance (s : Settings) : Decidable s.Valid := inferInstanceAs (Decidable (s.violations = []))

@[simp] theorem require_eq_nil {holds : Bool} {violation : Violation} :
    require holds violation = [] ↔ holds = true := by
  cases holds <;> simp [require]

/-- A configuration is valid when every check holds. -/
theorem valid_iff {s : Settings} :
    s.Valid ↔ 2 ≤ s.server.lineLimit ∧ Text.isBlankText s.server.serviceName = false ∧
      0 < s.inputs.noDataTimeout ∧ 0 < s.inputs.unstable ∧
      (-90 ≤ s.inputs.silenceLevel ∧ s.inputs.silenceLevel ≤ 0) ∧
      logLevels.contains (s.observability.logLevel.map Char.toLower) = true ∧
      (s.observability.metricsEnabled = true →
        Endpoint.isValid s.observability.metricsAddress = true) := by
  unfold Valid violations
  cases s.observability.metricsEnabled <;> simp [and_assoc]

end Settings

end MuxControl
