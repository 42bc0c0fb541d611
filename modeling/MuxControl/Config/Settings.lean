/-
MuxControl.Config.Settings — the configuration: its sections, their
defaults, and how they are read and shown.
-/
import MuxControl.Config.Datum
import MuxControl.Health.Window

namespace MuxControl

/-- The section of the management server. A time-out of 0 seconds means
to wait without limit. -/
structure ServerSettings where
  port : Nat := 12720
  serviceName : String := "mux-mgmt"
  serviceVersion : String := "0.1.0"
  readTimeout : Nat := 30
  documentTimeout : Nat := 30
  lineLimit : Nat := 1048576
deriving DecidableEq, Repr, Inhabited

/-- The section of logging and metrics. -/
structure ObservabilitySettings where
  logLevel : String := "info"
  metricsEnabled : Bool := false
  metricsAddress : String := "127.0.0.1:9090"
deriving DecidableEq, Repr, Inhabited

/-- The whole configuration. -/
structure Settings where
  server : ServerSettings := {}
  inputs : Thresholds := {}
  observability : ObservabilitySettings := {}
deriving DecidableEq, Repr, Inhabited

/-- A time-out in seconds, if there is one. -/
def timeout? (secs : Nat) : Option Nat := if 0 < secs then some secs else none

namespace Datum

/-- Integers of 16 bits without sign. -/
def unsigned16 : IntKind := ⟨"u16", 0, Word.max16⟩

/-- Integers of 32 bits without sign. -/
def unsigned32 : IntKind := ⟨"u32", 0, Word.max32⟩

/-- Integers of 64 bits without sign. -/
def unsigned64 : IntKind := ⟨"u64", 0, Word.max64⟩

/-- Sizes, which are integers of 64 bits without sign. -/
def size : IntKind := ⟨"usize", 0, Word.max64⟩

/-- Integers of 32 bits with sign. -/
def signed32 : IntKind := ⟨"i32", -(Word.max31 : Int) - 1, Word.max31⟩

end Datum

open Datum

namespace ServerSettings

/-- The fields of the section, in their order. -/
def fields : List (RecordField ServerSettings) :=
  [ ⟨"port", fun d s => do return { s with port := ← d.readNat unsigned16 }⟩,
    ⟨"service_name", fun d s => do return { s with serviceName := ← d.readString }⟩,
    ⟨"service_version", fun d s => do return { s with serviceVersion := ← d.readString }⟩,
    ⟨"read_timeout_secs", fun d s => do
      return { s with readTimeout := ← d.readNat unsigned64 }⟩,
    ⟨"getptree_timeout_secs", fun d s => do
      return { s with documentTimeout := ← d.readNat unsigned64 }⟩,
    ⟨"max_line_bytes", fun d s => do return { s with lineLimit := ← d.readNat size }⟩ ]

/-- Read the section over its defaults. -/
def read (d : Datum) : Except ShapeError ServerSettings :=
  d.readRecord "struct ServerConfig" fields {}

/-- The section as a JSON value. -/
def toJson (s : ServerSettings) : Json :=
  .object [
    ("getptree_timeout_secs", .int s.documentTimeout),
    ("max_line_bytes", .int s.lineLimit),
    ("port", .int s.port),
    ("read_timeout_secs", .int s.readTimeout),
    ("service_name", .string s.serviceName),
    ("service_version", .string s.serviceVersion)]

end ServerSettings

namespace Thresholds

/-- The fields of the section of the inputs, in their order. -/
def fields : List (RecordField Thresholds) :=
  [ ⟨"counter_reset_secs", fun d s => do
      return { s with counterReset := ← d.readNat unsigned64 }⟩,
    ⟨"nodata_timeout_secs", fun d s => do
      return { s with noDataTimeout := ← d.readNat unsigned64 }⟩,
    ⟨"unstable_threshold", fun d s => do return { s with unstable := ← d.readNat unsigned32 }⟩,
    ⟨"silence_count", fun d s => do return { s with silenceCount := ← d.readNat unsigned32 }⟩,
    ⟨"silence_level_db", fun d s => do
      return { s with silenceLevel := ← d.readInt signed32 }⟩ ]

/-- Read the section over its defaults. -/
def read (d : Datum) : Except ShapeError Thresholds :=
  d.readRecord "struct InputConfig" fields {}

/-- The section as a JSON value. -/
def toJson (t : Thresholds) : Json :=
  .object [
    ("counter_reset_secs", .int t.counterReset),
    ("nodata_timeout_secs", .int t.noDataTimeout),
    ("silence_count", .int t.silenceCount),
    ("silence_level_db", .int t.silenceLevel),
    ("unstable_threshold", .int t.unstable)]

end Thresholds

namespace ObservabilitySettings

/-- The fields of the section, in their order. -/
def fields : List (RecordField ObservabilitySettings) :=
  [ ⟨"log_level", fun d s => do return { s with logLevel := ← d.readString }⟩,
    ⟨"metrics_enabled", fun d s => do return { s with metricsEnabled := ← d.readBool }⟩,
    ⟨"metrics_address", fun d s => do return { s with metricsAddress := ← d.readString }⟩ ]

/-- Read the section over its defaults. -/
def read (d : Datum) : Except ShapeError ObservabilitySettings :=
  d.readRecord "struct ObservabilityConfig" fields {}

/-- The section as a JSON value. -/
def toJson (s : ObservabilitySettings) : Json :=
  .object [
    ("log_level", .string s.logLevel),
    ("metrics_address", .string s.metricsAddress),
    ("metrics_enabled", .bool s.metricsEnabled)]

/-- The filter of the log for a level: it lets through what this
program and its client report at that level. -/
def logDirective (level : String) : String := s!"mux_mgmt={level},mgmt_cli={level}"

end ObservabilitySettings

namespace Settings

/-- The sections, in their order. -/
def fields : List (RecordField Settings) :=
  [ ⟨"server", fun d s => do return { s with server := ← ServerSettings.read d }⟩,
    ⟨"inputs", fun d s => do return { s with inputs := ← Thresholds.read d }⟩,
    ⟨"observability", fun d s => do
      return { s with observability := ← ObservabilitySettings.read d }⟩ ]

/-- Read a configuration over its defaults. -/
def read (d : Datum) : Except ShapeError Settings :=
  d.readRecord "struct MgmtConfig" fields {}

/-- A configuration as a JSON value. -/
def toJson (s : Settings) : Json :=
  .object [
    ("inputs", s.inputs.toJson),
    ("observability", s.observability.toJson),
    ("server", s.server.toJson)]

end Settings

end MuxControl
