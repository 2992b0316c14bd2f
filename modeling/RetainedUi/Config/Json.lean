import RetainedUi.Config.Basic
import RetainedUi.Json.Reader

/-!
# Configurations as JSON

A configuration is an object whose members are all optional, or a list of them in order. The same
holds of an output, which may stand in a configuration or alone.
-/

namespace RetainedUi

def JsonReader.int32 : JsonReader Int32 :=
  return .ofInt (← integer "i32" (-2147483648) 2147483647)

def JsonReader.uint64 : JsonReader UInt64 :=
  return .ofNat (← integer "u64" 0 18446744073709551615).toNat

def OutputConfig.fields : List (JsonReader.Field OutputConfig) := [
  ⟨"kind", fun c => return { c with
    kind := (← JsonReader.variant (OutputKind.all.map fun k => (k.name, k))) }⟩,
  ⟨"dir", fun c => return { c with dir := (← JsonReader.text "path string") }⟩]

def OutputConfig.reader : JsonReader OutputConfig :=
  JsonReader.record "struct OutputConfig" fields {}

/-- The output that a JSON text says. -/
def OutputConfig.ofJson (text : String) : Except JsonFault OutputConfig := reader.run text

namespace Config

def fields : List (JsonReader.Field Config) := [
  ⟨"width", fun c => return { c with width := (← JsonReader.int32) }⟩,
  ⟨"height", fun c => return { c with height := (← JsonReader.int32) }⟩,
  ⟨"device_type", fun c => return { c with deviceType := (← JsonReader.int32) }⟩,
  ⟨"native_surface", fun c => return { c with nativeSurface := (← JsonReader.uint64) }⟩,
  ⟨"output", fun c => return { c with output := (← OutputConfig.reader) }⟩]

/-- The configuration that a JSON text says. -/
def ofJson (text : String) : Except JsonFault Config :=
  (JsonReader.record "struct EngineConfig" fields {}).run text

end Config

end RetainedUi
