import Dashboard.Json.Decode
/-!
# Compile options

The names of the components that the documents refer to, and what is left out of them.
-/

namespace Dashboard

open Json

structure Options where
  displayId : String := "epaper_display"
  displayPlatform : String := "waveshare_epaper"
  timeId : String := "ha_time"
  pageGlobal : String := "display_page"
  refreshSeconds : UInt32 := 60
  emitSensors : Bool := true
deriving DecidableEq, Repr

namespace Options

def record : Record Options :=
  let d : Options := {}
  Options.mk <$> .withDefault "display_id" .string d.displayId
    <*> .withDefault "display_platform" .string d.displayPlatform
    <*> .withDefault "time_id" .string d.timeId
    <*> .withDefault "page_global" .string d.pageGlobal
    <*> .withDefault "default_refresh_s" .uint32 d.refreshSeconds
    <*> .withDefault "emit_sensors" .bool d.emitSensors

def decoder : Decoder Options := record.closed "struct CompileOptions"

def toJson (o : Options) : Json :=
  .object [("display_id", .string o.displayId), ("display_platform", .string o.displayPlatform),
    ("time_id", .string o.timeId), ("page_global", .string o.pageGlobal),
    ("default_refresh_s", .ofNat o.refreshSeconds.toNat), ("emit_sensors", .bool o.emitSensors)]

end Options

end Dashboard
