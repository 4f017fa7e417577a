import CamReverse.Python

/-!
# The configuration

The live configuration is the untyped mapping read from YAML and changed from the web UI. The packet
path reads `fix_packet_loss` of the session's camera from it at every gap.
-/

namespace CamReverse

/-- `settings.config`. -/
abbrev Config := List (String × PyVal)

/-- `settings.DefaultConfig`. -/
def defaultConfig : Config :=
  [("http_server", .dict [("port", .int 5000)]),
    ("logging", .dict [("level", .str "info")]),
    ("cameras", .dict []),
    ("discovery_ips", .list [.str "192.168.1.255"]),
    ("blacklisted_ips", .list [])]

/-- `settings.config["cameras"]`. -/
def configCameras (config : Config) : Except PyErr PyVal :=
  match config.lookup "cameras" with
  | some cameras => .ok cameras
  | none => .error .keyError

/-- `settings.config["cameras"].get(dev_id, {})`. -/
def cameraConfig (config : Config) (devId : String) : Except PyErr PyVal := do
  (← configCameras config).get devId (.dict [])

/-- `settings.config["cameras"].get(dev_name, {}).get("fix_packet_loss")`, as a condition. -/
def fixPacketLoss (config : Config) (devName : String) : Except PyErr Bool := do
  return (← (← cameraConfig config devName).get "fix_packet_loss" .none).truthy

end CamReverse
