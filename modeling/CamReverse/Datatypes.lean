import Mathlib.Data.Nat.Notation

/-!
# Protocol command constants

Two distinct namespaces: `Command` is the type of an outer UDP packet (0xf1xx), `ControlCommand` the
command inside a Drw control payload.
-/

namespace CamReverse

/-- Outer UDP packet types. -/
inductive Command where
  | close | lanSearchExt | lanSearch | p2pAlive | p2pAliveAck | hello | p2pRdy | p2pReq | lstReq
  | drwAck | drw | punchTo | punchPkt | helloAck | rlyTo | devLgnAck | p2pReqAck | listenReqAck
  | rlyHelloAck | rlyHelloAck2
  deriving DecidableEq, Repr

/-- The `Commands` dictionary. -/
def Command.code : Command → ℕ
  | .close => 0xF1F0
  | .lanSearchExt => 0xF132
  | .lanSearch => 0xF130
  | .p2pAlive => 0xF1E0
  | .p2pAliveAck => 0xF1E1
  | .hello => 0xF100
  | .p2pRdy => 0xF142
  | .p2pReq => 0xF120
  | .lstReq => 0xF167
  | .drwAck => 0xF1D1
  | .drw => 0xF1D0
  | .punchTo => 0xF140
  | .punchPkt => 0xF141
  | .helloAck => 0xF101
  | .rlyTo => 0xF102
  | .devLgnAck => 0xF111
  | .p2pReqAck => 0xF121
  | .listenReqAck => 0xF169
  | .rlyHelloAck => 0xF170
  | .rlyHelloAck2 => 0xF171

def Command.all : List Command :=
  [.close, .lanSearchExt, .lanSearch, .p2pAlive, .p2pAliveAck, .hello, .p2pRdy, .p2pReq, .lstReq,
    .drwAck, .drw, .punchTo, .punchPkt, .helloAck, .rlyTo, .devLgnAck, .p2pReqAck, .listenReqAck,
    .rlyHelloAck, .rlyHelloAck2]

/-- `CommandsByValue.get(raw)`. -/
def commandsByValue (raw : ℕ) : Option Command := Command.all.find? fun c => c.code == raw

theorem commandsByValue_code (c : Command) : commandsByValue c.code = some c := by
  cases c <;> rfl

theorem code_of_commandsByValue {raw : ℕ} {c : Command} (h : commandsByValue raw = some c) : c.code = raw := by
  simpa using List.find?_some h

/-- Inner commands of a Drw control payload. -/
inductive ControlCommand where
  | connectUser | connectUserAck | devStatus | devStatusAck | wifiSettingsSet | wifiSettings
  | wifiSettingsAck | listWifi | listWifiAck | startVideo | startVideoAck | stopVideo | shutdown
  | reboot | videoParamSet | videoParamSetAck | videoParamGet | irToggle
  deriving DecidableEq, Repr

/-- The `ControlCommands` dictionary. -/
def ControlCommand.code : ControlCommand → ℕ
  | .connectUser => 0x2010
  | .connectUserAck => 0x2011
  | .devStatus => 0x0810
  | .devStatusAck => 0x0811
  | .wifiSettingsSet => 0x0160
  | .wifiSettings => 0x0260
  | .wifiSettingsAck => 0x0261
  | .listWifi => 0x0360
  | .listWifiAck => 0x0361
  | .startVideo => 0x1030
  | .startVideoAck => 0x1031
  | .stopVideo => 0x1130
  | .shutdown => 0x1010
  | .reboot => 0x1110
  | .videoParamSet => 0x1830
  | .videoParamSetAck => 0x1831
  | .videoParamGet => 0x1930
  | .irToggle => 0x0A30

/-- `ccDest.get(command, 0)`: the destination field of an outgoing control command. -/
def ccDest (command : ℕ) : ℕ :=
  if command = ControlCommand.connectUser.code then 0xFF00
  else if command = ControlCommand.listWifiAck.code then 0xAA55
  else if command = ControlCommand.connectUserAck.code then 0xAA55
  else if command = ControlCommand.devStatusAck.code then 0xAA55
  else 0

/-- `u16_swap`. -/
def u16Swap (x : ℕ) : ℕ := ((x &&& 0xFF00) >>> 8) ||| ((x &&& 0x00FF) <<< 8)

end CamReverse
