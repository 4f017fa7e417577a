import CamReverse.DataView
import CamReverse.Datatypes
import CamReverse.Lib.Effect

/-!
# The state of a session

A `Session` owns one UDP endpoint to one camera. Its code runs on a `World`: the session, the state `app`
its caller's listeners work on, and the events it has produced so far, oldest first. `Listeners` are the
callbacks the caller attaches to the session's event emitter. A `frame` listener sees `cur_image` and an
`audio` listener its payload; neither touches the session. The `login` and `ListWifi` listeners send
commands, so they are programs of the session.

A callback of the event loop is atomic; `now` is the reading of the clock while it runs, in
milliseconds.
-/

namespace CamReverse

open Effect

/-- What a PunchPkt says about a camera. -/
structure DevSerial where
  devPrefix : String
  serial : String
  suffix : String
  serialU64 : ℕ
  devId : String
  deriving DecidableEq, Repr

/-- One network of a Wifi scan. -/
structure WifiListItem where
  ssid : String
  mac : String
  security : ℕ
  dbm0 : ℕ
  dbm1 : ℕ
  mode : ℕ
  channel : ℕ
  deriving DecidableEq, Repr

/-- The datagram transport of a session; `absent` until its endpoint is ready. -/
inductive Transport where
  | absent
  | opened
  | closed
  deriving DecidableEq, Repr

/-- A command waiting for its acknowledgement. -/
structure Unacked where
  sentTs : ℚ
  data : DV
  deriving DecidableEq

/-- `Session`. The two tasks of `_timers` are `sessTimer` and `resendTimer`: whether each is running. -/
structure Session where
  dev : DevSerial
  dstIp : String
  port : ℕ
  timeoutMs : ℚ
  outgoingCommandId : ℕ
  ticket : Bytes
  lastReceivedPacket : ℚ
  connected : Bool
  devName : String
  started : Bool
  unackedDrw : Table ℕ Unacked
  curImage : List Bytes
  rcvSeqId : ℕ
  frameIsBad : Bool
  frameWasFixed : Bool
  transport : Transport
  sessTimer : Bool
  resendTimer : Bool
  deriving DecidableEq

/-- `Session.__init__`. -/
def Session.init (dev : DevSerial) (addr : String × ℕ) (timeoutMs : ℚ) : Session where
  dev := dev
  dstIp := addr.1
  port := addr.2
  timeoutMs := timeoutMs
  outgoingCommandId := 0
  ticket := [0, 0, 0, 0]
  lastReceivedPacket := 0
  connected := true
  devName := dev.devId
  started := false
  unackedDrw := Table.empty
  curImage := []
  rcvSeqId := 0
  frameIsBad := false
  frameWasFixed := false
  transport := .absent
  sessTimer := false
  resendTimer := false

inductive Event where
  | sent (msg : Bytes)
  | frame (image : List Bytes)
  | audio (data : Bytes)
  | login
  | listWifi (items : List WifiListItem)
  | disconnect
  deriving DecidableEq

/-- The state a session's code works on. -/
structure World (ε : Type) where
  session : Session
  app : ε
  events : List Event

abbrev SessionM (ε : Type) := EStateM PyErr (World ε)

/-- The callbacks attached to a session's event emitter. -/
structure Listeners (ε : Type) where
  frame : List Bytes → EStateM PyErr ε Unit
  audio : Bytes → EStateM PyErr ε Unit
  disconnect : ε → ε
  login : SessionM ε Unit
  listWifi : List WifiListItem → SessionM ε Unit

variable {ε : Type}

def update (f : Session → Session) : SessionM ε Unit := modify fun w => { w with session := f w.session }

def record (ev : Event) : SessionM ε Unit := modify fun w => { w with events := w.events ++ [ev] }

def inApp (m : EStateM PyErr ε Unit) : SessionM ε Unit :=
  onPart World.app (fun app w => { w with app := app }) m

/-! ### Outgoing -/

/-- `Session.send`: a Drw command, but not an acknowledgement, is remembered for retransmission. A closed
transport drops what it is given. -/
def send (now : ℚ) (msg : DV) : SessionM ε Unit := do
  let raw ← msg.readU16
  let isCommand : Except PyErr Bool :=
    if raw = 0xF1D0 then (· == 0xD1) <$> (msg.add 4).readU8 else .ok false
  if ← isCommand then
    let packetId ← (msg.add 6).readU16
    update fun s => { s with unackedDrw := s.unackedDrw.insert packetId ⟨now, msg⟩ }
  let w ← get
  if w.session.transport = .opened then
    record (.sent msg.toBytes)

/-- `Session.ack_drw`. -/
def ackDrw (id : ℕ) : SessionM ε Unit := update fun s => { s with unackedDrw := s.unackedDrw.erase id }

/-! ### Events -/

/-- `Session._on_disconnect`. -/
def onDisconnect (s : Session) : Session :=
  if s.connected then
    { s with
      dstIp := "0.0.0.0"
      connected := false
      sessTimer := false
      resendTimer := false
      transport := if s.transport = .absent then .absent else .closed }
  else s

variable (L : Listeners ε)

/-- `event_emitter.emit("disconnect")`: the session's own listener runs before the caller's. -/
def emitDisconnect : SessionM ε Unit := do
  record .disconnect
  update onDisconnect
  modify fun w => { w with app := L.disconnect w.app }

/-- `Session.close`. -/
def close : SessionM ε Unit := emitDisconnect L

/-- `event_emitter.emit("login")`; `_on_login` calls `on_login`. -/
def emitLogin : SessionM ε Unit := do
  record .login
  L.login

/-- `event_emitter.emit("ListWifi", items)`. -/
def emitListWifi (items : List WifiListItem) : SessionM ε Unit := do
  record (.listWifi items)
  L.listWifi items

/-- `event_emitter.emit("frame")`. -/
def emitFrame : SessionM ε Unit := do
  let w ← get
  record (.frame w.session.curImage)
  inApp (L.frame w.session.curImage)

/-- `event_emitter.emit("audio", ...)`. -/
def emitAudio (data : Bytes) : SessionM ε Unit := do
  record (.audio data)
  inApp (L.audio data)

/-! ### The start -/

def World.start (session : Session) (app : ε) : World ε := ⟨session, app, []⟩

def Listeners.absent : Listeners ε where
  frame _ := return
  audio _ := return
  disconnect app := app
  login := return
  listWifi _ := return

/-- A session with one camera, before its first packet. -/
def oneCamera : World Unit :=
  .start (.init ⟨"FTYC", "000001", "ABCDE", 1, "FTYC000001ABCDE"⟩ ("192.168.1.5", 32108) 5000) ()

end CamReverse
