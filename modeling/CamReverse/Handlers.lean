import CamReverse.Impl
import CamReverse.Settings

/-!
# Incoming packet handlers

`dealWithData` assembles frames from the data packets of a Drw stream and
`createResponseForControlCommand` answers its control packets. Both run after `handleDrw` has
acknowledged the packet. What a handler did before it raised stays done.

A `frame` listener may act on its session while the session is still handling the packet. So the functions
that emit `frame` are given what the emission does; for listeners that leave the session alone it is
`emitFrame`.
-/

namespace CamReverse

open Effect

variable {ε : Type}

/-! ### Payload parsers -/

def swVerToString (swver : ℕ) : String :=
  toString ((swver >>> 24) &&& 255) ++ "." ++ toString ((swver >>> 16) &&& 255) ++ "." ++
    toString ((swver >>> 8) &&& 255) ++ "." ++ toString (swver &&& 255)

structure DevStatus where
  charging : Bool
  batteryMV : ℕ
  dbm : ℤ
  swver : String
  deriving DecidableEq

def parseDevStatusAck (dv : DV) : Except PyErr DevStatus := do
  let charging := (← (dv.add 0x28).readU32le) &&& 1
  let power ← (dv.add 0x18).readU16le
  let dbm : ℤ := (← (dv.add 0x24).readU8) - 0x100
  let nSwver ← (dv.add 0x14).readU32le
  return { charging := 0 < charging, batteryMV := power, dbm := dbm, swver := swVerToString nSwver }

/-- `":".join(f"{b:02x}" for b in mac_bytes)`. -/
def macString (macBytes : Bytes) : String :=
  ":".intercalate (macBytes.map fun b => String.ofList
    [Nat.digitChar (b.toNat / 16), Nat.digitChar (b.toNat % 16)])

/-- One record of a Wifi scan. -/
def parseWifiListItem (dv : DV) (startat : ℕ) : Except PyErr WifiListItem := do
  let macBytes := (dv.add (startat + 0x40)).readByteArray 6
  let ssid := (dv.add startat).readString 0x40
  let security ← (dv.add (startat + 0x48)).readU32le
  let dbm0 ← (dv.add (startat + 0x4C)).readU32le
  let dbm1 ← (dv.add (startat + 0x50)).readU32le
  let mode ← (dv.add (startat + 0x54)).readU32le
  let channel ← (dv.add (startat + 0x58)).readU32le
  return { ssid, mac := macString macBytes, security, dbm0, dbm1, mode, channel }

/-- The records from `startat` on, at most `msgCount` of them, up to the first that is cropped. -/
def parseWifiRecords (dv : DV) : ℕ → ℕ → Except PyErr (List WifiListItem)
  | 0, _ => .ok []
  | msgCount + 1, startat =>
    let msgLen := 0x5C
    if ((startat + msgLen : ℕ) : ℤ) > dv.byteLength then .ok []
    else do
      let item ← parseWifiListItem dv startat
      let items ← parseWifiRecords dv msgCount (startat + msgLen)
      return item :: items

def parseListWifi (dv : DV) : Except PyErr (List WifiListItem) := do
  let startat := 0x10
  let msgCount ← (dv.add (startat : ℕ)).readU32le
  parseWifiRecords dv msgCount (startat + 4)

structure WifiSettings where
  enable : ℕ
  status : ℕ
  mode : ℕ
  channel : ℕ
  authtype : ℕ
  dhcp : ℕ
  ssid : String
  psk : String
  ip : String
  mask : String
  gw : String
  dns1 : String
  dns2 : String
  deriving DecidableEq

def parseWifiSettings (dv : DV) : Except PyErr WifiSettings := do
  let enable ← (dv.add 0x14).readU32
  let status ← (dv.add 0x18).readU32
  let mode ← (dv.add 0x1C).readU32le
  let channel ← (dv.add 0x20).readU32
  let authtype ← (dv.add 0x24).readU32
  let dhcp ← (dv.add 0x28).readU32
  return {
    enable, status, mode, channel, authtype, dhcp
    ssid := (dv.add 0x2C).readString 0x20
    psk := (dv.add 0x4C).readString 0x80
    ip := (dv.add 0xCC).readString 0x10
    mask := (dv.add 0xDC).readString 0x10
    gw := (dv.add 0xEC).readString 0x10
    dns1 := (dv.add 0xFC).readString 0x10
    dns2 := (dv.add 0x10C).readString 0x10 }

/-! ### Control packets -/

/-- The payload length `create_response_for_control_command` goes on with: what the packet declares,
unless it declares more than the whole packet. -/
def croppedPayloadLen (byteLength : ℤ) (payloadLen : ℕ) : ℕ :=
  if 20 < byteLength ∧ byteLength < payloadLen then (byteLength - 20).toNat else payloadLen

/-- The packet with its payload deobfuscated in place. -/
def deobfuscated (dv : DV) (payloadLen : ℕ) : Except PyErr DV :=
  let rotateChr := 4
  if rotateChr < payloadLen then
    dv.via 20 fun view => xqBytesDec view (payloadLen - 4) rotateChr
  else .ok dv

def createResponseForControlCommand (L : Listeners ε) (dv : DV) : SessionM ε (List DV) := do
  let startType ← (dv.add 8).readU16
  let cmdId ← (dv.add 10).readU16
  let payloadLen ← (dv.add 0xC).readU16le
  let payloadLen := croppedPayloadLen dv.byteLength payloadLen
  if startType ≠ 0x110A then
    return []
  else
    let dv ← deobfuscated dv payloadLen
    if cmdId = ControlCommand.connectUserAck.code then
      let c := (dv.add 0x18).readByteArray 4
      update fun s => { s with ticket := c }
      emitLogin L
      return []
    else if cmdId = ControlCommand.devStatusAck.code then
      let _status ← parseDevStatusAck dv
      return []
    else if cmdId = ControlCommand.wifiSettingsAck.code then
      let _wifiSettings ← parseWifiSettings dv
      let pkt ← sendListWifi
      return [pkt]
    else if cmdId = ControlCommand.listWifiAck.code then
      if payloadLen = 4 then
        return []
      else
        let items ← parseListWifi dv
        emitListWifi L items
        return []
    else
      return []

/-! ### Data packets -/

/-- `_find_all_reset_markers`: the positions of a byte 0xff followed by a byte 0xd0 to 0xd7. -/
def findAllResetMarkers (b : Bytes) : List ℕ :=
  (List.range (b.length - 1)).filter fun i =>
    b.getD i 0 == 0xFF && 0xD0 ≤ b.getD (i + 1) 0 && b.getD (i + 1) 0 ≤ 0xD7

/-- The last chunk cut before its last reset marker and the next one from its first reset marker on, if
both have one. -/
def spliceAtMarkers (lastFrameSlice b : Bytes) : Option (Bytes × Bytes) :=
  match (findAllResetMarkers lastFrameSlice).getLast?, (findAllResetMarkers b).head? with
  | some lastResetMarker, some firstResetMarker =>
    some (lastFrameSlice.take lastResetMarker, b.drop firstResetMarker)
  | _, _ => none

def FRAME_HEADER : Bytes := [0x55, 0xaa, 0x15, 0xa8]

def JPEG_HEADER : Bytes := [0xff, 0xd8, 0xff, 0xdb]

def STREAM_TYPE_AUDIO : ℕ := 0x06

def STREAM_TYPE_JPEG : ℕ := 0x03

/-- `start_new_frame`, where `emit` is what `event_emitter.emit("frame")` does. -/
def startNewFrameBy (emit : SessionM ε Unit) (pktId : ℕ) (buf : Bytes) : SessionM ε Unit := do
  let w ← get
  if 0 < w.session.curImage.length ∧ w.session.frameIsBad = false then
    emit
  update fun s => { s with
    frameWasFixed := false
    frameIsBad := false
    curImage := [buf]
    rcvSeqId := pktId }

/-- The end of `_deal_with_data`: a packet that does not start a frame. -/
def continueFrame (config : Config) (pktId : ℕ) (b : Bytes) : SessionM ε Unit := do
  let w ← get
  let session := w.session
  if pktId ≤ session.rcvSeqId then
    -- retransmit
    return
  else if session.rcvSeqId + 1 < pktId then
    update fun s => { s with frameIsBad := true }
    if ← fixPacketLoss config session.devName then
      -- the first chunk is a header, which does not have markers
      if 1 < session.curImage.length then
        match spliceAtMarkers (session.curImage.getLast?.getD []) b with
        | some (lastFrameSlice, b) =>
          update fun s => { s with
            curImage := s.curImage.dropLast ++ [lastFrameSlice, b]
            frameIsBad := false
            frameWasFixed := true
            rcvSeqId := pktId }
        | none => return
  else
    update fun s => { s with rcvSeqId := pktId, curImage := s.curImage ++ [b] }

/-- `_deal_with_data`, where `emit` is what `event_emitter.emit("frame")` does. -/
def dealWithDataBy (emit : SessionM ε Unit) (config : Config) (L : Listeners ε) (dv : DV) : SessionM ε Unit := do
  let pktLen ← (dv.add 2).readU16
  if pktLen < 12 then
    return
  else
    let mHdr := (dv.add 8).readByteArray 4
    let pktId ← (dv.add 6).readU16
    if FRAME_HEADER.isPrefixOf mHdr then
      let streamType ← (dv.add 12).readU8
      if streamType = STREAM_TYPE_AUDIO then
        let audioLen ← (dv.add (8 + 16)).readU16le
        emitAudio L ((dv.add (32 + 8)).readByteArray audioLen)
      else if streamType = STREAM_TYPE_JPEG then
        let toRead : ℤ := pktLen - 4 - 32
        if 0 < toRead then
          startNewFrameBy emit pktId ((dv.add (32 + 8)).readByteArray toRead)
    else
      let data := (dv.add 8).readByteArray (pktLen - 4)
      if JPEG_HEADER.isPrefixOf mHdr then
        startNewFrameBy emit pktId data
      else
        continueFrame config pktId data

def startNewFrame (L : Listeners ε) : ℕ → Bytes → SessionM ε Unit := startNewFrameBy (emitFrame L)

def dealWithData (config : Config) (L : Listeners ε) : DV → SessionM ε Unit :=
  dealWithDataBy (emitFrame L) config L

/-! ### The handlers -/

/-- `_create_p2p_alive_ack`. -/
def createP2pAliveAck : Except PyErr DV := bareHeader .p2pAliveAck 0 4

def handleP2pAlive (now : ℚ) : SessionM ε Unit := do
  send now (← createP2pAliveAck)

def handleP2pRdy (now : ℚ) : SessionM ε Unit := do
  send now (← sendUsrChk "admin" "admin")

/-- `make_p2p_rdy`. -/
def makeP2pRdy (dev : DevSerial) : Except PyErr DV := do
  let outbuf := DV.alloc 0x14
  let devPrefixLength := 4
  let outbuf ← outbuf.via 0 (·.writeString dev.devPrefix)
  let outbuf ← outbuf.via 4 (·.writeU64 dev.serialU64)
  let outbuf ← outbuf.via (8 + devPrefixLength) (·.writeString dev.suffix)
  createP2pRdy outbuf

def makeDrwAck (dv : DV) : Except PyErr DV := do
  let pktId ← (dv.add 6).readU16
  let mStream ← (dv.add 5).readU8
  let itemCount := 1
  let replyLen := itemCount * 2 + 4
  let outbuf := DV.alloc 32
  let outbuf ← outbuf.via 0 (·.writeU16 Command.drwAck.code)
  let outbuf ← outbuf.via 2 (·.writeU16 replyLen)
  let outbuf ← outbuf.via 4 (·.writeU8 0xD2)
  let outbuf ← outbuf.via 5 (·.writeU8 mStream)
  let outbuf ← outbuf.via 6 (·.writeU16 itemCount)
  (List.range itemCount).foldlM (fun outbuf (i : ℕ) => outbuf.via (8 + i * 2) (·.writeU16 pktId)) outbuf

def handleDrwAck (dv : DV) : SessionM ε Unit := do
  let ackCount ← (dv.add 6).readU16
  (List.range ackCount).forM fun i => do
    let ackId ← (dv.add (8 + i * 2)).readU16
    ackDrw ackId

def handleDrwBy (emit : SessionM ε Unit) (config : Config) (L : Listeners ε) (now : ℚ) (dv : DV) :
    SessionM ε Unit := do
  send now (← makeDrwAck dv)
  let mStream ← (dv.add 5).readU8
  if mStream = 1 then
    dealWithDataBy emit config L dv
  else if mStream = 0 then
    let pkts ← createResponseForControlCommand L dv
    pkts.forM (send now)

def handleClose (L : Listeners ε) (now : ℚ) (dv : DV) : SessionM ε Unit := do
  send now (← makeDrwAck dv)
  close L

/-- `not_impl`: only logs. -/
def notImpl (dv : DV) : SessionM ε Unit := do
  let _raw ← dv.readU16

/-- The `Handlers` record; only `handle_drw` emits `frame`. -/
def handlersBy (emit : SessionM ε Unit) (config : Config) (L : Listeners ε) (now : ℚ) : Command → DV → SessionM ε Unit
  | .p2pAlive, _ => handleP2pAlive now
  | .p2pRdy, _ => handleP2pRdy now
  | .drwAck, dv => handleDrwAck dv
  | .drw, dv => handleDrwBy emit config L now dv
  | .close, dv => handleClose L now dv
  | .p2pAliveAck, _ => return
  | _, dv => notImpl dv

def handleDrw (config : Config) (L : Listeners ε) (now : ℚ) : DV → SessionM ε Unit :=
  handleDrwBy (emitFrame L) config L now

def handlers (config : Config) (L : Listeners ε) (now : ℚ) : Command → DV → SessionM ε Unit :=
  handlersBy (emitFrame L) config L now

theorem startNewFrame_eq (L : Listeners ε) (pktId : ℕ) (buf : Bytes) :
    startNewFrame L pktId buf = (do
      let w ← get
      if 0 < w.session.curImage.length ∧ w.session.frameIsBad = false then
        emitFrame L
      update fun s => { s with
        frameWasFixed := false
        frameIsBad := false
        curImage := [buf]
        rcvSeqId := pktId }) := rfl

theorem handleDrw_eq (config : Config) (L : Listeners ε) (now : ℚ) (dv : DV) :
    handleDrw config L now dv = (do
      send now (← makeDrwAck dv)
      let mStream ← (dv.add 5).readU8
      if mStream = 1 then
        dealWithData config L dv
      else if mStream = 0 then
        let pkts ← createResponseForControlCommand L dv
        pkts.forM (send now)) := rfl

end CamReverse
