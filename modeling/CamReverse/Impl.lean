import CamReverse.Crypto
import CamReverse.Session

/-!
# Outgoing packet builders

`makeDataReadWrite` frames and obfuscates a control command; the `send…` builders below it fill its
payload. `createP2pRdy` and its kin build the packets without a payload scheme. A field is written
through a view of the packet's buffer, in the order of the source.
-/

namespace CamReverse

open Effect

/-- The obfuscated copy of a payload; payloads of at most 4 bytes are not sent. -/
def obfuscatedCopy (data : Option DV) : Except PyErr (Option Bytes) :=
  match data with
  | none => .ok none
  | some data =>
    if 4 < data.byteLength then
      let bufCopy := data.toBytes
      (fun dv => some dv.buf) <$> xqBytesEnc (DV.ofBytes bufCopy) bufCopy.length 4
    else .ok none

/-- The packet `make_data_read_write` builds for a session with the given counter and ticket. -/
def dataReadWrite (outgoingCommandId : ℕ) (ticket : Bytes) (command : ℕ) (data : Option DV) :
    Except PyErr DV := do
  let DRW_HEADER_LEN := 0x10
  let TOKEN_LEN := 0x4
  let CHANNEL := 0
  let START_CMD := 0x110A
  let bufCopy ← obfuscatedCopy data
  let dataLen := (bufCopy.map List.length).getD 0
  let pktLen := DRW_HEADER_LEN + TOKEN_LEN + dataLen
  let payloadLen := TOKEN_LEN + dataLen
  let ret := DV.alloc pktLen
  let ret ← ret.via 0 (·.writeU16 Command.drw.code)
  let ret ← ret.via 2 (·.writeU16 (pktLen - 4))
  let ret ← ret.via 4 (·.writeU8 0xD1)
  let ret ← ret.via 5 (·.writeU8 CHANNEL)
  let ret ← ret.via 6 (·.writeU16 outgoingCommandId)
  let ret ← ret.via 8 (·.writeU16 START_CMD)
  let ret ← ret.via 10 (·.writeU16 command)
  let ret ← ret.via 12 (·.writeU16 (u16Swap payloadLen))
  let ret ← ret.via 14 (·.writeU16 (ccDest command))
  let ret ← ret.via 16 (fun view => .ok (view.writeByteArray ticket))
  match bufCopy with
  | some bufCopy => ret.via 20 (fun view => .ok (view.writeByteArray bufCopy))
  | none => .ok ret

variable {ε : Type}

def makeDataReadWrite (command : ℕ) (data : Option DV) : SessionM ε DV := do
  let w ← get
  let ret ← dataReadWrite w.session.outgoingCommandId w.session.ticket command data
  update fun s => { s with outgoingCommandId := s.outgoingCommandId + 1 }
  return ret

def sendListWifi : SessionM ε DV := makeDataReadWrite ControlCommand.listWifi.code none

def sendStartVideo : SessionM ε DV := makeDataReadWrite ControlCommand.startVideo.code none

/-- The payloads `SendVideoResolution` sends for a resolution. -/
def videoResolutionPairs : ℕ → Except PyErr (List Bytes)
  | 1 => .ok [[0x1, 0x0, 0x0, 0x0, 0x0, 0x0, 0x0, 0x0]]
  | 2 => .ok [[0x1, 0x0, 0x0, 0x0, 0x2, 0x0, 0x0, 0x0]]
  | 3 => .ok [[0x1, 0x0, 0x0, 0x0, 0x3, 0x0, 0x0, 0x0]]
  | 4 => .ok [[0x1, 0x0, 0x0, 0x0, 0x4, 0x0, 0x0, 0x0]]
  | _ => .error .keyError

def sendVideoResolution (resol : ℕ) : SessionM ε (List DV) := do
  let payloads ← videoResolutionPairs resol
  payloads.mapM fun payload =>
    makeDataReadWrite ControlCommand.videoParamSet.code (some (DV.ofBytes payload))

def sendWifiDetails (ssid password : String) (channel : ℤ) (dhcp : Bool) : SessionM ε DV := do
  if !dhcp then
    throw .valueError
  else
    let cmdPayload := DV.alloc 0x108
    let maskReversed := "0.255.255.255"
    let mIp := "0.0.0.0"
    let mGw := "0.0.0.0"
    let mDns1 := "0.0.0.0"
    let mDns2 := "0.0.0.0"
    -- tag_wifiParams
    let cmdPayload ← cmdPayload.via 0x0C (·.writeU8 (channel % 256).toNat)
    let cmdPayload ← cmdPayload.via 0x10 (·.writeU8 0)
    let cmdPayload ← cmdPayload.via 0x14 (·.writeU8 1)
    let cmdPayload ← cmdPayload.via 0x18 (·.writeString ssid)
    let cmdPayload ← cmdPayload.via 0x38 (·.writeString password)
    let cmdPayload ← cmdPayload.via 0xB8 (·.writeString mIp)
    let cmdPayload ← cmdPayload.via 0xC8 (·.writeString maskReversed)
    let cmdPayload ← cmdPayload.via 0xD8 (·.writeString mGw)
    let cmdPayload ← cmdPayload.via 0xE8 (·.writeString mDns1)
    let cmdPayload ← cmdPayload.via 0xF8 (·.writeString mDns2)
    makeDataReadWrite ControlCommand.wifiSettingsSet.code (some cmdPayload)

def sendUsrChk (username password : String) : SessionM ε DV := do
  let cmdPayload := DV.alloc (0x20 + 0x80)
  let cmdPayload ← cmdPayload.writeString username
  let cmdPayload ← cmdPayload.via 0x20 (·.writeString password)
  makeDataReadWrite ControlCommand.connectUser.code (some cmdPayload)

/-- A packet of a type and a length field. -/
def bareHeader (c : Command) (len : ℕ) (size : ℕ) : Except PyErr DV := do
  let outbuf ← (DV.alloc size).writeU16 c.code
  outbuf.via 2 (·.writeU16 len)

def createP2pRdy (inbuf : DV) : Except PyErr DV := do
  let P2PRDY_SIZE := 0x14
  let outbuf ← bareHeader .p2pRdy P2PRDY_SIZE (P2PRDY_SIZE + 4)
  outbuf.via 4 (fun view => .ok (view.writeByteArray (inbuf.readByteArray P2PRDY_SIZE)))

def parsePunchPkt (dv : DV) : Except PyErr DevSerial := do
  let _punch ← dv.readU16
  let length ← (dv.add 2).readU16
  let devPrefix := (dv.add 4).readString 4
  let serialU64 ← (dv.add 8).readU64
  let serial := toString serialU64
  let suffix := (dv.add 16).readString ((length : ℤ) - 16 + 4)
  let devId := devPrefix ++ serial ++ suffix
  return { devPrefix, serial, suffix, serialU64, devId }

def createP2pClose : Except PyErr DV := bareHeader .close 0 4

def createP2pAlive : Except PyErr DV := bareHeader .p2pAlive 0 4

end CamReverse
