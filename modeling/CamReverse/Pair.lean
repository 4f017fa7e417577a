import CamReverse.Control.Wifi

/-!
# Pairing a camera

`pair` makes a session with every camera it discovers. When the camera has logged in it asks for a scan, and the
first scan result with the ssid makes it send the credentials, once per session: `configured` is the mark. What a
scan result makes of a session is `onListWifi_cases`.
-/

namespace CamReverse

open Effect Bytes

/-- What the listeners of `pair` work on for one session. `pairing` are the keys of the table of that name, whose
sessions nobody reads; `built` lists the packets `SendWifiDetails` returned, which the source does not keep. -/
structure Pairing where
  pairing : List String
  configured : Table String Bool
  built : List DV

def configureWifi (now : ℚ) (ssid password : String) (channel : ℕ) : SessionM Pairing Unit := do
  let msg ← sendWifiDetails ssid password channel true
  modify fun w => { w with app := { w.app with built := w.app.built ++ [msg] } }
  send now msg

namespace Pair

def onLogin (now : ℚ) : SessionM Pairing Unit := do
  send now (← sendListWifi)

def onDisconnect (devId : String) (app : Pairing) : Pairing where
  pairing := app.pairing.filter (· ≠ devId)
  configured := app.configured.erase devId
  built := app.built

def onListWifi (now : ℚ) (devId ssid password : String) (items : List WifiListItem) : SessionM Pairing Unit :=
  match items.filter fun i => i.ssid = ssid with
  | [] => return
  | found :: _ => do
    let w ← get
    if w.app.configured.find? devId = some true then
      -- a second answer
      return
    else
      configureWifi now ssid password found.channel
      modify fun w => { w with app := { w.app with configured := w.app.configured.insert devId true } }

/-- `on_discover`: the session it makes, if the camera is not being paired yet. -/
def onDiscover (pairing : List String) (rinfo : String × ℕ) (dev : DevSerial) : Option (World Pairing) :=
  if dev.devId ∈ pairing then none
  else some (.start (.init dev rinfo 10000) ⟨pairing ++ [dev.devId], Table.empty, []⟩)

end Pair

/-- The listeners `pair` attaches to a session. -/
def Listeners.pairing (dev : DevSerial) (ssid password : String) (now : ℚ) : Listeners Pairing where
  frame _ := return
  audio _ := return
  disconnect := Pair.onDisconnect dev.devId
  login := Pair.onLogin now
  listWifi := Pair.onListWifi now dev.devId ssid password

/-! ### The credentials -/

/-- `SendWifiDetails` does not refuse the credentials. -/
def Writable (ssid password : String) : Prop :=
  ∃ sbs pbs, encodeLatin1 ssid = .ok sbs ∧ encodeLatin1 password = .ok pbs

/-- A packet whose block of parameters has this channel. -/
def Sets (channel : ℕ) (buf : Bytes) : Prop :=
  ∃ front block, buf = front ++ obfuscate 4 block ∧ front.length = 20 ∧ HasChannel channel block

variable {ε : Type}

theorem sendWifiDetails_writable {w : World ε} (hticket : w.session.ticket.length ≤ 4) {ssid password : String}
    (h : Writable ssid password) (channel : ℕ) :
    ∃ buf, sendWifiDetails ssid password channel true w = .ok (DV.ofBytes buf)
        { w with session := { w.session with outgoingCommandId := w.session.outgoingCommandId + 1 } } ∧
      IsCommandOf ControlCommand.wifiSettingsSet.code buf w.session.outgoingCommandId ∧ Sets channel buf := by
  obtain ⟨sbs, pbs, hssid, hpassword⟩ := h
  obtain ⟨block, hparams, hchannel⟩ := writeWifiParams_channel hssid hpassword channel
  have hlong : 4 < (DV.ofBytes block).toBytes.length := by
    rw [DV.toBytes_ofBytes]
    exact lt_of_lt_of_le (by decide) hchannel.length
  have hdata : ∀ dv ∈ some (DV.ofBytes block), 4 < dv.toBytes.length := by
    rintro dv ⟨⟩
    exact hlong
  have hpacket := dataReadWrite_padded hticket w.session.outgoingCommandId ControlCommand.wifiSettingsSet.code hdata
  obtain ⟨buf, hbuf, hcommand⟩ := dataReadWrite_isCommand hpacket
  have hsame : _ = buf := congrArg DV.buf hbuf
  have hfront : (packetHeader w.session.outgoingCommandId ControlCommand.wifiSettingsSet.code block.length ++
      padded 4 w.session.ticket).length = 20 := by
    rw [List.length_append, length_packetHeader, length_padded hticket]
  refine ⟨buf, ?_, hcommand, _, block, ?_, hfront, hchannel⟩
  · rw [sendWifiDetails_padded hticket hparams hlong, ← hbuf]
    rfl
  · rw [← hsame]
    simp only [Option.map_some, Option.getD_some, DV.toBytes_ofBytes]
    rfl

theorem sendWifiDetails_raises {ssid password : String} (h : ¬Writable ssid password) (channel : ℤ) (w : World ε) :
    ∃ e, sendWifiDetails ssid password channel true w = .error e w := by
  cases hrun : sendWifiDetails ssid password channel true w with
  | ok pkt w' => exact absurd (encodes_of_returns hrun) h
  | error e w' =>
    rw [sendWifiDetails_eq] at hrun
    cases hparams : writeWifiParams ssid password channel with
    | error e' =>
      rw [hparams] at hrun
      cases hrun
      exact ⟨e, rfl⟩
    | ok cmdPayload =>
      rw [hparams, lift_ok_bind, makeDataReadWrite_apply] at hrun
      split at hrun
      · cases hrun
      · cases hrun
        exact ⟨e, rfl⟩

/-! ### A scan result -/

/-- The world after `buf` was built and sent as the credentials of the camera. -/
def configuredBy (now : ℚ) (devId : String) (buf : Bytes) (w : World Pairing) : World Pairing where
  session := { w.session with
    outgoingCommandId := w.session.outgoingCommandId + 1
    unackedDrw := w.session.unackedDrw.insert (w.session.outgoingCommandId % 65536) ⟨now, DV.ofBytes buf⟩ }
  app := { w.app with
    configured := w.app.configured.insert devId true
    built := w.app.built ++ [DV.ofBytes buf] }
  events := w.events ++ wired w buf

/-- **A scan result** is ignored, or the credentials are sent on the channel of its first record with the ssid. -/
theorem onListWifi_cases (now : ℚ) (devId ssid password : String) (items : List WifiListItem) {w : World Pairing}
    (hticket : w.session.ticket.length ≤ 4) :
    (final (Pair.onListWifi now devId ssid password items) w = w ∧
      ((items.find? fun i => i.ssid = ssid) = none ∨ w.app.configured.find? devId = some true ∨
        ¬Writable ssid password)) ∨
    ∃ item buf, (items.find? fun i => i.ssid = ssid) = some item ∧ w.app.configured.find? devId ≠ some true ∧
      Writable ssid password ∧
      IsCommandOf ControlCommand.wifiSettingsSet.code buf w.session.outgoingCommandId ∧ Sets item.channel buf ∧
      final (Pair.onListWifi now devId ssid password items) w = configuredBy now devId buf w := by
  rw [← List.head?_filter]
  unfold Pair.onListWifi
  cases hfound : items.filter fun i => i.ssid = ssid with
  | nil => exact .inl ⟨rfl, .inl rfl⟩
  | cons item rest =>
    dsimp only
    rw [final, get_bind_apply, ← final]
    by_cases hdone : w.app.configured.find? devId = some true
    · rw [if_pos hdone]
      exact .inl ⟨rfl, .inr (.inl hdone)⟩
    · rw [if_neg hdone]
      by_cases hwritable : Writable ssid password
      · obtain ⟨buf, hbuilt, hcommand, hsets⟩ := sendWifiDetails_writable hticket hwritable item.channel
        refine .inr ⟨item, buf, rfl, hdone, hwritable, hcommand, hsets, ?_⟩
        unfold configureWifi
        rw [bind_assoc, final, bind_ok hbuilt, bind_assoc, modify_bind_apply,
          bind_ok (send_command hcommand.toIsCommand now _)]
        rfl
      · obtain ⟨e, hraised⟩ := sendWifiDetails_raises hwritable item.channel w
        refine .inl ⟨?_, .inr (.inr hwritable)⟩
        unfold configureWifi
        rw [bind_assoc, final, bind_error hraised]

end CamReverse
