import CamReverse.Control.RoundTrip
import CamReverse.Sending

/-!
# Wifi settings

`SendWifiDetails` writes its parameters one after the other into a blank block, without a look at their lengths.
A text that is longer than its field is cut off by the next one, or runs over it. So the fields hold what they
were given exactly if the ssid and the password fit (`wifi_params_iff`). The handler of a WifiSettingsAck reads
the block at the same places, but the channel and `dhcp` in the other byte order (`wifi_settings_misread`).
-/

namespace CamReverse

open Effect Bytes

variable {ε : Type}

/-! ### The block -/

/-- The fields of `tag_wifiParams`, as `SendWifiDetails` fills them. -/
def wifiParams (channel : ℤ) (ssid psk : Bytes) : List Bytes :=
  [padded 4 [], padded 4 [], padded 4 [], padded 4 [UInt8.ofNat (channel % 256).toNat], padded 4 [0],
    padded 4 [1], padded 0x20 ssid, padded 0x80 psk, padded 0x10 (encodeAscii "0.0.0.0"),
    padded 0x10 (encodeAscii "0.255.255.255"), padded 0x10 (encodeAscii "0.0.0.0"),
    padded 0x10 (encodeAscii "0.0.0.0"), padded 0x10 (encodeAscii "0.0.0.0")]

def writeWifiParams (ssid password : String) (channel : ℤ) : Except PyErr DV := do
  let cmdPayload ← (DV.alloc 0x108).via 0x0C (·.writeU8 (channel % 256).toNat)
  let cmdPayload ← cmdPayload.via 0x10 (·.writeU8 0)
  let cmdPayload ← cmdPayload.via 0x14 (·.writeU8 1)
  let cmdPayload ← cmdPayload.via 0x18 (·.writeString ssid)
  let cmdPayload ← cmdPayload.via 0x38 (·.writeString password)
  let cmdPayload ← cmdPayload.via 0xB8 (·.writeString "0.0.0.0")
  let cmdPayload ← cmdPayload.via 0xC8 (·.writeString "0.255.255.255")
  let cmdPayload ← cmdPayload.via 0xD8 (·.writeString "0.0.0.0")
  let cmdPayload ← cmdPayload.via 0xE8 (·.writeString "0.0.0.0")
  cmdPayload.via 0xF8 (·.writeString "0.0.0.0")

theorem sendWifiDetails_eq (ssid password : String) (channel : ℤ) :
    (sendWifiDetails ssid password channel true : SessionM ε DV) =
      lift (writeWifiParams ssid password channel) >>= fun cmdPayload =>
        makeDataReadWrite ControlCommand.wifiSettingsSet.code (some cmdPayload) := by
  unfold writeWifiParams
  simp only [lift_bind, bind_assoc]
  rfl

theorem writeWifiParams_ok {ssid password : String} {sbs pbs : Bytes} (hssid : encodeLatin1 ssid = .ok sbs)
    (hpassword : encodeLatin1 password = .ok pbs) (hsfits : sbs.length ≤ 0x20) (hpfits : pbs.length ≤ 0x80)
    (channel : ℤ) :
    writeWifiParams ssid password channel = .ok (DV.ofBytes (wifiParams channel sbs pbs).flatten) := by
  have hzeros : encodeLatin1 "0.0.0.0" = .ok (encodeAscii "0.0.0.0") := by decide
  have hmask : encodeLatin1 "0.255.255.255" = .ok (encodeAscii "0.255.255.255") := by decide
  have hblank : DV.alloc 0x108 = filled (padded 4 [] ++ padded 4 [] ++ padded 4 []) 252 := by
    rw [DV.alloc, filled, show padded 4 [] ++ padded 4 [] ++ padded 4 [] = List.replicate 12 0 from rfl,
      List.replicate_append_replicate]
  have hlen : (padded 4 [] ++ padded 4 [] ++ padded 4 []).length = 0x0C := rfl
  obtain ⟨hchannel, hlen⟩ := filled_number hlen 248 (channel % 256).toNat
  obtain ⟨hauth, hlen⟩ := filled_number hlen 244 0
  obtain ⟨hdhcp, hlen⟩ := filled_number hlen 240 1
  obtain ⟨hssid, hlen⟩ := filled_text hlen hssid hsfits 208
  obtain ⟨hpsk, hlen⟩ := filled_text hlen hpassword hpfits 80
  obtain ⟨hip, hlen⟩ := filled_text (w := 0x10) hlen hzeros (by decide) 64
  obtain ⟨hmask, hlen⟩ := filled_text (w := 0x10) hlen hmask (by decide) 48
  obtain ⟨hgw, hlen⟩ := filled_text (w := 0x10) hlen hzeros (by decide) 32
  obtain ⟨hdns1, hlen⟩ := filled_text (w := 0x10) hlen hzeros (by decide) 16
  obtain ⟨hdns2, -⟩ := filled_text (w := 0x10) hlen hzeros (by decide) 0
  unfold writeWifiParams
  rw [hblank]
  refine (bind_of_ok hchannel _).trans ((bind_of_ok hauth _).trans ((bind_of_ok hdhcp _).trans ?_))
  refine (bind_of_ok hssid _).trans ((bind_of_ok hpsk _).trans ((bind_of_ok hip _).trans ?_))
  refine (bind_of_ok hmask _).trans ((bind_of_ok hgw _).trans ((bind_of_ok hdns1 _).trans (hdns2.trans ?_)))
  rw [filled, List.replicate_zero, List.append_nil]
  simp only [wifiParams, List.flatten_cons, List.flatten_nil, List.append_nil, List.append_assoc]
  rfl

theorem length_take_wifiParams {sbs pbs : Bytes} (hsfits : sbs.length ≤ 0x20) (hpfits : pbs.length ≤ 0x80)
    (channel : ℤ) (n : ℕ) :
    ((wifiParams channel sbs pbs).take n).flatten.length =
      ([4, 4, 4, 4, 4, 4, 0x20, 0x80, 0x10, 0x10, 0x10, 0x10, 0x10].take n).sum := by
  have hfields : (wifiParams channel sbs pbs).map List.length =
      [4, 4, 4, 4, 4, 4, 0x20, 0x80, 0x10, 0x10, 0x10, 0x10, 0x10] := by
    simp only [wifiParams, List.map_cons, length_padded hsfits, length_padded hpfits]
    rfl
  rw [List.length_flatten, List.map_take, hfields]

theorem length_wifiParams {sbs pbs : Bytes} (hsfits : sbs.length ≤ 0x20) (hpfits : pbs.length ≤ 0x80)
    (channel : ℤ) : (wifiParams channel sbs pbs).flatten.length = 0x108 :=
  length_take_wifiParams hsfits hpfits channel 13

theorem sendWifiDetails_padded {w : World ε} (hticket : w.session.ticket.length ≤ 4) {ssid password : String}
    {channel : ℤ} {cmdPayload : DV} (h : writeWifiParams ssid password channel = .ok cmdPayload)
    (hlong : 4 < cmdPayload.toBytes.length) :
    sendWifiDetails ssid password channel true w =
      .ok (DV.ofBytes (commandPacket w.session.outgoingCommandId (padded 4 w.session.ticket)
          ControlCommand.wifiSettingsSet.code cmdPayload.toBytes))
        { w with session := { w.session with outgoingCommandId := w.session.outgoingCommandId + 1 } } := by
  have hdata : ∀ dv ∈ some cmdPayload, 4 < dv.toBytes.length := by
    rintro dv ⟨⟩
    exact hlong
  rw [sendWifiDetails_eq, h, lift_ok_bind, makeDataReadWrite_apply, dataReadWrite_padded hticket _ _ hdata]
  simp only [Option.map_some, Option.getD_some]

theorem sendWifiDetails_of_params {w : World ε} (hticket : w.session.ticket.length = 4) {ssid password : String}
    {channel : ℤ} {cmdPayload : DV} (h : writeWifiParams ssid password channel = .ok cmdPayload)
    (hlong : 4 < cmdPayload.toBytes.length) :
    sendWifiDetails ssid password channel true w =
      .ok (DV.ofBytes (commandPacket w.session.outgoingCommandId w.session.ticket
          ControlCommand.wifiSettingsSet.code cmdPayload.toBytes))
        { w with session := { w.session with outgoingCommandId := w.session.outgoingCommandId + 1 } } := by
  rw [sendWifiDetails_padded hticket.le h hlong, padded_whole hticket]

/-- **What `SendWifiDetails` builds** of an ssid and a password that fit. -/
theorem sendWifiDetails_ok {w : World ε} (hticket : w.session.ticket.length = 4) {ssid password : String}
    {sbs pbs : Bytes} (hssid : encodeLatin1 ssid = .ok sbs) (hpassword : encodeLatin1 password = .ok pbs)
    (hsfits : sbs.length ≤ 0x20) (hpfits : pbs.length ≤ 0x80) (channel : ℤ) :
    sendWifiDetails ssid password channel true w =
      .ok (DV.ofBytes (commandPacket w.session.outgoingCommandId w.session.ticket
          ControlCommand.wifiSettingsSet.code (wifiParams channel sbs pbs).flatten))
        { w with session := { w.session with outgoingCommandId := w.session.outgoingCommandId + 1 } } := by
  have hlen := length_wifiParams hsfits hpfits channel
  rw [sendWifiDetails_of_params hticket (writeWifiParams_ok hssid hpassword hsfits hpfits channel)
    (by rw [DV.toBytes_ofBytes, hlen]; decide), DV.toBytes_ofBytes]

/-- A block of at least its blank size with this channel. -/
structure HasChannel (channel : ℤ) (block : Bytes) : Prop where
  length : 0x108 ≤ block.length
  channel : field block 0x0C 1 = [UInt8.ofNat (channel % 256).toNat]

namespace HasChannel

variable {channel : ℤ} {block : Bytes} (h : HasChannel channel block)
include h

theorem put {k : ℕ} (hk : 0x0D ≤ k) (bs : Bytes) : HasChannel channel (Bytes.put block k bs) := by
  have hlen := h.length
  exact ⟨hlen.trans (length_le_length_put block k bs), (field_put_before hk (by omega) bs).trans h.channel⟩

theorem number {k : ℕ} (hk : 0x0D ≤ k) (hin : k < 0x108) (val : ℕ) :
    ∃ block', (DV.ofBytes block).via k (·.writeU8 val) = .ok (DV.ofBytes block') ∧ HasChannel channel block' :=
  ⟨_, (DV.via_writeU8 block k val).trans (if_pos (hin.trans_le h.length)), h.put hk _⟩

theorem text {k : ℕ} (hk : 0x0D ≤ k) {s : String} {bs : Bytes} (hs : encodeLatin1 s = .ok bs) :
    ∃ block', (DV.ofBytes block).via k (·.writeString s) = .ok (DV.ofBytes block') ∧
      HasChannel channel block' := by
  simp only [DV.writeString_ok hs]
  exact ⟨_, DV.via_writeByteArray block bs k, h.put hk bs⟩

end HasChannel

theorem writeWifiParams_channel {ssid password : String} {sbs pbs : Bytes} (hssid : encodeLatin1 ssid = .ok sbs)
    (hpassword : encodeLatin1 password = .ok pbs) (channel : ℤ) :
    ∃ block, writeWifiParams ssid password channel = .ok (DV.ofBytes block) ∧ HasChannel channel block := by
  have hzeros : encodeLatin1 "0.0.0.0" = .ok (encodeAscii "0.0.0.0") := by decide
  have hmask : encodeLatin1 "0.255.255.255" = .ok (encodeAscii "0.255.255.255") := by decide
  have hsize : (List.replicate 0x108 (0 : UInt8)).length = 0x108 := List.length_replicate
  have hwritten : (DV.alloc 0x108).via 0x0C (·.writeU8 (channel % 256).toNat) =
      .ok (DV.ofBytes (put (List.replicate 0x108 0) 0x0C [UInt8.ofNat (channel % 256).toNat])) :=
    (DV.via_writeU8 (List.replicate 0x108 0) 0x0C _).trans (if_pos (by rw [hsize]; decide))
  have h₀ : HasChannel channel (put (List.replicate 0x108 0) 0x0C [UInt8.ofNat (channel % 256).toNat]) :=
    ⟨hsize.ge.trans (length_le_length_put _ _ _), field_put_self (by rw [hsize]; decide) [_]⟩
  obtain ⟨block₁, hauth, h₁⟩ := h₀.number (k := 0x10) (by decide) (by decide) 0
  obtain ⟨block₂, hdhcp, h₂⟩ := h₁.number (k := 0x14) (by decide) (by decide) 1
  obtain ⟨block₃, hssid, h₃⟩ := h₂.text (k := 0x18) (by decide) hssid
  obtain ⟨block₄, hpsk, h₄⟩ := h₃.text (k := 0x38) (by decide) hpassword
  obtain ⟨block₅, hip, h₅⟩ := h₄.text (k := 0xB8) (by decide) hzeros
  obtain ⟨block₆, hmask, h₆⟩ := h₅.text (k := 0xC8) (by decide) hmask
  obtain ⟨block₇, hgw, h₇⟩ := h₆.text (k := 0xD8) (by decide) hzeros
  obtain ⟨block₈, hdns1, h₈⟩ := h₇.text (k := 0xE8) (by decide) hzeros
  obtain ⟨block₉, hdns2, h₉⟩ := h₈.text (k := 0xF8) (by decide) hzeros
  refine ⟨block₉, ?_, h₉⟩
  unfold writeWifiParams
  refine (bind_of_ok hwritten _).trans ((bind_of_ok hauth _).trans ((bind_of_ok hdhcp _).trans ?_))
  refine (bind_of_ok hssid _).trans ((bind_of_ok hpsk _).trans ((bind_of_ok hip _).trans ?_))
  exact (bind_of_ok hmask _).trans ((bind_of_ok hgw _).trans ((bind_of_ok hdns1 _).trans hdns2))

theorem wifiParams_sent {s : Session} (hticket : s.ticket.length = 4) {sbs pbs : Bytes}
    (hsfits : sbs.length ≤ 0x20) (hpfits : pbs.length ≤ 0x80) (channel : ℤ) :
    ∃ payloadLen front, front.length = 20 ∧
      ((DV.ofBytes (commandPacket s.outgoingCommandId s.ticket ControlCommand.wifiSettingsSet.code
        (wifiParams channel sbs pbs).flatten)).add 0xC).readU16le = .ok payloadLen ∧
      deobfuscated (DV.ofBytes (commandPacket s.outgoingCommandId s.ticket ControlCommand.wifiSettingsSet.code
        (wifiParams channel sbs pbs).flatten)) payloadLen =
          .ok (DV.ofBytes (front ++ (wifiParams channel sbs pbs).flatten)) := by
  have hlen := length_wifiParams hsfits hpfits channel
  have hlong : (wifiParams channel sbs pbs).flatten ≠ [] → 4 ≤ (wifiParams channel sbs pbs).flatten.length :=
    fun _ => by omega
  have hreads := readsBack hticket (show ControlCommand.wifiSettingsSet.code < 65536 by decide) hlong (by omega)
  have hfront : (packetHeader s.outgoingCommandId ControlCommand.wifiSettingsSet.code
      (wifiParams channel sbs pbs).flatten.length ++ s.ticket).length = 20 := by simp [hticket]
  exact ⟨_, _, hfront, hreads.payloadLen, deobfuscated_ok hfront hlong⟩

/-! ### What the fields hold -/

/-- The field of `w` bytes at `k` holds the text, and zeros behind it. -/
def HoldsText (block : DV) (k : ℤ) (w : ℕ) (s : String) : Prop :=
  ∃ bs, encodeLatin1 s = .ok bs ∧ (block.add k).readByteArray w = bs ++ List.replicate (w - bs.length) 0

theorem HoldsText.fits {block : DV} {k : ℤ} {w : ℕ} {s : String} (h : HoldsText block k w s) : s.length ≤ w := by
  obtain ⟨bs, hbs, hfield⟩ := h
  have hlen : ((block.add k).readByteArray w).length ≤ w := length_slice_le _ _ w
  rw [hfield, List.length_append] at hlen
  rw [← length_encodeLatin1 hbs]
  omega

/-- The text fields of `tag_wifiParams`. -/
structure TextsHold (ssid psk : String) (block : DV) : Prop where
  ssid : HoldsText block 0x18 0x20 ssid
  psk : HoldsText block 0x38 0x80 psk
  ip : HoldsText block 0xB8 0x10 "0.0.0.0"
  mask : HoldsText block 0xC8 0x10 "0.255.255.255"
  gw : HoldsText block 0xD8 0x10 "0.0.0.0"
  dns1 : HoldsText block 0xE8 0x10 "0.0.0.0"
  dns2 : HoldsText block 0xF8 0x10 "0.0.0.0"

/-- The packet consists of a header and the block, whose fields hold their own texts. -/
structure WifiParamsHold (ssid psk : String) (pkt : DV) : Prop where
  length : pkt.byteLength = 0x108 + 20
  texts : ∃ payloadLen dv, (pkt.add 0xC).readU16le = .ok payloadLen ∧ deobfuscated pkt payloadLen = .ok dv ∧
    TextsHold ssid psk (dv.add 20)

theorem field_block {front : Bytes} (hfront : front.length = 20) (before : List Bytes) {after : List Bytes}
    {f : Bytes} {k w : ℕ} (hk : before.flatten.length = k) (hw : f.length = w) :
    field (front ++ (before ++ f :: after).flatten) (20 + k) w = f := by
  rw [field_append_right hfront, field_flatten hk hw]

theorem holdsText {front : Bytes} (hfront : front.length = 20) (before : List Bytes) {after : List Bytes}
    {bs : Bytes} {s : String} {k w : ℕ} (hk : before.flatten.length = k) (hs : encodeLatin1 s = .ok bs)
    (h : bs.length ≤ w) :
    HoldsText ((DV.ofBytes (front ++ (before ++ padded w bs :: after).flatten)).add 20) k w s := by
  refine ⟨bs, hs, ?_⟩
  rw [DV.add_add]
  exact (DV.readByteArray_ofBytes _ (20 + k) w).trans (field_block hfront before hk (length_padded h))

theorem textsHold {front : Bytes} (hfront : front.length = 20) {ssid password : String} {sbs pbs : Bytes}
    (hssid : encodeLatin1 ssid = .ok sbs) (hpassword : encodeLatin1 password = .ok pbs)
    (hsfits : sbs.length ≤ 0x20) (hpfits : pbs.length ≤ 0x80) (channel : ℤ) :
    TextsHold ssid password ((DV.ofBytes (front ++ (wifiParams channel sbs pbs).flatten)).add 20) := by
  have hzeros : encodeLatin1 "0.0.0.0" = .ok (encodeAscii "0.0.0.0") := by decide
  have hmask : encodeLatin1 "0.255.255.255" = .ok (encodeAscii "0.255.255.255") := by decide
  have hstart := length_take_wifiParams hsfits hpfits channel
  exact {
    ssid := holdsText hfront ((wifiParams channel sbs pbs).take 6) (hstart 6) hssid hsfits
    psk := holdsText hfront ((wifiParams channel sbs pbs).take 7) (hstart 7) hpassword hpfits
    ip := holdsText hfront ((wifiParams channel sbs pbs).take 8) (hstart 8) hzeros (by decide)
    mask := holdsText hfront ((wifiParams channel sbs pbs).take 9) (hstart 9) hmask (by decide)
    gw := holdsText hfront ((wifiParams channel sbs pbs).take 10) (hstart 10) hzeros (by decide)
    dns1 := holdsText hfront ((wifiParams channel sbs pbs).take 11) (hstart 11) hzeros (by decide)
    dns2 := holdsText hfront ((wifiParams channel sbs pbs).take 12) (hstart 12) hzeros (by decide) }

theorem encodes_of_returns {w w' : World ε} {ssid password : String} {channel : ℤ} {pkt : DV}
    (h : sendWifiDetails ssid password channel true w = .ok pkt w') :
    ∃ sbs pbs, encodeLatin1 ssid = .ok sbs ∧ encodeLatin1 password = .ok pbs := by
  have hwrite : ∀ {dv dv' : DV} {k : ℤ} {s : String}, dv.via k (·.writeString s) = .ok dv' →
      ∃ bs, encodeLatin1 s = .ok bs := by
    intro dv dv' k s hs
    rw [DV.via, DV.writeString] at hs
    cases hbs : encodeLatin1 s with
    | ok bs => exact ⟨bs, rfl⟩
    | error e =>
      rw [hbs] at hs
      cases hs
  rw [sendWifiDetails_eq] at h
  cases hparams : writeWifiParams ssid password channel with
  | error e =>
    rw [hparams] at h
    cases h
  | ok cmdPayload =>
    obtain ⟨_, -, hparams⟩ := except_bind_eq_ok hparams
    obtain ⟨_, -, hparams⟩ := except_bind_eq_ok hparams
    obtain ⟨_, -, hparams⟩ := except_bind_eq_ok hparams
    obtain ⟨_, hssid, hparams⟩ := except_bind_eq_ok hparams
    obtain ⟨_, hpassword, -⟩ := except_bind_eq_ok hparams
    obtain ⟨sbs, hsbs⟩ := hwrite hssid
    obtain ⟨pbs, hpbs⟩ := hwrite hpassword
    exact ⟨sbs, pbs, hsbs, hpbs⟩

/-- **Credentials do not spill** exactly if the ssid and the password fit into their fields. -/
theorem wifi_params_iff {w w' : World ε} (hticket : w.session.ticket.length = 4) {ssid password : String}
    {channel : ℤ} {pkt : DV} (h : sendWifiDetails ssid password channel true w = .ok pkt w') :
    WifiParamsHold ssid password pkt ↔ ssid.length ≤ 0x20 ∧ password.length ≤ 0x80 := by
  constructor
  · rintro ⟨-, payloadLen, dv, -, -, htexts⟩
    exact ⟨htexts.ssid.fits, htexts.psk.fits⟩
  · rintro ⟨hsfits, hpfits⟩
    obtain ⟨sbs, pbs, hssid, hpassword⟩ := encodes_of_returns h
    rw [← length_encodeLatin1 hssid] at hsfits
    rw [← length_encodeLatin1 hpassword] at hpfits
    rw [sendWifiDetails_ok hticket hssid hpassword hsfits hpfits] at h
    cases h
    obtain ⟨payloadLen, front, hfront, hread, hblock⟩ := wifiParams_sent hticket hsfits hpfits channel
    refine ⟨?_, payloadLen, _, hread, hblock, textsHold hfront hssid hpassword hsfits hpfits channel⟩
    rw [DV.byteLength, DV.ofBytes, length_commandPacket hticket, length_wifiParams hsfits hpfits channel]
    rfl

theorem wifi_params_iff_skynet : ∃ (pkt : DV) (w' : World Unit),
    sendWifiDetails "skynet" "supercrap" 0 true oneCamera = .ok pkt w' ∧
      WifiParamsHold "skynet" "supercrap" pkt := by
  have hssid : encodeLatin1 "skynet" = .ok (encodeAscii "skynet") := by decide
  have hpassword : encodeLatin1 "supercrap" = .ok (encodeAscii "supercrap") := by decide
  have hticket : oneCamera.session.ticket.length = 4 := rfl
  have hrun := sendWifiDetails_ok hticket hssid hpassword (by decide) (by decide) 0
  exact ⟨_, _, hrun, (wifi_params_iff hticket hrun).2 ⟨by decide, by decide⟩⟩

/-- The name of a network as long as a scan can report it. -/
def longSsid : String := String.ofList (List.replicate 64 'a')

/-- The ssid runs into the password's field, where the password is written over it. -/
theorem spilled_ssid :
    ¬∀ (w w' : World Unit) (ssid password : String) (channel : ℤ) (pkt : DV), w.session.ticket.length = 4 →
      password ≠ "" → sendWifiDetails ssid password channel true w = .ok pkt w' →
        WifiParamsHold ssid password pkt := by
  intro h
  have hlen : (fun dv => dv.toBytes.length) <$> writeWifiParams longSsid "supercrap" 0 = .ok 0x108 := by
    decide +kernel
  cases hparams : writeWifiParams longSsid "supercrap" 0 with
  | error e =>
    rw [hparams] at hlen
    cases hlen
  | ok cmdPayload =>
    rw [hparams] at hlen
    have hlong : 4 < cmdPayload.toBytes.length :=
      (show 4 < 0x108 by decide).trans_eq (Except.ok.inj hlen).symm
    have hhold := h oneCamera _ longSsid "supercrap" 0 _ rfl (by decide)
      (sendWifiDetails_of_params rfl hparams hlong)
    obtain ⟨-, payloadLen, dv, -, -, htexts⟩ := hhold
    exact absurd htexts.ssid.fits (by decide)

/-! ### Reading the block -/

/-- What the handler of a WifiSettingsAck reads of the block that is sent. -/
def readBack (ssid password : String) (channel : ℤ) (w : World ε) : Except PyErr WifiSettings :=
  match sendWifiDetails ssid password channel true w with
  | .ok pkt _ => do
    let payloadLen ← (pkt.add 0xC).readU16le
    let dv ← deobfuscated pkt payloadLen
    parseWifiSettings dv
  | .error e _ => .error e

/-- What is read is what was given. -/
structure Agrees (ssid password : String) (channel : ℕ) (settings : WifiSettings) : Prop where
  channel : settings.channel = channel
  authtype : settings.authtype = 0
  dhcp : settings.dhcp = 1
  ssid : settings.ssid = ssid
  psk : settings.psk = password
  ip : settings.ip = "0.0.0.0"
  mask : settings.mask = "0.255.255.255"
  gw : settings.gw = "0.0.0.0"
  dns1 : settings.dns1 = "0.0.0.0"
  dns2 : settings.dns2 = "0.0.0.0"

/-- Latin-1 characters other than NUL. -/
def NonNulLatin1 (s : String) : Prop := ∀ c ∈ s.toList, 0 < c.toNat ∧ c.toNat < 256

instance (s : String) : Decidable (NonNulLatin1 s) :=
  List.decidableBAll _ s.toList

theorem NonNulLatin1.encodes {s : String} (h : NonNulLatin1 s) :
    ∃ bs, encodeLatin1 s = .ok bs ∧ ∀ b ∈ bs, b ≠ 0 := by
  obtain ⟨bs, hbs⟩ := exists_encodeLatin1 fun c hc => (h c hc).2
  refine ⟨bs, hbs, ?_⟩
  rintro b hb rfl
  have hchar : Char.ofNat (0 : UInt8).toNat ∈ s.toList := by
    rw [← decodeLatin1_encodeLatin1 hbs, decodeLatin1, String.toList_ofList]
    exact List.mem_map_of_mem hb
  exact absurd (h _ hchar).1 (by decide)

theorem ofBE_padded (b : UInt8) : ofBE (padded 4 [b]) = b.toNat * 2 ^ 24 := by
  show 0 + 256 * (0 + 256 * (0 + 256 * (b.toNat + 256 * 0))) = _
  omega

theorem HoldsText.read {dv : DV} {j k : ℤ} {w : ℕ} {s : String} (h : HoldsText (dv.add j) k w s)
    (hs : NonNulLatin1 s) : (dv.add (j + k)).readString w = s := by
  obtain ⟨bs, hbs, hfield⟩ := h
  obtain ⟨bs', hbs', hne⟩ := hs.encodes
  obtain rfl := Except.ok.inj (hbs.symm.trans hbs')
  rw [DV.add_add] at hfield
  show decodeLatin1 (((dv.add (j + k)).readByteArray w).takeWhile (· ≠ 0)) = s
  rw [hfield]
  exact (congrArg decodeLatin1 (takeWhile_padded hne w)).trans (decodeLatin1_encodeLatin1 hbs)

theorem readU32_block (decode : Bytes → ℕ) {front : Bytes} (hfront : front.length = 20) (before : List Bytes)
    {after : List Bytes} {f : Bytes} {k v : ℕ} (hk : before.flatten.length = k) (hw : f.length = 4)
    (hv : decode f = v) :
    decode <$> ((DV.ofBytes (front ++ (before ++ f :: after).flatten)).add (20 + k : ℕ)).unpackFrom 4 = .ok v := by
  have hinside : 20 + k + 4 ≤ (front ++ (before ++ f :: after).flatten).length := by
    rw [List.length_append, List.flatten_append, List.length_append, List.flatten_cons, List.length_append, hfront,
      hk, hw]
    omega
  rw [DV.read_ofBytes, if_pos hinside, field_block hfront before hk hw, hv]

/-- The settings a handler reads of the block: the channel and `dhcp` are misread. -/
def misread (ssid password : String) (channel : ℕ) : WifiSettings where
  enable := 0
  status := 0
  mode := 0
  channel := channel * 2 ^ 24
  authtype := 0
  dhcp := 2 ^ 24
  ssid := ssid
  psk := password
  ip := "0.0.0.0"
  mask := "0.255.255.255"
  gw := "0.0.0.0"
  dns1 := "0.0.0.0"
  dns2 := "0.0.0.0"

theorem parseWifiSettings_of_texts {dv : DV} {ssid psk : String} (h : TextsHold ssid psk (dv.add 20))
    (hssid : NonNulLatin1 ssid) (hpsk : NonNulLatin1 psk) {enable status mode channel authtype dhcp : ℕ}
    (henable : (dv.add 0x14).readU32 = .ok enable) (hstatus : (dv.add 0x18).readU32 = .ok status)
    (hmode : (dv.add 0x1C).readU32le = .ok mode) (hchannel : (dv.add 0x20).readU32 = .ok channel)
    (hauthtype : (dv.add 0x24).readU32 = .ok authtype) (hdhcp : (dv.add 0x28).readU32 = .ok dhcp) :
    parseWifiSettings dv = .ok {
      enable, status, mode, channel, authtype, dhcp, ssid, psk
      ip := "0.0.0.0", mask := "0.255.255.255", gw := "0.0.0.0", dns1 := "0.0.0.0", dns2 := "0.0.0.0" } := by
  have hzeros : NonNulLatin1 "0.0.0.0" := by decide +kernel
  have hmask : NonNulLatin1 "0.255.255.255" := by decide +kernel
  unfold parseWifiSettings
  rw [henable, except_ok_bind, hstatus, except_ok_bind, hmode, except_ok_bind, hchannel, except_ok_bind, hauthtype,
    except_ok_bind, hdhcp, except_ok_bind]
  rw [show (dv.add 0x2C).readString 0x20 = ssid from h.ssid.read hssid,
    show (dv.add 0x4C).readString 0x80 = psk from h.psk.read hpsk,
    show (dv.add 0xCC).readString 0x10 = _ from h.ip.read hzeros,
    show (dv.add 0xDC).readString 0x10 = _ from h.mask.read hmask,
    show (dv.add 0xEC).readString 0x10 = _ from h.gw.read hzeros,
    show (dv.add 0xFC).readString 0x10 = _ from h.dns1.read hzeros,
    show (dv.add 0x10C).readString 0x10 = _ from h.dns2.read hzeros]
  rfl

theorem parseWifiSettings_ok {front : Bytes} (hfront : front.length = 20) {ssid password : String}
    {sbs pbs : Bytes} (hsbs : encodeLatin1 ssid = .ok sbs) (hpbs : encodeLatin1 password = .ok pbs)
    (hsfits : sbs.length ≤ 0x20) (hpfits : pbs.length ≤ 0x80) (hssid : NonNulLatin1 ssid)
    (hpassword : NonNulLatin1 password) {channel : ℕ} (hchannel : channel ≤ 255) :
    parseWifiSettings (DV.ofBytes (front ++ (wifiParams channel sbs pbs).flatten)) =
      .ok (misread ssid password channel) := by
  have hstart := length_take_wifiParams hsfits hpfits (channel : ℤ)
  have hbyte : (UInt8.ofNat ((channel : ℤ) % 256).toNat).toNat = channel := by
    rw [UInt8.toNat_ofNat']
    omega
  have hnumber : ofBE (padded 4 [UInt8.ofNat ((channel : ℤ) % 256).toNat]) = channel * 2 ^ 24 := by
    rw [ofBE_padded, hbyte]
  have hblank : ofBE (padded 4 []) = 0 := by decide
  have hmode : ofLE (padded 4 []) = 0 := by decide
  have hauthtype : ofBE (padded 4 [0]) = 0 := ofBE_padded 0
  have hdhcp : ofBE (padded 4 [1]) = 2 ^ 24 := (ofBE_padded 1).trans (Nat.one_mul _)
  exact parseWifiSettings_of_texts (textsHold hfront hsbs hpbs hsfits hpfits channel) hssid hpassword
    (readU32_block ofBE (k := 0) hfront ((wifiParams channel sbs pbs).take 0) (hstart 0) rfl hblank)
    (readU32_block ofBE (k := 4) hfront ((wifiParams channel sbs pbs).take 1) (hstart 1) rfl hblank)
    (readU32_block ofLE (k := 8) hfront ((wifiParams channel sbs pbs).take 2) (hstart 2) rfl hmode)
    (readU32_block ofBE (k := 12) hfront ((wifiParams channel sbs pbs).take 3) (hstart 3) rfl hnumber)
    (readU32_block ofBE (k := 16) hfront ((wifiParams channel sbs pbs).take 4) (hstart 4) rfl hauthtype)
    (readU32_block ofBE (k := 20) hfront ((wifiParams channel sbs pbs).take 5) (hstart 5) rfl hdhcp)

theorem readBack_eq {w : World ε} (hticket : w.session.ticket.length = 4) {ssid password : String} {channel : ℕ}
    (hssid : NonNulLatin1 ssid) (hpassword : NonNulLatin1 password) (hsfits : ssid.length ≤ 0x20)
    (hpfits : password.length ≤ 0x80) (hchannel : channel ≤ 255) :
    readBack ssid password channel w = .ok (misread ssid password channel) := by
  obtain ⟨sbs, hsbs, -⟩ := hssid.encodes
  obtain ⟨pbs, hpbs, -⟩ := hpassword.encodes
  rw [← length_encodeLatin1 hsbs] at hsfits
  rw [← length_encodeLatin1 hpbs] at hpfits
  obtain ⟨payloadLen, front, hfront, hread, hblock⟩ := wifiParams_sent hticket hsfits hpfits (channel : ℤ)
  unfold readBack
  simp only [sendWifiDetails_ok hticket hsbs hpbs hsfits hpfits]
  refine (bind_of_ok hread _).trans ((bind_of_ok hblock _).trans ?_)
  exact parseWifiSettings_ok hfront hsbs hpbs hsfits hpfits hssid hpassword hchannel

/-- **Writer and reader of the Wifi settings disagree** about `dhcp`, always, and about every channel but 0; all
other fields are read back. -/
theorem wifi_settings_misread {w : World ε} (hticket : w.session.ticket.length = 4) {ssid password : String}
    {channel : ℕ} (hssid : NonNulLatin1 ssid) (hpassword : NonNulLatin1 password) (hsfits : ssid.length ≤ 0x20)
    (hpfits : password.length ≤ 0x80) (hchannel : channel ≤ 255) :
    readBack ssid password channel w = .ok (misread ssid password channel) ∧
      ¬∃ settings, readBack ssid password channel w = .ok settings ∧ Agrees ssid password channel settings := by
  have hread := readBack_eq hticket hssid hpassword hsfits hpfits hchannel
  refine ⟨hread, ?_⟩
  rintro ⟨settings, hsettings, hagrees⟩
  obtain rfl := Except.ok.inj (hread.symm.trans hsettings)
  exact absurd hagrees.dhcp (show 2 ^ 24 ≠ 1 by decide)

theorem wifi_settings_misread_skynet :
    readBack "skynet" "supercrap" 2 oneCamera = .ok (misread "skynet" "supercrap" 2) ∧
      ¬∃ settings, readBack "skynet" "supercrap" 2 oneCamera = .ok settings ∧
        Agrees "skynet" "supercrap" 2 settings :=
  wifi_settings_misread (show oneCamera.session.ticket.length = 4 from rfl) (by decide +kernel)
    (by decide +kernel) (by decide) (by decide) (by decide)

theorem misread_dhcp :
    ¬∀ (w : World Unit) (ssid password : String) (channel : ℕ), w.session.ticket.length = 4 →
      NonNulLatin1 ssid → NonNulLatin1 password → ssid.length ≤ 0x20 → password.length ≤ 0x80 → channel ≤ 255 →
        ∃ settings, readBack ssid password channel w = .ok settings ∧ Agrees ssid password channel settings := by
  intro h
  obtain ⟨settings, hsettings, hagrees⟩ := h oneCamera "skynet" "supercrap" 2 rfl (by decide +kernel)
    (by decide +kernel) (by decide) (by decide) (by decide)
  have hread := readBack_eq (w := oneCamera) rfl (show NonNulLatin1 "skynet" by decide +kernel)
    (show NonNulLatin1 "supercrap" by decide +kernel) (by decide) (by decide)
    (show 2 ≤ 255 by decide)
  obtain rfl := Except.ok.inj (hread.symm.trans hsettings)
  exact absurd hagrees.channel (by decide)

end CamReverse
