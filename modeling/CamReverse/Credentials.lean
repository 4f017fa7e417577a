import CamReverse.Acks
import CamReverse.Closing
import CamReverse.Pair

/-!
# Credentials do not conflict

While a session pairs a camera, scan results come again and again, and the resend loop rewrites the pending packet in
place. Still every WifiSettingsSet packet on the wire or pending is a copy of one that was built, but for its id
(`Traffic`), and the mark in `configured` says whether one was built (`Paired`). So at most one is built, on the
channel of the first match, as long as the session is connected (`credentials_never_conflict`).
-/

namespace CamReverse

open Effect Bytes

variable {ε : Type}

/-! ### Packets and their copies -/

/-- The packets differ at most in the id in their bytes 6 and 7. -/
def SameButId (m m' : Bytes) : Prop := m.length = m'.length ∧ ∀ i, i ≠ 6 → i ≠ 7 → m[i]? = m'[i]?

theorem SameButId.refl (m : Bytes) : SameButId m m := ⟨rfl, fun _ _ _ => rfl⟩

theorem SameButId.symm {m m' : Bytes} (h : SameButId m m') : SameButId m' m :=
  ⟨h.1.symm, fun i h₆ h₇ => (h.2 i h₆ h₇).symm⟩

theorem SameButId.trans {m₁ m₂ m₃ : Bytes} (h : SameButId m₁ m₂) (h' : SameButId m₂ m₃) : SameButId m₁ m₃ :=
  ⟨h.1.trans h'.1, fun i h₆ h₇ => (h.2 i h₆ h₇).trans (h'.2 i h₆ h₇)⟩

theorem sameButId_withId {buf : Bytes} (h : 8 ≤ buf.length) (id : ℕ) : SameButId buf (withId id buf) := by
  have hfits : 6 + (be 2 id).length ≤ buf.length := by rwa [length_be]
  refine ⟨(length_put hfits).symm, fun i h₆ h₇ => (getElem?_put_outside hfits ?_).symm⟩
  rw [length_be]
  omega

theorem SameButId.field {m m' : Bytes} (h : SameButId m m') {k n : ℕ} (hk : k + n ≤ 6 ∨ 8 ≤ k) :
    field m k n = field m' k n := by
  refine List.ext_getElem? fun i => ?_
  rw [Bytes.field, Bytes.field, List.getElem?_take, List.getElem?_take, List.getElem?_drop, List.getElem?_drop]
  split_ifs with hi
  · exact h.2 (k + i) (by omega) (by omega)
  · rfl

def IsWifiSettingsSet (m : Bytes) : Prop :=
  field m 0 2 = be 2 Command.drw.code ∧ field m 10 2 = be 2 ControlCommand.wifiSettingsSet.code

theorem SameButId.isWifiSettingsSet {m m' : Bytes} (h : SameButId m m') (hm : IsWifiSettingsSet m) :
    IsWifiSettingsSet m' :=
  ⟨(h.field (.inl (by decide))).symm.trans hm.1, (h.field (.inr (by decide))).symm.trans hm.2⟩

/-- The channel in the parameters of a WifiSettingsSet packet, deobfuscated. -/
def carriedChannel (m : Bytes) : Except PyErr ℕ := do
  let dv ← xqBytesDec ((DV.ofBytes m).add 20) (m.length - 20) 4
  (dv.add 0x0C).readU8

theorem Sets.carriedChannel {channel : ℕ} {m : Bytes} (h : Sets channel m) :
    carriedChannel m = .ok (channel % 256) := by
  obtain ⟨front, block, rfl, hfront, hblock⟩ := h
  have hlong := hblock.length
  have hlen : (front ++ obfuscate 4 block).length - 20 = block.length := by
    rw [List.length_append, hfront, length_obfuscate, Nat.add_sub_cancel_left]
  have hread := DV.readU8_ofBytes (front ++ block) (20 + 0x0C)
  have hbyte : (front ++ block).getD (20 + 0x0C) 0 = UInt8.ofNat ((channel : ℤ) % 256).toNat := by
    rw [List.getD_eq_getElem?_getD, List.getElem?_append_right (by omega), hfront, Nat.add_sub_cancel_left,
      getElem?_of_field hblock.channel]
    rfl
  rw [if_pos (by rw [List.length_append]; omega), hbyte, UInt8.toNat_ofNat'] at hread
  have hnumber : ((channel : ℤ) % 256).toNat % 2 ^ 8 = channel % 256 := by omega
  rw [hnumber] at hread
  unfold CamReverse.carriedChannel
  rw [hlen]
  refine (bind_of_ok (xqBytesDec_payload hfront (by omega)) _).trans ?_
  rw [← hread, DV.ofBytes_add]
  rfl

theorem SameButId.sets {m m' : Bytes} (h : SameButId m m') {channel : ℕ} (hm : Sets channel m) :
    Sets channel m' := by
  obtain ⟨front, block, rfl, hfront, hblock⟩ := hm
  have hlen := h.1
  rw [List.length_append, hfront, length_obfuscate] at hlen
  refine ⟨m'.take 20, block, ?_, by rw [List.length_take]; omega, hblock⟩
  have hrest : obfuscate 4 block = m'.drop 20 := by
    refine List.ext_getElem? fun i => ?_
    have hi := h.2 (20 + i) (by omega) (by omega)
    rw [List.getElem?_append_right (by omega), hfront, Nat.add_sub_cancel_left] at hi
    rw [hi, List.getElem?_drop]
  rw [hrest, List.take_append_drop]

/-- If the packet is a WifiSettingsSet, it is one of those that were built, but for its id. -/
def CopyOf (built : List DV) (m : Bytes) : Prop := IsWifiSettingsSet m → ∃ msg ∈ built, SameButId msg.toBytes m

theorem CopyOf.withId {built : List DV} {buf : Bytes} (h : CopyOf built buf) (hlen : 8 ≤ buf.length) (id : ℕ) :
    CopyOf built (withId id buf) := by
  intro hset
  have hsame := sameButId_withId hlen id
  obtain ⟨msg, hmsg, hcopy⟩ := h (hsame.symm.isWifiSettingsSet hset)
  exact ⟨msg, hmsg, hcopy.trans hsame⟩

theorem CopyOf.mono {built built' : List DV} (hsub : built ⊆ built') {m : Bytes} (h : CopyOf built m) :
    CopyOf built' m := fun hset => (h hset).imp fun _ hmsg => ⟨hsub hmsg.1, hmsg.2⟩

/-- A packet that is no WifiSettingsSet command. -/
def Plain (msg : DV) : Prop :=
  (∃ raw, msg.readU16 = .ok raw ∧ raw ≠ Command.drw.code) ∨
    ∃ command buf id, msg = DV.ofBytes buf ∧ IsCommandOf command buf id ∧
      be 2 command ≠ be 2 ControlCommand.wifiSettingsSet.code

theorem not_isWifiSettingsSet_of_raw {msg : DV} {raw : ℕ} (hraw : msg.readU16 = .ok raw)
    (hne : raw ≠ Command.drw.code) : ¬IsWifiSettingsSet msg.toBytes := by
  rintro ⟨htype, -⟩
  have hsame := DV.field_toBytes hraw
  rw [htype, ofBE_be] at hsame
  exact hne hsame.symm

theorem readU16_makeDrwAck {msg : Bytes} {ack : DV} (h : makeDrwAck (DV.ofBytes msg) = .ok ack) :
    ack.readU16 = .ok Command.drwAck.code := by
  by_cases hlen : 8 ≤ msg.length
  · obtain ⟨ack', hack, hraw⟩ := makeDrwAck_ok hlen
    obtain rfl := Except.ok.inj (h.symm.trans hack)
    exact hraw
  · rw [makeDrwAck_error hlen] at h
    cases h

theorem readU16_createP2pRdy {inbuf msg : DV} (h : createP2pRdy inbuf = .ok msg) :
    msg.readU16 = .ok Command.p2pRdy.code := by
  have hheader : bareHeader .p2pRdy 0x14 (0x14 + 4) =
      .ok (DV.ofBytes (be 2 Command.p2pRdy.code ++ be 2 0x14 ++ List.replicate 0x14 0)) := rfl
  unfold createP2pRdy at h
  rw [bind_of_ok hheader] at h
  obtain rfl := Except.ok.inj ((DV.via_writeByteArray _ (inbuf.readByteArray (0x14 : ℕ)) 4).symm.trans h)
  have hlen := length_le_length_put (be 2 Command.p2pRdy.code ++ be 2 0x14 ++ List.replicate 0x14 0) 4
    (inbuf.readByteArray (0x14 : ℕ))
  have hread := DV.readU16_ofBytes (put (be 2 Command.p2pRdy.code ++ be 2 0x14 ++ List.replicate 0x14 0) 4
    (inbuf.readByteArray (0x14 : ℕ))) 0
  rw [if_pos (le_trans (by decide) hlen), field_put_before (by decide) (by decide)] at hread
  exact hread

theorem readU16_makeP2pRdy {dev : DevSerial} {msg : DV} (h : makeP2pRdy dev = .ok msg) :
    msg.readU16 = .ok Command.p2pRdy.code := by
  obtain ⟨_, -, h⟩ := except_bind_eq_ok h
  obtain ⟨_, -, h⟩ := except_bind_eq_ok h
  obtain ⟨_, -, h⟩ := except_bind_eq_ok h
  exact readU16_createP2pRdy h

theorem plain_makeDrwAck {msg : Bytes} {ack : DV} (h : makeDrwAck (DV.ofBytes msg) = .ok ack) : Plain ack :=
  .inl ⟨_, readU16_makeDrwAck h, by decide⟩

theorem plain_makeP2pRdy {dev : DevSerial} {msg : DV} (h : makeP2pRdy dev = .ok msg) : Plain msg :=
  .inl ⟨_, readU16_makeP2pRdy h, by decide⟩

theorem yields_plain {command : ℕ} (h : be 2 command ≠ be 2 ControlCommand.wifiSettingsSet.code)
    (data : Option DV) : Yields Plain (makeDataReadWrite command data : SessionM ε DV) :=
  (yields_command command data).mono fun _ ⟨buf, id, hmsg, hbuf⟩ => .inr ⟨command, buf, id, hmsg, hbuf, h⟩

/-! ### Traffic -/

/-- The first record with the ssid in the first scan result that has one. -/
def firstMatch (ssid : String) (events : List Event) : Option WifiListItem :=
  events.findSome? fun
    | .listWifi items => items.find? fun i => i.ssid = ssid
    | _ => none

theorem firstMatch_append (ssid : String) (evs evs' : List Event) :
    firstMatch ssid (evs ++ evs') = (firstMatch ssid evs).or (firstMatch ssid evs') := List.findSome?_append

theorem firstMatch_listWifi (ssid : String) (items : List WifiListItem) :
    firstMatch ssid [.listWifi items] = items.find? fun i => i.ssid = ssid := List.findSome?_singleton

theorem firstMatch_others (ssid : String) (evs : List Event) {evs' : List Event}
    (h : ∀ ev ∈ evs', ∀ items, ev ≠ .listWifi items) : firstMatch ssid (evs ++ evs') = firstMatch ssid evs := by
  have hnone : firstMatch ssid evs' = none := by
    refine List.findSome?_eq_none_iff.2 fun ev hev => ?_
    cases ev with
    | listWifi items => exact absurd rfl (h _ hev items)
    | _ => rfl
  rw [firstMatch_append, hnone, Option.or_none]

/-- What is pending and what was sent are copies of what was built. -/
structure Traffic (built : List DV) (w : World ε) : Prop where
  ticket : w.session.ticket.length ≤ 4
  keyed : KeyedById w.session.unackedDrw
  pending : ∀ e ∈ w.session.unackedDrw.entries, CopyOf built e.2.data.toBytes
  sent : ∀ m, .sent m ∈ w.events → CopyOf built m

theorem Traffic.mono {built built' : List DV} (hsub : built ⊆ built') {w : World ε} (h : Traffic built w) :
    Traffic built' w :=
  ⟨h.ticket, h.keyed, fun e he => (h.pending e he).mono hsub, fun m hm => (h.sent m hm).mono hsub⟩

theorem Traffic.update {built : List DV} {w : World ε} (h : Traffic built w) {s : Session}
    (hticket : w.session.ticket.length ≤ 4 → s.ticket.length ≤ 4)
    (hentries : ∀ e ∈ s.unackedDrw.entries, e ∈ w.session.unackedDrw.entries) :
    Traffic built { w with session := s } where
  ticket := hticket h.ticket
  keyed e he := h.keyed e (hentries e he)
  pending e he := h.pending e (hentries e he)
  sent := h.sent

theorem Traffic.event {built : List DV} {w : World ε} (h : Traffic built w) {ev : Event} (hsent : ∀ m, ev ≠ .sent m) :
    Traffic built { w with events := w.events ++ [ev] } :=
  { h with
    sent := fun m hm => by
      rcases List.mem_append.1 hm with hm | hm
      · exact h.sent m hm
      · exact absurd (List.mem_singleton.1 hm).symm (hsent m) }

/-- From `w` to `w'` there was no scan result, and what was sent are copies of what was built before. -/
structure Relays (built : List DV) (w w' : World ε) : Prop where
  app : w'.app = w.app
  connected : w'.session.connected = w.session.connected
  scans : ∀ ssid, firstMatch ssid w'.events = firstMatch ssid w.events
  traffic : Traffic built w → Traffic built w'

namespace Relays

variable {built : List DV}

instance : IsPreorder (World ε) (Relays built) where
  refl _ := ⟨rfl, rfl, fun _ => rfl, id⟩
  trans _ _ _ h h' :=
    ⟨h'.app.trans h.app, h'.connected.trans h.connected, fun ssid => (h'.scans ssid).trans (h.scans ssid),
      h'.traffic ∘ h.traffic⟩

theorem update {f : Session → Session} (hconnected : ∀ s, (f s).connected = s.connected)
    (hticket : ∀ s, s.ticket.length ≤ 4 → (f s).ticket.length ≤ 4)
    (hentries : ∀ s, ∀ e ∈ (f s).unackedDrw.entries, e ∈ s.unackedDrw.entries) :
    Along (@Relays ε built) (update f) := fun w => {
  app := rfl
  connected := hconnected w.session
  scans := fun _ => rfl
  traffic := fun h => h.update (hticket w.session) (hentries w.session) }

theorem elsewhere {f : Session → Session}
    (h : ∀ s, (f s).connected = s.connected ∧ (f s).ticket = s.ticket ∧ (f s).unackedDrw = s.unackedDrw) :
    Along (@Relays ε built) (CamReverse.update f) :=
  update (fun s => (h s).1) (fun s ht => (h s).2.1 ▸ ht) fun s _ he => (h s).2.2 ▸ he

theorem record {ev : Event} (hsent : ∀ m, ev ≠ .sent m) (hscan : ∀ items, ev ≠ .listWifi items) :
    Along (@Relays ε built) (record ev) := fun w => {
  app := rfl
  connected := rfl
  scans := fun ssid => firstMatch_others ssid w.events (List.forall_mem_singleton.2 hscan)
  traffic := fun h => h.event hsent }

theorem assemble {f : Session → Session} (hf : ∀ s, ∃ image id bad fixed, f s =
    { s with curImage := image, rcvSeqId := id, frameIsBad := bad, frameWasFixed := fixed }) :
    Along (@Relays ε built) (CamReverse.update f) := by
  refine elsewhere fun s => ?_
  obtain ⟨image, id, bad, fixed, hs⟩ := hf s
  rw [hs]
  exact ⟨rfl, rfl, rfl⟩

theorem inApp {m : EStateM PyErr ε Unit} (h : ∀ app, final m app = app) :
    Along (@Relays ε built) (inApp m) := fun w => by
  rw [CamReverse.inApp, final_onPart, h]
  exact refl_of (Relays built) w

theorem ackDrw (id : ℕ) : Along (@Relays ε built) (ackDrw id) :=
  update (fun _ => rfl) (fun _ h => h) fun _ _ he => (List.mem_filter.1 he).1

theorem wired (w : World ε) {msg : Bytes} (hcopy : CopyOf built msg) :
    Relays built w { w with events := w.events ++ CamReverse.wired w msg } where
  app := rfl
  connected := rfl
  scans ssid := firstMatch_others ssid w.events fun ev hev items => by
    rw [mem_wired hev]
    exact Event.noConfusion
  traffic h := { h with
    sent := fun m hm => by
      rcases List.mem_append.1 hm with hm | hm
      · exact h.sent m hm
      · obtain rfl := Event.sent.inj (mem_wired hm)
        exact hcopy }

theorem send_command {buf : Bytes} {id : ℕ} (h : IsCommand buf id) (hcopy : CopyOf built buf) (now : ℚ) :
    Along (@Relays ε built) (send now (DV.ofBytes buf)) := fun w => by
  have hremembered : Relays built w { w with session := { w.session with
      unackedDrw := w.session.unackedDrw.insert (id % 65536) ⟨now, DV.ofBytes buf⟩ } } := {
    app := rfl
    connected := rfl
    scans := fun _ => rfl
    traffic := fun ht => { ht with
      keyed := ht.keyed.insert h now
      pending := fun e he => by
        rcases Table.mem_entries_insert he with rfl | he
        · rw [DV.toBytes_ofBytes]
          exact hcopy
        · exact ht.pending e he } }
  rw [final, CamReverse.send_command h now w]
  exact trans_of (Relays built) hremembered (wired _ hcopy)

theorem send {msg : DV} (h : Plain msg) (now : ℚ) : Along (@Relays ε built) (send now msg) := by
  rcases h with ⟨raw, hraw, hne⟩ | ⟨command, buf, id, rfl, hbuf, hne⟩
  · intro w
    rw [final, send_other now hraw hne w]
    exact wired w fun hset => absurd hset (not_isWifiSettingsSet_of_raw hraw hne)
  · exact send_command hbuf.toIsCommand (fun hset => absurd (hbuf.command.symm.trans hset.2) hne) now

theorem resendEntry (now : ℚ) {e : ℕ × Unacked}
    (he : ∃ buf, e.2.data = DV.ofBytes buf ∧ IsCommand buf e.1 ∧ e.1 < 65536) (hcopy : CopyOf built e.2.data.toBytes) :
    Along (@Relays ε built) (resendEntry now e) := by
  obtain ⟨k, ts, data⟩ := e
  obtain ⟨buf, rfl, hbuf, -⟩ := he
  have hlen := hbuf.length
  rw [DV.toBytes_ofBytes] at hcopy
  refine Along.ite (fun _ => ?_) fun _ => Along.pure _
  refine Along.bind (Along.lift _) fun _ => Along.get_bind fun w => Along.lift_bind (fun data hdata => ?_) w
  obtain rfl : DV.ofBytes (withId w.session.outgoingCommandId buf) = data :=
    Except.ok.inj (((DV.via_writeU16 buf 6 _).trans (if_pos (by omega))).symm.trans hdata)
  refine Along.bind (elsewhere fun _ => ⟨rfl, rfl, rfl⟩) fun _ => Along.bind (ackDrw k) fun _ => ?_
  exact send_command (hbuf.withId _) (hcopy.withId hlen _) now

theorem resendTimerRound (now : ℚ) {w : World ε} (h : Traffic built w) :
    Relays built w (final (resendTimerRound now) w) :=
  Along.forM (R := Relays built) (fun e he => resendEntry now (h.keyed e he) (h.pending e he)) w

theorem makeDataReadWrite (command : ℕ) (data : Option DV) : Along (@Relays ε built) (makeDataReadWrite command data) :=
  along_makeDataReadWrite (elsewhere fun _ => ⟨rfl, rfl, rfl⟩) command data

theorem connectionMade (now : ℚ) : Along (@Relays ε built) (connectionMade now) := by
  refine Along.bind (elsewhere fun _ => ⟨rfl, rfl, rfl⟩) fun _ => Along.get_bind fun w => ?_
  refine Along.lift_bind (fun rdy hrdy => Along.bind (send (plain_makeP2pRdy hrdy) now) fun _ => ?_) w
  refine Along.bind (elsewhere fun _ => ⟨rfl, rfl, rfl⟩) fun _ => ?_
  exact elsewhere fun _ => ⟨rfl, rfl, rfl⟩

end Relays

/-! ### What the mark says -/

/-- The session of a camera that is paired. While it is connected, its mark says whether the credentials were built;
if not, no scan result had the ssid, or they cannot be written. -/
structure Paired (ssid password devId : String) (w : World Pairing) : Prop where
  traffic : Traffic w.app.built w
  once : w.app.built.length ≤ 1
  first : ∀ msg ∈ w.app.built, ∃ item, firstMatch ssid w.events = some item ∧ Sets item.channel msg.toBytes
  marked : w.session.connected = true → (w.app.configured.find? devId = some true ↔ w.app.built ≠ [])
  waiting : w.session.connected = true → w.app.built = [] →
    firstMatch ssid w.events = none ∨ ¬Writable ssid password

def PairedUp (ssid password devId : String) (w : World Pairing) : Prop :=
  w.session.connected = true ∧ Paired ssid password devId w

theorem Relays.paired {ssid password devId : String} {w w' : World Pairing} (h : Relays w.app.built w w')
    (hw : Paired ssid password devId w) : Paired ssid password devId w' where
  traffic := by
    rw [h.app]
    exact h.traffic hw.traffic
  once := by
    rw [h.app]
    exact hw.once
  first := by
    rw [h.app, h.scans ssid]
    exact hw.first
  marked := by
    rw [h.app, h.connected]
    exact hw.marked
  waiting := by
    rw [h.app, h.connected, h.scans ssid]
    exact hw.waiting

section
variable {ssid password devId : String} {α : Type} {m : SessionM Pairing α}

theorem keeps_paired (h : ∀ built, Along (Relays built) m) : Along (Keeps (Paired ssid password devId)) m :=
  fun w hw => (h w.app.built w).paired hw

theorem keeps_pairedUp (h : ∀ built, Along (Relays built) m) : Along (Keeps (PairedUp ssid password devId)) m :=
  fun w hw => ⟨(h w.app.built w).connected.trans hw.1, (h w.app.built w).paired hw.2⟩

end

theorem PairedUp.ignored {ssid password devId : String} {w : World Pairing} (hw : PairedUp ssid password devId w)
    {items : List WifiListItem}
    (h : (items.find? fun i => i.ssid = ssid) = none ∨ w.app.configured.find? devId = some true ∨
      ¬Writable ssid password) :
    Paired ssid password devId { w with events := w.events ++ [.listWifi items] } where
  traffic := hw.2.traffic.event (by simp)
  once := hw.2.once
  first msg hmsg := by
    obtain ⟨item, hitem, hsets⟩ := hw.2.first msg hmsg
    refine ⟨item, ?_, hsets⟩
    rw [firstMatch_append, hitem, Option.some_or]
  marked := hw.2.marked
  waiting hup hnothing := by
    rcases h with hno | hdone | hrefused
    · refine (hw.2.waiting hup hnothing).imp_left fun hbefore => ?_
      rw [firstMatch_append, hbefore, Option.none_or, firstMatch_listWifi, hno]
    · exact absurd hnothing ((hw.2.marked hup).1 hdone)
    · exact .inr hrefused

theorem PairedUp.configured {ssid password devId : String} {w : World Pairing} (hw : PairedUp ssid password devId w)
    {items : List WifiListItem} {item : WifiListItem} (hfound : (items.find? fun i => i.ssid = ssid) = some item)
    (hopen : w.app.configured.find? devId ≠ some true) (hwritable : Writable ssid password) {buf : Bytes}
    (hcommand : IsCommand buf w.session.outgoingCommandId) (hsets : Sets item.channel buf) (now : ℚ) :
    Paired ssid password devId
      (configuredBy now devId buf { w with events := w.events ++ [.listWifi items] }) := by
  have hnothing : w.app.built = [] := by
    by_contra hbuilt
    exact hopen ((hw.2.marked hw.1).2 hbuilt)
  have hbefore : firstMatch ssid w.events = none :=
    (hw.2.waiting hw.1 hnothing).resolve_right fun hrefused => hrefused hwritable
  have hbuilt : (configuredBy now devId buf { w with events := w.events ++ [.listWifi items] }).app.built =
      [DV.ofBytes buf] := by
    show w.app.built ++ [DV.ofBytes buf] = _
    rw [hnothing, List.nil_append]
  have hself : CopyOf [DV.ofBytes buf] buf := fun _ =>
    ⟨_, List.mem_singleton_self _, by
      rw [DV.toBytes_ofBytes]
      exact SameButId.refl buf⟩
  exact {
    traffic := by
      have hheard : Traffic w.app.built { w with
          session := { w.session with outgoingCommandId := w.session.outgoingCommandId + 1 }
          events := w.events ++ [.listWifi items] } := (hw.2.traffic.event (by simp)).update id fun _ h => h
      have hnone : w.app.built ⊆ [DV.ofBytes buf] := by
        rw [hnothing]
        exact List.nil_subset _
      have hsent := (Relays.send_command hcommand hself now _).traffic (hheard.mono hnone)
      rw [final, send_command hcommand now] at hsent
      rw [hbuilt]
      exact { hsent with }
    once := by
      rw [hbuilt]
      exact le_rfl
    first := by
      rw [hbuilt]
      refine List.forall_mem_singleton.2 ⟨item, ?_, by rwa [DV.toBytes_ofBytes]⟩
      show firstMatch ssid (w.events ++ [.listWifi items] ++ _) = some item
      rw [firstMatch_append, firstMatch_append, hbefore, Option.none_or, firstMatch_listWifi, hfound, Option.some_or]
    marked := fun _ => by
      rw [hbuilt]
      exact iff_of_true (Table.find?_insert_self w.app.configured devId true) (List.cons_ne_nil _ _)
    waiting := fun _ hnone => by
      rw [hbuilt] at hnone
      cases hnone }

section Listeners
variable (dev : DevSerial) (ssid password : String) (now : ℚ)

theorem keeps_emitListWifi (items : List WifiListItem) :
    Along (Keeps (PairedUp ssid password dev.devId))
      (emitListWifi (Listeners.pairing dev ssid password now) items) := by
  intro w hw
  show PairedUp ssid password dev.devId
    (final (Pair.onListWifi now dev.devId ssid password items) { w with events := w.events ++ [.listWifi items] })
  rcases onListWifi_cases now dev.devId ssid password items (w := { w with events := w.events ++ [.listWifi items] })
    hw.2.traffic.ticket with ⟨hfinal, hwhy⟩ | ⟨item, buf, hfound, hopen, hwritable, hcommand, hsets, hfinal⟩
  · rw [hfinal]
    exact ⟨hw.1, hw.ignored hwhy⟩
  · rw [hfinal]
    exact ⟨hw.1, hw.configured hfound hopen hwritable hcommand.toIsCommand hsets now⟩

theorem keeps_answers :
    Answers (Listeners.pairing dev ssid password now) (Keeps (PairedUp ssid password dev.devId)) where
  count := keeps_pairedUp fun _ => Relays.elsewhere fun _ => ⟨rfl, rfl, rfl⟩
  assemble hf := keeps_pairedUp fun _ => Relays.assemble hf
  emitFrame := keeps_pairedUp fun _ => Along.get_bind fun w =>
    Along.bind (Relays.record (by simp) (by simp)) (fun _ => Relays.inApp fun _ => rfl) w
  emitAudio data := keeps_pairedUp fun _ =>
    Along.bind (Relays.record (by simp) (by simp)) fun _ => Relays.inApp fun _ => rfl
  emitListWifi items := keeps_emitListWifi dev ssid password now items

theorem keeps_logIn (dv : DV) :
    Along (Keeps (PairedUp ssid password dev.devId)) (logIn (Listeners.pairing dev ssid password now) dv) := by
  refine keeps_pairedUp fun built => Along.bind (Relays.update (fun _ => rfl) (fun _ _ => ?_) fun _ _ h => h) fun _ =>
    Along.bind (Relays.record (by simp) (by simp)) fun _ => ?_
  · exact length_slice_le _ _ 4
  · exact Along.bind_yields (Relays.makeDataReadWrite _ _) (yields_plain (by decide) _) fun msg hmsg =>
      Relays.send hmsg now

theorem keeps_handleDrw (config : Config) (msg : Bytes) :
    Along (Keeps (PairedUp ssid password dev.devId))
      (handleDrw config (Listeners.pairing dev ssid password now) now (DV.ofBytes msg)) := by
  have hanswers := keeps_answers dev ssid password now
  refine Along.lift_bind fun ack hack => ?_
  refine Along.bind (keeps_pairedUp fun _ => Relays.send (plain_makeDrwAck hack) now) fun _ => ?_
  refine Along.bind (Along.lift _) fun mStream => Along.ite (fun _ => hanswers.dealWithData config _) fun _ =>
    Along.ite (fun _ => ?_) fun _ => Along.pure _
  have hcontrol : Along (Keeps (PairedUp ssid password dev.devId)) (createResponseForControlCommand
      (Listeners.pairing dev ssid password now) (DV.ofBytes msg)) :=
    hanswers.createResponseForControlCommand fun dv' _ => keeps_logIn dev ssid password now dv'
  refine Along.bind_yields hcontrol (yields_createResponse (yields_plain (by decide) _) _ _) fun pkts hpkts => ?_
  exact Along.forM fun pkt hpkt => keeps_pairedUp fun _ => Relays.send (hpkts pkt hpkt) now

theorem keeps_handlers (config : Config) {cmd : Command} (hclose : cmd ≠ .close) (msg : Bytes) :
    Along (Keeps (PairedUp ssid password dev.devId))
      (handlers config (Listeners.pairing dev ssid password now) now cmd (DV.ofBytes msg)) := by
  cases cmd with
  | p2pAlive =>
    refine Along.lift_bind fun ack hack => keeps_pairedUp fun _ => Relays.send (.inl ?_) now
    obtain rfl := Except.ok.inj hack
    exact ⟨Command.p2pAliveAck.code, rfl, by decide⟩
  | p2pRdy =>
    have hbuilt : Yields Plain (sendUsrChk "admin" "admin" : SessionM Pairing DV) :=
      Yields.behind fun _ => Yields.behind fun _ => yields_plain (by decide) _
    refine keeps_pairedUp fun _ => Along.bind_yields ?_ hbuilt fun msg hmsg => Relays.send hmsg now
    exact along_sendUsrChk (Relays.elsewhere fun _ => ⟨rfl, rfl, rfl⟩) _ _
  | drwAck =>
    refine keeps_pairedUp fun _ => Along.bind (Along.lift _) fun ackCount => Along.forM fun _ _ => ?_
    exact Along.bind (Along.lift _) fun ackId => Relays.ackDrw ackId
  | drw => exact keeps_handleDrw dev ssid password now config msg
  | close => exact absurd rfl hclose
  | p2pAliveAck => exact Along.pure _
  | _ => exact Handles.notImpl _

/-- A disconnect takes the mark, but there is nothing left to be paired. -/
theorem keeps_emitDisconnect :
    Along (Keeps (Paired ssid password dev.devId)) (emitDisconnect (Listeners.pairing dev ssid password now)) := by
  intro w hw
  have hdown : (onDisconnect w.session).connected = false :=
    (congrArg Life.connected (life_onDisconnect w.session)).trans (connected_disconnected _)
  have hsession : (onDisconnect w.session).ticket = w.session.ticket ∧
      (onDisconnect w.session).unackedDrw = w.session.unackedDrw := by
    unfold onDisconnect
    split_ifs <;> exact ⟨rfl, rfl⟩
  have hscans : firstMatch ssid (w.events ++ [.disconnect]) = firstMatch ssid w.events :=
    firstMatch_others ssid w.events (by simp)
  have hevent : Traffic w.app.built { w with events := w.events ++ [.disconnect] } := hw.traffic.event (by simp)
  have htraffic := hevent.update (s := onDisconnect w.session) (fun h => hsession.1 ▸ h) fun e he => hsession.2 ▸ he
  show Paired ssid password dev.devId
    ⟨onDisconnect w.session, Pair.onDisconnect dev.devId w.app, w.events ++ [.disconnect]⟩
  exact {
    traffic := { htraffic with }
    once := hw.once
    first := by
      rw [hscans]
      exact hw.first
    marked := fun hup => absurd (hdown.symm.trans hup) (by decide)
    waiting := fun hup => absurd (hdown.symm.trans hup) (by decide) }

theorem keeps_handleClose (msg : Bytes) :
    Along (Keeps (Paired ssid password dev.devId))
      (handleClose (Listeners.pairing dev ssid password now) now (DV.ofBytes msg)) :=
  Along.lift_bind fun _ hack => Along.bind (keeps_paired fun _ => Relays.send (plain_makeDrwAck hack) now) fun _ =>
    keeps_emitDisconnect dev ssid password now

end Listeners

/-! ### Runs -/

section Runs
variable {dev : DevSerial} {ssid password : String}

theorem PairedUp.dispatch {w : World Pairing} (hw : PairedUp ssid password dev.devId w) (config : Config) (now : ℚ)
    (msg : Bytes) : Paired ssid password dev.devId
      (final (dispatch config (Listeners.pairing dev ssid password now) now (DV.ofBytes msg)) w) := by
  cases hcmd : commandOf msg with
  | none =>
    rw [dispatch_of_none hcmd]
    exact hw.2
  | some cmd =>
    obtain ⟨raw, hrun⟩ := dispatch_of_command hcmd config (Listeners.pairing dev ssid password now) now
    rw [hrun, final_bind_pure]
    by_cases hclose : cmd = .close
    · subst hclose
      exact keeps_handleClose dev ssid password now msg w hw.2
    · exact (keeps_handlers dev ssid password now config hclose msg w hw).2

theorem keeps_timerTask {round : SessionM Pairing Unit} (h : Along (Keeps (Paired ssid password dev.devId)) round)
    {f : Session → Session} (hf : ∀ built, Along (@Relays Pairing built) (update f)) :
    Along (Keeps (Paired ssid password dev.devId)) (timerTask round f) :=
  Along.bind (Along.attempt h) fun _ => Along.ite (fun _ => keeps_paired hf) fun _ => Along.pure _

theorem keeps_sessTimerRound (now : ℚ) :
    Along (Keeps (Paired ssid password dev.devId)) (sessTimerRound (Listeners.pairing dev ssid password now) now) := by
  have hend : Along (Keeps (Paired ssid password dev.devId)) (do
      emitDisconnect (Listeners.pairing dev ssid password now)
      update fun s => { s with sessTimer := false }) :=
    Along.bind (keeps_emitDisconnect dev ssid password now) fun _ =>
      keeps_paired fun _ => Relays.elsewhere fun _ => ⟨rfl, rfl, rfl⟩
  have hrest := fun c : Prop => fun [Decidable c] =>
    Along.ite (c := c) (fun _ => hend) fun _ => Along.pure (R := Keeps (Paired ssid password dev.devId)) ()
  refine Along.get_bind fun w => Along.ite (fun _ => Along.ite (fun _ => ?_) fun _ => hrest _) (fun _ => Along.pure _) w
  refine Along.lift_bind fun msg hmsg => Along.bind (keeps_paired fun _ => Relays.send (.inl ?_) now) fun _ => hrest _
  obtain rfl := Except.ok.inj hmsg
  exact ⟨Command.p2pAlive.code, rfl, by decide⟩

/-- **A callback** keeps the session of a camera paired, as long as it was connected before. -/
theorem PairedUp.occur {w : World Pairing} (hw : PairedUp ssid password dev.devId w) (o : Occurrence) :
    Paired ssid password dev.devId (occur (Listeners.pairing dev ssid password) w o) := by
  obtain ⟨now, c⟩ := o
  unfold CamReverse.occur callback
  dsimp only
  split_ifs with hdue
  · cases c with
    | ready => exact keeps_paired (fun _ => Relays.connectionMade now) w hw.2
    | datagram config msg =>
      obtain ⟨last, hfinal⟩ := handleIncoming_final config (Listeners.pairing dev ssid password now) now msg w
      dsimp only
      rw [hfinal]
      have hlast : Along (Keeps (Paired ssid password dev.devId))
          (update fun s => { s with lastReceivedPacket := last }) :=
        keeps_paired fun _ => Relays.elsewhere fun _ => ⟨rfl, rfl, rfl⟩
      exact hlast _ (hw.dispatch config now msg)
    | sessTick =>
      have htask : Along (Keeps (Paired ssid password dev.devId))
          (sessTimer (Listeners.pairing dev ssid password now) now) :=
        keeps_timerTask (keeps_sessTimerRound now) fun _ => Relays.elsewhere fun _ => ⟨rfl, rfl, rfl⟩
      exact htask w hw.2
    | resendTick =>
      have hround : Along (Keeps (Paired ssid password dev.devId)) (resendTimerRound now) := fun w hw =>
        (Relays.resendTimerRound now hw.traffic).paired hw
      have htask : Along (Keeps (Paired ssid password dev.devId)) (resendTimer now) :=
        keeps_timerTask hround fun _ => Relays.elsewhere fun _ => ⟨rfl, rfl, rfl⟩
      exact htask w hw.2
    | close => exact keeps_emitDisconnect dev ssid password now w hw.2
  · exact hw.2

end Runs

/-- What a session sends and builds of the credentials. -/
structure Credentials (ssid : String) (w : World Pairing) : Prop where
  /-- At most one WifiSettingsSet command was built. -/
  once : w.app.built.length ≤ 1
  /-- All that were sent are the same but for the bytes 6 and 7. -/
  same : ∀ m m', .sent m ∈ w.events → IsWifiSettingsSet m → .sent m' ∈ w.events → IsWifiSettingsSet m' →
    SameButId m m'
  /-- Their channel is that of the first match in the scan results. -/
  channel : ∀ m, .sent m ∈ w.events → IsWifiSettingsSet m →
    ∃ item, firstMatch ssid w.events = some item ∧ carriedChannel m = .ok (item.channel % 256)

theorem Paired.eq_of_built {ssid password devId : String} {w : World Pairing} (h : Paired ssid password devId w)
    {msg msg' : DV} (hmsg : msg ∈ w.app.built) (hmsg' : msg' ∈ w.app.built) : msg = msg' := by
  have honce := h.once
  generalize w.app.built = built at honce hmsg hmsg'
  cases built with
  | nil => cases hmsg
  | cons first rest =>
    obtain rfl := List.length_eq_zero_iff.1 (Nat.le_zero.1 (Nat.le_of_succ_le_succ honce))
    rw [List.mem_singleton.1 hmsg, List.mem_singleton.1 hmsg']

theorem Paired.credentials {ssid password devId : String} {w : World Pairing} (h : Paired ssid password devId w) :
    Credentials ssid w where
  once := h.once
  same m m' hm hset hm' hset' := by
    obtain ⟨msg, hmsg, hcopy⟩ := h.traffic.sent m hm hset
    obtain ⟨msg', hmsg', hcopy'⟩ := h.traffic.sent m' hm' hset'
    obtain rfl := h.eq_of_built hmsg hmsg'
    exact hcopy.symm.trans hcopy'
  channel m hm hset := by
    obtain ⟨msg, hmsg, hcopy⟩ := h.traffic.sent m hm hset
    obtain ⟨item, hitem, hsets⟩ := h.first msg hmsg
    exact ⟨item, hitem, (hcopy.sets hsets).carriedChannel⟩

/-- **Pairing never sends conflicting credentials**, in any run of the session of a discovered camera until it
disconnects. -/
theorem credentials_never_conflict (ssid password : String) {pairing : List String} {rinfo : String × ℕ}
    {dev : DevSerial} {w : World Pairing} (hw : Pair.onDiscover pairing rinfo dev = some w) {run : List Occurrence}
    (hrun : Runs.Guarded (occur (Listeners.pairing dev ssid password)) (fun w _ => w.session.connected = true) w run) :
    Credentials ssid (run.foldl (occur (Listeners.pairing dev ssid password)) w) := by
  have hstart : Paired ssid password dev.devId w := by
    unfold Pair.onDiscover at hw
    split_ifs at hw
    cases hw
    exact {
      traffic := {
        ticket := le_rfl
        keyed := fun e he => absurd he List.not_mem_nil
        pending := fun e he => absurd he List.not_mem_nil
        sent := fun m hm => absurd hm List.not_mem_nil }
      once := Nat.zero_le 1
      first := fun msg hmsg => absurd hmsg List.not_mem_nil
      marked := fun _ => iff_of_false (by rintro ⟨⟩) fun h => h rfl
      waiting := fun _ _ => .inl rfl }
  exact (Runs.guarded hstart (fun w o h hup => PairedUp.occur ⟨hup, h⟩ o) hrun).credentials

/-- The answer to a scan, with one network on channel 256 above the given one. -/
def scanPacket (channel : UInt8) : Bytes :=
  [0xf1, 0xd0, 0, 0x6c, 0xd1, 0, 0, 9, 0x11, 0x0A, 0x03, 0x61, 0x60, 0, 0, 0, 1, 0, 0, 0] ++
    obfuscate 4 (encodeAscii "ACRC.NET" ++ List.replicate 80 0 ++ [channel, 1, 0, 0])

/-- The network changes its channel between two answers, and the credentials are sent again. -/
def twoScans : List Occurrence :=
  [⟨0, .ready⟩, ⟨100, .datagram defaultConfig (scanPacket 7)⟩, ⟨600, .resendTick⟩,
    ⟨700, .datagram defaultConfig (scanPacket 11)⟩, ⟨1100, .resendTick⟩]

/-- A session that `on_discover` makes. -/
def discovered : World Pairing :=
  .start (.init oneCamera.session.dev ("192.168.1.1", 32108) 10000) ⟨[oneCamera.session.dev.devId], Table.empty, []⟩

theorem credentials_never_conflict_twoScans :
    (twoScans.foldl (occur (Listeners.pairing discovered.session.dev "ACRC.NET" "supercrap"))
        discovered).app.built.length = 1 ∧
      Credentials "ACRC.NET"
        (twoScans.foldl (occur (Listeners.pairing discovered.session.dev "ACRC.NET" "supercrap")) discovered) := by
  have hw : Pair.onDiscover [] ("192.168.1.1", 32108) discovered.session.dev = some discovered := rfl
  have hrun : Runs.Guarded (occur (Listeners.pairing discovered.session.dev "ACRC.NET" "supercrap"))
      (fun w _ => w.session.connected = true) discovered twoScans ∧
      (twoScans.foldl (occur (Listeners.pairing discovered.session.dev "ACRC.NET" "supercrap"))
        discovered).app.built.length = 1 := by decide +kernel
  exact ⟨hrun.2, credentials_never_conflict "ACRC.NET" "supercrap" hw hrun.1⟩

end CamReverse
