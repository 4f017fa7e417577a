import CamReverse.Dropped
import Mathlib.Data.List.TakeWhile

/-!
# Acknowledgements match packets

`_make_drw_ack` and `handle_drw_ack` agree through offsets, and the ids they exchange are the keys of
`unacked_drw`. A DrwAck frees exactly the commands it lists (`handleDrwAck_bytes`). However often the 16-bit ids
wrap, a command is always remembered under the packet id in its own bytes (`Outgoing.Sound`). So a camera that
receives it acknowledges this id first of all, which frees this command and no other (`acks_match`).
-/

namespace CamReverse

open Effect Bytes

variable {ε ε' : Type}

/-! ### The layout of a DrwAck -/

/-- A header of six bytes, the number of ids, the ids, and padding. -/
structure DrwAckPkt where
  header : Bytes
  ids : List ℕ
  padding : Bytes
  header_length : header.length = 6
  count_lt : ids.length < 65536
  ids_lt : ∀ id ∈ ids, id < 65536

/-- From `w` to `w'` the session forgot these pending commands and did nothing else. -/
def Frees (gone : ℕ × Unacked → Prop) [DecidablePred gone] (w w' : World ε) : Prop :=
  ∃ t : Table ℕ Unacked, w' = { w with session := { w.session with unackedDrw := t } } ∧
    t.entries = w.session.unackedDrw.entries.filter fun e => ¬gone e

namespace DrwAckPkt

def bytes (a : DrwAckPkt) : Bytes :=
  a.header ++ (be 2 a.ids.length ++ (a.ids.flatMap (be 2) ++ a.padding))

theorem count_bytes (a : DrwAckPkt) : ofBE (field a.bytes 6 2) = a.ids.length := by
  rw [bytes, field_append a.header_length (length_be 2 _), ofBE_be]
  exact Nat.mod_eq_of_lt a.count_lt

theorem length_bytes (a : DrwAckPkt) : a.bytes.length = 8 + 2 * a.ids.length + a.padding.length := by
  have hids : (a.ids.flatMap (be 2)).length = 2 * a.ids.length := by
    rw [List.length_flatMap]
    simp [Nat.mul_comm]
  simp only [bytes, List.length_append, a.header_length, length_be, hids]
  omega

theorem acksFit_bytes (a : DrwAckPkt) : AcksFit a.bytes := by
  rw [AcksFit, a.count_bytes, a.length_bytes]
  omega

theorem read_ids {ids : List ℕ} (h : ∀ id ∈ ids, id < 65536) (padding : Bytes) :
    (List.range ids.length).map (fun i => ofBE (field (ids.flatMap (be 2) ++ padding) (i * 2) 2)) = ids := by
  induction ids with
  | nil => rfl
  | cons id ids ih =>
    rw [List.forall_mem_cons] at h
    have hfirst : field ((id :: ids).flatMap (be 2) ++ padding) (0 * 2) 2 = be 2 id := by
      rw [List.flatMap_cons, List.append_assoc]
      exact field_append (List.length_nil (α := UInt8)) (length_be 2 id)
    have hrest : ∀ i, field ((id :: ids).flatMap (be 2) ++ padding) ((i + 1) * 2) 2 =
        field (ids.flatMap (be 2) ++ padding) (i * 2) 2 := by
      intro i
      rw [List.flatMap_cons, List.append_assoc, Nat.succ_mul, Nat.add_comm]
      exact field_append_right (length_be 2 id) _ 2
    rw [List.length_cons, List.range_succ_eq_map, List.map_cons, hfirst, ofBE_be,
      Nat.mod_eq_of_lt (show id < 256 ^ 2 from h.1), List.map_map]
    refine congrArg (id :: ·) (Eq.trans (List.map_congr_left fun i _ => ?_) (ih h.2))
    exact congrArg ofBE (hrest i)

theorem ackedIds_bytes (a : DrwAckPkt) : ackedIds a.bytes = a.ids := by
  have hlen := a.length_bytes
  have hfront : (a.header ++ be 2 a.ids.length).length = 8 := by
    rw [List.length_append, a.header_length, length_be]
  have hall : (List.range a.ids.length).takeWhile (fun i => decide (8 + i * 2 + 2 ≤ a.bytes.length)) =
      List.range a.ids.length := by
    refine List.takeWhile_eq_self_iff.2 fun i hi => decide_eq_true ?_
    rw [List.mem_range] at hi
    omega
  rw [ackedIds, if_pos (by omega), a.count_bytes, hall]
  refine Eq.trans (List.map_congr_left fun i _ => ?_) (read_ids a.ids_lt a.padding)
  rw [bytes, ← List.append_assoc, field_append_right hfront]

/-- **A DrwAck frees exactly the commands it lists**, whatever they are and however it is padded. -/
theorem handleDrwAck_bytes (a : DrwAckPkt) (w : World ε) :
    ∃ w', handleDrwAck (DV.ofBytes a.bytes) w = .ok () w' ∧ Frees (fun e => e.1 ∈ a.ids) w w' := by
  obtain ⟨u, w', hrun⟩ := (returns_handleDrwAck a.bytes w).2 a.acksFit_bytes
  have hfinal := handleDrwAck_final a.bytes w
  rw [final, hrun, a.ackedIds_bytes] at hfinal
  exact ⟨w', hrun, _, hfinal, Table.entries_foldl_erase _ _⟩

end DrwAckPkt

/-! ### The keys of the pending commands -/

/-- Every command is remembered under the packet id in its bytes 6 and 7. -/
def KeyedById (t : Table ℕ Unacked) : Prop :=
  ∀ e ∈ t.entries, ∃ buf, e.2.data = DV.ofBytes buf ∧ IsCommand buf e.1 ∧ e.1 < 65536

theorem KeyedById.insert {t : Table ℕ Unacked} (h : KeyedById t) {buf : Bytes} {id : ℕ}
    (hbuf : IsCommand buf id) (now : ℚ) : KeyedById (t.insert (id % 65536) ⟨now, DV.ofBytes buf⟩) := by
  intro e he
  rcases Table.mem_entries_insert he with rfl | he
  · exact ⟨buf, rfl, { hbuf with id := hbuf.id.trans (be_mod 2 id).symm }, Nat.mod_lt _ (by decide)⟩
  · exact h e he

theorem KeyedById.erase {t : Table ℕ Unacked} (h : KeyedById t) (k : ℕ) : KeyedById (t.erase k) := by
  intro e he
  rw [Table.entries_erase] at he
  exact h e (List.mem_filter.1 he).1

def StaysKeyed (w w' : World ε) : Prop := KeyedById w.session.unackedDrw → KeyedById w'.session.unackedDrw

instance : IsPreorder (World ε) StaysKeyed where
  refl _ := id
  trans _ _ _ h h' := h' ∘ h

theorem staysKeyed_resendEntry (now : ℚ) {e : ℕ × Unacked}
    (he : ∃ buf, e.2.data = DV.ofBytes buf ∧ IsCommand buf e.1 ∧ e.1 < 65536) :
    Along (@StaysKeyed ε) (resendEntry now e) := by
  intro w hw
  obtain ⟨k, ts, data⟩ := e
  obtain ⟨buf, rfl, hbuf, -⟩ := he
  have hself : remembered ⟨k, k, ts, buf⟩ = (k, ⟨ts, DV.ofBytes buf⟩) := by rw [remembered, withId_self hbuf]
  rw [final, ← hself]
  cases hlate : isLate now ts with
  | false =>
    rw [resendEntry_young (e := remembered ⟨k, k, ts, buf⟩) hlate]
    exact hw
  | true =>
    rw [resendEntry_late (p := ⟨k, k, ts, buf⟩) hlate hbuf]
    exact (hw.erase k).insert (hbuf.withId _) now

def IsBuilt (msg : DV) : Prop := ∃ buf id, msg = DV.ofBytes buf ∧ IsCommand buf id

/-- What is built and not sent yet is a command, and what was sent is keyed by its id. -/
structure Outgoing.Sound (x : Outgoing ε) : Prop where
  built : ∀ msg ∈ x.built, IsBuilt msg
  keyed : KeyedById x.world.session.unackedDrw

theorem Outgoing.Sound.step {x : Outgoing ε} (h : x.Sound) (a : OutgoingStep) : (x.step a).Sound := by
  cases a with
  | build command data =>
    simp only [Outgoing.step, makeDataReadWrite_apply]
    cases hret : dataReadWrite x.world.session.outgoingCommandId x.world.session.ticket command data with
    | error e => exact h
    | ok ret =>
      obtain ⟨buf, rfl, hbuf⟩ := dataReadWrite_isCommand hret
      refine ⟨fun msg hmsg => ?_, h.keyed⟩
      rcases List.mem_append.1 hmsg with hmsg | hmsg
      · exact h.built msg hmsg
      · exact ⟨buf, _, List.mem_singleton.1 hmsg, hbuf.toIsCommand⟩
  | send now i =>
    simp only [Outgoing.step]
    cases hmsg : x.built[i]? with
    | none => exact h
    | some msg =>
      obtain ⟨buf, id, rfl, hbuf⟩ := h.built _ (List.mem_of_getElem? hmsg)
      refine ⟨fun msg hmsg => h.built msg (List.mem_of_mem_eraseIdx hmsg), ?_⟩
      simp only [final, send_command hbuf now x.world]
      exact h.keyed.insert hbuf now
  | drwAck msg =>
    refine ⟨h.built, fun e he => ?_⟩
    simp only [Outgoing.step, handleDrwAck_final, Table.entries_foldl_erase] at he
    exact h.keyed e (List.mem_filter.1 he).1
  | resendTick now =>
    refine ⟨h.built, ?_⟩
    have hloop : Along (@StaysKeyed ε) (x.world.session.unackedDrw.entries.forM (resendEntry now)) :=
      Along.forM fun e he => staysKeyed_resendEntry now (h.keyed e he)
    exact hloop x.world h.keyed
  | elsewhere f => exact ⟨h.built, h.keyed⟩

theorem sound_run {w : World ε} (hempty : w.session.unackedDrw = Table.empty) (as : List OutgoingStep) :
    (as.foldl Outgoing.step (.start w)).Sound := by
  refine Runs.invariant ?_ (fun x a h => h.step a) as
  refine ⟨fun msg hmsg => absurd hmsg List.not_mem_nil, fun e he => ?_⟩
  rw [show (Outgoing.start w).world.session.unackedDrw = _ from hempty] at he
  exact absurd he List.not_mem_nil

/-! ### The answer of the peer -/

/-- The DrwAck of the packet with this id, on this stream. -/
def ackPkt (stream id : ℕ) (hid : id < 65536) : DrwAckPkt where
  header := be 2 Command.drwAck.code ++ [0, 6, 0xD2, UInt8.ofNat stream]
  ids := [id]
  padding := List.replicate 22 0
  header_length := by simp
  count_lt := by simp
  ids_lt := by simpa using hid

theorem makeDrwAck_command {buf : Bytes} {id : ℕ} (h : IsCommand buf id) (hid : id < 65536) :
    makeDrwAck (DV.ofBytes buf) = .ok (DV.ofBytes (ackPkt (buf.getD 5 0).toNat id hid).bytes) := by
  have hlen := h.length
  have hread : ((DV.ofBytes buf).add 6).readU16 = .ok id := by
    refine (DV.readU16_ofBytes buf 6).trans ?_
    rw [if_pos (by omega), h.id, ofBE_be, Nat.mod_eq_of_lt (show id < 256 ^ 2 from hid)]
  have hstream : ((DV.ofBytes buf).add 5).readU8 = .ok (buf.getD 5 0).toNat :=
    (DV.readU8_ofBytes buf 5).trans (if_pos (by omega))
  unfold makeDrwAck
  rw [hread, hstream]
  rfl

/-- An event that puts no DrwAck on the wire. -/
def SendsNoAck (ev : Event) : Prop := ∀ m, ev = .sent m → field m 0 2 ≠ be 2 Command.drwAck.code

/-- A caller whose listeners do not acknowledge packets themselves. -/
structure Listeners.NoAcks (L : Listeners ε) : Prop where
  login : Along (EmitsOnly SendsNoAck) L.login
  listWifi : ∀ items, Along (EmitsOnly SendsNoAck) (L.listWifi items)

theorem emits_send_built {msg : DV} (h : IsBuilt msg) (now : ℚ) :
    Along (@EmitsOnly ε SendsNoAck) (send now msg) := by
  obtain ⟨buf, id, rfl, hbuf⟩ := h
  intro w
  rw [final, send_command hbuf now w]
  refine ⟨wired w buf, rfl, fun ev hev m hm => ?_⟩
  obtain rfl := Event.sent.inj ((mem_wired hev).symm.trans hm)
  rw [hbuf.code]
  decide

theorem yields_makeDataReadWrite (command : ℕ) (data : Option DV) :
    Yields IsBuilt (makeDataReadWrite command data : SessionM ε DV) :=
  (yields_command command data).mono fun _ ⟨buf, id, hmsg, hbuf⟩ => ⟨buf, id, hmsg, hbuf.toIsCommand⟩

theorem yields_createResponse {P : DV → Prop} (hscan : Yields P (sendListWifi : SessionM ε DV)) (L : Listeners ε)
    (dv : DV) : Yields (fun pkts => ∀ msg ∈ pkts, P msg) (createResponseForControlCommand L dv) := by
  have hnil : Yields (fun pkts => ∀ msg ∈ pkts, P msg) (pure [] : SessionM ε (List DV)) :=
    Yields.pure (by simp)
  refine Yields.behind fun startType => Yields.behind fun cmdId => Yields.behind fun payloadLen =>
    Yields.ite hnil (Yields.behind fun dv => Yields.ite ?_ (Yields.ite ?_ (Yields.ite ?_ (Yields.ite ?_ hnil))))
  · exact Yields.behind fun _ => Yields.behind fun _ => hnil
  · exact Yields.behind fun _ => hnil
  · exact Yields.behind fun _ => Yields.bind hscan fun pkt hpkt =>
      Yields.pure (List.forall_mem_singleton.2 hpkt)
  · exact Yields.ite hnil (Yields.behind fun items => Yields.behind fun _ => hnil)

theorem emits_startVideoStream (now : ℚ) : Along (@EmitsOnly ε SendsNoAck) (startVideoStream now) := by
  have hmade : ∀ (command : ℕ) (data : Option DV),
      Along (@EmitsOnly ε SendsNoAck) (makeDataReadWrite command data) :=
    along_makeDataReadWrite (EmitsOnly.update _)
  have hvideo : Along (@EmitsOnly ε SendsNoAck) (sendVideoResolution 2) :=
    Along.bind (Along.lift _) fun payloads => Along.mapM fun _ _ => hmade _ _
  have hvideo' : Yields (fun pkts => ∀ msg ∈ pkts, IsBuilt msg)
      (sendVideoResolution 2 : SessionM ε (List DV)) :=
    Yields.behind fun payloads => Yields.mapM fun _ => yields_makeDataReadWrite _ _
  refine Along.bind_yields hvideo hvideo' fun pkts hpkts => ?_
  exact Along.bind (Along.forM fun msg hmsg => emits_send_built (hpkts msg hmsg) now) fun _ =>
    Along.bind_yields (hmade _ _) (yields_makeDataReadWrite _ _) fun msg hmsg => emits_send_built hmsg now

namespace Listeners.NoAcks

variable {L : Listeners ε} (hL : L.NoAcks)
include hL

theorem answers : Answers L (EmitsOnly SendsNoAck) where
  count := EmitsOnly.update _
  assemble _ := EmitsOnly.update _
  emitFrame := EmitsOnly.emitFrame L fun _ _ h => by cases h
  emitAudio := EmitsOnly.emitAudio L fun _ _ h => by cases h
  emitListWifi items := Along.bind (EmitsOnly.record fun _ h => by cases h) fun _ => hL.listWifi items

theorem logIn (dv : DV) : Along (EmitsOnly SendsNoAck) (CamReverse.logIn L dv) :=
  Along.bind (EmitsOnly.update _) fun _ => Along.bind (EmitsOnly.record fun _ h => by cases h) fun _ => hL.login

/-- Behind its acknowledgement a packet is not acknowledged again. -/
theorem drwRest (config : Config) (now : ℚ) (dv : DV) :
    Along (EmitsOnly SendsNoAck) (CamReverse.drwRest config L now dv) := by
  have hcontrol : Along (EmitsOnly SendsNoAck) (answerControl L now dv) :=
    Along.bind_yields (hL.answers.createResponseForControlCommand fun dv' _ => hL.logIn dv')
      (yields_createResponse (yields_makeDataReadWrite _ _) L dv) fun pkts hpkts =>
        Along.forM fun msg hmsg => emits_send_built (hpkts msg hmsg) now
  exact Along.bind (Along.lift _) fun mStream => Along.ite (fun _ => hL.answers.dealWithData config dv) fun _ =>
    Along.ite (fun _ => hcontrol) fun _ => Along.pure _

end Listeners.NoAcks

theorem noAcks_streaming (now : ℚ) : (Listeners.streaming now : Listeners ε).NoAcks :=
  ⟨emits_startVideoStream now, fun _ => Along.pure _⟩

/-- A session that gets the datagram `msg` first puts the DrwAck `ack` on the wire, and then no other. -/
def AcksFirst (config : Config) (L : Listeners ε) (now : ℚ) (msg ack : Bytes) (w : World ε) : Prop :=
  field ack 0 2 = be 2 Command.drwAck.code ∧ ∃ evs,
    (final (handleDrw config L now (DV.ofBytes msg)) w).events = w.events ++ .sent ack :: evs ∧
      ∀ ev ∈ evs, SendsNoAck ev

theorem acksFirst_command {buf : Bytes} {id : ℕ} (h : IsCommand buf id) (hid : id < 65536) (config : Config)
    {L : Listeners ε} (hL : L.NoAcks) (now : ℚ) {w : World ε} (hopened : w.session.transport = .opened) :
    AcksFirst config L now buf (ackPkt (buf.getD 5 0).toNat id hid).bytes w := by
  have hacked : (acknowledged buf w).events =
      w.events ++ [.sent (ackPkt (buf.getD 5 0).toNat id hid).bytes] := by
    rw [acknowledged, ackEvents, makeDrwAck_command h hid]
    exact congrArg (w.events ++ ·) ((if_pos hopened).trans (by rw [DV.toBytes_ofBytes]))
  obtain ⟨evs, hevs, hquiet⟩ := hL.drwRest config now (DV.ofBytes buf) (acknowledged buf w)
  refine ⟨rfl, evs, ?_, hquiet⟩
  rw [final, handleDrw_apply config L now h.length, ← final, hevs, hacked, List.append_assoc]
  rfl

/-! ### Acknowledgements match packets -/

/-- **Acknowledgements match packets.** A DrwAck frees exactly the commands it lists. And whatever a session
built, sent, sent again and was acknowledged: the datagram of a pending command makes the peer that gets it
answer first of all with one DrwAck, which frees exactly this command. -/
theorem acks_match :
    (∀ (a : DrwAckPkt) (w : World ε),
      ∃ w', handleDrwAck (DV.ofBytes a.bytes) w = .ok () w' ∧ Frees (fun e => e.1 ∈ a.ids) w w') ∧
    ∀ (w : World ε) (as : List OutgoingStep), w.session.unackedDrw = Table.empty →
      ∀ e ∈ (as.foldl Outgoing.step (.start w)).entries,
        ∀ (config : Config) (L : Listeners ε') (now : ℚ) (peer : World ε'), L.NoAcks →
          peer.session.transport = .opened →
          ∃ ack w', AcksFirst config L now e.2.data.toBytes ack peer ∧
            handleDrwAck (DV.ofBytes ack) (as.foldl Outgoing.step (.start w)).world = .ok () w' ∧
            Frees (· = e) (as.foldl Outgoing.step (.start w)).world w' := by
  refine ⟨fun a w => a.handleDrwAck_bytes w, fun w as hempty e he config L now peer hL hopened => ?_⟩
  obtain ⟨buf, hdata, hbuf, hid⟩ := (sound_run hempty as).keyed e he
  obtain ⟨w', hrun, t, hw', ht⟩ := (ackPkt (buf.getD 5 0).toNat e.1 hid).handleDrwAck_bytes
    (as.foldl Outgoing.step (.start w)).world
  refine ⟨_, w', ?_, hrun, t, hw', ht.trans (List.filter_congr fun e' he' => ?_)⟩
  · rw [hdata, DV.toBytes_ofBytes]
    exact acksFirst_command hbuf hid config hL now hopened
  · -- the table has one command under each id
    have hsame : e'.1 = e.1 → e' = e := by
      intro hkey
      have hfind := Table.mem_entries.1 he
      rw [← hkey, Table.mem_entries.1 he'] at hfind
      exact Prod.ext hkey (Option.some.inj hfind)
    have hiff : e'.1 ∈ [e.1] ↔ e' = e :=
      List.mem_singleton.trans ⟨hsame, fun h => congrArg Prod.fst h⟩
    exact decide_eq_decide.2 (not_congr hiff)

/-- Two commands, of which the first was sent again. -/
def sentTwice : List OutgoingStep :=
  [.build ControlCommand.startVideo.code none, .build ControlCommand.listWifi.code none, .send 0 0,
    .resendTick 120]

theorem acks_match_sentTwice :
    ∃ e ∈ (sentTwice.foldl Outgoing.step (.start oneCamera)).entries, e.1 = 2 ∧
      ∃ ack w', AcksFirst defaultConfig (.streaming 0) 0 e.2.data.toBytes ack ready ∧
        handleDrwAck (DV.ofBytes ack) (sentTwice.foldl Outgoing.step (.start oneCamera)).world = .ok () w' ∧
        Frees (· = e) (sentTwice.foldl Outgoing.step (.start oneCamera)).world w' := by
  have hkeys : (sentTwice.foldl Outgoing.step (.start oneCamera)).entries.map Prod.fst = [2] := by
    decide +kernel
  obtain ⟨e, he, hid⟩ := List.map_eq_singleton_iff.1 hkeys
  have hmem : e ∈ (sentTwice.foldl Outgoing.step (.start oneCamera)).entries := he ▸ List.mem_singleton_self e
  exact ⟨e, hmem, hid, (acks_match (ε := Unit)).2 oneCamera sentTwice rfl e hmem defaultConfig _ 0 ready
    (noAcks_streaming 0) rfl⟩

end CamReverse
