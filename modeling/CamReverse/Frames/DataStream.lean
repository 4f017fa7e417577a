import CamReverse.Frames.Numbers
import CamReverse.OwnConfig

/-!
# The data stream of a session

Besides data packets, a session gets control packets, acknowledgements and keep-alives, and it has its timers. None of
these touches the frame that is being collected, and none emits one (`callback_stream`). So whatever else it hears, its
frames are put together from its data packets (`Watched`).
-/

namespace CamReverse

open Effect Collector Bytes

variable {ε : Type}

/-- Nothing happens to the data stream. -/
structure SameStream (w w' : World ε) : Prop where
  view : view w' = view w
  audios : audios w'.events = audios w.events

instance : IsPreorder (World ε) SameStream where
  refl _ := ⟨rfl, rfl⟩
  trans _ _ _ h h' := ⟨h'.view.trans h.view, h'.audios.trans h.audios⟩

/-- A caller whose `login` and `ListWifi` listeners leave the data stream alone. -/
structure Listeners.KeepStream (L : Listeners ε) : Prop where
  login : Along SameStream L.login
  listWifi : ∀ items, Along SameStream (L.listWifi items)

/-! ### Primitive steps -/

/-- The events of the data stream. -/
def Event.ofStream : Event → Bool
  | .frame _ => true
  | .audio _ => true
  | _ => false

theorem sameStream_events (w : World ε) {evs : List Event} (h : ∀ ev ∈ evs, ev.ofStream = false) :
    SameStream w { w with events := w.events ++ evs } := by
  have hnone : ∀ ev ∈ evs, frames [ev] = [] ∧ audios [ev] = [] := by
    intro ev hev
    have hother := h ev hev
    cases ev <;> first | exact ⟨rfl, rfl⟩ | cases hother
  have hframes : frames evs = [] := List.filterMap_eq_nil_iff.2 fun ev hev => by
    simpa [frames] using (hnone ev hev).1
  have haudios : audios evs = [] := List.filterMap_eq_nil_iff.2 fun ev hev => by
    simpa [audios] using (hnone ev hev).2
  refine ⟨Prod.ext rfl ?_, ?_⟩
  · show frames (w.events ++ evs) = frames w.events
    rw [frames, List.filterMap_append, ← frames, ← frames, hframes, List.append_nil]
  · show CamReverse.audios (w.events ++ evs) = CamReverse.audios w.events
    rw [CamReverse.audios, List.filterMap_append, ← CamReverse.audios, ← CamReverse.audios, haudios, List.append_nil]

theorem sameStream_sent (w : World ε) {evs : List Event} (h : ∀ ev ∈ evs, ∃ m, ev = .sent m) :
    SameStream w { w with events := w.events ++ evs } := by
  refine sameStream_events w fun ev hev => ?_
  obtain ⟨m, rfl⟩ := h ev hev
  rfl

theorem sameStream_update {f : Session → Session} (h : ∀ s, collector (f s) = collector s) :
    Along (@SameStream ε) (update f) := fun w => ⟨Prod.ext (h w.session) rfl, rfl⟩

theorem sameStream_record {ev : Event} (h : ev.ofStream = false) : Along (@SameStream ε) (record ev) :=
  fun w => sameStream_events w (List.forall_mem_singleton.2 h)

theorem sameStream_send (now : ℚ) (msg : DV) : Along (@SameStream ε) (send now msg) := fun w => by
  obtain ⟨t, evs, hfinal, hsent⟩ := send_final now msg w
  rw [hfinal]
  have hremembered : SameStream w { w with session := { w.session with unackedDrw := t } } := ⟨rfl, rfl⟩
  exact trans_of SameStream hremembered (sameStream_sent _ hsent)

theorem sameStream_count :
    Along (@SameStream ε) (update fun s => { s with outgoingCommandId := s.outgoingCommandId + 1 }) :=
  sameStream_update fun _ => rfl

theorem sameStream_startVideoStream (now : ℚ) : Along (@SameStream ε) (startVideoStream now) :=
  along_startVideoStream sameStream_count (sameStream_send now)

theorem sameStream_resendTimerRound (now : ℚ) : Along (@SameStream ε) (resendTimerRound now) := by
  refine Along.get_bind fun w => ?_
  refine Along.forM (fun entry _ => Along.ite (fun _ => ?_) fun _ => Along.pure _) w
  refine Along.bind (Along.lift _) fun _ => Along.get_bind fun w => ?_
  refine Along.bind (Along.lift _) (fun data => ?_) w
  refine Along.bind (sameStream_update fun _ => rfl) fun _ => ?_
  exact Along.bind (sameStream_update fun _ => rfl) fun _ => sameStream_send now data

theorem collector_onDisconnect (s : Session) : collector (onDisconnect s) = collector s := by
  unfold onDisconnect
  split_ifs <;> rfl

theorem sameStream_emitDisconnect (L : Listeners ε) : Along SameStream (emitDisconnect L) :=
  Along.bind (sameStream_record rfl) fun _ => Along.bind (sameStream_update collector_onDisconnect) fun _ =>
    fun _ => ⟨rfl, rfl⟩

theorem sameStream_timedOut (L : Listeners ε) (w : World ε) : SameStream w (timedOut L w) := by
  have hother : Event.disconnect.ofStream = false := rfl
  have hends := sameStream_events w (List.forall_mem_singleton.2 hother)
  have hframes : frames (w.events ++ [.disconnect]) = frames w.events := congrArg Prod.snd hends.view
  exact ⟨Prod.ext (collector_onDisconnect w.session) hframes, hends.audios⟩

theorem sameStream_sessTimer (L : Listeners ε) (now : ℚ) : Along SameStream (sessTimer L now) := fun w => by
  obtain ⟨evs, hsent, hfinal⟩ := sessTimer_final L now w
  rw [hfinal]
  split_ifs
  · exact trans_of SameStream (sameStream_sent w hsent) (sameStream_timedOut L _)
  · exact sameStream_sent w hsent

theorem sameStream_resendTimer (now : ℚ) : Along (@SameStream ε) (resendTimer now) :=
  Along.bind (sameStream_resendTimerRound now).attempt fun _ =>
    Along.ite (fun _ => sameStream_update fun _ => rfl) fun _ => Along.pure _

theorem sameStream_connectionMade (now : ℚ) : Along (@SameStream ε) (connectionMade now) := by
  refine Along.bind (sameStream_update fun _ => rfl) fun _ => Along.get_bind fun w => ?_
  refine Along.bind (Along.lift _) (fun msg => ?_) w
  refine Along.bind (sameStream_send now msg) fun _ => Along.bind (sameStream_update fun _ => rfl) fun _ => ?_
  exact sameStream_update fun _ => rfl

/-! ### Packets -/

theorem isDrwData_of_read {msg : Bytes} (hraw : (DV.ofBytes msg).readU16 = .ok Command.drw.code)
    (hstream : ((DV.ofBytes msg).add 5).readU8 = .ok 1) : IsDrwData msg := by
  have htype : field msg 0 2 = [0xf1, 0xd0] := by
    rw [show (DV.ofBytes msg).readU16 = _ from DV.readU16_ofBytes msg 0] at hraw
    split_ifs at hraw with hlen
    have hbytes := be_ofBE (field msg 0 2)
    rw [length_field hlen, Except.ok.inj hraw] at hbytes
    exact hbytes.symm
  refine ⟨htype, ?_⟩
  rw [show ((DV.ofBytes msg).add 5).readU8 = _ from DV.readU8_ofBytes msg 5] at hstream
  split_ifs at hstream with hlen
  have hbyte : (msg.getD 5 0).toNat = 1 := Except.ok.inj hstream
  rw [List.getD_eq_getElem?_getD, List.getElem?_eq_getElem hlen, Option.getD_some] at hbyte
  rw [List.getElem?_eq_getElem hlen]
  exact congrArg some (UInt8.toNat_inj.1 hbyte)

section Packets

variable {L : Listeners ε} (hL : L.KeepStream)
include hL

theorem sameStream_createResponseForControlCommand (dv : DV) :
    Along SameStream (createResponseForControlCommand L dv) := by
  refine Along.bind (Along.lift _) fun startType => Along.bind (Along.lift _) fun cmdId =>
    Along.bind (Along.lift _) fun len => Along.ite (fun _ => Along.pure _) fun _ =>
      Along.bind (Along.lift _) fun dv => ?_
  refine Along.ite (fun _ => ?_) fun _ => Along.ite (fun _ => ?_) fun _ => Along.ite (fun _ => ?_) fun _ =>
    Along.ite (fun _ => Along.ite (fun _ => Along.pure _) fun _ => ?_) fun _ => Along.pure _
  · refine Along.bind (sameStream_update fun _ => rfl) fun _ => Along.bind ?_ fun _ => Along.pure _
    exact Along.bind (sameStream_record rfl) fun _ => hL.login
  · exact Along.bind (Along.lift _) fun _ => Along.pure _
  · exact Along.bind (Along.lift _) fun _ =>
      Along.bind (along_makeDataReadWrite sameStream_count _ _) fun _ => Along.pure _
  · refine Along.bind (Along.lift _) fun items => Along.bind ?_ fun _ => Along.pure _
    exact Along.bind (sameStream_record rfl) fun _ => hL.listWifi items

theorem sameStream_dispatch {msg : Bytes} (hmsg : ¬IsDrwData msg) (config : Config) (now : ℚ) :
    Along SameStream (dispatch config L now (DV.ofBytes msg)) := by
  refine Along.lift_bind fun raw hraw => ?_
  cases hcmd : commandsByValue raw with
  | none => exact Along.bind (Along.bind (Along.lift _) fun _ => Along.pure _) fun _ => Along.pure raw
  | some cmd =>
    refine Along.bind ?_ fun _ => Along.pure raw
    cases cmd with
    | p2pAlive => exact Along.bind (Along.lift _) fun _ => sameStream_send now _
    | p2pRdy => exact Along.bind (along_sendUsrChk sameStream_count _ _) fun _ => sameStream_send now _
    | drwAck =>
      refine Along.bind (Along.lift _) fun ackCount => Along.forM fun _ _ => ?_
      exact Along.bind (Along.lift _) fun _ => sameStream_update fun _ => rfl
    | drw =>
      refine Along.bind (Along.lift _) fun ack => Along.bind (sameStream_send now ack) fun _ =>
        Along.lift_bind fun mStream hstream => Along.ite (fun hdata => ?_) fun _ =>
          Along.ite (fun _ => ?_) fun _ => Along.pure _
      · rw [hdata] at hstream
        rw [← code_of_commandsByValue hcmd] at hraw
        exact absurd (isDrwData_of_read hraw hstream) hmsg
      · exact Along.bind (sameStream_createResponseForControlCommand hL _) fun pkts =>
          Along.forM fun _ _ => sameStream_send now _
    | close =>
      exact Along.bind (Along.lift _) fun _ => Along.bind (sameStream_send now _) fun _ =>
        sameStream_emitDisconnect L
    | p2pAliveAck => exact Along.pure _
    | _ => exact Along.bind (Along.lift _) fun _ => Along.pure _

/-! ### Callbacks -/

/-- The data packets a callback brings to a session. -/
def Callback.data (now : ℚ) (s : Session) : Callback → List Delivery
  | .datagram config msg => if s.transport = .opened ∧ IsDrwData msg then [⟨config, now, msg⟩] else []
  | _ => []

/-- **A callback is nothing to the data stream**, or a data packet. -/
theorem callback_stream (now : ℚ) (w : World ε) (c : Callback) :
    (c.data now w.session = [] ∧ SameStream w (callback L now w c)) ∨
      ∃ d, c.data now w.session = [d] ∧ IsDrwData d.msg ∧ callback L now w c = receive L w d := by
  cases hdue : c.due w.session with
  | false =>
    rw [callback_of_not_due hdue]
    refine .inl ⟨?_, refl_of SameStream w⟩
    cases c with
    | datagram config msg =>
      have hclosed : w.session.transport ≠ .opened := by simpa [Callback.due] using hdue
      exact if_neg fun h => hclosed h.1
    | _ => rfl
  | true =>
    unfold callback
    rw [if_pos hdue]
    cases c with
    | ready => exact .inl ⟨rfl, sameStream_connectionMade now w⟩
    | datagram config msg =>
      have hopened : w.session.transport = .opened := by simpa [Callback.due] using hdue
      by_cases hmsg : IsDrwData msg
      · exact .inr ⟨⟨config, now, msg⟩, if_pos ⟨hopened, hmsg⟩, hmsg, rfl⟩
      · refine .inl ⟨if_neg fun h => hmsg h.2, ?_⟩
        have hincoming : Along SameStream (handleIncoming config L now msg) := by
          refine Along.bind (sameStream_dispatch hL hmsg config now).attempt fun handled => ?_
          cases handled with
          | none => exact Along.pure _
          | some raw => exact Along.ite (fun _ => sameStream_update fun _ => rfl) fun _ => Along.pure _
        exact hincoming w
    | sessTick => exact .inl ⟨rfl, sameStream_sessTimer L now w⟩
    | resendTick => exact .inl ⟨rfl, sameStream_resendTimer now w⟩
    | close => exact .inl ⟨rfl, sameStream_emitDisconnect L w⟩

end Packets

/-! ### What a session shows -/

/-- What a data packet brings to the collector of a session with this name. -/
def Delivery.brings (devName : String) (d : Delivery) : Item Bytes × (Bytes → Bytes → Option (Bytes × Bytes)) :=
  ((dataPktOf d.msg).item, mendOf d.config devName)

/-- What a session has collected and emitted comes from such data packets. -/
structure Watched (data : List Delivery) (s : Session) (evs : List Event) : Prop where
  stream : ∃ (ds : List Delivery) (is : List (Arrival Bytes)), ds.Sublist data ∧
    (is.map fun i => (i.item, i.mend)) = ds.map (Delivery.brings s.devName) ∧
    (collector s, frames evs) = collect State.init is
  audio : ∀ payload ∈ audios evs, ∃ d ∈ data, dataPktOf d.msg = .audio payload
  named : s.devName = s.dev.devId

theorem Watched.mono {data : List Delivery} {s : Session} {evs : List Event} (h : Watched data s evs)
    (more : List Delivery) : Watched (data ++ more) s evs where
  stream := by
    obtain ⟨ds, is, hsub, hrest⟩ := h.stream
    exact ⟨ds, is, hsub.trans (List.sublist_append_left _ _), hrest⟩
  audio payload hpayload := by
    obtain ⟨d, hd, hpkt⟩ := h.audio payload hpayload
    exact ⟨d, List.mem_append_left _ hd, hpkt⟩
  named := h.named

theorem Watched.same {data : List Delivery} {w w' : World ε} (h : Watched data w.session w.events)
    (hsame : SameStream w w') (hname : w'.session.devName = w.session.devName)
    (hnamed : w'.session.devName = w'.session.dev.devId) : Watched data w'.session w'.events where
  stream := by
    obtain ⟨ds, is, hsub, hbrings, hcollect⟩ := h.stream
    refine ⟨ds, is, hsub, ?_, hsame.view.trans hcollect⟩
    rw [hname]
    exact hbrings
  audio := by
    rw [hsame.audios]
    exact h.audio
  named := hnamed

theorem Watched.callback {data : List Delivery} {w : World ε} (h : Watched data w.session w.events) {now : ℚ}
    {L : Listeners ε} (hstream : L.KeepStream) (hname : L.KeepName) (hL : L.Orderly) (c : Callback) :
    Watched (data ++ c.data now w.session) (CamReverse.callback L now w c).session
      (CamReverse.callback L now w c).events := by
  have hsame := hname.callback now w c
  have hnamed : (CamReverse.callback L now w c).session.devName =
      (CamReverse.callback L now w c).session.dev.devId := by
    rw [hsame, callback_dev hL]
    exact h.named
  rcases callback_stream hstream now w c with ⟨hnone, hquiet⟩ | ⟨d, hd, hdata, hreceive⟩
  · rw [hnone, List.append_nil]
    exact h.same hquiet hsame hnamed
  · obtain ⟨ds, is, hsub, hbrings, hcollect⟩ := h.stream
    rw [hd]
    refine ⟨⟨ds ++ [d], is ++ [arrivalOf d.config L w (dataPktOf d.msg)], hsub.append (List.Sublist.refl _), ?_, ?_⟩,
      ?_, hnamed⟩
    · rw [List.map_append, List.map_append, hsame, hbrings]
      rfl
    · show view (CamReverse.callback L now w c) = _
      rw [hreceive, view_receive hdata, collect, List.foldl_append, ← collect, ← hcollect]
      rfl
    · rw [hreceive, audios_receive hdata]
      intro payload hpayload
      rcases List.mem_append.1 hpayload with hold | hnew
      · obtain ⟨e, he, hpkt⟩ := h.audio payload hold
        exact ⟨e, List.mem_append_left _ he, hpkt⟩
      · refine ⟨d, List.mem_append_right _ (List.mem_singleton_self d), ?_⟩
        cases hpkt : dataPktOf d.msg with
        | audio payload' =>
          rw [hpkt] at hnew
          rw [List.mem_singleton.1 hnew]
        | _ =>
          rw [hpkt] at hnew
          cases hnew

/-- Without repairs, every frame of a session is put together from packets in a row. -/
theorem Watched.assembled {data : List Delivery} {s : Session} {evs : List Event} (h : Watched data s evs)
    (hoff : ∀ d ∈ data, fixPacketLoss d.config s.devName ≠ .ok true) {image : List Bytes} (himage : image ∈ frames evs) :
    ∃ last, Assembled (data.map Delivery.msg) image last := by
  obtain ⟨ds, is, hsub, hbrings, hcollect⟩ := h.stream
  have hmend : ∀ i ∈ is, ∀ l a, i.mend l a = none := by
    intro i hi l a
    have hmem : (i.item, i.mend) ∈ is.map fun i => (i.item, i.mend) := List.mem_map_of_mem hi
    rw [hbrings] at hmem
    obtain ⟨d, hd, hbring⟩ := List.mem_map.1 hmem
    rw [show i.mend = _ from (congrArg Prod.snd hbring).symm]
    exact mendOf_off (hoff d (hsub.subset hd)) l a
  have hitems : is.map Arrival.item = ds.map fun d => (dataPktOf d.msg).item := by
    have h := congrArg (List.map Prod.fst) hbrings
    rwa [List.map_map, List.map_map] at h
  rw [show frames evs = _ from congrArg Prod.snd hcollect] at himage
  obtain ⟨last, vs, hvs, hrest⟩ := (collect_consecutive is hmend).2 image himage
  rw [hitems, List.filterMap_map] at hvs
  refine ⟨last, vs, ?_, hrest⟩
  rw [List.filterMap_map]
  simp only [Function.comp_def, entry_item] at hvs
  exact hvs.trans (hsub.filterMap _)

end CamReverse
