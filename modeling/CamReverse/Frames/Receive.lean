import CamReverse.Frames.Packet
import CamReverse.Sending

/-!
# Receiving data packets

A `Delivery` is a datagram the event loop hands to a session, with the configuration and the clock as they
are then. `receive_final` is what one datagram of the data stream does to a session, and
`collector_receiveAll` and `frames_receiveAll` read a run of them as a run of the collector.
-/

namespace CamReverse

open Effect Collector

variable {ε : Type}

structure Delivery where
  config : Config
  now : ℚ
  msg : Bytes

def receive (L : Listeners ε) (w : World ε) (d : Delivery) : World ε :=
  final (handleIncoming d.config L d.now d.msg) w

def receiveAll (L : Listeners ε) (w : World ε) (ds : List Delivery) : World ε := ds.foldl (receive L) w

/-- `msg` is a Drw packet of the data stream. -/
def IsDrwData (msg : Bytes) : Prop := msg.take 2 = [0xf1, 0xd0] ∧ msg[5]? = some 1

instance (msg : Bytes) : Decidable (IsDrwData msg) := inferInstanceAs (Decidable (_ ∧ _))

/-- What a datagram of the data stream brings; one that cannot be read is dropped. -/
def dataPktOf (msg : Bytes) : DataPkt :=
  match readDataPkt (DV.ofBytes msg) with
  | .ok pkt => pkt
  | .error _ => .ignored

/-! ### The acknowledgement -/

theorem makeDrwAck_ok {msg : Bytes} (h : 8 ≤ msg.length) :
    ∃ ack, makeDrwAck (DV.ofBytes msg) = .ok ack ∧ ack.readU16 = .ok Command.drwAck.code := by
  unfold makeDrwAck
  rw [show ((DV.ofBytes msg).add 6).readU16 = _ from DV.readU16_ofBytes msg 6, if_pos h,
    show ((DV.ofBytes msg).add 5).readU8 = _ from DV.readU8_ofBytes msg 5, if_pos (by omega)]
  exact ⟨_, rfl, rfl⟩

theorem makeDrwAck_error {msg : Bytes} (h : ¬8 ≤ msg.length) :
    makeDrwAck (DV.ofBytes msg) = .error .structError := by
  unfold makeDrwAck
  rw [show ((DV.ofBytes msg).add 6).readU16 = _ from DV.readU16_ofBytes msg 6, if_neg h]
  rfl

/-! ### One datagram -/

theorem final_bind_pure {σ α β : Type} (m : EStateM PyErr σ α) (b : β) (s : σ) :
    final (m >>= fun _ => pure b) s = final m s := by
  rw [final_bind]
  cases outcome m s <;> rfl

/-- Beyond what its handler does, a datagram may set the clock of the last packet. -/
theorem handleIncoming_final (config : Config) (L : Listeners ε) (now : ℚ) (msg : Bytes) (w : World ε) :
    ∃ last, final (handleIncoming config L now msg) w =
      { final (dispatch config L now (DV.ofBytes msg)) w with
        session := { (final (dispatch config L now (DV.ofBytes msg)) w).session with
          lastReceivedPacket := last } } := by
  rw [handleIncoming_eq]
  rw [final_bind, final_attempt]
  unfold outcome attempt final
  cases dispatch config L now (DV.ofBytes msg) w with
  | error e t => exact ⟨t.session.lastReceivedPacket, rfl⟩
  | ok raw t =>
    simp only
    split_ifs
    · exact ⟨now, rfl⟩
    · exact ⟨t.session.lastReceivedPacket, rfl⟩

theorem readU16_drw {msg : Bytes} (h : IsDrwData msg) :
    (DV.ofBytes msg).readU16 = .ok Command.drw.code := by
  have hlen : 2 ≤ msg.length := by
    have := congrArg List.length h.1
    simp only [List.length_take, List.length_cons, List.length_nil] at this
    omega
  have hread := DV.readU16_ofBytes msg 0
  rw [if_pos (by omega), Bytes.field, List.drop_zero, h.1] at hread
  exact hread

theorem dispatch_drw {msg : Bytes} (h : IsDrwData msg) (config : Config) (L : Listeners ε) (now : ℚ)
    (w : World ε) :
    final (dispatch config L now (DV.ofBytes msg)) w = final (handleDrw config L now (DV.ofBytes msg)) w := by
  rw [dispatch_eq]
  rw [readU16_drw h]
  exact final_bind_pure _ _ w

theorem dataPktOf_short {msg : Bytes} (h : ¬8 ≤ msg.length) : dataPktOf msg = .ignored := by
  unfold dataPktOf readDataPkt
  rw [show ((DV.ofBytes msg).add 2).readU16 = _ from DV.readU16_ofBytes msg 2,
    show ((DV.ofBytes msg).add 6).readU16 = _ from DV.readU16_ofBytes msg 6, if_neg h]
  split_ifs with h4
  · show (match (if Bytes.ofBE (Bytes.field msg 2 2) < 12 then Except.ok DataPkt.ignored
      else .error PyErr.structError) with
      | .ok pkt => pkt
      | .error _ => .ignored) = DataPkt.ignored
    split_ifs <;> rfl
  · rfl

theorem dealWithData_final (config : Config) (L : Listeners ε) (msg : Bytes) (w : World ε) :
    ∃ wasFixed, final (dealWithData config L (DV.ofBytes msg)) w =
      { session := w.session.assembling
          (step (collector w.session) (arrivalOf config L w (dataPktOf msg))) wasFixed
        app := (dataPktOf msg).appAfter L w
        events := w.events ++ (dataPktOf msg).events w } := by
  have hread : final (dealWithData config L (DV.ofBytes msg)) w =
      final (handleDataPkt config L (dataPktOf msg)) w := by
    rw [dealWithData_eq, dataPktOf]
    cases readDataPkt (DV.ofBytes msg) <;> rfl
  obtain ⟨wasFixed, h⟩ := handleDataPkt_final config L (dataPktOf msg) w
  exact ⟨wasFixed, hread.trans h⟩

/-- The acknowledgement of a data packet, if it is long enough for one and the transport is open. -/
def ackEvents (msg : Bytes) (w : World ε) : List Event :=
  match makeDrwAck (DV.ofBytes msg) with
  | .ok ack => wired w ack.toBytes
  | .error _ => []

/-- **One datagram of the data stream**: it is acknowledged and takes one step of the collector. -/
theorem receive_final {d : Delivery} (hd : IsDrwData d.msg) (L : Listeners ε) (w : World ε) :
    ∃ wasFixed last, receive L w d =
      { session := { w.session.assembling
          (step (collector w.session) (arrivalOf d.config L w (dataPktOf d.msg))) wasFixed with
            lastReceivedPacket := last }
        app := (dataPktOf d.msg).appAfter L w
        events := w.events ++ ackEvents d.msg w ++ (dataPktOf d.msg).events w } := by
  obtain ⟨last, hlast⟩ := handleIncoming_final d.config L d.now d.msg w
  rw [dispatch_drw hd] at hlast
  unfold receive
  rw [hlast]
  rw [handleDrw_eq]
  unfold ackEvents
  by_cases hlen : 8 ≤ d.msg.length
  · obtain ⟨ack, hack, hraw⟩ := makeDrwAck_ok hlen
    have hstream : ((DV.ofBytes d.msg).add 5).readU8 = .ok 1 := by
      have h5 := DV.readU8_ofBytes d.msg 5
      rw [if_pos (by omega), List.getD_eq_getElem?_getD, hd.2] at h5
      exact h5
    rw [hack, hstream]
    simp only [liftM_eq_lift, lift_ok_bind, if_pos]
    rw [final, bind_ok (send_other d.now hraw (by decide) w)]
    obtain ⟨wasFixed, h⟩ := dealWithData_final d.config L d.msg
      { w with events := w.events ++ wired w ack.toBytes }
    exact ⟨wasFixed, last, by rw [← final, h]; rfl⟩
  · rw [makeDrwAck_error hlen, dataPktOf_short hlen]
    refine ⟨w.session.frameWasFixed, last, ?_⟩
    rw [DataPkt.events, List.append_nil, List.append_nil]
    rfl

/-! ### Runs -/

def frames (events : List Event) : List (List Bytes) :=
  events.filterMap fun
    | .frame image => some image
    | _ => none

def audios (events : List Event) : List Bytes :=
  events.filterMap fun
    | .audio data => some data
    | _ => none

/-- A session as its data stream shows it: what it is collecting, and what it has handed over. -/
def view (w : World ε) : State Bytes × List (List Bytes) := (collector w.session, frames w.events)

theorem frames_ackEvents (msg : Bytes) (w : World ε) : frames (ackEvents msg w) = [] := by
  unfold ackEvents wired
  split
  · split_ifs <;> rfl
  · rfl

theorem frames_events (pkt : DataPkt) (w : World ε) :
    frames (pkt.events w) = (handedOver (collector w.session) pkt.item).toList := by
  cases pkt with
  | newFrame id buf =>
    simp only [DataPkt.events, DataPkt.item, handedOver]
    split_ifs <;> rfl
  | ignored => rfl
  | audio data => rfl
  | chunk id b => rfl

theorem view_receive {d : Delivery} (hd : IsDrwData d.msg) (L : Listeners ε) (w : World ε) :
    view (receive L w d) = advance (view w) (arrivalOf d.config L w (dataPktOf d.msg)) := by
  obtain ⟨wasFixed, last, h⟩ := receive_final hd L w
  rw [h, view, frames, List.filterMap_append, List.filterMap_append, ← frames, ← frames, ← frames,
    frames_ackEvents, frames_events, List.append_nil]
  rfl

theorem collector_receive {d : Delivery} (hd : IsDrwData d.msg) (L : Listeners ε) (w : World ε) :
    collector (receive L w d).session =
      step (collector w.session) (arrivalOf d.config L w (dataPktOf d.msg)) :=
  congrArg Prod.fst (view_receive hd L w)

theorem frames_receive {d : Delivery} (hd : IsDrwData d.msg) (L : Listeners ε) (w : World ε) :
    frames (receive L w d).events =
      frames w.events ++ (handedOver (collector w.session) (dataPktOf d.msg).item).toList :=
  congrArg Prod.snd (view_receive hd L w)

theorem receive_newFrame {d : Delivery} {id : ℕ} {buf : Bytes} (hd : IsDrwData d.msg)
    (hnew : dataPktOf d.msg = .newFrame id buf) {L : Listeners ε} {w : World ε}
    (hrefused : (collector w.session).complete = true → frameRefused L w = false) :
    collector (receive L w d).session = ⟨[buf], id, false⟩ := by
  rw [collector_receive hd, hnew]
  show (if ((collector w.session).complete && frameRefused L w) = true then collector w.session
    else ⟨[buf], id, false⟩) = _
  rw [if_neg]
  intro h
  obtain ⟨hcomplete, hraise⟩ := Bool.and_eq_true_iff.1 h
  rw [hrefused hcomplete] at hraise
  cases hraise

theorem receive_devName {d : Delivery} (hd : IsDrwData d.msg) (L : Listeners ε) (w : World ε) :
    (receive L w d).session.devName = w.session.devName := by
  obtain ⟨wasFixed, last, h⟩ := receive_final hd L w
  rw [h]
  rfl

theorem receive_app {d : Delivery} (hd : IsDrwData d.msg) (L : Listeners ε) (w : World ε) :
    (receive L w d).app = (dataPktOf d.msg).appAfter L w := by
  obtain ⟨wasFixed, last, h⟩ := receive_final hd L w
  rw [h]

/-- The datagrams of a run as they arrive at the collector. -/
def arrivals (L : Listeners ε) : World ε → List Delivery → List (Arrival Bytes)
  | _, [] => []
  | w, d :: ds => arrivalOf d.config L w (dataPktOf d.msg) :: arrivals L (receive L w d) ds

theorem arrivals_item (L : Listeners ε) (ds : List Delivery) (w : World ε) :
    (arrivals L w ds).map Arrival.item = ds.map fun d => (dataPktOf d.msg).item := by
  induction ds generalizing w with
  | nil => rfl
  | cons d ds ih =>
    rw [arrivals, List.map_cons, List.map_cons, ih]
    rfl

theorem view_receiveAll (L : Listeners ε) (ds : List Delivery) (hds : ∀ d ∈ ds, IsDrwData d.msg)
    (w : World ε) :
    view (receiveAll L w ds) =
      ((collect (collector w.session) (arrivals L w ds)).1,
        frames w.events ++ (collect (collector w.session) (arrivals L w ds)).2) := by
  rw [← foldl_advance]
  show _ = (arrivals L w ds).foldl advance (view w)
  induction ds generalizing w with
  | nil => rfl
  | cons d ds ih =>
    rw [receiveAll, List.foldl_cons, ← receiveAll, ih (fun d' h => hds d' (List.mem_cons_of_mem _ h)),
      view_receive (hds d List.mem_cons_self)]
    rfl

theorem collector_receiveAll (L : Listeners ε) (ds : List Delivery) (hds : ∀ d ∈ ds, IsDrwData d.msg)
    (w : World ε) :
    collector (receiveAll L w ds).session = (collect (collector w.session) (arrivals L w ds)).1 :=
  congrArg Prod.fst (view_receiveAll L ds hds w)

theorem frames_receiveAll (L : Listeners ε) (ds : List Delivery) (hds : ∀ d ∈ ds, IsDrwData d.msg)
    (w : World ε) :
    frames (receiveAll L w ds).events =
      frames w.events ++ (collect (collector w.session) (arrivals L w ds)).2 :=
  congrArg Prod.snd (view_receiveAll L ds hds w)

theorem receiveAll_devName (L : Listeners ε) (ds : List Delivery) (hds : ∀ d ∈ ds, IsDrwData d.msg)
    (w : World ε) : (receiveAll L w ds).session.devName = w.session.devName := by
  induction ds generalizing w with
  | nil => rfl
  | cons d ds ih =>
    rw [receiveAll, List.foldl_cons, ← receiveAll, ih (fun d' h => hds d' (List.mem_cons_of_mem _ h)),
      receive_devName (hds d List.mem_cons_self)]

theorem arrivals_mend (L : Listeners ε) (ds : List Delivery) (hds : ∀ d ∈ ds, IsDrwData d.msg)
    (w : World ε) : ∀ i ∈ arrivals L w ds, ∃ d ∈ ds, i.mend = mendOf d.config w.session.devName := by
  induction ds generalizing w with
  | nil => simp [arrivals]
  | cons d ds ih =>
    intro i hi
    rcases List.mem_cons.1 hi with rfl | hi
    · exact ⟨d, List.mem_cons_self, rfl⟩
    · obtain ⟨d', hd', hmend⟩ := ih (fun d' h => hds d' (List.mem_cons_of_mem _ h)) _ i hi
      rw [receive_devName (hds d List.mem_cons_self)] at hmend
      exact ⟨d', List.mem_cons_of_mem _ hd', hmend⟩

theorem mendOf_off {config : Config} {devName : String} (h : fixPacketLoss config devName ≠ .ok true)
    (l b : Bytes) : mendOf config devName l b = none := by
  unfold mendOf
  cases hfix : fixPacketLoss config devName with
  | error e => rfl
  | ok fix =>
    cases fix with
    | false => rfl
    | true => exact absurd hfix h

theorem arrivals_refused (L : Listeners ε) (hframe : ∀ image app, ∃ app', L.frame image app = .ok () app')
    (ds : List Delivery) (w : World ε) : ∀ i ∈ arrivals L w ds, i.refused = false := by
  induction ds generalizing w with
  | nil => simp [arrivals]
  | cons d ds ih =>
    intro i hi
    rcases List.mem_cons.1 hi with rfl | hi
    · obtain ⟨app', h⟩ := hframe w.session.curImage w.app
      show frameRefused L w = false
      rw [frameRefused, h]
    · exact ih _ i hi

end CamReverse
