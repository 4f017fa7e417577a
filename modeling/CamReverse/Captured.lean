import CamReverse.Capture
import CamReverse.Http.Service

/-!
# The captured frame

A run of the `frame` subcommand is done with the first frame that it can write, and searches on until then
(`frame_captured`). What is in its file is put together from data packets of one session, and is all of a frame unless
the last write broke off.
-/

namespace CamReverse

open Effect Collector

/-! ### What a callback does -/

theorem keepStream_capturing (writing : Writing ℕ) (now : ℚ) : (capturing writing now).KeepStream where
  login := sameStream_startVideoStream now
  listWifi _ := Along.pure _

theorem keepName_capturing (writing : Writing ℕ) (now : ℚ) : (capturing writing now).KeepName where
  login := sameName_startVideoStream now
  listWifi _ := Along.pure _

theorem orderly_capturing (writing : Writing ℕ) (now : ℚ) : (capturing writing now).Orderly :=
  ⟨ByEvents.of_onlySends (quiet_onlySends.startVideoStream now), fun _ => Along.pure _⟩

def Callback.endsFrame {ε : Type} (w : World ε) : Callback → Bool
  | .datagram _ msg => decide (w.session.transport = .opened) && CamReverse.endsFrame msg w
  | _ => false

/-- The contents that writing these bytes leaves, if the file can be opened. -/
def Writing.contents (bytes : Bytes) : Writing ℕ → Option Bytes
  | .whole => some bytes
  | .refused _ => none
  | .broken left _ => some (bytes.take left)

def Output.after (out : Output) (writing : Writing ℕ) (image : List Bytes) : Output :=
  { final (writeFrame writing image) out with done := out.done || writing.isWhole }

theorem outFile_after (writing : Writing ℕ) (image : List Bytes) (out : Output) :
    (out.after writing image).outFile = (writing.contents image.flatten).or out.outFile := by
  cases writing <;> rfl

theorem app_capturedIf {writing : Writing ℕ} {image : List Bytes} {out : Output} {w : World Output}
    (h : w.app = final (writeFrame writing image) out) :
    (capturedIf writing.isWhole w).app = out.after writing image := by
  unfold Output.after
  cases writing with
  | whole =>
    show ({ w.app with done := true } : Output) = _
    rw [h, Writing.isWhole, Bool.or_true]
  | refused text =>
    show w.app = ⟨_, _, out.done || false⟩
    rw [h, Bool.or_false]
    rfl
  | broken left text =>
    show w.app = ⟨_, _, out.done || false⟩
    rw [h, Bool.or_false]
    rfl

theorem foldl_hear_capturing (writing : Writing ℕ) (now : ℚ) {evs : List Event} (h : frames evs = []) (out : Output) :
    evs.foldl (capturing writing now).hear out = out := by
  induction evs generalizing out with
  | nil => rfl
  | cons ev evs ih =>
    cases ev with
    | frame image => cases h
    | _ => exact ih h out

theorem endsFrame_of_data {ε : Type} {now : ℚ} {w : World ε} {cb : Callback} {d : Delivery}
    (h : cb.data now w.session = [d]) : cb.endsFrame w = (dataPktOf d.msg).finishes w := by
  cases cb with
  | datagram config msg =>
    simp only [Callback.data] at h
    split_ifs at h with hdata
    obtain rfl := List.singleton_inj.1 h
    rw [Callback.endsFrame, endsFrame, decide_eq_true hdata.1, decide_eq_true hdata.2, Bool.true_and, Bool.true_and]
  | _ => cases h

theorem endsFrame_of_no_data {ε : Type} {now : ℚ} {w : World ε} {cb : Callback} (h : cb.data now w.session = []) :
    cb.endsFrame w = false := by
  cases cb with
  | datagram config msg =>
    simp only [Callback.data] at h
    rw [Callback.endsFrame, endsFrame, Bool.eq_false_iff]
    intro hends
    simp only [Bool.and_eq_true, decide_eq_true_eq] at hends
    rw [if_pos ⟨hends.1, hends.2.1⟩] at h
    cases h
  | _ => rfl

theorem callback_app (writing : Writing ℕ) (now : ℚ) (w : World Output) (cb : Callback) :
    (callback (capturing writing now) now w cb).app =
      if cb.endsFrame w then final (writeFrame writing w.session.curImage) w.app else w.app := by
  rcases callback_stream (keepStream_capturing writing now) now w cb with ⟨hnone, hquiet⟩ | ⟨d, hd, hdata, hreceive⟩
  · obtain ⟨evs, hevs, happ, -⟩ := callback_heard (orderly_capturing writing now) now w cb
    have hframes : frames evs = [] := by
      have hsame : frames (w.events ++ evs) = frames w.events := hevs ▸ congrArg Prod.snd hquiet.view
      rw [frames, List.filterMap_append] at hsame
      exact List.append_right_eq_self.1 hsame
    rw [endsFrame_of_no_data hnone, happ, foldl_hear_capturing writing now hframes]
    rfl
  · rw [hreceive, receive_app hdata, endsFrame_of_data hd]
    cases dataPktOf d.msg with
    | newFrame id buf =>
      rw [DataPkt.appAfter, DataPkt.finishes, show (capturing writing now).frame = writeFrame writing from rfl]
    | _ => rfl

theorem callback_frames {w : World Output} {cb : Callback} (h : cb.endsFrame w = true) (writing : Writing ℕ) (now : ℚ) :
    w.session.curImage ∈ frames (callback (capturing writing now) now w cb).events := by
  rcases callback_stream (keepStream_capturing writing now) now w cb with ⟨hnone, -⟩ | ⟨d, hd, hdata, hreceive⟩
  · rw [endsFrame_of_no_data hnone] at h
    cases h
  · rw [endsFrame_of_data hd] at h
    rw [hreceive, frames_receive hdata]
    cases hpkt : dataPktOf d.msg with
    | newFrame id buf =>
      rw [hpkt] at h
      have hcomplete : (collector w.session).complete = true := h
      refine List.mem_append_right _ ?_
      show _ ∈ (if (collector w.session).complete = true then some (collector w.session).items else none).toList
      rw [if_pos hcomplete]
      exact List.mem_singleton_self _
    | _ =>
      rw [hpkt] at h
      cases h

theorem frames_callback (writing : Writing ℕ) (now : ℚ) (w : World Output) (cb : Callback) :
    frames w.events <+: frames (callback (capturing writing now) now w cb).events := by
  obtain ⟨evs, hevs, -⟩ := callback_heard (orderly_capturing writing now) now w cb
  rw [hevs, frames, frames, List.filterMap_append]
  exact List.prefix_append _ _

theorem connected_callback (writing : Writing ℕ) (now : ℚ) {w : World Output} (h : w.session.connected = false)
    (cb : Callback) : (callback (capturing writing now) now w cb).session.connected = false := by
  obtain ⟨evs, -, -, hconnected⟩ := callback_heard (orderly_capturing writing now) now w cb
  rw [hconnected, foldl_hear_closed h]
  exact h

/-! ### What a step does -/

/-- The session a step calls, when, and with what. -/
def Capture.callbackOf (c : Capture) : CaptureStep → Option (ℕ × ℚ × Callback)
  | .ready k now => some (k, now, .ready)
  | .datagram k now msg _ => some (k, now, .datagram c.config msg)
  | .sessTick k now => some (k, now, .sessTick)
  | .resendTick k now => some (k, now, .resendTick)
  | _ => none

/-- How writing goes in a step; only a datagram can bring the end of a frame. -/
def CaptureStep.writing : CaptureStep → Writing ℕ
  | .datagram _ _ _ writing => writing
  | _ => .whole

def Capture.endsFrame (c : Capture) (step : CaptureStep) : Bool :=
  match c.callbackOf step with
  | some (k, _, cb) => c.candidates[k]?.any fun cand => cb.endsFrame (cand.world c.output)
  | none => false

def Writing.opens : Writing ℕ → Bool
  | .refused _ => false
  | _ => true

/-- The write of a step, if it brings a session the end of a frame and `out_file` can be opened. -/
def Capture.writes (c : Capture) (step : CaptureStep) : List (Writing ℕ) :=
  if c.endsFrame step && step.writing.opens then [step.writing] else []

def Capture.writings (c : Capture) (steps : List CaptureStep) : List (Writing ℕ) :=
  Runs.outputs Capture.step Capture.writes c steps

/-- What a step does on the discovery's own part. -/
def CaptureStep.search : CaptureStep → Option DiscoveryStep
  | .searching now results => some (.ready now results)
  | .blast now i result => some (.blast now i result)
  | .connectionLost => some .connectionLost
  | _ => none

theorem leave_world {c : Capture} {k : ℕ} {cand : Candidate} (h : c.candidates[k]? = some cand) :
    c.leave k (cand.world c.output) = c := by
  have hsame : (c.candidates.modify k fun cand' => { cand' with session := cand.session, events := cand.events }) =
      c.candidates := by
    refine List.ext_getElem? fun j => ?_
    by_cases hj : k = j
    · subst hj
      rw [List.getElem?_modify_eq, h]
      rfl
    · rw [List.getElem?_modify_ne _ _ hj]
  unfold Capture.leave
  rw [show (cand.world c.output).session = cand.session from rfl,
    show (cand.world c.output).events = cand.events from rfl, hsame]
  rfl

theorem onSession_of {c : Capture} {k : ℕ} {cand : Candidate} (h : c.candidates[k]? = some cand) (now : ℚ)
    (cb : Callback) : c.onSession k now cb = c.leave k (callback (.streaming now) now (cand.world c.output) cb) := by
  unfold Capture.onSession
  rw [h]

theorem endsFrame_session {c : Capture} {step : CaptureStep} {k : ℕ} {now : ℚ} {cb : Callback} {cand : Candidate}
    (hof : c.callbackOf step = some (k, now, cb)) (hcand : c.candidates[k]? = some cand) :
    c.endsFrame step = cb.endsFrame (cand.world c.output) := by
  rw [Capture.endsFrame, hof]
  show Option.any _ c.candidates[k]? = _
  rw [hcand]
  rfl

/-- **A step on a session** is a callback, and closes the session if its frame is written. -/
theorem step_session {c : Capture} {step : CaptureStep} {k : ℕ} {now : ℚ} {cb : Callback} {cand : Candidate}
    (hof : c.callbackOf step = some (k, now, cb)) (hcand : c.candidates[k]? = some cand)
    (hattached : cand.attached = true) :
    c.step step = c.leave k (capturedIf (step.writing.isWhole && c.endsFrame step)
      (callback (capturing step.writing now) now (cand.world c.output) cb)) := by
  rw [endsFrame_session hof hcand]
  cases step with
  | datagram _ _ msg writing =>
    obtain ⟨rfl, rfl, rfl⟩ := Option.some.inj hof
    show c.datagram k now msg writing = _
    unfold Capture.datagram
    rw [hcand]
    show (if _ then _ else _) = _
    by_cases hopened : cand.session.transport = .opened
    · have hends : (Callback.datagram c.config msg).endsFrame (cand.world c.output) =
          endsFrame msg (cand.world c.output) := by
        rw [Callback.endsFrame, decide_eq_true (show (cand.world c.output).session.transport = .opened from hopened),
          Bool.true_and]
      have hdue : (Callback.datagram c.config msg).due (cand.world c.output).session = true := decide_eq_true hopened
      rw [if_pos hopened, if_pos hattached, show (CaptureStep.datagram k now msg writing).writing = writing from rfl,
        hends, callback, if_pos hdue]
      exact congrArg (c.leave k) (handleIncomingBy_final writing c.config now msg _)
    · have hends : (Callback.datagram c.config msg).endsFrame (cand.world c.output) = false := by
        rw [Callback.endsFrame, decide_eq_false (show (cand.world c.output).session.transport ≠ .opened from hopened),
          Bool.false_and]
      have hdue : (Callback.datagram c.config msg).due (cand.world c.output).session = false := decide_eq_false hopened
      rw [if_neg hopened, hends, Bool.and_false, callback_of_not_due hdue]
      exact (leave_world hcand).symm
  | ready _ _ =>
    obtain ⟨rfl, rfl, rfl⟩ := Option.some.inj hof
    exact onSession_of hcand now .ready
  | sessTick _ _ =>
    obtain ⟨rfl, rfl, rfl⟩ := Option.some.inj hof
    exact onSession_of hcand now .sessTick
  | resendTick _ _ =>
    obtain ⟨rfl, rfl, rfl⟩ := Option.some.inj hof
    exact onSession_of hcand now .resendTick
  | _ => cases hof

/-- What a discovery makes of a new camera, where `cameras` are those of the configuration. -/
def Capture.discovered (c : Capture) (cameras : List (String × PyVal)) (rinfo : String × ℕ) (dev : DevSerial) :
    Capture :=
  { c with
    config := putEntry c.config cameras dev.devId [("fix_packet_loss", .bool false)]
    sessions := c.sessions.insert dev.devId c.candidates.length
    candidates := c.candidates ++ [{ Candidate.made rinfo dev with attached := true }] }

theorem final_captureDiscover {c : Capture} {cameras : List (String × PyVal)}
    (hcameras : c.config.lookup "cameras" = some (.dict cameras)) (rinfo : String × ℕ) (dev : DevSerial) :
    final (captureDiscover rinfo dev) c =
      if (c.sessions.find? dev.devId).isSome then c else c.discovered cameras rinfo dev := by
  unfold captureDiscover
  rw [final, get_bind_apply]
  split_ifs with hknown
  · rfl
  · have hset : setCameraConfig c.config dev.devId (.dict [("fix_packet_loss", .bool false)]) =
        .ok (putEntry c.config cameras dev.devId [("fix_packet_loss", .bool false)]) := by
      simp only [setCameraConfig, configCameras, hcameras, except_ok_bind]
      rfl
    rw [hset]
    show Capture.mk _ _ ((c.candidates ++ [Candidate.made rinfo dev]).modify c.candidates.length _) _ = _
    rw [modify_length_append]
    rfl

theorem step_punch {c : Capture} {cameras : List (String × PyVal)}
    (hcameras : c.config.lookup "cameras" = some (.dict cameras)) (msg : Bytes) (rinfo : String × ℕ) :
    c.step (.punch msg rinfo) = c ∨
      c.output.discovery.transport = .opened ∧ ∃ dev, c.step (.punch msg rinfo) = c.discovered cameras rinfo dev := by
  unfold Capture.step
  by_cases hopened : c.output.discovery.transport = .opened
  · simp only [if_pos hopened]
    rcases handleIncomingPunch_cases Capture.config captureDiscover msg rinfo c with ⟨dev, hannounces⟩ | hsame
    · have hdiscover := final_captureDiscover hcameras rinfo dev
      rw [final, ← hannounces.discovers Capture.config captureDiscover, ← final] at hdiscover
      rw [hdiscover]
      by_cases hknown : (c.sessions.find? dev.devId).isSome
      · exact .inl (if_pos hknown)
      · exact .inr ⟨hopened, dev, if_neg hknown⟩
    · exact .inl hsame
  · exact .inl (if_neg hopened)

/-! ### What a run keeps -/

/-- The data packets a step brings to the session `k`. -/
def Capture.dataOf (c : Capture) (k : ℕ) (step : CaptureStep) : List Delivery :=
  match c.callbackOf step, c.candidates[k]? with
  | some (k', now, cb), some cand => if k' = k then cb.data now cand.session else []
  | _, _ => []

def Capture.data (c : Capture) (k : ℕ) (steps : List CaptureStep) : List Delivery :=
  Runs.outputs Capture.step (fun c step => c.dataOf k step) c steps

/-- A session whose frames come from such data packets, none of which was repaired. -/
structure Candidate.Sound (config : Config) (data : List Delivery) (cand : Candidate) : Prop where
  attached : cand.attached = true
  watched : Watched data cand.session cand.events
  entry : HasEntry config cand.session.devName [("fix_packet_loss", .bool false)]
  unrepaired : ∀ d ∈ data, fixPacketLoss d.config cand.session.devName ≠ .ok true

/-- The file holds what the last of these writes left: a frame of a session, which is closed if it was written whole. -/
def Capture.Contains (c : Capture) (writings : List (Writing ℕ)) (file : Bytes) : Prop :=
  ∃ (writing : Writing ℕ) (k : ℕ) (cand : Candidate) (image : List Bytes), writings.getLast? = some writing ∧
    c.candidates[k]? = some cand ∧ image ∈ frames cand.events ∧ writing.contents image.flatten = some file ∧
    (writing = .whole → cand.session.connected = false)

/-- A discovery of one target listens once its endpoint is there. -/
structure Discovery.Sole (d : Discovery) (ip : String) : Prop where
  ips : d.discoveryIps = .list [.str ip]
  listening : d.listening = true ↔ d.transport ≠ .absent
  idle : d.transport = .absent → d.tasks = []

structure Discovery.Over (d : Discovery) : Prop where
  tasks : d.tasks = []
  transport : d.transport = .closing ∨ d.transport = .closed

/-- What a run keeps, with its searches and its writes. -/
structure Capture.Sound (c : Capture) (ip : String) (data : ℕ → List Delivery) (searches : List DiscoveryStep)
    (writings : List (Writing ℕ)) : Prop where
  cameras : ∃ cameras, c.config.lookup "cameras" = some (.dict cameras)
  candidates : ∀ (k : ℕ) (cand : Candidate), c.candidates[k]? = some cand → cand.Sound c.config (data k)
  unheard : ∀ k : ℕ, c.candidates[k]? = none → data k = []
  sole : c.output.discovery.Sole ip
  found : c.candidates ≠ [] → c.output.discovery.transport ≠ .absent
  done : c.output.done = true ↔ .whole ∈ writings
  searching : c.output.done = false → c.output.discovery = (Discovery.start (.list [.str ip])).run searches
  shut : c.output.done = true → c.output.discovery.Over
  contains : ∀ file, c.output.outFile = some file → c.Contains writings file
  nothing : c.output.outFile = none → writings = []

theorem fixPacketLoss_of_entry {config : Config} {devName : String}
    (h : HasEntry config devName [("fix_packet_loss", .bool false)]) : fixPacketLoss config devName ≠ .ok true := by
  unfold fixPacketLoss
  rw [h.cameraConfig]
  rintro ⟨⟩

/-! ### The discovery -/

namespace Discovery

theorem sole_ready {d : Discovery} {ip : String} (h : d.discoveryIps = .list [.str ip]) (now : ℚ)
    (results : ℕ → Sendto) : final (ready now results) d =
      { ({ d with transport := .opened } : Discovery).added now (.str ip) (results 0) with listening := true } := by
  have hadd := addTarget_ok (v := .str ip) rfl now (results 0) (d := { d with transport := .opened }) (by rintro ⟨⟩)
  have hloop : addTargets now results [.str ip] { d with transport := .opened } =
      .ok ⟨⟩ (({ d with transport := .opened } : Discovery).added now (.str ip) (results 0)) :=
    bind_ok hadd _
  have hitems : d.discoveryIps.items = .ok [.str ip] := by
    rw [h]
    rfl
  unfold ready
  rw [final, modify_bind_apply, get_bind_apply]
  dsimp only
  rw [hitems, liftM_eq_lift, lift_ok_bind, bind_ok hloop]
  rfl

theorem Sole.step {d : Discovery} {ip : String} (h : d.Sole ip) (step : DiscoveryStep) :
    (d.step step).Sole ip ∧ (d.transport ≠ .absent → (d.step step).transport ≠ .absent) := by
  have hsame : d.Sole ip ∧ (d.transport ≠ .absent → d.transport ≠ .absent) := ⟨h, id⟩
  have hthere : ∀ d' : Discovery, d'.discoveryIps = d.discoveryIps → d'.listening = true → d'.transport ≠ .absent →
      d'.Sole ip ∧ (d.transport ≠ .absent → d'.transport ≠ .absent) := fun d' hips hlistening hd' =>
    ⟨⟨hips.trans h.ips, iff_of_true hlistening hd', fun habsent => absurd habsent hd'⟩, fun _ => hd'⟩
  have hips : ∀ (d : Discovery) now ip result, (d.added now ip result).discoveryIps = d.discoveryIps := by
    intro d now ip result
    unfold Discovery.added
    split_ifs <;> rfl
  cases step with
  | ready now results =>
    rw [Discovery.step]
    split_ifs with habsent
    · rw [sole_ready h.ips]
      exact hthere _ (hips ..) rfl (added_there (by rintro ⟨⟩) now _ _)
    · exact hsame
  | addTarget now ip' result =>
    rw [Discovery.step, final, emitAddTarget, get_bind_apply]
    by_cases hlistening : d.listening = true
    · rw [if_pos hlistening, ← final, final_addTarget rfl]
      exact hthere _ (hips ..) ((added_listening d now _ result).trans hlistening)
        (added_there (h.listening.1 hlistening) now _ result)
    · rw [if_neg hlistening]
      exact hsame
  | blast now i result =>
    rw [Discovery.step]
    by_cases habsent : d.transport = .absent
    · rw [blast_idle (h.idle habsent)]
      exact hsame
    · obtain ⟨hlistening, -, hips, hd⟩ := blast_keeps d now i result
      exact hthere _ hips (hlistening.trans (h.listening.2 habsent)) (hd habsent)
  | close =>
    rw [Discovery.step]
    split_ifs with hlistening
    · refine hthere _ rfl hlistening ?_
      show (if d.transport = .opened then Endpoint.closing else d.transport) ≠ .absent
      split_ifs
      · rintro ⟨⟩
      · exact h.listening.1 hlistening
    · exact hsame
  | connectionLost =>
    rw [Discovery.step]
    split_ifs with hclosing
    · exact hthere _ rfl (h.listening.2 (by rw [hclosing]; rintro ⟨⟩)) (by rintro ⟨⟩)
    · exact hsame

theorem Sole.close {d : Discovery} {ip : String} (h : d.Sole ip) (hthere : d.transport ≠ .absent) :
    (d.step .close).Over := by
  rw [Discovery.step, if_pos (h.listening.2 hthere)]
  refine ⟨rfl, ?_⟩
  show (if d.transport = .opened then Endpoint.closing else d.transport) = .closing ∨
    (if d.transport = .opened then Endpoint.closing else d.transport) = .closed
  cases htransport : d.transport with
  | absent => exact absurd htransport hthere
  | opened => exact .inl rfl
  | closing => exact .inl rfl
  | closed => exact .inr rfl

theorem Over.search {d : Discovery} (h : d.Over) {step : CaptureStep} {search : DiscoveryStep}
    (hsearch : step.search = some search) : (d.step search).Over := by
  cases step with
  | searching now results =>
    obtain rfl := Option.some.inj hsearch
    rw [Discovery.step, if_neg fun habsent => by rcases h.transport with hc | hc <;> cases habsent.symm.trans hc]
    exact h
  | blast now i result =>
    obtain rfl := Option.some.inj hsearch
    rw [Discovery.step, blast_idle h.tasks]
    exact h
  | connectionLost =>
    obtain rfl := Option.some.inj hsearch
    rw [Discovery.step]
    split_ifs
    · exact ⟨h.tasks, .inr rfl⟩
    · exact h
  | _ => cases hsearch

end Discovery

/-! ### A step that calls no session -/

theorem sound_search {c : Capture} {ip : String} {data : ℕ → List Delivery} {searches : List DiscoveryStep}
    {writings : List (Writing ℕ)} (h : c.Sound ip data searches writings) (step : CaptureStep) {search : DiscoveryStep}
    (hsearch : step.search = some search) : (c.search search).Sound ip data (searches ++ [search]) writings where
  cameras := h.cameras
  candidates := h.candidates
  unheard := h.unheard
  sole := (h.sole.step search).1
  found hne := (h.sole.step search).2 (h.found hne)
  done := h.done
  searching hdone := by
    show c.output.discovery.step search = _
    rw [h.searching hdone, Discovery.run, Discovery.run, List.foldl_append]
    rfl
  shut hdone := (h.shut hdone).search hsearch
  contains := h.contains
  nothing := h.nothing

theorem hasEntry_discovered {c : Capture} {cameras : List (String × PyVal)}
    (hcameras : c.config.lookup "cameras" = some (.dict cameras)) (rinfo : String × ℕ) (dev : DevSerial)
    {devName : String} (h : HasEntry c.config devName [("fix_packet_loss", .bool false)]) :
    HasEntry (c.discovered cameras rinfo dev).config devName [("fix_packet_loss", .bool false)] := by
  by_cases hname : devName = dev.devId
  · rw [hname]
    exact hasEntry_put c.config cameras dev.devId _
  · exact h.put_ne hcameras hname _

theorem sound_discovered {c : Capture} {ip : String} {data : ℕ → List Delivery} {searches : List DiscoveryStep}
    {writings : List (Writing ℕ)} (h : c.Sound ip data searches writings)
    (hopened : c.output.discovery.transport = .opened) {cameras : List (String × PyVal)}
    (hcameras : c.config.lookup "cameras" = some (.dict cameras)) (rinfo : String × ℕ) (dev : DevSerial) :
    (c.discovered cameras rinfo dev).Sound ip data searches writings where
  cameras := by
    obtain ⟨cameras', hcameras', -⟩ := hasEntry_put c.config cameras dev.devId [("fix_packet_loss", .bool false)]
    exact ⟨cameras', hcameras'⟩
  candidates k cand hcand := by
    change (c.candidates ++ [_])[k]? = some cand at hcand
    rcases Nat.lt_trichotomy k c.candidates.length with hlt | rfl | hgt
    · rw [List.getElem?_append_left hlt] at hcand
      have hold := h.candidates k cand hcand
      exact ⟨hold.attached, hold.watched, hasEntry_discovered hcameras rinfo dev hold.entry, hold.unrepaired⟩
    · rw [List.getElem?_concat_length] at hcand
      obtain rfl := Option.some.inj hcand
      rw [h.unheard _ (List.getElem?_eq_none le_rfl)]
      have hentry : HasEntry (c.discovered cameras rinfo dev).config dev.devId [("fix_packet_loss", .bool false)] :=
        hasEntry_put c.config cameras dev.devId _
      exact ⟨rfl, ⟨⟨[], [], List.nil_sublist _, rfl, rfl⟩, by rintro payload ⟨⟩, rfl⟩, hentry, by rintro d ⟨⟩⟩
    · rw [List.getElem?_eq_none (by rw [List.length_append]; exact hgt)] at hcand
      cases hcand
  unheard k hk := by
    change (c.candidates ++ [_])[k]? = none at hk
    rw [List.getElem?_eq_none_iff, List.length_append] at hk
    exact h.unheard k (List.getElem?_eq_none (by omega))
  sole := h.sole
  found _ := by
    rw [show (c.discovered cameras rinfo dev).output = c.output from rfl, hopened]
    rintro ⟨⟩
  done := h.done
  searching := h.searching
  shut := h.shut
  contains file hfile := by
    obtain ⟨writing, k, cand, image, hlast, hcand, hrest⟩ := h.contains file hfile
    refine ⟨writing, k, cand, image, hlast, ?_, hrest⟩
    show (c.candidates ++ [_])[k]? = some cand
    rw [List.getElem?_append_left (List.getElem?_eq_some_iff.1 hcand).1]
    exact hcand
  nothing := h.nothing

/-! ### A step on a session -/

theorem dev_onDisconnect (s : Session) : (onDisconnect s).dev = s.dev ∧ (onDisconnect s).devName = s.devName := by
  unfold onDisconnect
  split_ifs <;> exact ⟨rfl, rfl⟩

theorem sameStream_captured (w : World Output) : SameStream w (captured w) := by
  have hends := sameStream_events w (List.forall_mem_singleton.2 (show Event.disconnect.ofStream = false from rfl))
  have hframes : frames (w.events ++ [.disconnect]) = frames w.events := congrArg Prod.snd hends.view
  exact ⟨Prod.ext (collector_onDisconnect w.session) hframes, hends.audios⟩

theorem watched_capturedIf {data : List Delivery} {w : World Output} (h : Watched data w.session w.events) (b : Bool) :
    Watched data (capturedIf b w).session (capturedIf b w).events := by
  cases b with
  | false => exact h
  | true =>
    obtain ⟨hdev, hname⟩ := dev_onDisconnect w.session
    exact h.same (sameStream_captured w) hname ((hname.trans h.named).trans (congrArg DevSerial.devId hdev.symm))

theorem getElem?_leave {c : Capture} {k : ℕ} {cand : Candidate} (h : c.candidates[k]? = some cand) (w : World Output) :
    (c.leave k w).candidates[k]? = some { cand with session := w.session, events := w.events } := by
  show (c.candidates.modify k _)[k]? = _
  rw [List.getElem?_modify_eq, h]
  rfl

theorem getElem?_leave_ne (c : Capture) {k j : ℕ} (h : k ≠ j) (w : World Output) :
    (c.leave k w).candidates[j]? = c.candidates[j]? :=
  List.getElem?_modify_ne _ _ h

theorem Candidate.Sound.callback {config : Config} {data : List Delivery} {cand : Candidate}
    (h : cand.Sound config data) (b : Bool) (writing : Writing ℕ) (now : ℚ) (out : Output) {cb : Callback}
    (hcb : ∀ d ∈ cb.data now cand.session, d.config = config) :
    let w := capturedIf b (CamReverse.callback (capturing writing now) now (cand.world out) cb)
    Candidate.Sound config (data ++ cb.data now cand.session) { cand with session := w.session, events := w.events } := by
  intro w
  have hwatched : Watched data (cand.world out).session (cand.world out).events := h.watched
  have hafter : Watched (data ++ cb.data now cand.session) w.session w.events :=
    watched_capturedIf (hwatched.callback (keepStream_capturing writing now) (keepName_capturing writing now)
      (orderly_capturing writing now) cb) b
  have hname : w.session.devName = cand.session.devName := by
    have hkept := (keepName_capturing writing now).callback now (cand.world out) cb
    cases b with
    | false => exact hkept
    | true => exact (dev_onDisconnect _).2.trans hkept
  have hentry : HasEntry config w.session.devName [("fix_packet_loss", .bool false)] := hname ▸ h.entry
  refine ⟨h.attached, hafter, hentry, fun d hd => ?_⟩
  rcases List.mem_append.1 hd with hold | hnew
  · rw [show ({ cand with session := w.session, events := w.events } : Candidate).session.devName = _ from hname]
    exact h.unrepaired d hold
  · rw [hcb d hnew]
    exact fixPacketLoss_of_entry hentry

theorem config_of_data {c : Capture} {step : CaptureStep} {k : ℕ} {now : ℚ} {cb : Callback}
    (hof : c.callbackOf step = some (k, now, cb)) (s : Session) : ∀ d ∈ cb.data now s, d.config = c.config := by
  intro d hd
  cases step with
  | datagram _ _ msg writes =>
    obtain ⟨rfl, rfl, rfl⟩ := Option.some.inj hof
    simp only [Callback.data] at hd
    split_ifs at hd
    · rw [List.mem_singleton.1 hd]
    · cases hd
  | ready _ _ =>
    obtain ⟨rfl, rfl, rfl⟩ := Option.some.inj hof
    cases hd
  | sessTick _ _ =>
    obtain ⟨rfl, rfl, rfl⟩ := Option.some.inj hof
    cases hd
  | resendTick _ _ =>
    obtain ⟨rfl, rfl, rfl⟩ := Option.some.inj hof
    cases hd
  | _ => cases hof

theorem dataOf_session {c : Capture} {step : CaptureStep} {k : ℕ} {now : ℚ} {cb : Callback}
    (hof : c.callbackOf step = some (k, now, cb)) {j : ℕ} {cand : Candidate} (hcand : c.candidates[j]? = some cand) :
    c.dataOf j step = if k = j then cb.data now cand.session else [] := by
  unfold Capture.dataOf
  rw [hof, hcand]

theorem dataOf_none {c : Capture} {j : ℕ} (h : c.candidates[j]? = none) (step : CaptureStep) :
    c.dataOf j step = [] := by
  unfold Capture.dataOf
  rw [h]
  cases c.callbackOf step <;> rfl

theorem dataOf_of_no_callback {c : Capture} {step : CaptureStep} (h : c.callbackOf step = none) (j : ℕ) :
    c.dataOf j step = [] := by
  unfold Capture.dataOf
  rw [h]

theorem frames_capturedIf (b : Bool) (w : World Output) : frames (capturedIf b w).events = frames w.events := by
  cases b with
  | false => rfl
  | true => exact congrArg Prod.snd (sameStream_captured w).view

theorem connected_capturedIf {w : World Output} (h : w.session.connected = false) (b : Bool) :
    (capturedIf b w).session.connected = false := by
  cases b with
  | false => exact h
  | true => exact connected_onDisconnect w.session

theorem contents_eq_none (writing : Writing ℕ) (bytes : Bytes) :
    writing.contents bytes = none ↔ writing.opens = false := by
  cases writing with
  | refused text => exact iff_of_true rfl rfl
  | _ => exact iff_of_false (by rintro ⟨⟩) (by rintro ⟨⟩)

theorem writes_of_not_ends {c : Capture} {step : CaptureStep} (h : c.endsFrame step = false) : c.writes step = [] := by
  unfold Capture.writes
  rw [h, Bool.false_and, if_neg Bool.false_ne_true]

theorem mem_writes {c : Capture} {step : CaptureStep} :
    .whole ∈ c.writes step ↔ c.endsFrame step = true ∧ step.writing = .whole := by
  unfold Capture.writes
  split_ifs with h
  · rw [Bool.and_eq_true] at h
    rw [List.mem_singleton, eq_comm]
    exact (and_iff_right h.1).symm
  · refine iff_of_false List.not_mem_nil ?_
    rintro ⟨hends, hwhole⟩
    exact h (by rw [hends, hwhole]; rfl)

section

variable {c : Capture} {step : CaptureStep} {k : ℕ} {now : ℚ} {cb : Callback} {cand : Candidate}
  (hof : c.callbackOf step = some (k, now, cb)) (hcand : c.candidates[k]? = some cand)
  (hattached : cand.attached = true)
include hof hcand hattached

theorem output_session :
    (c.step step).output =
      if c.endsFrame step then c.output.after step.writing cand.session.curImage else c.output := by
  have happ := callback_app step.writing now (cand.world c.output) cb
  rw [← endsFrame_session hof hcand] at happ
  rw [step_session hof hcand hattached]
  cases hends : c.endsFrame step with
  | false =>
    rw [hends] at happ
    rw [Bool.and_false]
    exact happ
  | true =>
    rw [hends] at happ
    rw [Bool.and_true]
    exact app_capturedIf happ

theorem candidate_session :
    ∃ cand', (c.step step).candidates[k]? = some cand' ∧ (∀ image ∈ frames cand.events, image ∈ frames cand'.events) ∧
      (cand.session.connected = false → cand'.session.connected = false) ∧
      (c.endsFrame step = true → cand.session.curImage ∈ frames cand'.events ∧
        (step.writing = .whole → cand'.session.connected = false)) := by
  have hkept := frames_callback step.writing now (cand.world c.output) cb
  rw [step_session hof hcand hattached]
  refine ⟨_, getElem?_leave hcand _, fun image himage => ?_, fun hclosed => ?_, fun hends => ⟨?_, fun hwhole => ?_⟩⟩
  · rw [frames_capturedIf]
    exact hkept.subset himage
  · exact connected_capturedIf (connected_callback step.writing now hclosed cb) _
  · rw [frames_capturedIf]
    exact callback_frames ((endsFrame_session hof hcand).symm.trans hends) step.writing now
  · rw [hends, hwhole]
    exact connected_onDisconnect _

theorem candidates_ne {j : ℕ} (hj : k ≠ j) : (c.step step).candidates[j]? = c.candidates[j]? := by
  rw [step_session hof hcand hattached]
  exact getElem?_leave_ne c hj _

theorem contains_session {writings : List (Writing ℕ)} {file : Bytes} (h : c.Contains writings file) :
    (c.step step).Contains writings file := by
  obtain ⟨writing, j, old, image, hlast, hold, himage, hfile, hclosed⟩ := h
  by_cases hj : k = j
  · subst hj
    obtain rfl := Option.some.inj (hcand.symm.trans hold)
    obtain ⟨cand', hcand', hframes, hconnected, -⟩ := candidate_session hof hcand hattached
    exact ⟨writing, k, cand', image, hlast, hcand', hframes image himage, hfile,
      fun hwhole => hconnected (hclosed hwhole)⟩
  · exact ⟨writing, j, old, image, hlast, (candidates_ne hof hcand hattached hj).trans hold, himage, hfile, hclosed⟩

theorem contains_after {writings : List (Writing ℕ)}
    (hcontains : ∀ file, c.output.outFile = some file → c.Contains writings file)
    (hnothing : c.output.outFile = none → writings = []) :
    (∀ file, (c.step step).output.outFile = some file → (c.step step).Contains (writings ++ c.writes step) file) ∧
      ((c.step step).output.outFile = none → writings ++ c.writes step = []) := by
  have hout := output_session hof hcand hattached
  unfold Capture.writes
  cases hends : c.endsFrame step with
  | false =>
    rw [if_neg (by rw [hends]; exact Bool.false_ne_true)] at hout
    rw [hout, Bool.false_and, if_neg Bool.false_ne_true, List.append_nil]
    exact ⟨fun file hfile => contains_session hof hcand hattached (hcontains file hfile), hnothing⟩
  | true =>
    rw [if_pos hends] at hout
    rw [hout, outFile_after, Bool.true_and]
    cases hcontents : step.writing.contents cand.session.curImage.flatten with
    | none =>
      rw [(contents_eq_none _ _).1 hcontents, if_neg Bool.false_ne_true, List.append_nil, Option.none_or]
      exact ⟨fun file hfile => contains_session hof hcand hattached (hcontains file hfile), hnothing⟩
    | some bytes =>
      have hopens : step.writing.opens = true := by
        rw [← Bool.not_eq_false, ← contents_eq_none _ cand.session.curImage.flatten, hcontents]
        rintro ⟨⟩
      rw [hopens, if_pos rfl, Option.some_or]
      refine ⟨fun file hfile => ?_, by rintro ⟨⟩⟩
      obtain rfl := Option.some.inj hfile
      obtain ⟨cand', hcand', -, -, hemitted⟩ := candidate_session hof hcand hattached
      obtain ⟨himage, hclosed⟩ := hemitted hends
      exact ⟨step.writing, k, cand', cand.session.curImage, List.getLast?_concat .., hcand', himage, hcontents, hclosed⟩

theorem progress_session :
    (.whole ∉ c.writes step ∧ (c.step step).output.discovery = c.output.discovery ∧
      (c.step step).output.done = c.output.done) ∨
    (.whole ∈ c.writes step ∧ (c.step step).output.discovery = c.output.discovery.step .close ∧
      (c.step step).output.done = true) := by
  rw [output_session hof hcand hattached, mem_writes]
  cases hends : c.endsFrame step with
  | false =>
    rw [if_neg Bool.false_ne_true]
    exact .inl ⟨fun h => Bool.false_ne_true h.1, rfl, rfl⟩
  | true =>
    rw [if_pos rfl]
    cases step.writing with
    | whole => exact .inr ⟨⟨rfl, rfl⟩, rfl, Bool.or_true _⟩
    | refused text => exact .inl ⟨(fun h => nomatch h.2), rfl, Bool.or_false _⟩
    | broken left text => exact .inl ⟨(fun h => nomatch h.2), rfl, Bool.or_false _⟩

end

theorem sound_session {c : Capture} {ip : String} {data : ℕ → List Delivery} {searches : List DiscoveryStep}
    {writings : List (Writing ℕ)} (h : c.Sound ip data searches writings) {step : CaptureStep} {k : ℕ} {now : ℚ}
    {cb : Callback} (hof : c.callbackOf step = some (k, now, cb)) {cand : Candidate}
    (hcand : c.candidates[k]? = some cand) :
    (c.step step).Sound ip (fun j => data j ++ c.dataOf j step) searches (writings ++ c.writes step) := by
  have hsound := h.candidates k cand hcand
  have hfound := h.found (List.ne_nil_of_mem (List.mem_of_getElem? hcand))
  have hstep := step_session hof hcand hsound.attached
  have hout := output_session hof hcand hsound.attached
  have hfile := contains_after hof hcand hsound.attached h.contains h.nothing
  constructor
  case contains => exact hfile.1
  case nothing => exact hfile.2
  case cameras =>
    rw [hstep]
    exact h.cameras
  case candidates =>
    intro j cand' hcand'
    rw [hstep] at hcand' ⊢
    by_cases hj : k = j
    · subst hj
      rw [getElem?_leave hcand] at hcand'
      obtain rfl := Option.some.inj hcand'
      rw [dataOf_session hof hcand, if_pos rfl]
      exact hsound.callback _ _ now c.output (config_of_data hof cand.session)
    · rw [getElem?_leave_ne c hj] at hcand'
      rw [dataOf_session hof hcand', if_neg hj, List.append_nil]
      exact h.candidates j cand' hcand'
  case unheard =>
    intro j hj
    have hnone : c.candidates[j]? = none := by
      by_cases hkj : k = j
      · subst hkj
        rw [hstep, getElem?_leave hcand] at hj
        cases hj
      · rw [hstep, getElem?_leave_ne c hkj] at hj
        exact hj
    rw [dataOf_none hnone, h.unheard j hnone]
    rfl
  all_goals
    rcases progress_session hof hcand hsound.attached with ⟨hnone, hsame, hdone⟩ | ⟨hwhole, hclose, hdone⟩
  case sole.inl => exact hsame ▸ h.sole
  case found.inl => exact fun _ => hsame ▸ hfound
  case done.inl => rw [hdone, h.done, List.mem_append, or_iff_left hnone]
  case searching.inl => exact fun hwait => hsame.trans (h.searching (hdone ▸ hwait))
  case shut.inl => exact fun hover => hsame ▸ h.shut (hdone ▸ hover)
  case sole.inr => exact hclose ▸ (h.sole.step .close).1
  case found.inr => exact fun _ => hclose ▸ (h.sole.step .close).2 hfound
  case done.inr => exact iff_of_true hdone (List.mem_append_right _ hwhole)
  case searching.inr => exact fun hwait => absurd (hdone.symm.trans hwait) (by decide)
  case shut.inr => exact fun _ => hclose ▸ h.sole.close hfound

theorem step_nobody {c : Capture} {step : CaptureStep} {k : ℕ} {now : ℚ} {cb : Callback}
    (hof : c.callbackOf step = some (k, now, cb)) (hnone : c.candidates[k]? = none) :
    c.step step = c ∧ c.writes step = [] ∧ ∀ j, c.dataOf j step = [] := by
  have hends : c.endsFrame step = false := by
    rw [Capture.endsFrame, hof]
    show Option.any _ c.candidates[k]? = _
    rw [hnone]
    rfl
  have hdata : ∀ j, c.dataOf j step = [] := by
    intro j
    cases hcand : c.candidates[j]? with
    | none => exact dataOf_none hcand step
    | some cand =>
      rw [dataOf_session hof hcand, if_neg]
      rintro rfl
      rw [hnone] at hcand
      cases hcand
  refine ⟨?_, writes_of_not_ends hends, hdata⟩
  have honSession : ∀ now cb, c.onSession k now cb = c := by
    intro now cb
    unfold Capture.onSession
    rw [hnone]
  cases step with
  | datagram _ _ msg writing =>
    obtain ⟨rfl, -⟩ := Option.some.inj hof
    show c.datagram k _ msg writing = c
    unfold Capture.datagram
    rw [hnone]
  | ready _ now =>
    obtain ⟨rfl, -⟩ := Option.some.inj hof
    exact honSession now .ready
  | sessTick _ now =>
    obtain ⟨rfl, -⟩ := Option.some.inj hof
    exact honSession now .sessTick
  | resendTick _ now =>
    obtain ⟨rfl, -⟩ := Option.some.inj hof
    exact honSession now .resendTick
  | _ => cases hof

theorem capture_sound_step {c : Capture} {ip : String} {data : ℕ → List Delivery} {searches : List DiscoveryStep}
    {writings : List (Writing ℕ)} (h : c.Sound ip data searches writings) (step : CaptureStep) :
    (c.step step).Sound ip (fun j => data j ++ c.dataOf j step) (searches ++ step.search.toList)
      (writings ++ c.writes step) := by
  cases hof : c.callbackOf step with
  | some call =>
    obtain ⟨k, now, cb⟩ := call
    have hsearch : step.search = none := by
      cases step <;> first | rfl | cases hof
    rw [hsearch, Option.toList_none, List.append_nil]
    cases hcand : c.candidates[k]? with
    | none =>
      obtain ⟨hsame, hwrites, hdata⟩ := step_nobody hof hcand
      simp only [hsame, hwrites, hdata, List.append_nil]
      exact h
    | some cand => exact sound_session h hof hcand
  | none =>
    have hwrites : c.writes step = [] := by
      refine writes_of_not_ends ?_
      rw [Capture.endsFrame, hof]
    simp only [hwrites, dataOf_of_no_callback hof, List.append_nil]
    cases step with
    | searching now results => exact sound_search h (.searching now results) rfl
    | blast now i result => exact sound_search h (.blast now i result) rfl
    | connectionLost => exact sound_search h .connectionLost rfl
    | punch msg rinfo =>
      rw [show (CaptureStep.punch msg rinfo).search = none from rfl, Option.toList_none, List.append_nil]
      obtain ⟨cameras, hcameras⟩ := h.cameras
      rcases step_punch hcameras msg rinfo with hsame | ⟨hopened, dev, hdiscovered⟩
      · rw [hsame]
        exact h
      · rw [hdiscovered]
        exact sound_discovered h hopened hcameras rinfo dev
    | _ => cases hof

/-! ### Runs -/

theorem run_concat (c : Capture) (seen : List CaptureStep) (step : CaptureStep) :
    c.run (seen ++ [step]) = (c.run seen).step step := by
  rw [Capture.run, Capture.run, List.foldl_append]
  rfl

theorem capture_sound (discoveryIp : String) (steps : List CaptureStep) :
    ((Capture.start discoveryIp).run steps).Sound discoveryIp (fun k => (Capture.start discoveryIp).data k steps)
      (steps.filterMap CaptureStep.search) ((Capture.start discoveryIp).writings steps) := by
  induction steps using List.reverseRecOn with
  | nil =>
    constructor
    case cameras => exact ⟨[], rfl⟩
    case candidates => rintro k cand ⟨⟩
    case unheard => exact fun _ _ => rfl
    case sole => exact ⟨rfl, iff_of_false (by rintro ⟨⟩) (not_not.2 rfl), fun _ => rfl⟩
    case found => exact fun hne => absurd rfl hne
    case done => exact iff_of_false (by rintro ⟨⟩) List.not_mem_nil
    case searching => exact fun _ => rfl
    case shut => rintro ⟨⟩
    case contains => rintro file ⟨⟩
    case nothing => exact fun _ => rfl
  | append_singleton seen step ih =>
    have hdata : ∀ k, (Capture.start discoveryIp).data k (seen ++ [step]) =
        (Capture.start discoveryIp).data k seen ++ ((Capture.start discoveryIp).run seen).dataOf k step := by
      intro k
      rw [Capture.data, Runs.outputs_append, Runs.outputs, Runs.outputs, List.append_nil]
      rfl
    have hwritings : (Capture.start discoveryIp).writings (seen ++ [step]) =
        (Capture.start discoveryIp).writings seen ++ ((Capture.start discoveryIp).run seen).writes step := by
      rw [Capture.writings, Runs.outputs_append, Runs.outputs, Runs.outputs, List.append_nil]
      rfl
    have hsearches : (seen ++ [step]).filterMap CaptureStep.search =
        seen.filterMap CaptureStep.search ++ step.search.toList := by
      rw [List.filterMap_append, List.filterMap_cons, List.filterMap_nil]
      cases step.search <;> rfl
    simp only [run_concat, hdata, hwritings, hsearches]
    exact capture_sound_step ih step

/-- **The captured frame.** The subcommand is done once a frame could be written whole, and searches on as if there were
none until then; behind that the discovery is closed. What is in the file is what the last write left of a frame that
one of its sessions put together from data packets it received, with ids going up by one: all of it, and the session is
closed, if that write was whole, and the first bytes of it otherwise. -/
theorem frame_captured (discoveryIp : String) (steps : List CaptureStep) :
    let c := (Capture.start discoveryIp).run steps
    let writings := (Capture.start discoveryIp).writings steps
    (c.output.done = true ↔ .whole ∈ writings) ∧
      (c.output.done = false → c.output.discovery =
        (Discovery.start (.list [.str discoveryIp])).run (steps.filterMap CaptureStep.search)) ∧
      (c.output.done = true → c.output.discovery.Over) ∧
      match c.output.outFile with
      | none => writings = []
      | some file => ∃ (writing : Writing ℕ) (k : ℕ) (cand : Candidate) (image : List Bytes) (last : ℕ),
          writings.getLast? = some writing ∧ c.candidates[k]? = some cand ∧
            writing.contents image.flatten = some file ∧ (writing = .whole → cand.session.connected = false) ∧
            Assembled (((Capture.start discoveryIp).data k steps).map Delivery.msg) image last := by
  intro c writings
  have hsound : c.Sound discoveryIp (fun k => (Capture.start discoveryIp).data k steps)
      (steps.filterMap CaptureStep.search) writings := capture_sound discoveryIp steps
  refine ⟨hsound.done, hsound.searching, hsound.shut, ?_⟩
  cases hfile : c.output.outFile with
  | none => exact hsound.nothing hfile
  | some file =>
    obtain ⟨writing, k, cand, image, hlast, hcand, himage, hcontents, hclosed⟩ := hsound.contains file hfile
    have hcandidate := hsound.candidates k cand hcand
    obtain ⟨last, hassembled⟩ := hcandidate.watched.assembled hcandidate.unrepaired himage
    exact ⟨writing, k, cand, image, last, hlast, hcand, hcontents, hclosed, hassembled⟩

end CamReverse
