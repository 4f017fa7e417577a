import CamReverse.Http.Bare
import CamReverse.Http.Viewers
import CamReverse.Lib.Mailbox

/-!
# The client of a stream

A `Viewer` is what a client is on its own: it waits until it is registered, then has a mailbox that the chunks of its
stream are put into, and at the end is gone. As long as the session of the camera stays, every client is such a viewer,
whatever the other clients do (`Shows.step`). So what it takes is in the order it was emitted, and complete but for
what its own queue had no place for (`Shows.run`).
-/

namespace CamReverse

open Effect

/-! ### A viewer on its own -/

/-- The client of a stream: before it registers, while it is registered, and when it has left, with the chunks it left
behind. -/
inductive Viewer where
  | preparing
  | streaming (mailbox : Mailbox Bytes)
  | left (rest : List Bytes)

/-- What a viewer notices of a step. -/
inductive Sight where
  | chunks (cs : List Bytes)
  | prepared
  | take
  | leave

def Sight.acts : Sight → List (Mailbox.Act Bytes)
  | .chunks cs => cs.map .put
  | .prepared => []
  | .take => [.take]
  | .leave => []

def ChunkQueue.mailbox (queue : ChunkQueue) : Mailbox Bytes := ⟨queue.maxsize, queue.items⟩

def Viewer.step (media : Media) : Viewer → Sight → Viewer
  | .preparing, .prepared => .streaming (ChunkQueue.made media).mailbox
  | .preparing, .leave => .left []
  | .preparing, .chunks _ => .preparing
  | .preparing, .take => .preparing
  | .streaming m, .leave => .left m.items
  | .streaming m, sight => .streaming (sight.acts.foldl Mailbox.step m)
  | .left rest, _ => .left rest

/-- What the mailbox of a viewer puts out. -/
def Viewer.outputs {ω : Type} (out : Mailbox Bytes → Mailbox.Act Bytes → List ω) : Viewer → Sight → List ω
  | .streaming m, sight => Runs.outputs Mailbox.step out m sight.acts
  | _, _ => []

def Viewer.items : Viewer → List Bytes
  | .preparing => []
  | .streaming m => m.items
  | .left rest => rest

theorem step_no_chunks (media : Media) (v : Viewer) : v.step media (.chunks []) = v := by
  cases v <;> rfl

theorem Viewer.items_append_placed (media : Media) (v : Viewer) (sight : Sight) :
    v.items ++ Mailbox.placed (v.outputs Mailbox.offered sight) =
      v.outputs Mailbox.took sight ++ (v.step media sight).items := by
  cases v with
  | preparing => cases sight <;> rfl
  | streaming m =>
    have hmailbox := m.items_append_placed sight.acts
    cases sight <;> exact hmailbox
  | left rest => exact List.append_nil rest

/-! ### What the server shows -/

/-- The session whose callback a step is. -/
def Server.sessionOf (srv : Server) : ServerStep → Option ℕ
  | .ready k _ => some k
  | .datagram k _ _ => some k
  | .sessTick k _ => some k
  | .resendTick k _ => some k
  | .reconnect devId => srv.web.sessions.find? devId
  | _ => none

/-- **What a step can be**: one of a handler, a discovery, a change of the configuration, a callback of a session, or
nothing. -/
theorem step_cases (srv : Server) (step : ServerStep) :
    step.ofClient = true ∨ (∃ rinfo dev, step = .discover rinfo dev) ∨ (∃ config, step = .configure config) ∨
      (srv.sessionOf step = none ∧ srv.step step = srv) ∨
      ∃ k now c, srv.sessionOf step = some k ∧ srv.step step = srv.onSession k now c := by
  have hsession : ∀ {k now c}, srv.sessionOf step = some k → srv.step step = srv.onSession k now c →
      step.ofClient = true ∨ (∃ rinfo dev, step = .discover rinfo dev) ∨ (∃ config, step = .configure config) ∨
        (srv.sessionOf step = none ∧ srv.step step = srv) ∨
        ∃ k now c, srv.sessionOf step = some k ∧ srv.step step = srv.onSession k now c :=
    fun hof hstep => .inr (.inr (.inr (.inr ⟨_, _, _, hof, hstep⟩)))
  cases step with
  | discover rinfo dev => exact .inr (.inl ⟨rinfo, dev, rfl⟩)
  | configure config => exact .inr (.inr (.inl ⟨config, rfl⟩))
  | ready k now => exact hsession rfl rfl
  | datagram k now msg => exact hsession rfl rfl
  | sessTick k now => exact hsession rfl rfl
  | resendTick k now => exact hsession rfl rfl
  | reconnect devId =>
    cases hfind : srv.web.sessions.find? devId with
    | none => exact .inr (.inr (.inr (.inl ⟨hfind, by simp only [Server.step, Server.reconnect, hfind]⟩)))
    | some k => exact .inr (.inr (.inr (.inr ⟨k, 0, .close, hfind, by simp only [Server.step, Server.reconnect, hfind]⟩)))
  | openStream media devId => exact .inl rfl
  | prepared i => exact .inl rfl
  | take i => exact .inl rfl
  | leave i => exact .inl rfl

/-- The chunks of a stream among what a session's listeners offer. -/
def Camera.chunksFor (cam : Camera) (config : Config) (media : Media) (devId : String) (evs : List Event) :
    List Bytes :=
  (evs.filterMap (cam.chunkOf config)).flatMap fun offered =>
    if offered.1 = media ∧ cam.devId = devId then [offered.2] else []

/-- The chunks of a stream that the session `k` emitted between two states. -/
def Server.chunksBy (srv srv' : Server) (k : ℕ) (media : Media) (devId : String) : List Bytes :=
  match srv.cameras[k]? with
  | none => []
  | some cam => cam.chunksFor srv.web.config media devId (srv.emitted srv' k)

/-- The chunks of a stream that are emitted in a step. -/
def Server.chunksOf (srv : Server) (media : Media) (devId : String) (step : ServerStep) : List Bytes :=
  match srv.sessionOf step with
  | none => []
  | some k => srv.chunksBy (srv.step step) k media devId

def Server.queueOf (srv : Server) (i : ℕ) : Option ChunkQueue :=
  match srv.clients[i]? with
  | some ⟨_, _, .streaming q⟩ => srv.web.chunks[q]?
  | _ => none

/-- What the handler `i` takes from its queue in a step. -/
def Server.takenBy (srv : Server) (i : ℕ) : ServerStep → List Bytes
  | .take j => if j = i then ((srv.queueOf i).bind fun queue => queue.items.head?).toList else []
  | _ => []

/-- The chunks put into a queue one after the other, each with whether there is a place for it. -/
def ChunkQueue.offers : ChunkQueue → List Bytes → List (Bytes × Bool) :=
  Runs.outputs (fun queue chunk => queue.putNowait chunk) fun queue chunk =>
    [(chunk, decide (queue.items.length < queue.maxsize))]

/-- The chunks of its stream that are emitted in a step while the handler `i` is streaming, each with whether its queue
has a place for it. -/
def Server.offersTo (srv : Server) (i : ℕ) (step : ServerStep) : List (Bytes × Bool) :=
  match srv.clients[i]?, srv.queueOf i with
  | some c, some queue => queue.offers (srv.chunksOf c.media c.devId step)
  | _, _ => []

/-- What the handler `i`, of this stream, notices of a step. -/
def Server.sight (srv : Server) (i : ℕ) (media : Media) (devId : String) : ServerStep → Sight
  | .prepared j => if j = i then .prepared else .chunks []
  | .take j => if j = i then .take else .chunks []
  | .leave j => if j = i then .leave else .chunks []
  | step => .chunks (srv.chunksOf media devId step)

/-- The handler `i`, of this stream, is such a viewer. While it is streaming, its queue is on the list. -/
def Server.Shows (srv : Server) (i : ℕ) (media : Media) (devId : String) : Viewer → Prop
  | .preparing => srv.clients[i]? = some ⟨media, devId, .preparing⟩
  | .streaming m => ∃ q queue, srv.clients[i]? = some ⟨media, devId, .streaming q⟩ ∧
      q ∈ srv.web.registered media devId ∧ srv.web.chunks[q]? = some queue ∧ queue.mailbox = m
  | .left _ => ∃ raised, srv.clients[i]? = some ⟨media, devId, .left raised⟩

theorem Server.Shows.congr {srv srv' : Server} {i : ℕ} {media : Media} {devId : String} {v : Viewer}
    (h : srv.Shows i media devId v) (hclient : srv'.clients[i]? = srv.clients[i]?)
    (hqueue : ∀ q, srv.clients[i]? = some ⟨media, devId, .streaming q⟩ → q ∈ srv.web.registered media devId →
      q ∈ srv'.web.registered media devId ∧ srv'.web.chunks[q]? = srv.web.chunks[q]?) :
    srv'.Shows i media devId v := by
  cases v with
  | preparing => exact hclient.trans h
  | streaming m =>
    obtain ⟨q, queue, hi, hq, hqueue', hm⟩ := h
    obtain ⟨hq', hsame⟩ := hqueue q hi hq
    exact ⟨q, queue, hclient.trans hi, hq', hsame.trans hqueue', hm⟩
  | left rest => exact h.imp fun raised hi => hclient.trans hi

/-! ### The queue of a handler -/

theorem mailbox_putAll (queue : ChunkQueue) (cs : List Bytes) :
    (queue.putAll cs).mailbox = (Sight.chunks cs).acts.foldl Mailbox.step queue.mailbox := by
  unfold Sight.acts ChunkQueue.putAll
  induction cs generalizing queue with
  | nil => rfl
  | cons chunk cs ih => exact ih (queue.putNowait chunk)

theorem offers_mailbox (queue : ChunkQueue) (cs : List Bytes) :
    queue.offers cs = Runs.outputs Mailbox.step Mailbox.offered queue.mailbox (Sight.chunks cs).acts := by
  unfold Sight.acts ChunkQueue.offers
  induction cs generalizing queue with
  | nil => rfl
  | cons chunk cs ih => exact congrArg (_ :: ·) (ih (queue.putNowait chunk))

theorem QueuesInv.count_registered {srv : Server} (h : QueuesInv srv) {i : ℕ} {media : Media} {devId : String}
    {q : ℕ} (hi : srv.clients[i]? = some ⟨media, devId, .streaming q⟩) (hq : q ∈ srv.web.registered media devId)
    (media' : Media) (devId' : String) :
    (srv.web.registered media' devId').count q = if media' = media ∧ devId' = devId then 1 else 0 := by
  split_ifs with hsame
  · rw [hsame.1, hsame.2]
    exact List.count_eq_one_of_mem (h.nodup media devId) hq
  · refine List.count_eq_zero.2 fun hmem => hsame ?_
    obtain ⟨j, hj⟩ := h.owned media' devId' q hmem
    rw [h.distinct j i media' devId' media devId q hj hi, hi] at hj
    cases hj
    exact ⟨rfl, rfl⟩

theorem QueuesInv.getElem?_heard {srv : Server} (h : QueuesInv srv) {i : ℕ} {media : Media} {devId : String}
    {q : ℕ} (hi : srv.clients[i]? = some ⟨media, devId, .streaming q⟩) (hq : q ∈ srv.web.registered media devId)
    (cam : Camera) (evs : List Event) :
    (cam.heard srv.web evs).chunks[q]? =
      srv.web.chunks[q]?.map fun queue => queue.putAll (cam.chunksFor srv.web.config media devId evs) := by
  have hput : ∀ offered : Media × Bytes,
      List.replicate ((srv.web.registered offered.1 cam.devId).count q) offered.2 =
        if offered.1 = media ∧ cam.devId = devId then [offered.2] else [] := by
    intro offered
    rw [h.count_registered hi hq]
    split_ifs <;> rfl
  rw [CamReverse.getElem?_heard]
  simp only [hput]
  rfl

theorem Server.Shows.onSession {srv : Server} (hinv : QueuesInv srv) {i : ℕ} {media : Media} {devId : String}
    {v : Viewer} (h : srv.Shows i media devId v) (k : ℕ) (now : ℚ) (c : Callback) :
    (srv.onSession k now c).Shows i media devId
      (v.step media (.chunks (srv.chunksBy (srv.onSession k now c) k media devId))) := by
  unfold Server.chunksBy
  rcases onSession_cases srv k now c with hsame | ⟨cam, evs, s, running, hcam, -, -, hsent, -, hstep⟩ |
    ⟨cam, evs, s, hcam, -, -, -, hstep⟩
  · rw [hsame, emitted_same rfl]
    cases srv.cameras[k]? <;> exact (step_no_chunks media v).symm ▸ h
  · have hno : cam.chunksFor srv.web.config media devId evs = [] := by
      unfold Camera.chunksFor
      rw [List.filterMap_eq_nil_iff.2]
      · rfl
      · intro ev hev
        obtain ⟨m, rfl⟩ := hsent ev hev
        rfl
    rw [hstep, hcam, show srv.emitted (srv.setSession k cam s evs) k = evs from
      emitted_setSession hcam s evs srv.web]
    dsimp only
    rw [hno, step_no_chunks]
    exact h.congr rfl fun q _ hq => ⟨hq, rfl⟩
  · rw [hstep, hcam, emitted_setSession hcam]
    dsimp only
    cases v with
    | preparing => exact h
    | streaming m =>
      obtain ⟨q, queue, hi, hq, hqueue, rfl⟩ := h
      refine ⟨q, queue.putAll (cam.chunksFor srv.web.config media devId evs), hi, hq, ?_, mailbox_putAll _ _⟩
      refine (hinv.getElem?_heard hi hq cam evs).trans ?_
      rw [hqueue, Option.map_some]
    | left rest => exact h

/-! ### The steps of the server -/

/-- A camera with a session has its lists of queues. -/
def Server.Listed (srv : Server) : Prop :=
  ∀ devId, (srv.web.sessions.find? devId).isSome → ∀ media, ((srv.web.queues media).find? devId).isSome

theorem listed_start (config : Config) : (Server.start config).Listed := fun _ h => nomatch h

theorem listed_bare (srv : Server) : srv.bare.Listed ↔ srv.Listed := by
  refine forall_congr' fun devId => imp_congr_right fun _ => forall_congr' fun media => ?_
  rw [show (srv.bare.web.queues media).find? devId = _ from Table.find?_map _ _ _, Option.isSome_map]

theorem Server.Listed.onSession {srv : Server} (h : srv.Listed) (k : ℕ) (now : ℚ) (c : Callback) :
    (srv.onSession k now c).Listed := by
  obtain ⟨-, hsessions, -⟩ := onSession_keeps srv k now c
  intro devId hdev media
  obtain ⟨k', hk'⟩ := Option.isSome_iff_exists.1 hdev
  rw [(onSession_leaves srv k now c).1]
  exact h devId (by rw [hsessions devId k' hk']; rfl) media

theorem Server.Listed.step {srv : Server} (h : srv.Listed) (step : ServerStep) : (srv.step step).Listed := by
  cases hclient : step.ofClient with
  | true => rwa [← listed_bare, bare_step_client srv hclient, listed_bare]
  | false =>
    cases step with
    | discover rinfo dev =>
      show (final (onDiscover rinfo dev) srv).Listed
      cases hknown : srv.web.sessions.find? dev.devId with
      | some k => rwa [discover_known (by rw [hknown]; rfl)]
      | none =>
        obtain ⟨config, audioAttached, hnew⟩ := discover_new hknown rinfo
        rw [hnew]
        intro devId hdev media
        change ((srv.web.sessions.insert dev.devId srv.cameras.length).find? devId).isSome at hdev
        show (((srv.web.queues media).insert dev.devId []).find? devId).isSome
        rw [Table.find?_insert] at hdev ⊢
        split_ifs at hdev ⊢
        · rfl
        · exact h devId hdev media
    | ready k now => exact h.onSession k now _
    | datagram k now msg => exact h.onSession k now _
    | sessTick k now => exact h.onSession k now _
    | resendTick k now => exact h.onSession k now _
    | reconnect devId =>
      show (srv.reconnect devId).Listed
      unfold Server.reconnect
      split
      · exact h
      · exact h.onSession _ 0 .close
    | configure config => exact h
    | openStream media devId => cases hclient
    | prepared i => cases hclient
    | take i => cases hclient
    | leave i => cases hclient

theorem Server.Shows.client {srv : Server} {i : ℕ} {media : Media} {devId : String} {v : Viewer}
    (h : srv.Shows i media devId v) : ∃ phase, srv.clients[i]? = some ⟨media, devId, phase⟩ := by
  cases v with
  | preparing => exact ⟨_, h⟩
  | streaming m =>
    obtain ⟨q, queue, hi, -⟩ := h
    exact ⟨_, hi⟩
  | left rest => exact h.imp' Phase.left fun _ hi => hi

theorem Server.Shows.setPhase_other {srv : Server} {i j : ℕ} (hij : i ≠ j) {media : Media} {devId : String}
    {v : Viewer} (h : srv.Shows i media devId v) (phase : Phase) : (srv.setPhase j phase).Shows i media devId v := by
  refine h.congr ?_ fun q _ hq => ⟨hq, rfl⟩
  exact List.getElem?_modify_ne _ _ hij.symm

theorem Server.Shows.openStream {srv : Server} {i : ℕ} {media : Media} {devId : String} {v : Viewer}
    (h : srv.Shows i media devId v) (media' : Media) (devId' : String) :
    (srv.openStream media' devId').Shows i media devId v := by
  obtain ⟨phase, hi⟩ := h.client
  unfold Server.openStream
  split
  · exact h
  · split_ifs
    · exact h.congr (List.getElem?_append_left (List.getElem?_eq_some_iff.1 hi).1) fun q _ hq => ⟨hq, rfl⟩
    · exact h

theorem Server.Shows.prepared_other {srv : Server} (hinv : QueuesInv srv) {i j : ℕ} (hij : i ≠ j) {media : Media}
    {devId : String} {v : Viewer} (h : srv.Shows i media devId v) : (srv.prepared j).Shows i media devId v := by
  unfold Server.prepared
  cases hj : srv.clients[j]? with
  | none => exact h
  | some c =>
    dsimp only
    split_ifs
    · cases hqs : (srv.web.queues c.media).find? c.devId with
      | none =>
        rw [Server.appendQueue, hqs]
        exact h.setPhase_other hij _
      | some qs =>
        obtain ⟨hclients, hregistered, -⟩ := appendQueue_registers hj hqs
        refine h.congr ((hclients i).trans (if_neg hij)) fun q hi hq => ⟨?_, ?_⟩
        · rw [hregistered]
          split_ifs
          · exact List.mem_append_left _ hq
          · exact hq
        · rw [Server.appendQueue, hqs]
          exact List.getElem?_append_left (hinv.made i media devId q hi)
    · exact h

theorem Server.Shows.take_other {srv : Server} (hinv : QueuesInv srv) {i j : ℕ} (hij : i ≠ j) {media : Media}
    {devId : String} {v : Viewer} (h : srv.Shows i media devId v) : (srv.take j).Shows i media devId v := by
  unfold Server.take
  split
  · rename_i media' devId' q' hj
    refine h.congr rfl fun q hi hq => ⟨hq, ?_⟩
    refine List.getElem?_modify_ne _ _ fun hqq => hij ?_
    rw [hqq] at hj
    exact hinv.distinct i j media devId media' devId' q hi hj
  · exact h

theorem Server.Shows.leave_other {srv : Server} (hinv : QueuesInv srv) {i j : ℕ} (hij : i ≠ j) {media : Media}
    {devId : String} {v : Viewer} (h : srv.Shows i media devId v) : (srv.leave j).Shows i media devId v := by
  cases hj : srv.clients[j]? with
  | none =>
    unfold Server.leave
    rw [hj]
    exact h
  | some c =>
    obtain ⟨media', devId', phase⟩ := c
    cases phase with
    | preparing =>
      unfold Server.leave
      rw [hj]
      exact h.setPhase_other hij _
    | streaming q' =>
      by_cases hq' : q' ∈ srv.web.registered media' devId'
      · obtain ⟨hclients, hregistered, -⟩ := removeQueue_unregisters hj hq'
        refine h.congr ((hclients i).trans (if_neg hij)) fun q hi hq => ⟨?_, ?_⟩
        · rw [hregistered]
          split_ifs
          · refine (List.mem_erase_of_ne fun hqq => hij ?_).2 hq
            rw [← hqq] at hj
            exact hinv.distinct i j media devId media' devId' q hi hj
          · exact hq
        · unfold Server.leave Server.removeQueue
          rw [hj]
          dsimp only
          split
          · rfl
          · split_ifs <;> rfl
      · obtain ⟨e, hleft⟩ := leave_unregistered hj hq'
        rw [hleft]
        exact h.setPhase_other hij _
    | left raised =>
      unfold Server.leave
      rw [hj]
      exact h

theorem Server.Shows.prepared {srv : Server} (hlisted : srv.Listed) {i : ℕ} {media : Media} {devId : String}
    {v : Viewer} (h : srv.Shows i media devId v) (hplace : (srv.web.sessions.find? devId).isSome) :
    (srv.prepared i).Shows i media devId (v.step media .prepared) := by
  cases v with
  | preparing =>
    obtain ⟨qs, hqs⟩ := Option.isSome_iff_exists.1 (hlisted devId hplace media)
    obtain ⟨hclients, hregistered, -⟩ := appendQueue_registers h hqs
    have hprepared : srv.prepared i = srv.appendQueue i ⟨media, devId, .preparing⟩ := by
      rw [Server.prepared, show srv.clients[i]? = _ from h]
      exact if_pos rfl
    rw [hprepared]
    refine ⟨_, _, (hclients i).trans (if_pos rfl), ?_, ?_, rfl⟩
    · rw [hregistered, if_pos ⟨rfl, rfl⟩]
      exact List.mem_append_right _ (List.mem_singleton_self _)
    · rw [Server.appendQueue, hqs]
      exact List.getElem?_concat_length
  | streaming m =>
    obtain ⟨q, queue, hi, hshows⟩ := h
    rw [Server.prepared, hi]
    exact ⟨q, queue, hi, hshows⟩
  | left rest =>
    obtain ⟨raised, hi⟩ := h
    rw [Server.prepared, hi]
    exact ⟨raised, hi⟩

theorem Server.Shows.take {srv : Server} {i : ℕ} {media : Media} {devId : String} {v : Viewer}
    (h : srv.Shows i media devId v) : (srv.take i).Shows i media devId (v.step media .take) := by
  cases v with
  | preparing =>
    rw [Server.take, show srv.clients[i]? = _ from h]
    exact h
  | streaming m =>
    obtain ⟨q, queue, hi, hq, hqueue, rfl⟩ := h
    rw [Server.take, hi]
    refine ⟨q, { queue with items := queue.items.tail }, hi, hq, ?_, rfl⟩
    refine (List.getElem?_modify_eq _ _ _).trans ?_
    rw [hqueue]
    rfl
  | left rest =>
    obtain ⟨raised, hi⟩ := h
    rw [Server.take, hi]
    exact ⟨raised, hi⟩

theorem Server.Shows.leave {srv : Server} {i : ℕ} {media : Media} {devId : String} {v : Viewer}
    (h : srv.Shows i media devId v) : (srv.leave i).Shows i media devId (v.step media .leave) := by
  cases v with
  | preparing =>
    rw [Server.leave, show srv.clients[i]? = _ from h]
    exact ⟨none, (getElem?_setPhase h _ i).trans (if_pos rfl)⟩
  | streaming m =>
    obtain ⟨q, queue, hi, hq, -⟩ := h
    exact ⟨none, ((removeQueue_unregisters hi hq).1 i).trans (if_pos rfl)⟩
  | left rest =>
    obtain ⟨raised, hi⟩ := h
    rw [Server.leave, hi]
    exact ⟨raised, hi⟩

theorem Server.Shows.discover {srv : Server} {i : ℕ} {media : Media} {devId : String} {v : Viewer}
    (h : srv.Shows i media devId v) (hplace : (srv.web.sessions.find? devId).isSome) (rinfo : String × ℕ)
    (dev : DevSerial) : (final (onDiscover rinfo dev) srv).Shows i media devId v := by
  cases hknown : srv.web.sessions.find? dev.devId with
  | some k => rwa [discover_known (by rw [hknown]; rfl)]
  | none =>
    obtain ⟨config, audioAttached, hnew⟩ := discover_new hknown rinfo
    have hne : devId ≠ dev.devId := fun hsame => by
      rw [hsame, hknown] at hplace
      cases hplace
    rw [hnew]
    refine h.congr rfl fun q _ hq => ⟨?_, rfl⟩
    rwa [registered_discovered, if_neg hne]

/-- **A step of the server** shows the viewer what it notices. -/
theorem Server.Shows.step {srv : Server} (hinv : QueuesInv srv) (hlisted : srv.Listed) {i : ℕ} {media : Media}
    {devId : String} {v : Viewer} (h : srv.Shows i media devId v) (step : ServerStep)
    (hplace : step.ofClient = true ∧ step ≠ .prepared i ∨ (srv.web.sessions.find? devId).isSome) :
    (srv.step step).Shows i media devId (v.step media (srv.sight i media devId step)) := by
  have hother : ∀ {srv' : Server}, srv'.Shows i media devId v →
      srv'.Shows i media devId (v.step media (.chunks [])) := fun h' => by rwa [step_no_chunks]
  cases step with
  | discover rinfo dev =>
    exact hother (h.discover (hplace.resolve_left fun hclient => Bool.false_ne_true hclient.1) rinfo dev)
  | ready k now => exact h.onSession hinv k now _
  | datagram k now msg => exact h.onSession hinv k now _
  | sessTick k now => exact h.onSession hinv k now _
  | resendTick k now => exact h.onSession hinv k now _
  | reconnect devId' =>
    show (srv.reconnect devId').Shows i media devId (v.step media (.chunks (srv.chunksOf media devId _)))
    rw [Server.chunksOf, Server.sessionOf, Server.step]
    unfold Server.reconnect
    cases srv.web.sessions.find? devId' with
    | none => exact hother h
    | some k => exact h.onSession hinv k 0 .close
  | configure config => exact hother (h.congr rfl fun q _ hq => ⟨hq, rfl⟩)
  | openStream media' devId' => exact hother (h.openStream media' devId')
  | prepared j =>
    show (srv.prepared j).Shows i media devId (v.step media (if j = i then .prepared else .chunks []))
    split_ifs with hji
    · rw [hji] at hplace ⊢
      exact h.prepared hlisted (hplace.resolve_left fun hclient => hclient.2 rfl)
    · exact hother (h.prepared_other hinv (Ne.symm hji))
  | take j =>
    show (srv.take j).Shows i media devId (v.step media (if j = i then .take else .chunks []))
    split_ifs with hji
    · exact hji ▸ h.take
    · exact hother (h.take_other hinv (Ne.symm hji))
  | leave j =>
    show (srv.leave j).Shows i media devId (v.step media (if j = i then .leave else .chunks []))
    split_ifs with hji
    · exact hji ▸ h.leave
    · exact hother (h.leave_other hinv (Ne.symm hji))

/-! ### What a client gets -/

theorem outputs_took_chunks (m : Mailbox Bytes) (cs : List Bytes) :
    Runs.outputs Mailbox.step Mailbox.took m (Sight.chunks cs).acts = [] := by
  unfold Sight.acts
  induction cs generalizing m with
  | nil => rfl
  | cons chunk cs ih => exact ih (m.step (.put chunk))

theorem Server.Shows.queueOf {srv : Server} {i : ℕ} {media : Media} {devId : String} {m : Mailbox Bytes}
    (h : srv.Shows i media devId (.streaming m)) :
    ∃ queue, srv.queueOf i = some queue ∧ queue.mailbox = m := by
  obtain ⟨q, queue, hi, -, hqueue, hm⟩ := h
  refine ⟨queue, ?_, hm⟩
  rw [Server.queueOf, hi]
  exact hqueue

theorem Server.Shows.queueOf_none {srv : Server} {i : ℕ} {media : Media} {devId : String} {v : Viewer}
    (h : srv.Shows i media devId v) (hv : ∀ m, v ≠ .streaming m) : srv.queueOf i = none := by
  unfold Server.queueOf
  cases v with
  | preparing => rw [show srv.clients[i]? = _ from h]
  | streaming m => exact absurd rfl (hv m)
  | left rest =>
    obtain ⟨raised, hi⟩ := h
    rw [hi]

theorem Server.Shows.takenBy {srv : Server} {i : ℕ} {media : Media} {devId : String} {v : Viewer}
    (h : srv.Shows i media devId v) (step : ServerStep) :
    srv.takenBy i step = v.outputs Mailbox.took (srv.sight i media devId step) := by
  have hchunks : ∀ cs, v.outputs Mailbox.took (.chunks cs) = [] := fun cs => by
    cases v with
    | streaming m => exact outputs_took_chunks m cs
    | preparing => rfl
    | left rest => rfl
  cases step with
  | take j =>
    show (if j = i then ((srv.queueOf i).bind fun queue => queue.items.head?).toList else []) =
      v.outputs Mailbox.took (if j = i then .take else .chunks [])
    split_ifs
    · cases v with
      | streaming m =>
        obtain ⟨queue, hqueue, rfl⟩ := h.queueOf
        rw [hqueue]
        exact (List.append_nil _).symm
      | preparing =>
        rw [h.queueOf_none (by simp)]
        rfl
      | left rest =>
        rw [h.queueOf_none (by simp)]
        rfl
    · exact (hchunks []).symm
  | prepared j =>
    show [] = v.outputs Mailbox.took (if j = i then .prepared else .chunks [])
    split_ifs
    · cases v <;> rfl
    · exact (hchunks []).symm
  | leave j =>
    show [] = v.outputs Mailbox.took (if j = i then .leave else .chunks [])
    split_ifs
    · cases v <;> rfl
    · exact (hchunks []).symm
  | _ => exact (hchunks _).symm

theorem Server.Shows.offersTo {srv : Server} {i : ℕ} {media : Media} {devId : String} {v : Viewer}
    (h : srv.Shows i media devId v) (step : ServerStep) :
    srv.offersTo i step = v.outputs Mailbox.offered (srv.sight i media devId step) := by
  obtain ⟨phase, hi⟩ := h.client
  unfold Server.offersTo
  rw [hi]
  cases v with
  | streaming m =>
    obtain ⟨queue, hqueue, rfl⟩ := h.queueOf
    have hchunks : ∀ cs, queue.offers cs = (Viewer.streaming queue.mailbox).outputs Mailbox.offered (.chunks cs) :=
      offers_mailbox queue
    rw [hqueue]
    cases step with
    | prepared j =>
      show [] = (Viewer.streaming queue.mailbox).outputs _ (if j = i then .prepared else .chunks [])
      split_ifs <;> rfl
    | take j =>
      show [] = (Viewer.streaming queue.mailbox).outputs _ (if j = i then .take else .chunks [])
      split_ifs <;> rfl
    | leave j =>
      show [] = (Viewer.streaming queue.mailbox).outputs _ (if j = i then .leave else .chunks [])
      split_ifs <;> rfl
    | _ => exact hchunks _
  | preparing =>
    rw [h.queueOf_none (by simp)]
    rfl
  | left rest =>
    rw [h.queueOf_none (by simp)]
    rfl

/-- The session `k` is the one of this camera. -/
def Server.InPlace (devId : String) (k : ℕ) (srv : Server) (_ : ServerStep) : Prop :=
  srv.web.sessions.find? devId = some k

instance (devId : String) (k : ℕ) (srv : Server) (step : ServerStep) : Decidable (srv.InPlace devId k step) :=
  inferInstanceAs (Decidable (_ = _))

def Server.taken (srv : Server) (i : ℕ) (steps : List ServerStep) : List Bytes :=
  Runs.outputs Server.step (fun srv step => srv.takenBy i step) srv steps

/-- The chunks of its stream that are emitted in a run while the handler `i` is streaming, each with whether its queue
has a place for it. -/
def Server.offers (srv : Server) (i : ℕ) (steps : List ServerStep) : List (Bytes × Bool) :=
  Runs.outputs Server.step (fun srv step => srv.offersTo i step) srv steps

theorem queuesInv_listed_run (config : Config) (steps : List ServerStep) :
    QueuesInv ((Server.start config).run steps) ∧ ((Server.start config).run steps).Listed :=
  ⟨queuesInv_run config steps, Runs.invariant (listed_start config) (fun _ step h => h.step step) steps⟩

/-- **A run of the server** gives a client, in order, what found a place. -/
theorem Server.Shows.run {srv : Server} (hinv : QueuesInv srv) (hlisted : srv.Listed) {i k : ℕ} {media : Media}
    {devId : String} {v : Viewer} (h : srv.Shows i media devId v) {steps : List ServerStep}
    (hplace : Runs.Guarded Server.step (Server.InPlace devId k) srv steps) :
    ∃ v', (srv.run steps).Shows i media devId v' ∧
      v.items ++ Mailbox.placed (srv.offers i steps) = srv.taken i steps ++ v'.items := by
  induction steps generalizing srv v with
  | nil => exact ⟨v, h, List.append_nil _⟩
  | cons step steps ih =>
    have hsome : (srv.web.sessions.find? devId).isSome := by
      rw [show srv.web.sessions.find? devId = some k from hplace.1]
      rfl
    obtain ⟨v', hv', hrest⟩ := ih (hinv.step step) (hlisted.step step) (h.step hinv hlisted step (.inr hsome)) hplace.2
    refine ⟨v', hv', ?_⟩
    unfold Server.offers Server.taken at hrest ⊢
    rw [Runs.outputs, Runs.outputs, Mailbox.placed_append, ← List.append_assoc, h.offersTo, h.takenBy,
      v.items_append_placed media, List.append_assoc, hrest, List.append_assoc]

end CamReverse
