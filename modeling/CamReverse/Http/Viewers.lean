import CamReverse.Http.Sessions

/-!
# Viewers across reconnects

The handler of a stream registers its queue with the camera and takes it off the list when it ends; the
listeners of a session offer their chunks to the queues on the list. A discovery that makes a session starts
with empty lists. As long as it finds no queue there, every streaming handler's queue is on its list once
(`viewers_survive`). When it does find one, that viewer is cut off: nothing is offered to it any more, and
its `remove` raises (`viewer_lost`).
-/

namespace CamReverse

open Effect

/-! ### Queues and handlers -/

theorem registered_update (web : Web) (media media' : Media) (devId devId' : String) (qs : List ℕ) :
    ({ web with queues := Function.update web.queues media ((web.queues media).insert devId qs) } :
      Web).registered media' devId' =
      if media' = media ∧ devId' = devId then qs else web.registered media' devId' := by
  unfold Web.registered
  by_cases hm : media' = media
  · subst hm
    simp only [Function.update_self, Table.find?_insert, true_and]
    split_ifs <;> rfl
  · rw [if_neg fun h => hm h.1]
    simp only [Function.update_of_ne hm]

theorem getElem?_setPhase {srv : Server} {i : ℕ} {c : Client} (hc : srv.clients[i]? = some c) (phase : Phase)
    (j : ℕ) : (srv.setPhase i phase).clients[j]? =
      if j = i then some { c with phase := phase } else srv.clients[j]? := by
  unfold Server.setPhase
  by_cases hji : j = i
  · rw [if_pos hji, hji, List.getElem?_modify_eq, hc]
    rfl
  · rw [if_neg hji, List.getElem?_modify_ne _ _ (Ne.symm hji)]

/-- What holds of the queues of a server: a queue on a list belongs to a handler that is streaming, is on
it once, and belongs to that handler alone. -/
structure QueuesInv (srv : Server) : Prop where
  owned : ∀ media devId q, q ∈ srv.web.registered media devId →
    ∃ i : ℕ, srv.clients[i]? = some ⟨media, devId, .streaming q⟩
  nodup : ∀ media devId, (srv.web.registered media devId).Nodup
  made : ∀ (i : ℕ) media devId q, srv.clients[i]? = some ⟨media, devId, .streaming q⟩ →
    q < srv.web.chunks.length
  distinct : ∀ (i j : ℕ) media devId media' devId' q, srv.clients[i]? = some ⟨media, devId, .streaming q⟩ →
    srv.clients[j]? = some ⟨media', devId', .streaming q⟩ → i = j

/-- Every handler that is streaming has its queue on the list of its camera. -/
def Server.Registered (srv : Server) : Prop :=
  ∀ (i : ℕ) media devId q, srv.clients[i]? = some ⟨media, devId, .streaming q⟩ →
    q ∈ srv.web.registered media devId

theorem queuesInv_start (config : Config) : QueuesInv (.start config) where
  owned _ _ _ h := nomatch h
  nodup _ _ := List.nodup_nil
  made _ _ _ _ h := nomatch h
  distinct _ _ _ _ _ _ _ h := nomatch h

theorem registered_start (config : Config) : (Server.start config).Registered :=
  fun _ _ _ _ h => nomatch h

/-! ### Steps that keep every stream -/

/-- In both states the same handlers stream with the same queues, and the same queues are on the lists. -/
structure SameStreams (srv srv' : Server) : Prop where
  streams : ∀ (i : ℕ) media devId q, srv'.clients[i]? = some ⟨media, devId, .streaming q⟩ ↔
    srv.clients[i]? = some ⟨media, devId, .streaming q⟩
  registered : ∀ media devId, srv'.web.registered media devId = srv.web.registered media devId
  chunks : srv'.web.chunks.length = srv.web.chunks.length

theorem SameStreams.refl (srv : Server) : SameStreams srv srv :=
  ⟨fun _ _ _ _ => Iff.rfl, fun _ _ => rfl, rfl⟩

theorem SameStreams.queuesInv {srv srv' : Server} (hs : SameStreams srv srv') (h : QueuesInv srv) :
    QueuesInv srv' where
  owned media devId q hq := by
    rw [hs.registered] at hq
    exact (h.owned media devId q hq).imp fun i hi => (hs.streams i media devId q).2 hi
  nodup media devId := by
    rw [hs.registered]
    exact h.nodup media devId
  made i media devId q hi := by
    rw [hs.chunks]
    exact h.made i media devId q ((hs.streams i media devId q).1 hi)
  distinct i j media devId media' devId' q hi hj :=
    h.distinct i j media devId media' devId' q ((hs.streams i media devId q).1 hi)
      ((hs.streams j media' devId' q).1 hj)

theorem SameStreams.registered_iff {srv srv' : Server} (hs : SameStreams srv srv') :
    srv'.Registered ↔ srv.Registered :=
  forall_congr' fun i => forall_congr' fun media => forall_congr' fun devId => forall_congr' fun q => by
    rw [hs.streams, hs.registered]

theorem length_offerAll (qs : List ℕ) (chunk : Bytes) (chunks : List ChunkQueue) :
    (offerAll qs chunk chunks).length = chunks.length := by
  unfold offerAll
  induction qs generalizing chunks with
  | nil => rfl
  | cons q qs ih => rw [List.foldl_cons, ih, List.length_modify]

theorem length_heard (cam : Camera) (web : Web) (evs : List Event) :
    (cam.heard web evs).chunks.length = web.chunks.length := by
  unfold Camera.heard
  generalize evs.filterMap (cam.chunkOf web.config) = offered
  show (offered.foldl _ web.chunks).length = web.chunks.length
  generalize web.chunks = chunks
  induction offered generalizing chunks with
  | nil => rfl
  | cons o offered ih => rw [List.foldl_cons, ih, length_offerAll]

theorem sameStreams_onSession (srv : Server) (k : ℕ) (now : ℚ) (c : Callback) :
    SameStreams srv (srv.onSession k now c) := by
  rcases onSession_cases srv k now c with hsame | ⟨cam, evs, s, running, -, -, -, -, -, hstep⟩ |
    ⟨cam, evs, s, -, -, -, -, hstep⟩
  · rw [hsame]
    exact SameStreams.refl srv
  · rw [hstep]
    exact ⟨fun _ _ _ _ => Iff.rfl, fun _ _ => rfl, rfl⟩
  · rw [hstep]
    exact ⟨fun _ _ _ _ => Iff.rfl, fun _ _ => rfl, length_heard cam srv.web evs⟩

theorem sameStreams_reconnect (srv : Server) (devId : String) : SameStreams srv (srv.reconnect devId) := by
  unfold Server.reconnect
  split
  · exact SameStreams.refl srv
  · exact sameStreams_onSession srv _ 0 .close

theorem sameStreams_setPhase {srv : Server} {i : ℕ} {c : Client} (hc : srv.clients[i]? = some c)
    {phase : Phase} (hold : ∀ q, c.phase ≠ .streaming q) (hnew : ∀ q, phase ≠ .streaming q) :
    SameStreams srv (srv.setPhase i phase) := by
  refine ⟨fun j media devId q => ?_, fun _ _ => rfl, rfl⟩
  rw [getElem?_setPhase hc]
  split_ifs with hji
  · rw [hji, hc]
    refine iff_of_false (fun h => hnew q ?_) fun h => hold q ?_
    · exact congrArg Client.phase (Option.some.inj h)
    · rw [Option.some.inj h]
  · exact Iff.rfl

theorem sameStreams_openStream (srv : Server) (media : Media) (devId : String) :
    SameStreams srv (srv.openStream media devId) := by
  unfold Server.openStream
  split
  · exact SameStreams.refl srv
  · split_ifs
    · refine ⟨fun i media' devId' q => ?_, fun _ _ => rfl, rfl⟩
      show (srv.clients ++ [(⟨media, devId, .preparing⟩ : Client)])[i]? = _ ↔ _
      rcases Nat.lt_or_ge i srv.clients.length with hlt | hge
      · rw [List.getElem?_append_left hlt]
      · rw [List.getElem?_append_right hge, List.getElem?_eq_none hge]
        cases i - srv.clients.length <;> simp
    · exact SameStreams.refl srv

theorem sameStreams_take (srv : Server) (i : ℕ) : SameStreams srv (srv.take i) := by
  unfold Server.take
  split
  · exact ⟨fun _ _ _ _ => Iff.rfl, fun _ _ => rfl, List.length_modify _ _ _⟩
  · exact SameStreams.refl srv

/-! ### Registering a queue -/

theorem appendQueue_registers {srv : Server} {i : ℕ} {c : Client} (hc : srv.clients[i]? = some c)
    {qs : List ℕ} (hqs : (srv.web.queues c.media).find? c.devId = some qs) :
    (∀ j : ℕ, (srv.appendQueue i c).clients[j]? =
      if j = i then some ⟨c.media, c.devId, .streaming srv.web.chunks.length⟩ else srv.clients[j]?) ∧
    (∀ media devId, (srv.appendQueue i c).web.registered media devId =
      if media = c.media ∧ devId = c.devId then srv.web.registered media devId ++ [srv.web.chunks.length]
      else srv.web.registered media devId) ∧
    (srv.appendQueue i c).web.chunks.length = srv.web.chunks.length + 1 := by
  unfold Server.appendQueue
  rw [hqs]
  refine ⟨fun j => getElem?_setPhase hc _ j, fun media devId => ?_,
    List.length_append⟩
  refine (registered_update _ c.media media c.devId devId _).trans ?_
  split_ifs with hsame
  · rw [hsame.1, hsame.2, Web.registered, hqs]
    rfl
  · rfl

theorem QueuesInv.appendQueue {srv : Server} (h : QueuesInv srv) {i : ℕ} {c : Client}
    (hc : srv.clients[i]? = some c) (hphase : c.phase = .preparing) {qs : List ℕ}
    (hqs : (srv.web.queues c.media).find? c.devId = some qs) : QueuesInv (srv.appendQueue i c) := by
  obtain ⟨hclients, hregistered, hlength⟩ := appendQueue_registers hc hqs
  have hother : ∀ (j : ℕ) media devId q, srv.clients[j]? = some ⟨media, devId, .streaming q⟩ →
      j ≠ i ∧ q < srv.web.chunks.length := by
    refine fun j media devId q hj => ⟨fun hji => ?_, h.made j media devId q hj⟩
    rw [hji, hc] at hj
    rw [Option.some.inj hj] at hphase
    cases hphase
  have hfresh : ∀ media devId, srv.web.chunks.length ∉ srv.web.registered media devId := by
    intro media devId hmem
    obtain ⟨j, hj⟩ := h.owned media devId _ hmem
    exact absurd (hother j media devId _ hj).2 (Nat.lt_irrefl _)
  refine ⟨fun media devId q hq => ?_, fun media devId => ?_, fun j media devId q hj => ?_,
    fun j k media devId media' devId' q hj hk => ?_⟩
  · have hcase : q ∈ srv.web.registered media devId ∨
        q = srv.web.chunks.length ∧ media = c.media ∧ devId = c.devId := by
      rw [hregistered] at hq
      split_ifs at hq with hsame
      · exact (List.mem_append.1 hq).imp id fun hq => ⟨List.mem_singleton.1 hq, hsame⟩
      · exact .inl hq
    rcases hcase with hold | ⟨rfl, rfl, rfl⟩
    · obtain ⟨j, hj⟩ := h.owned media devId q hold
      exact ⟨j, by rw [hclients, if_neg (hother j media devId q hj).1, hj]⟩
    · exact ⟨i, by rw [hclients, if_pos rfl]⟩
  · rw [hregistered]
    split_ifs
    · rw [← List.concat_eq_append]
      exact List.Nodup.concat (hfresh media devId) (h.nodup media devId)
    · exact h.nodup media devId
  · rw [hlength]
    rw [hclients] at hj
    split_ifs at hj
    · cases hj
      exact Nat.lt_succ_self _
    · exact Nat.lt_succ_of_lt (h.made j media devId q hj)
  · rw [hclients] at hj hk
    split_ifs at hj hk with hji hki hki
    · rw [hji, hki]
    · cases hj
      exact absurd (h.made k media' devId' _ hk) (Nat.lt_irrefl _)
    · cases hk
      exact absurd (h.made j media devId _ hj) (Nat.lt_irrefl _)
    · exact h.distinct j k media devId media' devId' q hj hk

theorem Server.Registered.appendQueue {srv : Server} (h : srv.Registered) {i : ℕ} {c : Client}
    (hc : srv.clients[i]? = some c) {qs : List ℕ}
    (hqs : (srv.web.queues c.media).find? c.devId = some qs) : (srv.appendQueue i c).Registered := by
  obtain ⟨hclients, hregistered, -⟩ := appendQueue_registers hc hqs
  intro j media devId q hj
  rw [hclients] at hj
  rw [hregistered]
  split_ifs at hj with hji
  · cases hj
    rw [if_pos ⟨rfl, rfl⟩]
    exact List.mem_append_right _ (List.mem_singleton.2 rfl)
  · have hmem := h j media devId q hj
    split_ifs
    · exact List.mem_append_left _ hmem
    · exact hmem

theorem prepared_spec (srv : Server) (i : ℕ) :
    SameStreams srv (srv.prepared i) ∨ ∃ c qs, srv.clients[i]? = some c ∧ c.phase = .preparing ∧
      (srv.web.queues c.media).find? c.devId = some qs ∧ srv.prepared i = srv.appendQueue i c := by
  unfold Server.prepared
  cases hc : srv.clients[i]? with
  | none => exact .inl (SameStreams.refl srv)
  | some c =>
    by_cases hphase : c.phase = .preparing
    · simp only [if_pos hphase]
      cases hqs : (srv.web.queues c.media).find? c.devId with
      | none =>
        refine .inl ?_
        unfold Server.appendQueue
        rw [hqs]
        exact sameStreams_setPhase hc (fun q => by simp [hphase]) (by simp)
      | some qs => exact .inr ⟨c, qs, rfl, hphase, hqs, rfl⟩
    · simp only [if_neg hphase]
      exact .inl (SameStreams.refl srv)

/-! ### Taking a queue off the list -/

theorem removeQueue_unregisters {srv : Server} {i : ℕ} {media : Media} {devId : String} {q : ℕ}
    (hc : srv.clients[i]? = some ⟨media, devId, .streaming q⟩) (hq : q ∈ srv.web.registered media devId) :
    (∀ j : ℕ, (srv.leave i).clients[j]? =
      if j = i then some ⟨media, devId, .left none⟩ else srv.clients[j]?) ∧
    (∀ media' devId', (srv.leave i).web.registered media' devId' =
      if media' = media ∧ devId' = devId then (srv.web.registered media' devId').erase q
      else srv.web.registered media' devId') ∧
    (srv.leave i).web.chunks.length = srv.web.chunks.length := by
  unfold Web.registered at hq
  unfold Server.leave
  simp only [hc, Server.removeQueue]
  cases hqs : (srv.web.queues media).find? devId with
  | none =>
    rw [hqs] at hq
    exact absurd hq List.not_mem_nil
  | some qs =>
    rw [hqs, Option.getD_some] at hq
    simp only [if_pos hq]
    refine ⟨fun j => getElem?_setPhase hc _ j, fun media' devId' => ?_, rfl⟩
    refine (registered_update _ media media' devId devId' _).trans ?_
    split_ifs with hsame
    · rw [hsame.1, hsame.2, Web.registered, hqs]
      rfl
    · rfl

theorem leave_unregistered {srv : Server} {i : ℕ} {media : Media} {devId : String} {q : ℕ}
    (hc : srv.clients[i]? = some ⟨media, devId, .streaming q⟩) (hq : q ∉ srv.web.registered media devId) :
    ∃ e, srv.leave i = srv.setPhase i (.left (some e)) := by
  unfold Web.registered at hq
  unfold Server.leave
  simp only [hc, Server.removeQueue]
  cases hqs : (srv.web.queues media).find? devId with
  | none => exact ⟨.keyError, rfl⟩
  | some qs =>
    rw [hqs, Option.getD_some] at hq
    exact ⟨.valueError, if_neg hq⟩

theorem QueuesInv.ends {srv srv' : Server} (h : QueuesInv srv) {i : ℕ} {media : Media} {devId : String}
    {q : ℕ} {raised : Option PyErr} (hc : srv.clients[i]? = some ⟨media, devId, .streaming q⟩)
    (hclients : ∀ j : ℕ, srv'.clients[j]? =
      if j = i then some ⟨media, devId, .left raised⟩ else srv.clients[j]?)
    (hregistered : ∀ media' devId', (srv'.web.registered media' devId').Sublist
      (srv.web.registered media' devId'))
    (hq : q ∉ srv'.web.registered media devId) (hlength : srv'.web.chunks.length = srv.web.chunks.length) :
    QueuesInv srv' where
  owned media' devId' q' hq' := by
    obtain ⟨j, hj⟩ := h.owned media' devId' q' ((hregistered media' devId').subset hq')
    refine ⟨j, ?_⟩
    rw [hclients, if_neg, hj]
    rintro rfl
    cases hc.symm.trans hj
    exact hq hq'
  nodup media' devId' := (h.nodup media' devId').sublist (hregistered media' devId')
  made j media' devId' q' hj := by
    rw [hclients] at hj
    split_ifs at hj
    · cases hj
    · rw [hlength]
      exact h.made j media' devId' q' hj
  distinct j k media₁ devId₁ media₂ devId₂ q' hj hk := by
    rw [hclients] at hj hk
    split_ifs at hj hk
    · cases hj
    · cases hj
    · cases hk
    · exact h.distinct j k media₁ devId₁ media₂ devId₂ q' hj hk

theorem leave_spec (srv : Server) (i : ℕ) :
    SameStreams srv (srv.leave i) ∨
      ∃ media devId q, srv.clients[i]? = some ⟨media, devId, .streaming q⟩ := by
  unfold Server.leave
  cases hc : srv.clients[i]? with
  | none => exact .inl (SameStreams.refl srv)
  | some c =>
    obtain ⟨media, devId, phase⟩ := c
    cases phase with
    | preparing =>
      exact .inl (sameStreams_setPhase hc (fun _ => Phase.noConfusion) fun _ => Phase.noConfusion)
    | streaming q => exact .inr ⟨media, devId, q, rfl⟩
    | left raised => exact .inl (SameStreams.refl srv)

theorem QueuesInv.leave {srv : Server} (h : QueuesInv srv) (i : ℕ) : QueuesInv (srv.leave i) := by
  rcases leave_spec srv i with hsame | ⟨media, devId, q, hc⟩
  · exact hsame.queuesInv h
  · by_cases hq : q ∈ srv.web.registered media devId
    · obtain ⟨hclients, hregistered, hlength⟩ := removeQueue_unregisters hc hq
      refine h.ends hc hclients (fun media' devId' => ?_) ?_ hlength
      · rw [hregistered]
        split_ifs
        · exact List.erase_sublist
        · exact List.Sublist.refl _
      · rw [hregistered, if_pos ⟨rfl, rfl⟩]
        exact (h.nodup media devId).not_mem_erase
    · obtain ⟨e, hleft⟩ := leave_unregistered hc hq
      rw [hleft]
      exact h.ends hc (getElem?_setPhase hc _) (fun _ _ => List.Sublist.refl _) hq rfl

theorem Server.Registered.leave {srv : Server} (h : srv.Registered) (hinv : QueuesInv srv) (i : ℕ) :
    (srv.leave i).Registered := by
  rcases leave_spec srv i with hsame | ⟨media, devId, q, hc⟩
  · exact hsame.registered_iff.2 h
  · obtain ⟨hclients, hregistered, -⟩ := removeQueue_unregisters hc (h i media devId q hc)
    intro j media' devId' q' hj
    rw [hclients] at hj
    split_ifs at hj with hji
    · cases hj
    · have hmem := h j media' devId' q' hj
      rw [hregistered]
      split_ifs
      · refine (List.mem_erase_of_ne fun hqq => hji ?_).2 hmem
        rw [hqq] at hj
        exact hinv.distinct j i media' devId' media devId q hj hc
      · exact hmem

/-! ### Discoveries -/

theorem registered_discovered (srv : Server) (rinfo : String × ℕ) (dev : DevSerial) (config : Config)
    (attached audioAttached : Bool) (media : Media) (devId : String) :
    (srv.discovered rinfo dev config attached audioAttached).web.registered media devId =
      if devId = dev.devId then [] else srv.web.registered media devId := by
  show (((srv.web.queues media).insert dev.devId []).find? devId).getD [] = _
  rw [Table.find?_insert]
  split_ifs <;> rfl

/-- A discovery in this step that makes a session finds no queue on the lists of the camera. -/
def Server.Unwatched (srv : Server) (step : ServerStep) : Prop :=
  ∀ dev ∈ step.discovers, srv.web.sessions.find? dev.devId = none →
    srv.web.registered .video dev.devId = [] ∧ srv.web.registered .audio dev.devId = []

instance (srv : Server) (step : ServerStep) : Decidable (srv.Unwatched step) :=
  inferInstanceAs (Decidable (∀ dev ∈ step.discovers, _ → _))

theorem QueuesInv.discover {srv : Server} (h : QueuesInv srv) (rinfo : String × ℕ) (dev : DevSerial) :
    QueuesInv (final (onDiscover rinfo dev) srv) := by
  cases hknown : srv.web.sessions.find? dev.devId with
  | some k =>
    rw [discover_known (by rw [hknown]; rfl)]
    exact h
  | none =>
    obtain ⟨config, audioAttached, hnew⟩ := discover_new hknown rinfo
    rw [hnew]
    refine ⟨fun media devId q hq => ?_, fun media devId => ?_, h.made, h.distinct⟩
    · rw [registered_discovered] at hq
      split_ifs at hq
      · exact absurd hq List.not_mem_nil
      · exact h.owned media devId q hq
    · rw [registered_discovered]
      split_ifs
      · exact List.nodup_nil
      · exact h.nodup media devId

/-- **A discovery keeps every viewer** exactly when it finds no queue on the lists of its camera. -/
theorem Server.Registered.discover_iff {srv : Server} (h : srv.Registered) (hinv : QueuesInv srv)
    (rinfo : String × ℕ) (dev : DevSerial) :
    (final (onDiscover rinfo dev) srv).Registered ↔ srv.Unwatched (.discover rinfo dev) := by
  cases hknown : srv.web.sessions.find? dev.devId with
  | some k =>
    rw [discover_known (by rw [hknown]; rfl)]
    refine iff_of_true h fun dev' hdev' hnone => ?_
    obtain rfl := Option.some.inj hdev'
    rw [hknown] at hnone
    cases hnone
  | none =>
    obtain ⟨config, audioAttached, hnew⟩ := discover_new hknown rinfo
    rw [hnew]
    constructor
    · intro hafter dev' hdev' _
      obtain rfl := Option.some.inj hdev'
      have hempty : ∀ media, srv.web.registered media dev.devId = [] := by
        refine fun media => List.eq_nil_iff_forall_not_mem.2 fun q hq => ?_
        obtain ⟨i, hi⟩ := hinv.owned media dev.devId q hq
        have hmem := hafter i media dev.devId q hi
        rw [registered_discovered, if_pos rfl] at hmem
        exact absurd hmem List.not_mem_nil
      exact ⟨hempty .video, hempty .audio⟩
    · intro hunwatched i media devId q hi
      obtain ⟨hvideo, haudio⟩ := hunwatched dev rfl hknown
      have hmem := h i media devId q hi
      rw [registered_discovered]
      split_ifs with hsame
      · rw [hsame] at hmem
        cases media with
        | video => rwa [hvideo] at hmem
        | audio => rwa [haudio] at hmem
      · exact hmem

/-! ### Runs -/

theorem QueuesInv.step {srv : Server} (h : QueuesInv srv) (step : ServerStep) :
    QueuesInv (srv.step step) := by
  cases step with
  | discover rinfo dev => exact h.discover rinfo dev
  | ready k now => exact (sameStreams_onSession srv k now _).queuesInv h
  | datagram k now msg => exact (sameStreams_onSession srv k now _).queuesInv h
  | sessTick k now => exact (sameStreams_onSession srv k now _).queuesInv h
  | resendTick k now => exact (sameStreams_onSession srv k now _).queuesInv h
  | reconnect devId => exact (sameStreams_reconnect srv devId).queuesInv h
  | configure config =>
    have hsame : SameStreams srv (srv.step (.configure config)) :=
      ⟨fun _ _ _ _ => Iff.rfl, fun _ _ => rfl, rfl⟩
    exact hsame.queuesInv h
  | openStream media devId => exact (sameStreams_openStream srv media devId).queuesInv h
  | prepared i =>
    rcases prepared_spec srv i with hsame | ⟨c, qs, hc, hphase, hqs, hprepared⟩
    · exact hsame.queuesInv h
    · show QueuesInv (srv.prepared i)
      rw [hprepared]
      exact h.appendQueue hc hphase hqs
  | take i => exact (sameStreams_take srv i).queuesInv h
  | leave i => exact h.leave i

theorem Server.Registered.step {srv : Server} (h : srv.Registered) (hinv : QueuesInv srv) {step : ServerStep}
    (hstep : step.discovers = none) : (srv.step step).Registered := by
  cases step with
  | discover rinfo dev => cases hstep
  | ready k now => exact (sameStreams_onSession srv k now _).registered_iff.2 h
  | datagram k now msg => exact (sameStreams_onSession srv k now _).registered_iff.2 h
  | sessTick k now => exact (sameStreams_onSession srv k now _).registered_iff.2 h
  | resendTick k now => exact (sameStreams_onSession srv k now _).registered_iff.2 h
  | reconnect devId => exact (sameStreams_reconnect srv devId).registered_iff.2 h
  | configure config => exact h
  | openStream media devId => exact (sameStreams_openStream srv media devId).registered_iff.2 h
  | prepared i =>
    rcases prepared_spec srv i with hsame | ⟨c, qs, hc, -, hqs, hprepared⟩
    · exact hsame.registered_iff.2 h
    · show (srv.prepared i).Registered
      rw [hprepared]
      exact h.appendQueue hc hqs
  | take i => exact (sameStreams_take srv i).registered_iff.2 h
  | leave i => exact h.leave hinv i

theorem Server.Registered.step_iff {srv : Server} (h : srv.Registered) (hinv : QueuesInv srv)
    (step : ServerStep) : (srv.step step).Registered ↔ srv.Unwatched step := by
  cases hstep : step.discovers with
  | none =>
    refine iff_of_true (h.step hinv hstep) fun dev hdev => ?_
    rw [hstep] at hdev
    cases hdev
  | some dev =>
    cases step with
    | discover rinfo dev => exact h.discover_iff hinv rinfo dev
    | _ => cases hstep

/-- **When viewers survive reconnects**: along a run every streaming handler's queue is on the list of its
camera exactly if no discovery that makes a session finds a queue there. -/
theorem registered_iff (config : Config) (steps : List ServerStep) :
    (∀ seen rest, steps = seen ++ rest → ((Server.start config).run seen).Registered) ↔
      Runs.Guarded Server.step Server.Unwatched (.start config) steps :=
  Runs.guarded_iff (queuesInv_start config) (registered_start config) (fun _ step h => h.step step)
    (fun _ step hinv h => h.step_iff hinv step) steps

theorem queuesInv_run (config : Config) (steps : List ServerStep) :
    QueuesInv ((Server.start config).run steps) :=
  Runs.invariant (queuesInv_start config) (fun _ step h => h.step step) steps

/-! ### What is offered -/

def streamChunk (config : Config) (devId : String) : Media → Event → Option Bytes
  | .video, .frame image =>
    match assembleFrame config devId image with
    | .ok assembled => some (frameChunk assembled)
    | .error _ => none
  | .audio, .audio data => some (audioChunk data)
  | _, _ => none

/-- The chunks offered to the queue `q` between two states. -/
def Server.offered (srv srv' : Server) (q : ℕ) : List Bytes :=
  match srv.web.chunks[q]?, srv'.web.chunks[q]? with
  | some queue, some queue' => queue'.offered.drop queue.offered.length
  | _, _ => []

theorem offered_heard (cam : Camera) (web : Web) (evs : List Event) (q : ℕ) :
    (cam.heard web evs).chunks[q]?.map ChunkQueue.offered =
      web.chunks[q]?.map fun queue => queue.offered ++ (evs.filterMap (cam.chunkOf web.config)).flatMap
        fun offered => List.replicate ((web.registered offered.1 cam.devId).count q) offered.2 := by
  rw [getElem?_heard, Option.map_map]
  exact congrArg (Option.map · _) (funext fun queue => offered_putAll queue _)

theorem streamChunk_sublist {cam : Camera} {web : Web} {media : Media} {q : ℕ}
    (hq : q ∈ web.registered media cam.devId) (hattached : cam.attached = true)
    (haudio : media = .audio → cam.audioAttached = true) (evs : List Event) :
    (evs.filterMap (streamChunk web.config cam.devId media)).Sublist
      ((evs.filterMap (cam.chunkOf web.config)).flatMap fun offered =>
        List.replicate ((web.registered offered.1 cam.devId).count q) offered.2) := by
  have hchunk : ∀ ev chunk, streamChunk web.config cam.devId media ev = some chunk →
      cam.chunkOf web.config ev = some (media, chunk) := by
    intro ev chunk h
    unfold streamChunk at h
    split at h
    · simp only [Camera.chunkOf, hattached, if_true]
      cases hframe : assembleFrame web.config cam.devId _ with
      | error e =>
        rw [hframe] at h
        cases h
      | ok assembled =>
        rw [hframe] at h
        cases h
        rfl
    · cases h
      exact if_pos (haudio rfl)
    · cases h
  induction evs with
  | nil => exact List.Sublist.refl _
  | cons ev evs ih =>
    cases hev : streamChunk web.config cam.devId media ev with
    | none =>
      rw [List.filterMap_cons_none hev]
      cases hof : cam.chunkOf web.config ev with
      | none => rwa [List.filterMap_cons_none hof]
      | some o =>
        rw [List.filterMap_cons_some hof, List.flatMap_cons]
        exact ih.trans (List.sublist_append_right _ _)
    | some chunk =>
      rw [List.filterMap_cons_some hev, List.filterMap_cons_some (hchunk ev chunk hev), List.flatMap_cons,
        ← List.singleton_append]
      refine List.Sublist.append ?_ ih
      exact List.replicate_sublist_replicate _ |>.2 (List.count_pos_iff.2 hq)

/-! ### The current session -/

/-- The session `sessions` holds for a camera has its listeners. -/
def Server.Attached (srv : Server) : Prop :=
  ∀ devId k, srv.web.sessions.find? devId = some k →
    ∃ cam : Camera, srv.cameras[k]? = some cam ∧ cam.devId = devId ∧ cam.attached = true

/-- A discovery in this step that makes a session finds a mapping as the configuration of its camera, or
nothing. -/
def Server.Completes (srv : Server) (step : ServerStep) : Prop :=
  ∀ dev ∈ step.discovers, srv.web.sessions.find? dev.devId = none →
    (withCameraDefaults srv.web.config dev.devId).isOk = true

instance (srv : Server) (step : ServerStep) : Decidable (srv.Completes step) :=
  inferInstanceAs (Decidable (∀ dev ∈ step.discovers, _ → _))

theorem attached_start (config : Config) : (Server.start config).Attached := fun _ _ h => nomatch h

theorem Server.Attached.onSession {srv : Server} (h : srv.Attached) (k : ℕ) (now : ℚ) (c : Callback) :
    (srv.onSession k now c).Attached := by
  obtain ⟨hcameras, hsessions, -⟩ := onSession_keeps srv k now c
  intro devId k' hk'
  obtain ⟨cam, hcam, hdev, hattached⟩ := h devId k' (hsessions devId k' hk')
  obtain ⟨cam', hcam', hdev', hattached'⟩ := hcameras k' cam hcam
  exact ⟨cam', hcam', hdev'.trans hdev, hattached'.trans hattached⟩

theorem Server.Attached.congr {srv srv' : Server} (h : srv.Attached) (hcameras : srv'.cameras = srv.cameras)
    (hsessions : srv'.web.sessions = srv.web.sessions) : srv'.Attached := by
  unfold Server.Attached
  rw [hcameras, hsessions]
  exact h

theorem Server.Attached.discover {srv : Server} (h : srv.Attached) {rinfo : String × ℕ} {dev : DevSerial}
    (hcompletes : srv.Completes (.discover rinfo dev)) : (final (onDiscover rinfo dev) srv).Attached := by
  cases hknown : srv.web.sessions.find? dev.devId with
  | some k =>
    rw [discover_known (by rw [hknown]; rfl)]
    exact h
  | none =>
    obtain ⟨config, audioAttached, hnew⟩ := discover_new hknown rinfo
    rw [hnew, hcompletes dev rfl hknown]
    intro devId k hk
    rw [getElem?_discovered]
    change (srv.web.sessions.insert dev.devId srv.cameras.length).find? devId = some k at hk
    rw [Table.find?_insert] at hk
    split_ifs at hk with hsame
    · rw [if_pos (Option.some.inj hk).symm]
      exact ⟨_, rfl, hsame.symm, rfl⟩
    · obtain ⟨cam, hcam, hdev, hattached⟩ := h devId k hk
      rw [if_neg (List.getElem?_eq_some_iff.1 hcam).1.ne]
      exact ⟨cam, hcam, hdev, hattached⟩

theorem Server.Attached.step {srv : Server} (h : srv.Attached) {step : ServerStep}
    (hcompletes : srv.Completes step) : (srv.step step).Attached := by
  cases step with
  | discover rinfo dev => exact h.discover hcompletes
  | ready k now => exact h.onSession k now _
  | datagram k now msg => exact h.onSession k now _
  | sessTick k now => exact h.onSession k now _
  | resendTick k now => exact h.onSession k now _
  | reconnect devId =>
    show (srv.reconnect devId).Attached
    unfold Server.reconnect
    split
    · exact h
    · exact h.onSession _ 0 .close
  | configure config => exact h
  | openStream media devId =>
    exact h.congr (sameCameras_openStream srv media devId).cameras (sameCameras_openStream srv media devId).sessions
  | prepared i => exact h.congr (sameCameras_prepared srv i).cameras (sameCameras_prepared srv i).sessions
  | take i => exact h.congr (sameCameras_take srv i).cameras (sameCameras_take srv i).sessions
  | leave i => exact h.congr (sameCameras_leave srv i).cameras (sameCameras_leave srv i).sessions

/-- Between two states, what the current session of a camera emitted was offered to every handler that
streams from it; to an audio stream, if the session was made with audio on. -/
def Server.OffersAll (srv srv' : Server) : Prop :=
  ∀ (devId : String) (k i q : ℕ) (cam : Camera) (media : Media), srv.web.sessions.find? devId = some k →
    srv.cameras[k]? = some cam → srv.clients[i]? = some ⟨media, devId, .streaming q⟩ →
    (media = .audio → cam.audioAttached = true) →
    ((srv.emitted srv' k).filterMap (streamChunk srv.web.config devId media)).Sublist (srv.offered srv' q)

theorem offersAll_of_cameras {srv srv' : Server}
    (h : ∀ (k : ℕ) (cam : Camera), srv.cameras[k]? = some cam → srv'.cameras[k]? = some cam) :
    srv.OffersAll srv' := by
  intro devId k i q cam media _ hcam _ _
  rw [emitted_same ((h k cam hcam).trans hcam.symm)]
  exact List.nil_sublist _

theorem offered_setSession {srv : Server} {k : ℕ} (cam : Camera) {s : Session} {evs : List Event} {q : ℕ}
    (hq : q < srv.web.chunks.length) :
    srv.offered { srv.setSession k cam s evs with web := cam.heard srv.web evs } q =
      (evs.filterMap (cam.chunkOf srv.web.config)).flatMap fun offered =>
        List.replicate ((srv.web.registered offered.1 cam.devId).count q) offered.2 := by
  have hheard := offered_heard cam srv.web evs q
  unfold Server.offered
  rw [List.getElem?_eq_getElem hq] at hheard ⊢
  obtain ⟨queue', hqueue', hoffered⟩ := Option.map_eq_some_iff.1 hheard
  simp only [hqueue', hoffered]
  exact List.drop_left

theorem offersAll_onSession {srv : Server} (hregistered : srv.Registered) (hinv : QueuesInv srv)
    (hattached : srv.Attached) (k₀ : ℕ) (now : ℚ) (c : Callback) :
    srv.OffersAll (srv.onSession k₀ now c) := by
  intro devId k i q cam media hfind hcam hi haudio
  by_cases hkk : k = k₀
  · subst hkk
    rcases onSession_cases srv k now c with hsame | ⟨cam₀, evs, s, running, hcam₀, -, -, hsent, -, hstep⟩ |
      ⟨cam₀, evs, s, hcam₀, -, -, -, hstep⟩
    · rw [hsame, emitted_same rfl]
      exact List.nil_sublist _
    · have hnone : evs.filterMap (streamChunk srv.web.config devId media) = [] := by
        refine List.filterMap_eq_nil_iff.2 fun ev hev => ?_
        obtain ⟨m, rfl⟩ := hsent ev hev
        cases media <;> rfl
      rw [hstep, show srv.emitted (srv.setSession k cam₀ s evs) k = evs from
        emitted_setSession hcam₀ s evs srv.web, hnone]
      exact List.nil_sublist _
    · obtain ⟨cam', hcam', hdev, hatt⟩ := hattached devId k hfind
      rw [hcam] at hcam₀ hcam'
      obtain rfl := Option.some.inj hcam₀
      obtain rfl := Option.some.inj hcam'
      subst hdev
      have hmem := hregistered i media cam.devId q hi
      rw [hstep, emitted_setSession hcam, offered_setSession cam (hinv.made i media cam.devId q hi)]
      exact streamChunk_sublist hmem hatt haudio evs
  · rw [emitted_same ((onSession_keeps srv k₀ now c).2.2 k hkk)]
    exact List.nil_sublist _

theorem offersAll_step {srv : Server} (hregistered : srv.Registered) (hinv : QueuesInv srv)
    (hattached : srv.Attached) (step : ServerStep) : srv.OffersAll (srv.step step) := by
  have hsame : ∀ srv' : Server, srv'.cameras = srv.cameras → srv.OffersAll srv' :=
    fun srv' h => offersAll_of_cameras fun k cam hcam => by rw [h, hcam]
  cases step with
  | discover rinfo dev =>
    show srv.OffersAll (final (onDiscover rinfo dev) srv)
    cases hknown : srv.web.sessions.find? dev.devId with
    | some k =>
      rw [discover_known (by rw [hknown]; rfl)]
      exact hsame srv rfl
    | none =>
      obtain ⟨config, audioAttached, hnew⟩ := discover_new hknown rinfo
      rw [hnew]
      refine offersAll_of_cameras fun k cam hcam => ?_
      rw [getElem?_discovered, if_neg (List.getElem?_eq_some_iff.1 hcam).1.ne, hcam]
  | ready k now => exact offersAll_onSession hregistered hinv hattached k now _
  | datagram k now msg => exact offersAll_onSession hregistered hinv hattached k now _
  | sessTick k now => exact offersAll_onSession hregistered hinv hattached k now _
  | resendTick k now => exact offersAll_onSession hregistered hinv hattached k now _
  | reconnect devId =>
    show srv.OffersAll (srv.reconnect devId)
    unfold Server.reconnect
    split
    · exact hsame srv rfl
    · exact offersAll_onSession hregistered hinv hattached _ 0 .close
  | configure config => exact hsame _ rfl
  | openStream media devId => exact hsame _ (sameCameras_openStream srv media devId).cameras
  | prepared i => exact hsame _ (sameCameras_prepared srv i).cameras
  | take i => exact hsame _ (sameCameras_take srv i).cameras
  | leave i => exact hsame _ (sameCameras_leave srv i).cameras

/-- The discoveries of a run that do no harm. -/
def Server.Harmless (srv : Server) (step : ServerStep) : Prop := srv.Unwatched step ∧ srv.Completes step

instance (srv : Server) (step : ServerStep) : Decidable (srv.Harmless step) :=
  inferInstanceAs (Decidable (_ ∧ _))

/-- **Viewers survive reconnects** in a run in which every discovery that makes a session finds no queue on
the lists of its camera, and a mapping or nothing as its configuration: a streaming handler's queue is on
the list once, taking it off does not raise, and in the next step, whatever it is, all the current session
emits is offered to it. -/
theorem viewers_survive (config : Config) (steps : List ServerStep)
    (hharmless : Runs.Guarded Server.step Server.Harmless (.start config) steps) :
    (∀ (i : ℕ) media devId q,
      ((Server.start config).run steps).clients[i]? = some ⟨media, devId, .streaming q⟩ →
        (((Server.start config).run steps).web.registered media devId).count q = 1 ∧
        (((Server.start config).run steps).step (.leave i)).clients[i]? =
          some ⟨media, devId, .left none⟩) ∧
      ∀ step, ((Server.start config).run steps).OffersAll (((Server.start config).run steps).step step) := by
  have hinv := queuesInv_run config steps
  obtain ⟨hregistered, hattached, -⟩ : ((Server.start config).run steps).Registered ∧
      ((Server.start config).run steps).Attached ∧ QueuesInv ((Server.start config).run steps) :=
    Runs.guarded (I := fun srv => srv.Registered ∧ srv.Attached ∧ QueuesInv srv)
      ⟨registered_start config, attached_start config, queuesInv_start config⟩
      (fun srv step h hstep =>
        ⟨(h.1.step_iff h.2.2 step).2 hstep.1, h.2.1.step hstep.2, h.2.2.step step⟩) hharmless
  refine ⟨fun i media devId q hi => ?_, offersAll_step hregistered hinv hattached⟩
  have hmem := hregistered i media devId q hi
  refine ⟨List.count_eq_one_of_mem (hinv.nodup media devId) hmem, ?_⟩
  exact ((removeQueue_unregisters hi hmem).1 i).trans (if_pos rfl)

/-- A viewer of a camera that is discovered once. -/
theorem viewers_survive_once :
    (((Server.start defaultConfig).run [aDiscovery, .ready 0 7000, .openStream .video aCamera.devId,
      .prepared 0]).web.registered .video aCamera.devId).count 0 = 1 :=
  ((viewers_survive defaultConfig _ (by decide +kernel)).1 0 .video aCamera.devId 0 (by decide +kernel)).1

/-- A camera that is discovered again, after a reconnect request, while a viewer streams from it. -/
def watched : List ServerStep :=
  [aDiscovery, .ready 0 7000, .openStream .video aCamera.devId, .prepared 0, .reconnect aCamera.devId,
    aDiscovery]

/-- The viewer's handler is still streaming, its queue is on no list, and its `remove` raises. -/
theorem viewer_lost :
    ((Server.start defaultConfig).run watched).clients[0]? = some ⟨.video, aCamera.devId, .streaming 0⟩ ∧
      ((Server.start defaultConfig).run watched).web.registered .video aCamera.devId = [] ∧
      (((Server.start defaultConfig).run watched).step (.leave 0)).clients[0]? =
        some ⟨.video, aCamera.devId, .left (some .valueError)⟩ := by
  decide +kernel

end CamReverse
