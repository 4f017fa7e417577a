import CamReverse.Http.Clients

/-!
# Clients do not affect each other

In two runs that look alike to one client, who sees the steps of no other client, that client takes the same chunks
(`clients_independent`): the sessions do the same in both, as they do not see the clients at all (`bare_step`), and the
client is the same viewer in both.
-/

namespace CamReverse

/-- What the client `i` sees of a step: its own steps, under the number 0, and those of no client. -/
def ServerStep.seenBy (i : ℕ) : ServerStep → Option ServerStep
  | .openStream _ _ => none
  | .prepared j => if j = i then some (.prepared 0) else none
  | .take j => if j = i then some (.take 0) else none
  | .leave j => if j = i then some (.leave 0) else none
  | step => some step

theorem seenBy_none {i : ℕ} {step : ServerStep} (h : step.seenBy i = none) :
    step.ofClient = true ∧ step ≠ .prepared i ∧
      ∀ (srv : Server) (media : Media) (devId : String), srv.sight i media devId step = .chunks [] := by
  have hne : ∀ {j : ℕ} {seen : ServerStep}, (if j = i then some seen else none) = none → j ≠ i :=
    fun {j seen} h hji => by
      rw [if_pos hji] at h
      cases h
  cases step with
  | openStream media devId => exact ⟨rfl, by simp, fun _ _ _ => rfl⟩
  | prepared j => exact ⟨rfl, fun hji => hne h (ServerStep.prepared.inj hji), fun _ _ _ => if_neg (hne h)⟩
  | take j => exact ⟨rfl, by simp, fun _ _ _ => if_neg (hne h)⟩
  | leave j => exact ⟨rfl, by simp, fun _ _ _ => if_neg (hne h)⟩
  | _ => cases h

theorem seenBy_some {i : ℕ} {step seen : ServerStep} (h : step.seenBy i = some seen) :
    step.ofClient = seen.ofClient ∧ (seen.ofClient = false → step = seen) ∧
      ∀ (srv : Server) (media : Media) (devId : String),
        srv.sight i media devId step = srv.sight 0 media devId seen := by
  have hown : ∀ {j : ℕ} {own : ServerStep}, (if j = i then some own else none) = some seen → j = i ∧ own = seen :=
    fun {j own} h => by
      split_ifs at h with hji
      exact ⟨hji, Option.some.inj h⟩
  cases step with
  | openStream media devId => cases h
  | prepared j =>
    obtain ⟨hji, rfl⟩ := hown h
    exact ⟨rfl, nofun, fun _ _ _ => if_pos hji⟩
  | take j =>
    obtain ⟨hji, rfl⟩ := hown h
    exact ⟨rfl, nofun, fun _ _ _ => if_pos hji⟩
  | leave j =>
    obtain ⟨hji, rfl⟩ := hown h
    exact ⟨rfl, nofun, fun _ _ _ => if_pos hji⟩
  | _ =>
    obtain rfl := Option.some.inj h
    exact ⟨rfl, fun _ => rfl, fun _ _ _ => rfl⟩

theorem chunksOf_bare (srv : Server) (media : Media) (devId : String) {step : ServerStep} (h : step.ofClient = false) :
    srv.chunksOf media devId step = srv.bare.chunksOf media devId step := by
  have hcameras : (srv.step step).cameras = (srv.bare.step step).cameras := by
    rw [← bare_step srv h]
    rfl
  have hsession : srv.bare.sessionOf step = srv.sessionOf step := by cases step <;> rfl
  unfold Server.chunksOf Server.chunksBy Server.emitted
  rw [hsession, hcameras]
  rfl

theorem sight_congr {srv srv' : Server} (hbare : srv.bare = srv'.bare) (i : ℕ) (media : Media) (devId : String)
    (step : ServerStep) : srv.sight i media devId step = srv'.sight i media devId step := by
  cases hclient : step.ofClient with
  | true =>
    cases step with
    | openStream media' devId' => rfl
    | prepared j => rfl
    | take j => rfl
    | leave j => rfl
    | _ => cases hclient
  | false =>
    have hchunks : srv.chunksOf media devId step = srv'.chunksOf media devId step := by
      rw [chunksOf_bare srv media devId hclient, chunksOf_bare srv' media devId hclient, hbare]
    cases step with
    | openStream media' devId' => cases hclient
    | prepared j => cases hclient
    | take j => cases hclient
    | leave j => cases hclient
    | _ => exact congrArg Sight.chunks hchunks

/-- Two servers with the same sessions, and in each a client that is the same viewer. -/
structure Alike (i i' : ℕ) (media : Media) (devId : String) (srv srv' : Server) : Prop where
  inv : QueuesInv srv
  inv' : QueuesInv srv'
  listed : srv.Listed
  listed' : srv'.Listed
  bare : srv.bare = srv'.bare
  viewer : ∃ v, srv.Shows i media devId v ∧ srv'.Shows i' media devId v

theorem Server.Shows.unseen {srv : Server} (hinv : QueuesInv srv) (hlisted : srv.Listed) {i : ℕ} {media : Media}
    {devId : String} {v : Viewer} (h : srv.Shows i media devId v) {step : ServerStep} (hstep : step.seenBy i = none) :
    srv.takenBy i step = [] ∧ (srv.step step).Shows i media devId v ∧ (srv.step step).bare = srv.bare := by
  obtain ⟨hclient, hne, hsight⟩ := seenBy_none hstep
  have htaken := h.takenBy step
  have hshows := h.step hinv hlisted step (.inl ⟨hclient, hne⟩)
  rw [hsight] at htaken hshows
  rw [step_no_chunks] at hshows
  refine ⟨htaken.trans ?_, hshows, bare_step_client srv hclient⟩
  cases v <;> rfl

theorem Alike.left {i i' : ℕ} {media : Media} {devId : String} {srv srv' : Server}
    (h : Alike i i' media devId srv srv') {step : ServerStep} (hstep : step.seenBy i = none) :
    srv.takenBy i step = [] ∧ Alike i i' media devId (srv.step step) srv' := by
  obtain ⟨v, hv, hv'⟩ := h.viewer
  obtain ⟨htaken, hshows, hbare⟩ := hv.unseen h.inv h.listed hstep
  exact ⟨htaken, h.inv.step step, h.inv', h.listed.step step, h.listed', hbare.trans h.bare, v, hshows, hv'⟩

theorem Alike.symm {i i' : ℕ} {media : Media} {devId : String} {srv srv' : Server}
    (h : Alike i i' media devId srv srv') : Alike i' i media devId srv' srv :=
  ⟨h.inv', h.inv, h.listed', h.listed, h.bare.symm, h.viewer.imp fun _ => And.symm⟩

theorem Alike.both {i i' k : ℕ} {media : Media} {devId : String} {srv srv' : Server}
    (h : Alike i i' media devId srv srv') (hplace : srv.web.sessions.find? devId = some k)
    {step step' seen : ServerStep} (hstep : step.seenBy i = some seen) (hstep' : step'.seenBy i' = some seen) :
    srv.takenBy i step = srv'.takenBy i' step' ∧ Alike i i' media devId (srv.step step) (srv'.step step') := by
  obtain ⟨v, hv, hv'⟩ := h.viewer
  obtain ⟨hclient, hworld, hsight⟩ := seenBy_some hstep
  obtain ⟨hclient', hworld', hsight'⟩ := seenBy_some hstep'
  have hsame : srv.sight i media devId step = srv'.sight i' media devId step' := by
    rw [hsight, hsight', sight_congr h.bare]
  have hsessions : srv.web.sessions = srv'.web.sessions := by
    show srv.bare.web.sessions = srv'.bare.web.sessions
    rw [h.bare]
  have hplaced : (srv.web.sessions.find? devId).isSome := by
    rw [hplace]
    rfl
  have hshows := hv.step h.inv h.listed step (.inr hplaced)
  have hshows' := hv'.step h.inv' h.listed' step' (.inr (hsessions ▸ hplaced))
  rw [← hsame] at hshows'
  refine ⟨?_, h.inv.step step, h.inv'.step step', h.listed.step step, h.listed'.step step', ?_, _, hshows, hshows'⟩
  · rw [hv.takenBy, hv'.takenBy, hsame]
  · cases hseen : seen.ofClient with
    | true =>
      rw [bare_step_client srv (hclient.trans hseen), bare_step_client srv' (hclient'.trans hseen)]
      exact h.bare
    | false =>
      rw [hworld hseen, hworld' hseen, bare_step srv hseen, bare_step srv' hseen, h.bare]

/-- **Clients do not affect each other.** While the session of a camera stays, a client that joins takes chunks that
were emitted while it was registered, in their order and each at most once; it takes them up to one that still waits
for it, but for those that found no place in its own queue; and in every run that looks the same to it, whatever the
other clients do there, it takes the same. -/
theorem clients_independent (config : Config) {seen steps : List ServerStep} {i k : ℕ} {media : Media}
    {devId : String} (hclient : ((Server.start config).run seen).clients[i]? = some ⟨media, devId, .preparing⟩)
    (hplace : Runs.Guarded Server.step (Server.InPlace devId k) ((Server.start config).run seen) steps) :
    (((Server.start config).run seen).taken i steps).Sublist
        ((((Server.start config).run seen).offers i steps).map Prod.fst) ∧
      ((Server.start config).run seen).taken i steps <+:
        Mailbox.placed (((Server.start config).run seen).offers i steps) ∧
      (∀ q, (((Server.start config).run seen).run steps).clients[i]? = some ⟨media, devId, .streaming q⟩ →
        ∃ queue, (((Server.start config).run seen).run steps).web.chunks[q]? = some queue ∧
          Mailbox.placed (((Server.start config).run seen).offers i steps) =
            ((Server.start config).run seen).taken i steps ++ queue.items) ∧
      ∀ (seen' steps' : List ServerStep) (i' : ℕ),
        seen'.filter (!·.ofClient) = seen.filter (!·.ofClient) →
        ((Server.start config).run seen').clients[i']? = some ⟨media, devId, .preparing⟩ →
        steps'.filterMap (·.seenBy i') = steps.filterMap (·.seenBy i) →
        ((Server.start config).run seen').taken i' steps' = ((Server.start config).run seen).taken i steps := by
  obtain ⟨hinv, hlisted⟩ := queuesInv_listed_run config seen
  have hshows : ((Server.start config).run seen).Shows i media devId .preparing := hclient
  obtain ⟨v, hv, hplaced⟩ := hshows.run hinv hlisted hplace
  rw [show Viewer.preparing.items = [] from rfl, List.nil_append] at hplaced
  have hfront : ((Server.start config).run seen).taken i steps <+:
      Mailbox.placed (((Server.start config).run seen).offers i steps) := ⟨v.items, hplaced.symm⟩
  refine ⟨hfront.sublist.trans (Mailbox.placed_sublist _), hfront, fun q hq => ?_, ?_⟩
  · cases v with
    | preparing =>
      rw [show _ = _ from hv] at hq
      cases hq
    | streaming m =>
      obtain ⟨q', queue, hi, -, hqueue, rfl⟩ := hv
      rw [hi] at hq
      cases hq
      exact ⟨queue, hqueue, hplaced⟩
    | left rest =>
      obtain ⟨raised, hi⟩ := hv
      rw [hi] at hq
      cases hq
  · intro seen' steps' i' hseen hclient' hview
    obtain ⟨hinv', hlisted'⟩ := queuesInv_listed_run config seen'
    have hbare : ((Server.start config).run seen).bare = ((Server.start config).run seen').bare := by
      rw [bare_run, bare_run, hseen]
    have halike : Alike i i' media devId ((Server.start config).run seen) ((Server.start config).run seen') :=
      ⟨hinv, hinv', hlisted, hlisted', hbare, .preparing, hclient, hclient'⟩
    refine (Runs.outputs_eq_of_view (fun srv srv' step h hstep => h.left hstep) (fun srv srv' step h hstep => ?_)
      (fun srv srv' step step' v h hplace => h.both hplace) halike hplace hview.symm).symm
    obtain ⟨htaken, hright⟩ := h.symm.left hstep
    exact ⟨htaken, hright.symm⟩

/-- Two clients ask for the stream of a camera. -/
def twoClients : List ServerStep :=
  [aDiscovery, .ready 0 7000, .openStream .video aCamera.devId, .openStream .video aCamera.devId]

/-- A data packet with a frame of eight bytes. -/
def framePacket (id : UInt8) : Bytes := [0xf1, 0xd0, 0, 12, 0xd1, 1, 0, id, 0xff, 0xd8, 0xff, 0xdb, 0, 4, 1, id]

/-- Two clients register, a frame is emitted, the second client leaves, another frame is emitted. -/
def bothWatch : List ServerStep :=
  [.prepared 0, .prepared 1, .datagram 0 7100 (framePacket 1), .datagram 0 7200 (framePacket 2), .take 0, .leave 1,
    .datagram 0 7300 (framePacket 3), .take 0]

/-- The first client takes both frames. -/
theorem two_clients_independent :
    (((Server.start defaultConfig).run twoClients).taken 0 bothWatch).length = 2 ∧
      ((Server.start defaultConfig).run twoClients).taken 0 bothWatch <+:
        Mailbox.placed (((Server.start defaultConfig).run twoClients).offers 0 bothWatch) := by
  have hclient : ((Server.start defaultConfig).run twoClients).clients[0]? =
      some ⟨.video, aCamera.devId, .preparing⟩ := by decide +kernel
  have hplace : Runs.Guarded Server.step (Server.InPlace aCamera.devId 0)
      ((Server.start defaultConfig).run twoClients) bothWatch := by decide +kernel
  exact ⟨by decide +kernel, (clients_independent defaultConfig hclient hplace).2.1⟩

end CamReverse
