import CamReverse.Lifecycle
import CamReverse.Retransmission

/-!
# Acknowledgements of earlier transmissions

Each time a command is sent again it gets a fresh id, and the session forgets the id it had before. An
acknowledgement that names an id the command was sent under earlier is not counted: the command stays
pending and is sent again. When every acknowledgement also names the id each of its commands was sent under
last, no command is transmitted once it was acknowledged (`late_acks_count`); otherwise the next late resend
round transmits it again (`stale_ack_ignored`).
-/

namespace CamReverse

open Effect Bytes Outbox

variable {ε : Type}

/-- The acknowledgement names the id that each pending command it is about was sent under last. -/
def Timely (s : Outbox.State ℚ Bytes) (msg : Bytes) : Prop :=
  ∀ p ∈ s.pending, ∀ id ∈ ackedIds msg, (id, p.origin) ∈ s.history → p.id ∈ ackedIds msg

instance (s : Outbox.State ℚ Bytes) (msg : Bytes) : Decidable (Timely s msg) :=
  inferInstanceAs (Decidable (∀ p ∈ s.pending, ∀ id ∈ ackedIds msg, _ → _))

/-- The condition on a step of a session and its ledger. -/
def TimelyStep (y : Outgoing ε × Outbox.State ℚ Bytes) : OutgoingStep → Prop
  | .drwAck msg => Timely y.2 msg
  | _ => True

instance (y : Outgoing ε × Outbox.State ℚ Bytes) (a : OutgoingStep) : Decidable (TimelyStep y a) :=
  match a with
  | .drwAck msg => inferInstanceAs (Decidable (Timely y.2 msg))
  | .build _ _ => .isTrue trivial
  | .send _ _ => .isTrue trivial
  | .resendTick _ => .isTrue trivial
  | .elsewhere _ => .isTrue trivial

def bookedStep (y : Outgoing ε × Outbox.State ℚ Bytes) (a : OutgoingStep) :
    Outgoing ε × Outbox.State ℚ Bytes := (y.1.step a, ledgerStep y.1 y.2 a)

/-- The packet a command was put on the wire as, in one of the transmissions that `s'` has and `s` has
not. -/
def Transmitted (s s' : Outbox.State ℚ Bytes) (o : ℕ) (ev : Event) : Prop :=
  ∃ k packet, (k, o) ∈ s'.history ∧ (k, o) ∉ s.history ∧ (o, packet) ∈ s'.sent ∧ ev = .sent (withId k packet)

/-- What happens between two states of a session and its ledger: the ledger only grows, and what is put on
the wire are its new transmissions. -/
structure Proceeds (y y' : Outgoing ε × Outbox.State ℚ Bytes) : Prop where
  follows : Follows y.2 y'.2
  wire : ∃ evs, y'.1.world.events = y.1.world.events ++ evs ∧ ∀ ev ∈ evs, ∃ o, Transmitted y.2 y'.2 o ev

theorem Proceeds.refl (y : Outgoing ε × Outbox.State ℚ Bytes) : Proceeds y y :=
  ⟨.refl _, [], by rw [List.append_nil], by simp⟩

theorem Proceeds.trans {y y' y'' : Outgoing ε × Outbox.State ℚ Bytes} (h : Proceeds y y')
    (h' : Proceeds y' y'') : Proceeds y y'' := by
  obtain ⟨evs, hevs, hwire⟩ := h.wire
  obtain ⟨evs', hevs', hwire'⟩ := h'.wire
  refine ⟨h.follows.trans h'.follows, evs ++ evs', by rw [hevs', hevs, List.append_assoc], fun ev hev => ?_⟩
  rcases List.mem_append.1 hev with hev | hev
  · obtain ⟨o, k, packet, hnew, hold, hsent, heq⟩ := hwire ev hev
    exact ⟨o, k, packet, h'.follows.history _ hnew, hold, h'.follows.sent _ hsent, heq⟩
  · obtain ⟨o, k, packet, hnew, hold, hsent, heq⟩ := hwire' ev hev
    exact ⟨o, k, packet, hnew, fun hmem => hold (h.follows.history _ hmem), hsent, heq⟩

/-! ### One step -/

theorem not_mem_history {s : Outbox.State ℚ Bytes} (h : Outbox.Inv s) {k : ℕ} (hk : s.next ≤ k) (o : ℕ) :
    (k, o) ∉ s.history := fun hmem =>
  absurd (h.below k (List.mem_append_right _ (List.mem_map_of_mem (f := Prod.fst) hmem))) (by omega)

theorem Refines.proceeds_send {x : Outgoing ε} {s : Outbox.State ℚ Bytes} (h : Refines x s) (now : ℚ)
    (i : ℕ) : Proceeds (x, s) (bookedStep (x, s) (.send now i)) := by
  refine ⟨h.inv.follows_send now i, ?_⟩
  simp only [bookedStep, Outgoing.step, ledgerStep, State.send, h.built, List.getElem?_map]
  cases hr : s.reserved[i]? with
  | none => exact ⟨[], by simp, by simp⟩
  | some r =>
    obtain ⟨origin, item⟩ := r
    have hmem := List.mem_of_getElem? hr
    have hcommand := h.reserved _ hmem
    simp only [Option.map_some, final, send_command hcommand now x.world]
    refine ⟨wired x.world item, rfl, fun ev hev => ?_⟩
    refine ⟨origin, origin, item, List.mem_append_right _ (List.mem_singleton_self _), fun hold => ?_,
      List.mem_append_right _ (List.mem_singleton_self _), ?_⟩
    · exact (List.nodup_append.1 h.inv.numbers).2.2 _ (List.mem_map_of_mem (f := Prod.fst) hmem) _
        (List.mem_map_of_mem (f := Prod.fst) hold) rfl
    · rw [withId_self hcommand]
      exact mem_wired hev

theorem Refines.proceeds_resendTick {x : Outgoing ε} {s : Outbox.State ℚ Bytes} (h : Refines x s) (now : ℚ)
    (hbound : (x.step (.resendTick now)).counter ≤ 65536) :
    Proceeds (x, s) (bookedStep (x, s) (.resendTick now)) := by
  refine ⟨h.inv.follows_resend _ now, ?_⟩
  obtain ⟨t, -, hworld⟩ := h.tick now hbound
  refine ⟨_, congrArg World.events hworld, fun ev hev => ?_⟩
  obtain ⟨p, hp, hev⟩ := List.mem_flatMap.1 hev
  obtain ⟨z, hz, rfl⟩ := List.mem_map.1 hp
  have hlate := Outbox.mem_late hz
  refine ⟨z.1.origin, z.2, z.1.item, List.mem_append_right _ (List.mem_map_of_mem hz), ?_,
    h.inv.items z.1 hlate.1, mem_wired hev⟩
  exact not_mem_history h.inv hlate.2.2.1 _

theorem Refines.proceeds {x : Outgoing ε} {s : Outbox.State ℚ Bytes} (h : Refines x s) (a : OutgoingStep)
    (hbound : (x.step a).counter ≤ 65536) : Proceeds (x, s) (bookedStep (x, s) a) := by
  cases a with
  | build command data =>
    simp only [bookedStep, Outgoing.step, ledgerStep, makeDataReadWrite_apply]
    cases dataReadWrite x.world.session.outgoingCommandId x.world.session.ticket command data with
    | error e => exact .refl _
    | ok ret => exact ⟨follows_reserve s ret.buf, [], by simp, by simp⟩
  | send now i => exact h.proceeds_send now i
  | drwAck msg =>
    refine ⟨?_, [], ?_, by simp⟩
    · exact Runs.invariant (.refl s) (fun t id ht => ht.trans (follows_ack t id)) (ackedIds msg)
    · simp only [bookedStep, Outgoing.step, handleDrwAck_final, List.append_nil]
  | resendTick now => exact h.proceeds_resendTick now hbound
  | elsewhere f => exact ⟨.refl s, [], (List.append_nil _).symm, by simp⟩

theorem Refines.booked {x : Outgoing ε} {s : Outbox.State ℚ Bytes} (h : Refines x s) (hbooked : Booked s)
    (a : OutgoingStep) : Booked (ledgerStep x s a) := by
  cases a with
  | build command data =>
    simp only [ledgerStep]
    cases dataReadWrite x.world.session.outgoingCommandId x.world.session.ticket command data <;>
      exact hbooked
  | send now i => exact hbooked.send now i
  | drwAck msg =>
    have hack : ∀ (t : Outbox.State ℚ Bytes) (id : ℕ), Booked t → Booked (t.ack id) := fun _ _ ht => ht
    exact Runs.invariant hbooked hack (ackedIds msg)
  | resendTick now => exact hbooked.resend h.inv (isLate now) now
  | elsewhere f => exact hbooked

/-! ### Runs -/

/-- A session and its ledger at some time in a run that hands out at most `2^16` ids. -/
structure Reached (y : Outgoing ε × Outbox.State ℚ Bytes) : Prop where
  refines : Refines y.1 y.2
  booked : Booked y.2

theorem counter_le_run (as : List OutgoingStep) (y : Outgoing ε × Outbox.State ℚ Bytes) :
    y.1.counter ≤ (as.foldl bookedStep y).1.counter :=
  Runs.invariant (I := fun z : Outgoing ε × Outbox.State ℚ Bytes => y.1.counter ≤ z.1.counter)
    (Nat.le_refl _) (fun z a h => h.trans (counter_le_step z.1 a)) as

/-- **Runs proceed** from any state they reach. -/
theorem Reached.run {y : Outgoing ε × Outbox.State ℚ Bytes} (h : Reached y) (as : List OutgoingStep)
    (hbound : (as.foldl bookedStep y).1.counter ≤ 65536) :
    Reached (as.foldl bookedStep y) ∧ Proceeds y (as.foldl bookedStep y) := by
  refine Runs.history_of (P := fun _ z => Reached z ∧ Proceeds y z)
    (C := fun _ z a => (z.1.step a).counter ≤ 65536) ⟨h, .refl y⟩ ?_ as ?_
  · rintro - z a ⟨hz, hproceeds⟩ hcounter
    exact ⟨⟨step_refines hz.refines a hcounter, hz.refines.booked hz.booked a⟩,
      hproceeds.trans (hz.refines.proceeds a hcounter)⟩
  · rintro seen a rest rfl
    refine le_trans ?_ hbound
    rw [List.foldl_append, List.foldl_cons]
    exact counter_le_run rest (bookedStep (seen.foldl bookedStep y) a)

theorem reached_start {w : World ε} (hcounter : w.session.outgoingCommandId = 0)
    (hempty : w.session.unackedDrw = Table.empty) : Reached (Outgoing.start w, State.init) :=
  ⟨run_refines w hcounter hempty [] (by show w.session.outgoingCommandId ≤ 65536; omega), booked_init⟩

/-! ### Acknowledged commands -/

/-- From `y` to `y'` the command built under id `o` is not transmitted: it gets no other id, and what is put
on the wire are other commands. -/
def NotAgain (o : ℕ) (y y' : Outgoing ε × Outbox.State ℚ Bytes) : Prop :=
  (∀ k, (k, o) ∈ y'.2.history → (k, o) ∈ y.2.history) ∧
  ∃ evs, y'.1.world.events = y.1.world.events ++ evs ∧
    ∀ ev ∈ evs, ∃ o', o' ≠ o ∧ Transmitted y.2 y'.2 o' ev

/-- Acknowledgements count, also late ones: once a DrwAck names an id under which a command was transmitted,
the command is not transmitted again. -/
def LateAcksCount (w : World ε) (as : List OutgoingStep) : Prop :=
  ∀ before msg after, as = before ++ .drwAck msg :: after →
    ∀ id ∈ ackedIds msg, ∀ o, (id, o) ∈ ((Outgoing.start w).run .init before).2.history →
      NotAgain o ((Outgoing.start w).run .init before) ((Outgoing.start w).run .init as)

theorem history_acks (ids : List ℕ) (s : Outbox.State ℚ Bytes) :
    (ids.foldl State.ack s).history = s.history := by
  induction ids generalizing s with
  | nil => rfl
  | cons id ids ih => exact ih (s.ack id)

theorem Reached.settled {y : Outgoing ε × Outbox.State ℚ Bytes} (h : Reached y) {msg : Bytes}
    (htimely : Timely y.2 msg) {id o : ℕ} (hid : id ∈ ackedIds msg) (ho : (id, o) ∈ y.2.history) :
    o ∈ ((ackedIds msg).foldl State.ack y.2).acked := by
  rw [mem_acked_foldl]
  have hsent := h.refines.inv.accounted.mem_iff.1 (h.booked _ ho)
  rcases List.mem_append.1 hsent with hpending | hacked
  · obtain ⟨p, hp, rfl⟩ := List.mem_map.1 hpending
    exact .inr ⟨p, hp, htimely p hp id hid ho, rfl⟩
  · exact .inl hacked

/-- **Late acknowledgements.** In every run from a session without commands in which at most `2^16` command
ids are handed out, if every acknowledgement names the id each of its commands was sent under last. -/
theorem late_acks_count (w : World ε) (hcounter : w.session.outgoingCommandId = 0)
    (hempty : w.session.unackedDrw = Table.empty) (as : List OutgoingStep)
    (hbound : ((Outgoing.start w).run .init as).1.counter ≤ 65536)
    (htimely : Runs.Guarded bookedStep TimelyStep (Outgoing.start w, State.init) as) : LateAcksCount w as := by
  rintro before msg after rfl id hid o ho
  have hstart := reached_start hcounter hempty
  -- the run up to the acknowledgement, the acknowledgement, and the rest of the run
  have hrest : (Outgoing.start w).run .init (before ++ .drwAck msg :: after) =
      after.foldl bookedStep (bookedStep ((Outgoing.start w).run .init before) (.drwAck msg)) := by
    rw [Outgoing.run, List.foldl_append, List.foldl_cons]
    rfl
  have hcounter' : (bookedStep ((Outgoing.start w).run .init before) (.drwAck msg)).1.counter ≤ 65536 :=
    (counter_le_run after _).trans (hrest ▸ hbound)
  have hbefore : Reached ((Outgoing.start w).run .init before) :=
    (hstart.run before ((counter_le_step _ _).trans hcounter')).1
  have hack : Reached (bookedStep ((Outgoing.start w).run .init before) (.drwAck msg)) :=
    ⟨step_refines hbefore.refines _ hcounter', hbefore.refines.booked hbefore.booked _⟩
  have hafter := (hack.run after (hrest ▸ hbound)).2
  have hstep := hbefore.refines.proceeds (.drwAck msg) hcounter'
  have hacked := hbefore.settled htimely.step_of hid ho
  have hsame : ∀ k, (k, o) ∈ (after.foldl bookedStep
      (bookedStep ((Outgoing.start w).run .init before) (.drwAck msg))).2.history →
      (k, o) ∈ ((Outgoing.start w).run .init before).2.history := fun k hk => by
    have hold := hafter.follows.settled _ hk hacked
    exact history_acks (ackedIds msg) _ ▸ hold
  rw [hrest]
  obtain ⟨evs, hevs, hwire⟩ := (hstep.trans hafter).wire
  refine ⟨hsame, evs, hevs, fun ev hev => ?_⟩
  obtain ⟨o', htransmitted⟩ := hwire ev hev
  refine ⟨o', ?_, htransmitted⟩
  rintro rfl
  obtain ⟨k, packet, hnew, hold, -⟩ := htransmitted
  exact hold (hsame k hnew)

theorem late_acks_count_twoCommands :
    LateAcksCount (opened oneCamera) twoCommands :=
  late_acks_count (opened oneCamera) rfl rfl twoCommands (by decide +kernel) (by decide +kernel)

/-- The command is sent, sent again under id 1 when the acknowledgement of id 0 is under way, and sent again
under id 2 when that has arrived. -/
def lateAck : List OutgoingStep :=
  [.build ControlCommand.startVideo.code none, .send 0 0, .resendTick 500,
    .drwAck [0xf1, 0xd1, 0, 6, 0xd2, 0, 0, 1, 0, 0], .resendTick 1000]

theorem late_ack_ignored :
    ¬∀ as : List OutgoingStep, ((Outgoing.start (opened oneCamera)).run .init as).1.counter < 65536 →
      LateAcksCount (opened oneCamera) as := by
  intro h
  have hsame := (h lateAck (by decide +kernel) (lateAck.take 3) _ [.resendTick 1000] rfl 0 (by decide +kernel) 0
    (by decide +kernel)).1 2
  exact absurd (hsame (by decide +kernel)) (by decide +kernel)

example : ((Outgoing.start (opened oneCamera)).run .init lateAck).1.world.events.length = 3 := by
  decide +kernel

/-- **A stale acknowledgement is not counted**: the command stays pending, and the next resend round that
finds it late transmits it again. -/
theorem stale_ack_ignored {x : Outgoing ε} {s : Outbox.State ℚ Bytes} {msg : Bytes} {p : Pending ℚ Bytes}
    (hp : p ∈ s.pending) (hstale : p.id ∉ ackedIds msg) {now : ℚ} (hnow : isLate now p.sentTs = true)
    (h : Refines x s) :
    ∃ k, (k, p.origin) ∉ s.history ∧
      (k, p.origin) ∈ ([.drwAck msg, .resendTick now].foldl bookedStep (x, s)).2.history := by
  have hpending : p ∈ ((ackedIds msg).foldl State.ack s).pending := mem_pending_foldl.2 ⟨hp, hstale⟩
  have hlate : p ∈ (((ackedIds msg).foldl State.ack s).late (isLate now)).map Prod.fst := by
    rw [Outbox.late_pending]
    exact List.mem_filter.2 ⟨hpending, hnow⟩
  obtain ⟨z, hz, rfl⟩ := List.mem_map.1 hlate
  have hnew := (Outbox.mem_late hz).2.2.1
  rw [(ack_fields (ackedIds msg) s).1] at hnew
  exact ⟨z.2, not_mem_history h.inv hnew _, List.mem_append_right _ (List.mem_map_of_mem hz)⟩

end CamReverse
