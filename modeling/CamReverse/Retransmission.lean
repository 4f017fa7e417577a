import CamReverse.Lib.Outbox
import CamReverse.Lib.Runs
import CamReverse.Sending
import Mathlib.Data.List.InsertIdx

/-!
# Retransmission of commands

A session numbers its commands, remembers each one it sends in `unacked_drw` until the camera
acknowledges it, and sends it again under a fresh number when the acknowledgement is late. `ledgerStep`
books the same steps in an outbox, which knows nothing of packets and tables. As long as no more than
`2^16` numbers are handed out, the table is the outbox's list of pending commands
(`step_refines`), and the accounting of commands follows (`retransmission_accounting`).
-/

namespace CamReverse

open Effect Bytes Outbox

variable {ε : Type}

/-- A session and the commands that were built and have not been passed to `send` yet. -/
structure Outgoing (ε : Type) where
  world : World ε
  built : List DV

/-- What happens to commands; `elsewhere` is whatever else the session does. -/
inductive OutgoingStep where
  | build (command : ℕ) (data : Option DV)
  | send (now : ℚ) (i : ℕ)
  | drwAck (msg : Bytes)
  | resendTick (now : ℚ)
  | elsewhere (f : Session → Session)

/-- One step; `send` passes on the `i`-th of the commands that were built. -/
def Outgoing.step (x : Outgoing ε) : OutgoingStep → Outgoing ε
  | .build command data =>
    match makeDataReadWrite command data x.world with
    | .ok ret w => ⟨w, x.built ++ [ret]⟩
    | .error _ w => ⟨w, x.built⟩
  | .send now i =>
    match x.built[i]? with
    | some msg => ⟨final (CamReverse.send now msg) x.world, x.built.eraseIdx i⟩
    | none => x
  | .drwAck msg => ⟨final (handleDrwAck (DV.ofBytes msg)) x.world, x.built⟩
  | .resendTick now => ⟨final (resendTimerRound now) x.world, x.built⟩
  | .elsewhere f =>
    ⟨final (update fun s => { f s with
      outgoingCommandId := s.outgoingCommandId, unackedDrw := s.unackedDrw }) x.world, x.built⟩

def Outgoing.counter (x : Outgoing ε) : ℕ := x.world.session.outgoingCommandId

/-- What the session remembers of its commands. -/
def Outgoing.entries (x : Outgoing ε) : List (ℕ × Unacked) := x.world.session.unackedDrw.entries

/-! ### The ledger -/

/-- The ids a DrwAck names, up to the first that is cropped. -/
def ackedIds (msg : Bytes) : List ℕ :=
  if 8 ≤ msg.length then
    ((List.range (ofBE (field msg 6 2))).takeWhile fun i => 8 + i * 2 + 2 ≤ msg.length).map fun i =>
      ofBE (field msg (8 + i * 2) 2)
  else []

/-- The condition of `_resend_timer`. -/
def isLate (now sentTs : ℚ) : Bool := 100 < now - sentTs

/-- A step of a session, booked in an outbox. -/
def ledgerStep (x : Outgoing ε) (s : Outbox.State ℚ Bytes) : OutgoingStep → Outbox.State ℚ Bytes
  | .build command data =>
    match dataReadWrite x.world.session.outgoingCommandId x.world.session.ticket command data with
    | .ok ret => s.reserve ret.buf
    | .error _ => s
  | .send now i => s.send now i
  | .drwAck msg => (ackedIds msg).foldl State.ack s
  | .resendTick now => s.resend (isLate now) now
  | .elsewhere _ => s

/-- What a session remembers of a pending command. -/
def remembered (p : Pending ℚ Bytes) : ℕ × Unacked := (p.id, ⟨p.sentTs, DV.ofBytes (withId p.id p.item)⟩)

/-- The session's table is the outbox's list of pending commands. -/
structure Refines (x : Outgoing ε) (s : Outbox.State ℚ Bytes) : Prop where
  inv : Outbox.Inv s
  counter : x.counter = s.next
  built : x.built = s.reserved.map fun r => DV.ofBytes r.2
  reserved : ∀ r ∈ s.reserved, IsCommand r.2 r.1
  sent : ∀ r ∈ s.sent, IsCommand r.2 r.1
  entries : x.entries = s.pending.map remembered

theorem withId_self {buf : Bytes} {id : ℕ} (h : IsCommand buf id) : withId id buf = buf := by
  have hlen := h.length
  rw [withId, ← h.id, put_field (by omega)]

theorem withId_withId {buf : Bytes} (h : 8 ≤ buf.length) (id id' : ℕ) :
    withId id' (withId id buf) = withId id' buf :=
  put_put (by rw [length_be, length_be]) (by omega)

/-! ### Building and sending -/

theorem Refines.build {x : Outgoing ε} {s : Outbox.State ℚ Bytes} (h : Refines x s) (command : ℕ)
    (data : Option DV) :
    Refines (x.step (.build command data)) (ledgerStep x s (.build command data)) := by
  simp only [Outgoing.step, ledgerStep, makeDataReadWrite_apply]
  cases hret : dataReadWrite x.world.session.outgoingCommandId x.world.session.ticket command data with
  | error e => exact h
  | ok ret =>
    obtain ⟨buf, rfl, hcommand⟩ := dataReadWrite_isCommand hret
    rw [show x.world.session.outgoingCommandId = s.next from h.counter] at hcommand
    refine ⟨h.inv.reserve buf, congrArg (· + 1) h.counter, ?_, ?_, h.sent, h.entries⟩
    · show x.built ++ [DV.ofBytes buf] = (s.reserved ++ [(s.next, buf)]).map _
      rw [h.built, List.map_append]
      rfl
    · intro r hr
      rcases List.mem_append.1 hr with hr | hr
      · exact h.reserved r hr
      · rw [List.mem_singleton.1 hr]
        exact hcommand.toIsCommand

theorem Refines.key_lt {x : Outgoing ε} {s : Outbox.State ℚ Bytes} (h : Refines x s) :
    ∀ k ∈ x.world.session.unackedDrw.keys, k < s.next := by
  intro k hk
  rw [Table.keys, show x.world.session.unackedDrw.entries = _ from h.entries, List.map_map] at hk
  obtain ⟨p, hp, rfl⟩ := List.mem_map.1 hk
  exact h.inv.below _ (List.mem_append_right _ (List.mem_map_of_mem (h.inv.current p hp)))

theorem Refines.send {x : Outgoing ε} {s : Outbox.State ℚ Bytes} (h : Refines x s) (now : ℚ) (i : ℕ)
    (hbound : x.counter ≤ 65536) : Refines (x.step (.send now i)) (ledgerStep x s (.send now i)) := by
  have hinv := h.inv.send now i
  simp only [Outgoing.step, ledgerStep, State.send, h.built, List.getElem?_map] at hinv ⊢
  cases hr : s.reserved[i]? with
  | none => exact h
  | some r =>
    obtain ⟨origin, item⟩ := r
    have hmem := List.mem_of_getElem? hr
    have hcommand := h.reserved _ hmem
    have hlt : origin < s.next :=
      h.inv.below _ (List.mem_append_left _ (List.mem_map_of_mem hmem))
    have hunused : x.world.session.unackedDrw.find? origin = none := by
      rw [Table.find?_eq_none, Table.keys, show x.world.session.unackedDrw.entries = _ from h.entries,
        List.map_map]
      intro hk
      obtain ⟨p, hp, hid⟩ := List.mem_map.1 hk
      refine (List.nodup_append.1 h.inv.numbers).2.2 _ (List.mem_map_of_mem hmem) _
        (List.mem_map_of_mem (h.inv.current p hp)) ?_
      exact hid.symm
    rw [hr] at hinv
    have hsend := send_command hcommand now x.world
    rw [Nat.mod_eq_of_lt (by rw [h.counter] at hbound; omega)] at hsend
    simp only [Option.map_some, final, hsend]
    refine ⟨hinv, h.counter, ?_, ?_, ?_, ?_⟩
    · exact List.eraseIdx_map _ _ _
    · exact fun r hr' => h.reserved r (List.mem_of_mem_eraseIdx hr')
    · intro r hr'
      rcases List.mem_append.1 hr' with hr' | hr'
      · exact h.sent r hr'
      · rw [List.mem_singleton.1 hr']
        exact hcommand
    · show (x.world.session.unackedDrw.insert origin ⟨now, DV.ofBytes item⟩).entries = _
      rw [Table.entries_insert_new hunused, show x.world.session.unackedDrw.entries = _ from h.entries,
        List.map_append]
      simp only [remembered, List.map_cons, List.map_nil, withId_self hcommand]

/-! ### Acknowledgements -/

theorem ackLoop_final (msg : Bytes) (places : List ℕ) (w : World ε) :
    final (places.forM fun i => do
        let ackId ← ((DV.ofBytes msg).add (8 + i * 2)).readU16
        ackDrw ackId : SessionM ε Unit) w =
      { w with session := { w.session with
          unackedDrw := ((places.takeWhile fun i => 8 + i * 2 + 2 ≤ msg.length).map fun i =>
            ofBE (field msg (8 + i * 2) 2)).foldl Table.erase w.session.unackedDrw } } := by
  induction places generalizing w with
  | nil => rfl
  | cons i places ih =>
    have hread := DV.readU16_ofBytes msg (8 + i * 2)
    push_cast at hread
    rw [List.forM, hread]
    by_cases hfits : 8 + i * 2 + 2 ≤ msg.length
    · rw [if_pos hfits, List.takeWhile_cons_of_pos (by simpa using hfits), List.map_cons, List.foldl_cons]
      exact ih { w with session := { w.session with
        unackedDrw := w.session.unackedDrw.erase (ofBE (field msg (8 + i * 2) 2)) } }
    · rw [if_neg hfits, List.takeWhile_cons_of_neg (by simpa using hfits)]
      rfl

theorem handleDrwAck_final (msg : Bytes) (w : World ε) :
    final (handleDrwAck (DV.ofBytes msg)) w =
      { w with session := { w.session with
          unackedDrw := (ackedIds msg).foldl Table.erase w.session.unackedDrw } } := by
  unfold handleDrwAck ackedIds
  rw [show ((DV.ofBytes msg).add 6).readU16 = _ from DV.readU16_ofBytes msg 6]
  split_ifs with hlen
  · exact ackLoop_final msg _ w
  · rfl

theorem ack_pending (ids : List ℕ) (t : Table ℕ Unacked) (s : Outbox.State ℚ Bytes)
    (h : t.entries = s.pending.map remembered) :
    (ids.foldl Table.erase t).entries = (ids.foldl State.ack s).pending.map remembered := by
  induction ids generalizing t s with
  | nil => exact h
  | cons id ids ih =>
    refine ih (t.erase id) (s.ack id) ?_
    rw [Table.entries_erase, h, List.filter_map]
    rfl

theorem ack_fields (ids : List ℕ) (s : Outbox.State ℚ Bytes) :
    (ids.foldl State.ack s).next = s.next ∧ (ids.foldl State.ack s).reserved = s.reserved ∧
      (ids.foldl State.ack s).sent = s.sent := by
  induction ids generalizing s with
  | nil => exact ⟨rfl, rfl, rfl⟩
  | cons id ids ih => exact ih (s.ack id)

theorem inv_acks (ids : List ℕ) {s : Outbox.State ℚ Bytes} (h : Outbox.Inv s) :
    Outbox.Inv (ids.foldl State.ack s) :=
  Runs.invariant h (fun _ id hs => hs.ack id) ids

theorem Refines.drwAck {x : Outgoing ε} {s : Outbox.State ℚ Bytes} (h : Refines x s) (msg : Bytes) :
    Refines (x.step (.drwAck msg)) (ledgerStep x s (.drwAck msg)) := by
  obtain ⟨hnext, hreserved, hsent⟩ := ack_fields (ackedIds msg) s
  simp only [Outgoing.step, ledgerStep, handleDrwAck_final]
  exact {
    inv := inv_acks (ackedIds msg) h.inv
    counter := h.counter.trans hnext.symm
    built := h.built.trans (by rw [hreserved])
    reserved := by rw [hreserved]; exact h.reserved
    sent := by rw [hsent]; exact h.sent
    entries := ack_pending (ackedIds msg) x.world.session.unackedDrw s h.entries }

/-! ### A resend round -/

theorem resendEntry_young {now : ℚ} {e : ℕ × Unacked} (h : isLate now e.2.sentTs = false) (w : World ε) :
    resendEntry now e w = .ok () w := by
  unfold resendEntry
  rw [if_neg (by simpa [isLate] using h)]
  rfl

/-- The world after the command `buf`, remembered under `key`, was sent again under the next id. -/
def resentOne (now : ℚ) (key : ℕ) (buf : Bytes) (w : World ε) : World ε :=
  { w with
    session := { w.session with
      outgoingCommandId := w.session.outgoingCommandId + 1
      unackedDrw := (w.session.unackedDrw.erase key).insert (w.session.outgoingCommandId % 65536)
        ⟨now, DV.ofBytes (withId w.session.outgoingCommandId buf)⟩ }
    events := w.events ++ wired w (withId w.session.outgoingCommandId buf) }

theorem resendEntry_late {now : ℚ} {p : Pending ℚ Bytes} (h : isLate now p.sentTs = true)
    (hcommand : IsCommand p.item p.origin) (w : World ε) :
    resendEntry now (remembered p) w = .ok () (resentOne now p.id p.item w) := by
  have hlen := hcommand.length
  have hid := hcommand.withId p.id
  have hlen' := hid.length
  have hread : ((DV.ofBytes (withId p.id p.item)).add 6).readU16 = .ok _ :=
    (DV.readU16_ofBytes (withId p.id p.item) 6).trans (if_pos (by omega))
  have hwrite : (DV.ofBytes (withId p.id p.item)).via 6 (·.writeU16 w.session.outgoingCommandId) =
      .ok (DV.ofBytes (withId w.session.outgoingCommandId p.item)) := by
    rw [← withId_withId hlen p.id w.session.outgoingCommandId]
    exact (DV.via_writeU16 (withId p.id p.item) 6 _).trans (if_pos (by omega))
  unfold resendEntry remembered
  rw [if_pos (by simpa [isLate] using h)]
  simp only [hread, liftM_eq_lift, lift_ok_bind]
  rw [get_bind_apply, hwrite]
  exact send_command (hcommand.withId _) now _

theorem entries_resentOne {now : ℚ} {p : Pending ℚ Bytes} {front mid : List (ℕ × Unacked)} {w : World ε}
    (hentries : w.session.unackedDrw.entries = front ++ remembered p :: mid)
    (hkeys : ∀ k ∈ w.session.unackedDrw.keys, k < w.session.outgoingCommandId)
    (hbound : w.session.outgoingCommandId < 65536) :
    (resentOne now p.id p.item w).session.unackedDrw.entries =
      front ++ mid ++ [remembered (p.again now w.session.outgoingCommandId)] := by
  have hmod : w.session.outgoingCommandId % 65536 = w.session.outgoingCommandId := Nat.mod_eq_of_lt hbound
  have hnew : (w.session.unackedDrw.erase p.id).find? (w.session.outgoingCommandId % 65536) = none := by
    rw [hmod, Table.find?_eq_none, Table.mem_keys_erase]
    exact fun h => Nat.lt_irrefl _ (hkeys _ h.2)
  refine (Table.entries_insert_new hnew _).trans ?_
  rw [Table.entries_erase_middle hentries, hmod]
  rfl

theorem keys_resentOne {now : ℚ} {key : ℕ} {buf : Bytes} {w : World ε}
    (hkeys : ∀ k ∈ w.session.unackedDrw.keys, k < w.session.outgoingCommandId) :
    ∀ k ∈ (resentOne now key buf w).session.unackedDrw.keys, k < w.session.outgoingCommandId + 1 := by
  intro k hk
  rcases Table.mem_keys_insert.1 hk with rfl | hk
  · exact Nat.lt_succ_of_le (Nat.mod_le _ _)
  · exact Nat.lt_succ_of_lt (hkeys k (Table.mem_keys_erase.1 hk).2)

/-- The late ones among pending commands, sent again under the numbers from `next` on. -/
def sentAgain (now : ℚ) (next : ℕ) (ps : List (Pending ℚ Bytes)) : List (Pending ℚ Bytes) :=
  ((ps.filter fun p => isLate now p.sentTs).zipIdx next).map fun x => x.1.again now x.2

theorem length_sentAgain (now : ℚ) (next : ℕ) (ps : List (Pending ℚ Bytes)) :
    (sentAgain now next ps).length = (ps.filter fun p => isLate now p.sentTs).length := by
  rw [sentAgain, List.length_map, List.length_zipIdx]

theorem sentAgain_young {now : ℚ} {p : Pending ℚ Bytes} (h : isLate now p.sentTs = false) (next : ℕ)
    (ps : List (Pending ℚ Bytes)) : sentAgain now next (p :: ps) = sentAgain now next ps := by
  rw [sentAgain, List.filter_cons_of_neg (by simp [h]), sentAgain]

theorem sentAgain_late {now : ℚ} {p : Pending ℚ Bytes} (h : isLate now p.sentTs = true) (next : ℕ)
    (ps : List (Pending ℚ Bytes)) :
    sentAgain now next (p :: ps) = p.again now next :: sentAgain now (next + 1) ps := by
  rw [sentAgain, List.filter_cons_of_pos (by simpa using h), List.zipIdx_cons, List.map_cons, sentAgain]

/-- **The loop of a resend round** over commands `ps` in the middle of the table: the young ones stay
where they are, and the late ones go to the end under fresh numbers. -/
theorem resendLoop (now : ℚ) (ps : List (Pending ℚ Bytes)) (front back : List (ℕ × Unacked)) (w : World ε)
    (hentries : w.session.unackedDrw.entries = front ++ (ps.map remembered ++ back))
    (hkeys : ∀ k ∈ w.session.unackedDrw.keys, k < w.session.outgoingCommandId)
    (hcommand : ∀ p ∈ ps, IsCommand p.item p.origin)
    (hbound : w.session.outgoingCommandId + (sentAgain now w.session.outgoingCommandId ps).length ≤ 65536) :
    ∃ t : Table ℕ Unacked,
      t.entries = front ++ ((ps.filter fun p => !isLate now p.sentTs).map remembered ++
        (back ++ (sentAgain now w.session.outgoingCommandId ps).map remembered)) ∧
      (ps.map remembered).forM (resendEntry now) w =
        .ok () { w with
          session := { w.session with
            outgoingCommandId :=
              w.session.outgoingCommandId + (sentAgain now w.session.outgoingCommandId ps).length
            unackedDrw := t }
          events := w.events ++ (sentAgain now w.session.outgoingCommandId ps).flatMap fun p =>
            wired w (withId p.id p.item) } := by
  induction ps generalizing front back w with
  | nil =>
    refine ⟨w.session.unackedDrw, by simpa [sentAgain] using hentries, ?_⟩
    simp only [sentAgain, List.filter_nil, List.zipIdx_nil, List.map_nil, List.length_nil, List.flatMap_nil,
      List.append_nil, Nat.add_zero]
    rfl
  | cons p ps ih =>
    have hps : ∀ q ∈ ps, IsCommand q.item q.origin := fun q hq => hcommand q (List.mem_cons_of_mem _ hq)
    rw [List.map_cons, List.cons_append] at hentries
    cases hlate : isLate now p.sentTs with
    | false =>
      rw [sentAgain_young hlate] at hbound ⊢
      obtain ⟨t, ht, hrun⟩ := ih (front ++ [remembered p]) back w
        (by rw [hentries, List.append_assoc, List.singleton_append]) hkeys hps hbound
      refine ⟨t, ?_, ?_⟩
      · rw [ht, List.filter_cons_of_pos (by simp [hlate]), List.append_assoc]
        rfl
      · rw [List.map_cons, List.forM, bind_ok (resendEntry_young hlate w)]
        exact hrun
    | true =>
      rw [sentAgain_late hlate] at hbound ⊢
      rw [List.length_cons] at hbound
      have hentry := resendEntry_late hlate (hcommand p List.mem_cons_self) w
      have hentries₁ : (resentOne now p.id p.item w).session.unackedDrw.entries =
          front ++ (ps.map remembered ++
            (back ++ [remembered (p.again now w.session.outgoingCommandId)])) := by
        rw [entries_resentOne hentries hkeys (by omega), List.append_assoc, List.append_assoc]
      obtain ⟨t, ht, hrun⟩ := ih front _ (resentOne now p.id p.item w) hentries₁ (keys_resentOne hkeys) hps
        (show w.session.outgoingCommandId + 1 + (sentAgain now (w.session.outgoingCommandId + 1) ps).length ≤
          65536 by omega)
      refine ⟨t, ?_, ?_⟩
      · rw [ht, List.filter_cons_of_neg (by simp [hlate]), List.append_assoc back]
        rfl
      · rw [List.map_cons, List.forM, bind_ok hentry]
        rw [List.length_cons, Nat.add_comm _ 1, ← Nat.add_assoc, List.flatMap_cons, ← List.append_assoc]
        exact hrun

theorem resendLoop_counter (now : ℚ) (ps : List (Pending ℚ Bytes))
    (hcommand : ∀ p ∈ ps, IsCommand p.item p.origin) (w : World ε) :
    (final ((ps.map remembered).forM (resendEntry now)) w).session.outgoingCommandId =
      w.session.outgoingCommandId + (ps.filter fun p => isLate now p.sentTs).length := by
  induction ps generalizing w with
  | nil => rfl
  | cons p ps ih =>
    have hps : ∀ q ∈ ps, IsCommand q.item q.origin := fun q hq => hcommand q (List.mem_cons_of_mem _ hq)
    rw [List.map_cons, List.forM]
    cases hlate : isLate now p.sentTs with
    | false =>
      rw [final, bind_ok (resendEntry_young hlate w), ← final, ih hps,
        List.filter_cons_of_neg (by simp [hlate])]
    | true =>
      rw [final, bind_ok (resendEntry_late hlate (hcommand p List.mem_cons_self) w), ← final, ih hps,
        List.filter_cons_of_pos (by simpa using hlate), List.length_cons, Nat.add_comm _ 1, ← Nat.add_assoc]
      rfl

theorem Refines.commands {x : Outgoing ε} {s : Outbox.State ℚ Bytes} (h : Refines x s) :
    ∀ p ∈ s.pending, IsCommand p.item p.origin := fun p hp => h.sent _ (h.inv.items p hp)

theorem Refines.tick_counter {x : Outgoing ε} {s : Outbox.State ℚ Bytes} (h : Refines x s) (now : ℚ) :
    (x.step (.resendTick now)).counter = s.next + (sentAgain now s.next s.pending).length := by
  rw [length_sentAgain, ← h.counter]
  show (final (resendTimerRound now) x.world).session.outgoingCommandId = _
  unfold resendTimerRound
  rw [final, get_bind_apply, ← final, show x.world.session.unackedDrw.entries = _ from h.entries]
  exact resendLoop_counter now s.pending h.commands x.world

/-- **A resend round**: the young commands stay, the late ones are sent again in their order under the
next numbers. -/
theorem Refines.tick {x : Outgoing ε} {s : Outbox.State ℚ Bytes} (h : Refines x s) (now : ℚ)
    (hbound : (x.step (.resendTick now)).counter ≤ 65536) :
    ∃ t : Table ℕ Unacked,
      t.entries = ((s.pending.filter fun p => !isLate now p.sentTs) ++
        sentAgain now s.next s.pending).map remembered ∧
      (x.step (.resendTick now)).world = { x.world with
        session := { x.world.session with
          outgoingCommandId := s.next + (sentAgain now s.next s.pending).length
          unackedDrw := t }
        events := x.world.events ++
          (sentAgain now s.next s.pending).flatMap fun p => wired x.world (withId p.id p.item) } := by
  rw [h.tick_counter] at hbound
  have hcounter : x.world.session.outgoingCommandId = s.next := h.counter
  obtain ⟨t, ht, hrun⟩ := resendLoop now s.pending [] [] x.world
    (by rw [List.nil_append, List.append_nil]; exact h.entries)
    (by rw [hcounter]; exact h.key_lt) h.commands (by rw [hcounter]; exact hbound)
  rw [hcounter] at ht hrun
  refine ⟨t, by rw [ht, List.map_append]; rfl, ?_⟩
  show final (resendTimerRound now) x.world = _
  unfold resendTimerRound
  rw [final, get_bind_apply, show x.world.session.unackedDrw.entries = _ from h.entries, hrun]

theorem Refines.resendTick {x : Outgoing ε} {s : Outbox.State ℚ Bytes} (h : Refines x s) (now : ℚ)
    (hbound : (x.step (.resendTick now)).counter ≤ 65536) :
    Refines (x.step (.resendTick now)) (ledgerStep x s (.resendTick now)) := by
  obtain ⟨t, ht, hworld⟩ := h.tick now hbound
  exact {
    inv := h.inv.resend _ now
    counter := (h.tick_counter now).trans (by
      rw [length_sentAgain, ledgerStep, State.resend, State.late, List.length_zipIdx])
    built := h.built
    reserved := h.reserved
    sent := h.sent
    entries := by
      show (x.step (.resendTick now)).world.session.unackedDrw.entries = _
      rw [hworld]
      exact ht }

/-! ### Runs -/

/-- Ids are only handed out. -/
def CounterGrows (w w' : World ε) : Prop := w.session.outgoingCommandId ≤ w'.session.outgoingCommandId

instance : IsPreorder (World ε) CounterGrows where
  refl _ := Nat.le_refl _
  trans _ _ _ := Nat.le_trans

theorem counterGrows_send (now : ℚ) (msg : DV) : Along (ε := PyErr) CounterGrows (send (ε := ε) now msg) := by
  intro w
  obtain ⟨t, evs, h, -⟩ := send_final now msg w
  rw [h]
  exact Nat.le_refl _

theorem counterGrows_resendEntry (now : ℚ) (e : ℕ × Unacked) :
    Along (ε := PyErr) CounterGrows (resendEntry (ε := ε) now e) := by
  unfold resendEntry
  refine Along.ite (fun _ => ?_) fun _ => Along.pure _
  refine Along.bind (Along.lift _) fun _ => Along.get_bind fun w => ?_
  refine Along.bind (R := CounterGrows) (Along.lift _) (fun data => ?_) w
  refine Along.bind (Along.modify fun _ => Nat.le_succ _) fun _ => ?_
  exact Along.bind (Along.modify fun _ => Nat.le_refl _) fun _ => counterGrows_send now data

theorem counter_le_step (x : Outgoing ε) (a : OutgoingStep) : x.counter ≤ (x.step a).counter := by
  cases a with
  | build command data =>
    simp only [Outgoing.step, makeDataReadWrite_apply]
    cases dataReadWrite x.world.session.outgoingCommandId x.world.session.ticket command data with
    | error e => exact Nat.le_refl _
    | ok ret => exact Nat.le_succ _
  | send now i =>
    simp only [Outgoing.step]
    cases x.built[i]? with
    | none => exact Nat.le_refl _
    | some msg => exact counterGrows_send now msg x.world
  | drwAck msg =>
    simp only [Outgoing.step, handleDrwAck_final]
    exact Nat.le_refl _
  | resendTick now =>
    refine Along.get_bind (R := CounterGrows) (fun w => ?_) x.world
    exact Along.forM (fun e _ => counterGrows_resendEntry now e) w
  | elsewhere f => exact Nat.le_refl _

/-- **One step of a session is one step of its ledger**, as long as the numbers last. -/
theorem step_refines {x : Outgoing ε} {s : Outbox.State ℚ Bytes} (h : Refines x s) (a : OutgoingStep)
    (hbound : (x.step a).counter ≤ 65536) : Refines (x.step a) (ledgerStep x s a) := by
  cases a with
  | build command data => exact h.build command data
  | send now i => exact h.send now i ((counter_le_step x (.send now i)).trans hbound)
  | drwAck msg => exact h.drwAck msg
  | resendTick now => exact h.resendTick now hbound
  | elsewhere f => exact ⟨h.inv, h.counter, h.built, h.reserved, h.sent, h.entries⟩

def Outgoing.run (x : Outgoing ε) (s : Outbox.State ℚ Bytes) (as : List OutgoingStep) :
    Outgoing ε × Outbox.State ℚ Bytes :=
  as.foldl (fun y a => (y.1.step a, ledgerStep y.1 y.2 a)) (x, s)

/-- A session that has no command yet. -/
def Outgoing.start (w : World ε) : Outgoing ε := ⟨w, []⟩

theorem run_refines (w : World ε) (hcounter : w.session.outgoingCommandId = 0)
    (hempty : w.session.unackedDrw = Table.empty) (as : List OutgoingStep)
    (hbound : ((Outgoing.start w).run .init as).1.counter ≤ 65536) :
    Refines ((Outgoing.start w).run .init as).1 ((Outgoing.start w).run .init as).2 := by
  have hgrows : ∀ (as : List OutgoingStep) (x : Outgoing ε) (s : Outbox.State ℚ Bytes),
      x.counter ≤ (x.run s as).1.counter := fun as x s =>
    Runs.invariant (I := fun y : Outgoing ε × Outbox.State ℚ Bytes => x.counter ≤ y.1.counter)
      (Nat.le_refl _) (fun y a h => h.trans (counter_le_step y.1 a)) as
  refine Runs.history_of (P := fun _ (y : Outgoing ε × Outbox.State ℚ Bytes) => Refines y.1 y.2)
    (C := fun _ y a => (y.1.step a).counter ≤ 65536) ?_ (fun _ y a h hC => step_refines h a hC) as ?_
  · exact {
      inv := Outbox.inv_init
      counter := hcounter
      built := rfl
      reserved := by simp [State.init]
      sent := by simp [State.init]
      entries := by
        show w.session.unackedDrw.entries = []
        rw [hempty]
        rfl }
  · rintro seen a rest rfl
    refine le_trans ?_ hbound
    rw [Outgoing.run, List.foldl_append, List.foldl_cons]
    exact hgrows rest _ _

/-! ### The accounting -/

/-- What is true of a session `x` and its ledger `s` at any time. A command goes by the id it was built
under, its origin; the ledger drops it when an acknowledgement names the id it was sent under last. -/
structure Accounted (x : Outgoing ε) (s : Outbox.State ℚ Bytes) : Prop where
  /-- Every key is the packet id in the bytes 6 and 7 of the packet stored under it. -/
  keys : ∀ e ∈ x.entries, (e.2.data.add 6).readU16 = .ok e.1
  /-- What was built and not sent yet is what the ledger has reserved. -/
  built : x.built = s.reserved.map fun r => DV.ofBytes r.2
  /-- The table holds the pending commands as they were built, but for the bytes 6 and 7. -/
  entries : x.entries = s.pending.map remembered
  /-- Every command that was sent is pending exactly once until it is acknowledged. -/
  once : ∀ o packet, (o, packet) ∈ s.sent → o ∉ s.acked →
    ∃ p, s.pending.filter (fun p => p.origin = o) = [p] ∧ p.item = packet
  /-- A resend round sends the late commands again, each once, under ids that were never used. -/
  resend : ∀ now, (x.step (.resendTick now)).counter ≤ 65536 →
    (x.step (.resendTick now)).entries.length = x.entries.length ∧
    (x.step (.resendTick now)).world.events = x.world.events ++
      (sentAgain now s.next s.pending).flatMap (fun p => wired x.world (withId p.id p.item)) ∧
    (sentAgain now s.next s.pending).map Pending.origin =
      (s.pending.filter fun p => isLate now p.sentTs).map Pending.origin ∧
    ∀ p ∈ sentAgain now s.next s.pending, p.id ∉ s.reserved.map Prod.fst ++ s.history.map Prod.fst
  /-- An acknowledgement only removes the command that was transmitted under an id it names. -/
  acks : ∀ msg, (x.step (.drwAck msg)).entries.Sublist x.entries ∧
    ∀ e ∈ x.entries, e ∉ (x.step (.drwAck msg)).entries → e.1 ∈ ackedIds msg ∧
      ∃ p ∈ s.pending, remembered p = e ∧ ∀ o, (e.1, o) ∈ s.history ↔ o = p.origin

theorem erase_sublist (ids : List ℕ) (t : Table ℕ Unacked) :
    (ids.foldl Table.erase t).entries.Sublist t.entries ∧
      ∀ e ∈ t.entries, e ∉ (ids.foldl Table.erase t).entries → e.1 ∈ ids := by
  rw [Table.entries_foldl_erase]
  refine ⟨List.filter_sublist, fun e he hne => Decidable.byContradiction fun hid => ?_⟩
  exact hne (List.mem_filter.2 ⟨he, decide_eq_true hid⟩)

theorem Refines.accounted {x : Outgoing ε} {s : Outbox.State ℚ Bytes} (h : Refines x s)
    (hbound : x.counter ≤ 65536) : Accounted x s where
  keys := by
    intro e he
    rw [h.entries] at he
    obtain ⟨p, hp, rfl⟩ := List.mem_map.1 he
    have hid := (h.commands p hp).withId p.id
    have hlt : p.id < s.next :=
      h.inv.below _ (List.mem_append_right _ (List.mem_map_of_mem (h.inv.current p hp)))
    have hlt' : p.id < 65536 := by
      rw [h.counter] at hbound
      omega
    have hlen := hid.length
    have hread := DV.readU16_ofBytes (withId p.id p.item) 6
    rw [if_pos (by omega), hid.id, ofBE_be, Nat.mod_eq_of_lt (show p.id < 256 ^ 2 from hlt')] at hread
    exact hread
  built := h.built
  entries := h.entries
  once := fun _ _ hsent hacked => h.inv.pending_once hsent hacked
  resend := by
    intro now hnow
    obtain ⟨t, ht, hworld⟩ := h.tick now hnow
    have hentries : (x.step (.resendTick now)).entries = _ := (h.resendTick now hnow).entries
    refine ⟨?_, by rw [hworld], ?_, ?_⟩
    · rw [hentries, h.entries, List.length_map, List.length_map]
      have hlen := (Outbox.resend_origins s (isLate now) now).length_eq
      rw [List.length_map, List.length_map] at hlen
      exact hlen
    · rw [← Outbox.late_pending, List.map_map, sentAgain, List.map_map]
      rfl
    · intro p hp hused
      obtain ⟨y, hy, rfl⟩ := List.mem_map.1 hp
      exact Nat.lt_irrefl _ (Nat.lt_of_lt_of_le (h.inv.below _ hused) (Outbox.mem_late hy).2.2.1)
  acks := by
    intro msg
    have hentries : (x.step (.drwAck msg)).entries =
        ((ackedIds msg).foldl Table.erase x.world.session.unackedDrw).entries := by
      show (final (handleDrwAck (DV.ofBytes msg)) x.world).session.unackedDrw.entries = _
      rw [handleDrwAck_final]
    rw [hentries]
    obtain ⟨hsub, hgone⟩ := erase_sublist (ackedIds msg) x.world.session.unackedDrw
    refine ⟨hsub, fun e he hne => ⟨hgone e he hne, ?_⟩⟩
    rw [h.entries] at he
    obtain ⟨p, hp, rfl⟩ := List.mem_map.1 he
    refine ⟨p, hp, rfl, fun o => ⟨fun ho => h.inv.history_unique ho (h.inv.current p hp), ?_⟩⟩
    rintro rfl
    exact h.inv.current p hp

/-- **Accounting of commands.** In every run from a session without commands in which at most `2^16`
command ids are handed out, whatever is built, sent, acknowledged and sent again in any order. -/
theorem retransmission_accounting (w : World ε) (hcounter : w.session.outgoingCommandId = 0)
    (hempty : w.session.unackedDrw = Table.empty) (as : List OutgoingStep)
    (hbound : ((Outgoing.start w).run .init as).1.counter ≤ 65536) :
    Accounted ((Outgoing.start w).run .init as).1 ((Outgoing.start w).run .init as).2 :=
  (run_refines w hcounter hempty as hbound).accounted hbound

/-- Two commands are built, sent the other way round and sent again, and one is acknowledged twice. -/
def twoCommands : List OutgoingStep :=
  [.build ControlCommand.startVideo.code none, .build ControlCommand.listWifi.code none, .send 0 1,
    .send 50 0, .resendTick 120, .drwAck [0xf1, 0xd1, 0, 6, 0xd2, 0, 0, 1, 0, 2],
    .drwAck [0xf1, 0xd1, 0, 6, 0xd2, 0, 0, 1, 0, 2],
    .resendTick 300]

theorem retransmission_accounting_twoCommands :
    Accounted ((Outgoing.start oneCamera).run .init twoCommands).1
      ((Outgoing.start oneCamera).run .init twoCommands).2 :=
  retransmission_accounting oneCamera rfl rfl twoCommands (by decide +kernel)

example : ((Outgoing.start oneCamera).run .init twoCommands).1.entries.map Prod.fst = [3] := by decide +kernel

end CamReverse
