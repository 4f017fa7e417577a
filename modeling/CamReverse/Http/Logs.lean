import CamReverse.Lib.Ring

/-!
# The log viewer

Every record gets a number and goes to the ring buffer of the last 2000. `/api/logs` answers with the entries of the
buffer from a level on behind a number, and the page asks for those behind the largest number it has received. So
what it receives is, poll by poll, the last 2000 entries since the poll before, without those below its level
(`received_run`), and an entry is lost only to 2000 newer ones (`logs_exactly_once`).
-/

namespace CamReverse

namespace Logs

/-! ### `logger.py` -/

def trace : ℤ := 5

def levels : List (String × ℤ) :=
  [("trace", trace), ("debug", 10), ("info", 20), ("notice", 20), ("warning", 30), ("error", 40)]

def levelNo (name : String) : ℤ := (levels.lookup name).getD trace

/-- A record, and what `getMessage` returns of it; it raises when the message does not format. -/
structure LogRecord where
  created : String
  levelname : String
  levelno : ℤ
  getMessage : Option String

structure Entry where
  seq : ℕ
  time : String
  level : String
  levelno : ℤ
  message : String
  deriving DecidableEq, Repr

/-- The module state of `logger.py`: the next number of `_seq`, and `LOG_BUFFER`. -/
structure Logger where
  seq : ℕ
  logBuffer : List Entry

@[irreducible] def maxlen : ℕ := 2000

/-- `_BufferHandler.emit`. The number is taken first, so a record that does not format uses it up. -/
def Logger.emit (record : LogRecord) (l : Logger) : Logger :=
  let seq := l.seq
  let l := { l with seq := seq + 1 }
  match record.getMessage with
  | some message =>
    let entry := ⟨seq, record.created, record.levelname, record.levelno, message⟩
    { l with logBuffer := Ring.push maxlen l.logBuffer entry }
  | none => l

/-- A record on its way through the levels of the logger and of the handler. -/
def Logger.log (record : LogRecord) (l : Logger) : Logger :=
  if record.levelno < trace then l else l.emit record

/-! ### `/api/logs` and its page -/

/-- `_handle_logs_api`, of the level and the number in the query, if they are there. -/
def handleLogsApi (level : Option String) (after : Option ℤ) (l : Logger) : List Entry :=
  let level := level.getD "trace"
  let after := after.getD 0
  let minno := levelNo level
  l.logBuffer.filter fun e => minno ≤ e.levelno ∧ after < e.seq

/-- The page: the number it asks behind, and the entries it has received. -/
structure Page where
  after : ℕ
  received : List Entry

def Page.append (entries : List Entry) (page : Page) : Page :=
  { after := entries.foldl (fun after e => max after e.seq) page.after, received := page.received ++ entries }

/-- What happens: a record is logged, or the page polls. -/
inductive Act where
  | record (r : LogRecord)
  | poll

structure World where
  logger : Logger
  page : Page

/-- `poll` of the page, which keeps one level. -/
def World.poll (level : String) (w : World) : World :=
  let entries := handleLogsApi (some level) (some w.page.after) w.logger
  if entries.length ≠ 0 then { w with page := w.page.append entries } else w

def World.act (level : String) (w : World) : Act → World
  | .record r => { w with logger := w.logger.log r }
  | .poll => w.poll level

def run (level : String) (w : World) (acts : List Act) : World := acts.foldl (World.act level) w

def start : World := ⟨⟨1, []⟩, ⟨0, []⟩⟩

/-! ### Entries -/

/-- The entry a record becomes. -/
def Logger.entry? (record : LogRecord) (l : Logger) : Option Entry :=
  if record.levelno < trace then none
  else record.getMessage.map fun message =>
    ⟨l.seq, record.created, record.levelname, record.levelno, message⟩

theorem Logger.seq_log (r : LogRecord) (l : Logger) : l.seq ≤ (l.log r).seq := by
  unfold Logger.log
  split_ifs with hlow
  · exact le_rfl
  · unfold Logger.emit
    cases r.getMessage <;> exact Nat.le_succ _

theorem Logger.log_none {r : LogRecord} {l : Logger} (h : l.entry? r = none) :
    (l.log r).logBuffer = l.logBuffer := by
  unfold Logger.entry? at h
  unfold Logger.log
  split_ifs at h ⊢ with hlow
  · rfl
  · rw [Option.map_eq_none_iff] at h
    rw [Logger.emit, h]

theorem Logger.log_some {r : LogRecord} {l : Logger} {e : Entry} (h : l.entry? r = some e) :
    e.seq = l.seq ∧ l.log r = ⟨l.seq + 1, Ring.push maxlen l.logBuffer e⟩ := by
  unfold Logger.entry? at h
  unfold Logger.log
  split_ifs at h ⊢ with hlow
  obtain ⟨message, hmessage, rfl⟩ := Option.map_eq_some_iff.1 h
  rw [Logger.emit, hmessage]
  exact ⟨rfl, rfl⟩

def written (l : Logger) : List Act → List Entry
  | [] => []
  | .record r :: acts => (l.entry? r).toList ++ written (l.log r) acts
  | .poll :: acts => written l acts

/-- Poll by poll, the last entries since the poll before that are kept. -/
def delivered (keep : Entry → Bool) (pending : List Entry) (l : Logger) : List Act → List Entry
  | [] => []
  | .record r :: acts => delivered keep (pending ++ (l.entry? r).toList) (l.log r) acts
  | .poll :: acts => (pending.rtake maxlen).filter keep ++ delivered keep [] l acts

/-! ### What a run of acts delivers -/

def wanted (level : String) (e : Entry) : Bool := levelNo level ≤ e.levelno

/-- The buffer ends in the last of the pending entries, those since the last poll. The page has received what it
wants of the others in the buffer, and asks behind their numbers but not behind those of the pending ones. -/
structure Pending (level : String) (pending : List Entry) (w : World) : Prop where
  buffer : ∃ older, w.logger.logBuffer = older ++ pending.rtake maxlen ∧
    ∀ e ∈ older, wanted level e = true → e.seq ≤ w.page.after
  room : w.logger.logBuffer.length ≤ maxlen
  fresh : ∀ e ∈ pending, w.page.after < e.seq ∧ e.seq < w.logger.seq
  after_lt : w.page.after < w.logger.seq
  received_lt : ∀ e ∈ w.page.received, e.seq < w.logger.seq

theorem pending_start (level : String) : Pending level [] start where
  buffer := ⟨[], (List.rtake_nil _).symm, fun _ he => absurd he List.not_mem_nil⟩
  room := Nat.zero_le _
  fresh := fun _ he => absurd he List.not_mem_nil
  after_lt := Nat.one_pos
  received_lt := fun _ he => absurd he List.not_mem_nil

theorem Pending.record {level : String} {pending : List Entry} {w : World} (h : Pending level pending w)
    (r : LogRecord) :
    Pending level (pending ++ (w.logger.entry? r).toList) (w.act level (.record r)) := by
  obtain ⟨older, hbuffer, hseen⟩ := h.buffer
  have hseq := w.logger.seq_log r
  cases hentry : w.logger.entry? r with
  | none =>
    have hlog := Logger.log_none hentry
    rw [Option.toList_none, List.append_nil]
    exact {
      buffer := ⟨older, hlog.trans hbuffer, hseen⟩
      room := (congrArg List.length hlog).trans_le h.room
      fresh := fun e he => ⟨(h.fresh e he).1, (h.fresh e he).2.trans_le hseq⟩
      after_lt := h.after_lt.trans_le hseq
      received_lt := fun e he => (h.received_lt e he).trans_le hseq }
  | some e =>
    obtain ⟨hnumber, hlog⟩ := Logger.log_some hentry
    have hroom := h.room
    rw [hbuffer] at hroom
    obtain ⟨older', hsub, hpush⟩ := Ring.push_rtake hroom e
    rw [Option.toList_some]
    have hstep : w.act level (.record r) =
        ⟨⟨w.logger.seq + 1, Ring.push maxlen w.logger.logBuffer e⟩, w.page⟩ :=
      congrArg (fun l => (⟨l, w.page⟩ : World)) hlog
    rw [hstep]
    exact {
      buffer := ⟨older', by rw [← hpush, ← hbuffer], fun e' he' => hseen e' (hsub.subset he')⟩
      room := Ring.length_push_le maxlen w.logger.logBuffer e
      fresh := by
        intro e' he'
        rcases List.mem_append.1 he' with he' | he'
        · exact ⟨(h.fresh e' he').1, Nat.lt_succ_of_lt (h.fresh e' he').2⟩
        · obtain rfl := List.mem_singleton.1 he'
          exact ⟨hnumber ▸ h.after_lt, hnumber ▸ Nat.lt_succ_self _⟩
      after_lt := Nat.lt_succ_of_lt h.after_lt
      received_lt := fun e' he' => Nat.lt_succ_of_lt (h.received_lt e' he') }

theorem le_foldl_max (entries : List Entry) (after : ℕ) :
    after ≤ entries.foldl (fun after e => max after e.seq) after ∧
      ∀ e ∈ entries, e.seq ≤ entries.foldl (fun after e => max after e.seq) after := by
  induction entries generalizing after with
  | nil => exact ⟨le_rfl, fun _ he => absurd he List.not_mem_nil⟩
  | cons e entries ih =>
    obtain ⟨hafter, hall⟩ := ih (max after e.seq)
    rw [List.foldl_cons]
    refine ⟨(Nat.le_max_left _ _).trans hafter, fun e' he' => ?_⟩
    rcases List.mem_cons.1 he' with rfl | he'
    · exact (Nat.le_max_right _ _).trans hafter
    · exact hall e' he'

theorem foldl_max_lt {entries : List Entry} {after n : ℕ} (hafter : after < n) (h : ∀ e ∈ entries, e.seq < n) :
    entries.foldl (fun after e => max after e.seq) after < n := by
  induction entries generalizing after with
  | nil => exact hafter
  | cons e entries ih =>
    rw [List.foldl_cons]
    exact ih (max_lt hafter (h e List.mem_cons_self)) fun e' he' => h e' (List.mem_cons_of_mem e he')

theorem Pending.answer {level : String} {pending : List Entry} {w : World} (h : Pending level pending w) :
    handleLogsApi (some level) (some w.page.after) w.logger = (pending.rtake maxlen).filter (wanted level) := by
  obtain ⟨older, hbuffer, hseen⟩ := h.buffer
  show w.logger.logBuffer.filter (fun e => levelNo level ≤ e.levelno ∧ (w.page.after : ℤ) < e.seq) = _
  rw [hbuffer, List.filter_append]
  have holder : older.filter (fun e => levelNo level ≤ e.levelno ∧ (w.page.after : ℤ) < e.seq) = [] := by
    rw [List.filter_eq_nil_iff]
    intro e he hasked
    obtain ⟨hlevel, hbehind⟩ := of_decide_eq_true hasked
    have hle := hseen e he (decide_eq_true hlevel)
    omega
  rw [holder, List.nil_append]
  refine List.filter_congr fun e he => ?_
  have hbehind : (w.page.after : ℤ) < e.seq := Int.ofNat_lt.2 (h.fresh e (List.mem_of_mem_drop he)).1
  simp only [wanted, hbehind, and_true]

theorem World.poll_eq (level : String) (w : World) :
    w.poll level =
      { w with page := w.page.append (handleLogsApi (some level) (some w.page.after) w.logger) } := by
  rw [World.poll]
  split_ifs with hnew
  · rfl
  · have hnone := List.length_eq_zero_iff.1 (not_not.1 hnew)
    rw [hnone, Page.append, List.append_nil]
    rfl

theorem Pending.poll {level : String} {pending : List Entry} {w : World} (h : Pending level pending w) :
    Pending level [] (w.act level .poll) ∧ (w.act level .poll).logger = w.logger ∧
      (w.act level .poll).page.received = w.page.received ++ (pending.rtake maxlen).filter (wanted level) := by
  have hstep : w.act level .poll =
      { w with page := w.page.append ((pending.rtake maxlen).filter (wanted level)) } := by
    rw [← h.answer]
    exact World.poll_eq level w
  have hlt : ∀ e ∈ (pending.rtake maxlen).filter (wanted level), e.seq < w.logger.seq := fun e he =>
    (h.fresh e (List.mem_of_mem_drop (List.mem_of_mem_filter he))).2
  obtain ⟨hkept, hgot⟩ := le_foldl_max ((pending.rtake maxlen).filter (wanted level)) w.page.after
  obtain ⟨older, hbuffer, hseen⟩ := h.buffer
  rw [hstep]
  refine ⟨?_, rfl, rfl⟩
  exact {
    buffer := by
      refine ⟨w.logger.logBuffer, by rw [List.rtake_nil, List.append_nil], fun e he hwanted => ?_⟩
      rw [hbuffer, List.mem_append] at he
      rcases he with he | he
      · exact (hseen e he hwanted).trans hkept
      · exact hgot e (List.mem_filter.2 ⟨he, hwanted⟩)
    room := h.room
    fresh := fun _ he => absurd he List.not_mem_nil
    after_lt := foldl_max_lt h.after_lt hlt
    received_lt := by
      intro e he
      rcases List.mem_append.1 he with he | he
      · exact h.received_lt e he
      · exact hlt e he }

theorem pending_run {level : String} {pending : List Entry} {w : World} (h : Pending level pending w)
    (acts : List Act) : ∃ pending', Pending level pending' (run level w acts) := by
  induction acts generalizing pending w with
  | nil => exact ⟨pending, h⟩
  | cons a acts ih =>
    cases a with
    | record r => exact ih (h.record r)
    | poll => exact ih h.poll.1

/-- **What the page has received** after a run of acts. -/
theorem received_run {level : String} {pending : List Entry} {w : World} (h : Pending level pending w)
    (acts : List Act) :
    (run level w acts).page.received =
      w.page.received ++ delivered (wanted level) pending w.logger acts := by
  induction acts generalizing pending w with
  | nil => exact (List.append_nil _).symm
  | cons a acts ih =>
    cases a with
    | record r => exact ih (h.record r)
    | poll =>
      obtain ⟨hpending, hlogger, hreceived⟩ := h.poll
      have hrest := ih hpending
      rw [hreceived, hlogger, List.append_assoc] at hrest
      exact hrest

/-! ### Nothing is repeated -/

theorem seq_written (l : Logger) (acts : List Act) : ∀ e ∈ written l acts, l.seq ≤ e.seq := by
  induction acts generalizing l with
  | nil => exact fun _ he => absurd he List.not_mem_nil
  | cons a acts ih =>
    cases a with
    | record r =>
      intro e he
      rcases List.mem_append.1 he with he | he
      · obtain ⟨hnumber, -⟩ := Logger.log_some (Option.mem_toList.1 he)
        exact hnumber.ge
      · exact (l.seq_log r).trans (ih (l.log r) e he)
    | poll => exact ih l

theorem written_increasing (l : Logger) (acts : List Act) : (written l acts).Pairwise (·.seq < ·.seq) := by
  induction acts generalizing l with
  | nil => exact List.Pairwise.nil
  | cons a acts ih =>
    cases a with
    | record r =>
      rw [written, List.pairwise_append]
      refine ⟨?_, ih (l.log r), fun e he e' he' => ?_⟩
      · cases l.entry? r with
        | none => exact List.Pairwise.nil
        | some e => exact List.pairwise_singleton _ e
      · obtain ⟨hnumber, hlog⟩ := Logger.log_some (Option.mem_toList.1 he)
        have hlater := seq_written (l.log r) acts e' he'
        rw [hlog] at hlater
        exact (hnumber ▸ Nat.lt_succ_self _ : e.seq < l.seq + 1).trans_le hlater
    | poll => exact ih l

theorem delivered_sublist (keep : Entry → Bool) (pending : List Entry) (l : Logger) (acts : List Act) :
    (delivered keep pending l acts).Sublist (pending ++ written l acts) := by
  induction acts generalizing pending l with
  | nil => exact List.nil_sublist _
  | cons a acts ih =>
    cases a with
    | record r =>
      rw [delivered, written, ← List.append_assoc]
      exact ih (pending ++ (l.entry? r).toList) (l.log r)
    | poll =>
      have hlast : ((pending.rtake maxlen).filter keep).Sublist pending :=
        List.filter_sublist.trans (List.drop_sublist _ _)
      exact hlast.append (ih [] l)

/-! ### Nothing is lost -/

def Act.writes : Act → Bool
  | .record r => trace ≤ r.levelno && r.getMessage.isSome
  | .poll => false

def newer (acts : List Act) : ℕ := acts.countP Act.writes

theorem newer_cons_record (r : LogRecord) (l : Logger) (acts : List Act) :
    newer (.record r :: acts) = (l.entry? r).toList.length + newer acts := by
  rw [newer, List.countP_cons, Nat.add_comm, newer]
  congr 1
  unfold Logger.entry? Act.writes
  by_cases hlow : r.levelno < trace
  · have hrefused : ¬trace ≤ r.levelno := by omega
    simp [hlow, hrefused]
  · have hpasses : trace ≤ r.levelno := by omega
    cases hmessage : r.getMessage <;> simp [hlow, hpasses, hmessage]

/-- A pending entry is delivered by the next poll, unless it is not wanted or too many came after it. -/
theorem mem_delivered_iff (keep : Entry → Bool) {xs ys : List Entry} {e : Entry} {l : Logger}
    (hxs : e ∉ xs) (hys : e ∉ ys) (hold : e.seq < l.seq) (acts : List Act) :
    e ∈ delivered keep (xs ++ e :: ys) l acts ↔
      keep e = true ∧ ∃ mid post, acts = mid ++ .poll :: post ∧ (∀ a ∈ mid, a ≠ .poll) ∧
        ys.length + newer mid < maxlen := by
  induction acts generalizing ys l with
  | nil =>
    refine iff_of_false List.not_mem_nil ?_
    rintro ⟨-, mid, post, hsplit, -⟩
    exact absurd hsplit (by simp)
  | cons a acts ih =>
    cases a with
    | record r =>
      have hys' : e ∉ ys ++ (l.entry? r).toList := by
        intro hmem
        rcases List.mem_append.1 hmem with hmem | hmem
        · exact hys hmem
        · obtain ⟨hnumber, -⟩ := Logger.log_some (Option.mem_toList.1 hmem)
          omega
      have hrest := ih hys' (hold.trans_le (l.seq_log r))
      rw [delivered, List.append_assoc, List.cons_append, hrest]
      refine and_congr_right fun _ => ⟨?_, ?_⟩
      · rintro ⟨mid, post, rfl, hmid, hfew⟩
        refine ⟨.record r :: mid, post, rfl, ?_, ?_⟩
        · intro a ha
          rcases List.mem_cons.1 ha with rfl | ha
          · exact Act.noConfusion
          · exact hmid a ha
        · rw [newer_cons_record r l, ← Nat.add_assoc]
          rwa [List.length_append] at hfew
      · rintro ⟨mid, post, hsplit, hmid, hfew⟩
        cases mid with
        | nil => exact Act.noConfusion (List.cons.inj hsplit).1
        | cons a mid =>
          obtain ⟨rfl, rfl⟩ := List.cons.inj hsplit
          refine ⟨mid, post, rfl, fun a ha => hmid a (List.mem_cons_of_mem _ ha), ?_⟩
          rw [newer_cons_record r l, ← Nat.add_assoc] at hfew
          rwa [List.length_append]
    | poll =>
      have hlater : e ∉ delivered keep [] l acts := by
        intro hmem
        have hwritten := (delivered_sublist keep [] l acts).subset hmem
        have hle := seq_written l acts e hwritten
        omega
      rw [delivered, List.mem_append, List.mem_filter, Ring.mem_rtake_iff hxs hys]
      constructor
      · rintro (⟨hfew, hkeep⟩ | hmem)
        · exact ⟨hkeep, [], acts, rfl, fun _ ha => absurd ha List.not_mem_nil, hfew⟩
        · exact absurd hmem hlater
      · rintro ⟨hkeep, mid, post, hsplit, hmid, hfew⟩
        cases mid with
        | nil => exact .inl ⟨hfew, hkeep⟩
        | cons a mid => exact absurd (List.cons.inj hsplit).1.symm (hmid a List.mem_cons_self)

theorem exists_record_of_written {level : String} {w : World} {acts : List Act} {e : Entry}
    (h : e ∈ written w.logger acts) :
    ∃ pre r rest, acts = pre ++ .record r :: rest ∧ (run level w pre).logger.entry? r = some e := by
  induction acts generalizing w with
  | nil => exact absurd h List.not_mem_nil
  | cons a acts ih =>
    cases a with
    | record r =>
      rcases List.mem_append.1 h with h | h
      · exact ⟨[], r, acts, rfl, Option.mem_toList.1 h⟩
      · obtain ⟨pre, r', rest, rfl, hentry⟩ := ih (w := w.act level (.record r)) h
        exact ⟨.record r :: pre, r', rest, rfl, hentry⟩
    | poll =>
      have hrest : e ∈ written (w.poll level).logger acts := by
        rw [World.poll_eq]
        exact h
      obtain ⟨pre, r', rest, rfl, hentry⟩ := ih hrest
      exact ⟨.poll :: pre, r', rest, rfl, hentry⟩

/-- **Log polling loses and repeats nothing**: the page receives entries with increasing numbers, each as it was
written; and an entry of its level or above, once the next poll is there, unless 2000 or more were written in
between. -/
theorem logs_exactly_once (level : String) (acts : List Act) :
    (run level start acts).page.received.Pairwise (·.seq < ·.seq) ∧
      (∀ e ∈ (run level start acts).page.received, ∃ pre r rest, acts = pre ++ .record r :: rest ∧
        (run level start pre).logger.entry? r = some e) ∧
      ∀ pre r rest e, acts = pre ++ .record r :: rest → (run level start pre).logger.entry? r = some e →
        (e ∈ (run level start acts).page.received ↔
          levelNo level ≤ e.levelno ∧ ∃ mid post, rest = mid ++ .poll :: post ∧ (∀ a ∈ mid, a ≠ .poll) ∧
            newer mid < maxlen) := by
  have hreceived : (run level start acts).page.received = delivered (wanted level) [] start.logger acts :=
    received_run (pending_start level) acts
  have hsub : (run level start acts).page.received.Sublist (written start.logger acts) := by
    rw [hreceived]
    exact delivered_sublist (wanted level) [] start.logger acts
  refine ⟨(written_increasing start.logger acts).sublist hsub, fun e he => ?_, ?_⟩
  · exact exists_record_of_written (hsub.subset he)
  · rintro pre r rest e rfl hentry
    obtain ⟨pending, hpending⟩ := pending_run (pending_start level) pre
    obtain ⟨hnumber, hlog⟩ := Logger.log_some hentry
    have hbefore : e ∉ (run level start pre).page.received := fun hmem =>
      (hpending.received_lt e hmem).ne hnumber
    have hpending' : e ∉ pending := fun hmem => (hpending.fresh e hmem).2.ne hnumber
    have hold : e.seq < ((run level start pre).logger.log r).seq := by
      rw [hlog, hnumber]
      exact Nat.lt_succ_self _
    have hdelivered := mem_delivered_iff (wanted level) hpending' List.not_mem_nil hold rest
    simp only [List.length_nil, Nat.zero_add] at hdelivered
    have hsplit : run level start (pre ++ .record r :: rest) =
        run level (run level start pre) (.record r :: rest) := List.foldl_append
    rw [hsplit, received_run hpending, List.mem_append, or_iff_right hbefore, delivered, hentry,
      Option.toList_some, hdelivered]
    exact and_congr_left' decide_eq_true_iff

example :
    (run "info" start [.record ⟨"12:00:00", "INFO", 20, some "up"⟩, .record ⟨"12:00:00", "DEBUG", 10, some "GET /"⟩,
      .poll, .record ⟨"12:00:01", "INFO", 20, none⟩, .poll, .record ⟨"12:00:02", "ERROR", 40, some "down"⟩,
      .poll, .poll]).page.received.map (·.seq) = [1, 4] := by
  decide +kernel

end Logs

end CamReverse
