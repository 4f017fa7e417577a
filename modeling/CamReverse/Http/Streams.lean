import CamReverse.Http.Alone
import CamReverse.Http.Independence
import CamReverse.Lib.Framing

/-!
# What a browser reads

A browser reads the response of `/camera/{devId}` part by part: the boundary, the header lines up to an empty one, and as
many bytes as `Content-Length` says. It reads the response of `/audio/{devId}` as server-sent events whose data is
base64. Both readers read what `frameChunk` and `audioChunk` write (`framing_frames`, `framing_audio`), so whatever part
of a response has arrived, the browser gets the frames or the audio that have arrived completely (`stream_decodes`).
-/

namespace CamReverse

open Effect Reader

/-! ### Text -/

/-- The characters of ASCII bytes. -/
def decodeAscii (bs : Bytes) : List Char := bs.map fun b => Char.ofNat b.toNat

theorem encodeAscii_append (s t : String) : encodeAscii (s ++ t) = encodeAscii s ++ encodeAscii t := by
  unfold encodeAscii
  rw [String.toList_append, List.map_append]

theorem decodeAscii_encodeAscii {s : String} (h : ∀ c ∈ s.toList, c.toNat < 128) :
    decodeAscii (encodeAscii s) = s.toList := by
  unfold decodeAscii encodeAscii
  rw [List.map_map]
  refine (List.map_congr_left fun c hc => ?_).trans (List.map_id _)
  show Char.ofNat (UInt8.ofNat c.toNat).toNat = c
  rw [UInt8.toNat_ofNat', Nat.mod_eq_of_lt (lt_trans (h c hc) (by decide)), Char.ofNat_toNat]

def decimal (bs : Bytes) : Option ℕ :=
  if bs ≠ [] ∧ (decodeAscii bs).all Char.isDigit then some (Nat.ofDigitChars 10 (decodeAscii bs) 0) else none

theorem isDigit_toString (n : ℕ) : ∀ c ∈ (toString n).toList, c.isDigit = true := by
  intro c hc
  rw [Nat.toString_eq_repr, Nat.toList_repr] at hc
  exact Nat.isDigit_of_mem_toDigits (by decide) (by decide) hc

theorem toNat_of_isDigit {c : Char} (h : c.isDigit = true) : 48 ≤ c.toNat ∧ c.toNat ≤ 57 := by
  rw [Char.isDigit_iff_toNat] at h
  exact h

theorem decimal_toString (n : ℕ) : decimal (encodeAscii (toString n)) = some n := by
  have hascii : decodeAscii (encodeAscii (toString n)) = (toString n).toList :=
    decodeAscii_encodeAscii fun c hc => by
      have := toNat_of_isDigit (isDigit_toString n c hc)
      omega
  have hdigits : (toString n).toList = Nat.toDigits 10 n := by rw [Nat.toString_eq_repr, Nat.toList_repr]
  unfold decimal
  rw [hascii, hdigits, if_pos]
  · rw [Nat.ofDigitChars_toDigits (by decide) (by decide)]
  · constructor
    · unfold encodeAscii
      rw [hdigits, ne_eq, List.map_eq_nil_iff]
      exact Nat.toDigits_ne_nil
    · exact List.all_eq_true.2 (hdigits ▸ isDigit_toString n)

/-! ### Parts -/

def readLine : Reader UInt8 Bytes :=
  (readUntil 13).bind fun line => (expect 10).bind fun _ => ret (some line)

theorem readLine_append {line : Bytes} (h : 13 ∉ line) (rest : Bytes) :
    readLine (line ++ 13 :: 10 :: rest) = some (line, rest) := by
  unfold readLine
  rw [bind_some (readUntil_append h _), bind_some (expect_cons 10 rest)]
  rfl

theorem readLine_nil (rest : Bytes) : readLine (13 :: 10 :: rest) = some ([], rest) :=
  readLine_append List.not_mem_nil rest

theorem incremental_readLine : readLine.Incremental :=
  (Incremental.readUntil 13).bind fun _ => (Incremental.expect 10).bind fun _ => Incremental.ret _

/-- The header lines up to an empty one, at most `n`. -/
def readHeaders : ℕ → Reader UInt8 (List Bytes)
  | 0 => ret none
  | n + 1 => readLine.bind fun line =>
    if line = [] then ret (some []) else (readHeaders n).bind fun lines => ret (some (line :: lines))

theorem readHeaders_nil {n : ℕ} (rest : Bytes) : readHeaders (n + 1) (13 :: 10 :: rest) = some ([], rest) := by
  rw [readHeaders, bind_some (readLine_nil rest), if_pos rfl]
  rfl

theorem readHeaders_cons {n : ℕ} {line : Bytes} (h : 13 ∉ line) (hne : line ≠ []) {rest : Bytes} {lines : List Bytes}
    {bs : Bytes} (hlines : readHeaders n bs = some (lines, rest)) :
    readHeaders (n + 1) (line ++ 13 :: 10 :: bs) = some (line :: lines, rest) := by
  rw [readHeaders, bind_some (readLine_append h bs), if_neg hne, bind_some hlines]
  rfl

theorem incremental_readHeaders (n : ℕ) : (readHeaders n).Incremental := by
  induction n with
  | zero => exact Incremental.ret _
  | succ n ih =>
    refine incremental_readLine.bind fun line => ?_
    split_ifs
    · exact Incremental.ret _
    · exact ih.bind fun _ => Incremental.ret _

def contentLength (headers : List Bytes) : Option ℕ :=
  headers.findSome? fun line =>
    if (encodeAscii "Content-Length: ").isPrefixOf line then decimal (line.drop 16) else none

/-- A part of the MJPEG stream: what it contains. A browser reads at most so many header lines. -/
def readPart : Reader UInt8 Bytes :=
  readLine.bind fun blank => readLine.bind fun delimiter =>
    if blank = [] ∧ delimiter = encodeAscii ("--" ++ BOUNDARY) then
      (readHeaders 100).bind fun headers =>
        match contentLength headers with
        | some n => takeN n
        | none => ret none
    else ret none

theorem incremental_readPart : readPart.Incremental := by
  refine incremental_readLine.bind fun blank => incremental_readLine.bind fun delimiter => ?_
  split_ifs
  · refine (incremental_readHeaders 100).bind fun headers => ?_
    cases contentLength headers with
    | some n => exact Incremental.takeN n
    | none => exact Incremental.ret none
  · exact Incremental.ret none

theorem lengthHeader_eq (n : ℕ) : encodeAscii ("Content-Length: " ++ toString n) =
    encodeAscii "Content-Length: " ++ encodeAscii (toString n) := encodeAscii_append _ _

theorem notMem_lengthHeader (n : ℕ) : 13 ∉ encodeAscii ("Content-Length: " ++ toString n) := by
  rw [lengthHeader_eq, List.mem_append, not_or]
  refine ⟨by decide, fun h => ?_⟩
  obtain ⟨c, hc, hbyte⟩ := List.mem_map.1 h
  have hdigit := toNat_of_isDigit (isDigit_toString n c hc)
  have hnat := congrArg UInt8.toNat hbyte
  rw [UInt8.toNat_ofNat', Nat.mod_eq_of_lt (by omega)] at hnat
  have h13 : (13 : UInt8).toNat = 13 := rfl
  omega

theorem contentLength_header (n : ℕ) (headers : List Bytes) :
    contentLength (encodeAscii ("Content-Length: " ++ toString n) :: headers) = some n := by
  have hstarts : (encodeAscii "Content-Length: ").isPrefixOf (encodeAscii ("Content-Length: " ++ toString n)) = true := by
    rw [lengthHeader_eq]
    exact List.isPrefixOf_iff_prefix.2 (List.prefix_append _ _)
  have hdrop : (encodeAscii ("Content-Length: " ++ toString n)).drop 16 = encodeAscii (toString n) := by
    rw [lengthHeader_eq]
    exact List.drop_left' (by decide)
  unfold contentLength
  rw [List.findSome?_cons, if_pos hstarts, hdrop, decimal_toString]

theorem frameChunk_eq (assembled : Bytes) :
    frameChunk assembled = 13 :: 10 :: (encodeAscii ("--" ++ BOUNDARY) ++ 13 :: 10 ::
      (encodeAscii ("Content-Length: " ++ toString assembled.length) ++ 13 :: 10 ::
        (encodeAscii "Content-Type: image/jpeg" ++ 13 :: 10 :: (13 :: 10 :: assembled)))) := by
  have hfirst : encodeAscii "\r\n--" = 13 :: 10 :: encodeAscii "--" := by decide
  have hnewline : encodeAscii "\r\n" = [13, 10] := by decide
  have hlast : encodeAscii "Content-Type: image/jpeg\r\n\r\n" =
      encodeAscii "Content-Type: image/jpeg" ++ [13, 10, 13, 10] := by decide
  unfold frameChunk
  simp only [encodeAscii_append, hfirst, hnewline, hlast, List.append_assoc, List.cons_append, List.nil_append]

/-- **A browser reads the frames** of the MJPEG stream. -/
theorem framing_frames : Framing frameChunk readPart where
  toIncremental := incremental_readPart
  round assembled := by
    have htype : readHeaders 99 (encodeAscii "Content-Type: image/jpeg" ++ 13 :: 10 :: (13 :: 10 :: assembled)) =
        some ([encodeAscii "Content-Type: image/jpeg"], assembled) :=
      readHeaders_cons (by decide) (by decide) (readHeaders_nil assembled)
    have hlength := readHeaders_cons (notMem_lengthHeader assembled.length)
      (by rw [lengthHeader_eq]; exact List.append_ne_nil_of_left_ne_nil (by decide) _) htype
    rw [frameChunk_eq]
    unfold readPart
    rw [bind_some (readLine_nil _), bind_some (readLine_append (by decide) _),
      if_pos ⟨rfl, rfl⟩, bind_some hlength, contentLength_header]
    have htake := takeN_append assembled []
    rw [List.append_nil] at htake
    exact htake
  nonempty assembled := by
    rw [frameChunk_eq]
    exact List.cons_ne_nil _ _

/-! ### Events -/

def b64Value (c : Char) : Option ℕ :=
  "ABCDEFGHIJKLMNOPQRSTUVWXYZabcdefghijklmnopqrstuvwxyz0123456789+/".toList.idxOf? c

theorem b64Value_digit {n : ℕ} (hn : n < 64) : b64Value (b64Digit n) = some n := by
  have hall : ∀ n : Fin 64, b64Value (b64Digit n) = some n.val := by decide +kernel
  exact hall ⟨n, hn⟩

theorem b64Digit_ne {n : ℕ} (hn : n < 64) : b64Digit n ≠ '=' := by
  have hall : ∀ n : Fin 64, b64Digit n ≠ '=' := by decide +kernel
  exact hall ⟨n, hn⟩

/-- `atob`, on a text whose padding is complete. -/
def b64decode : List Char → Option Bytes
  | [] => some []
  | a :: b :: c :: d :: rest => do
    let a ← b64Value a
    let b ← b64Value b
    if c = '=' then
      if d = '=' ∧ rest = [] then some [UInt8.ofNat ((a * 64 + b) / 16)] else none
    else
      let c ← b64Value c
      if d = '=' then
        if rest = [] then some [UInt8.ofNat ((a * 64 + b) / 16), UInt8.ofNat ((b * 64 + c) / 4)] else none
      else
        let d ← b64Value d
        let bytes ← b64decode rest
        return [UInt8.ofNat ((a * 64 + b) / 16), UInt8.ofNat ((b * 64 + c) / 4), UInt8.ofNat (c * 64 + d)] ++ bytes
  | _ => none

theorem ofNat_eq_of_mod {n : ℕ} {b : UInt8} (h : n % 256 = b.toNat) : UInt8.ofNat n = b := by
  refine UInt8.toNat_inj.1 ?_
  rw [UInt8.toNat_ofNat']
  exact h

theorem b64decode_one {v w : ℕ} (hv : v < 64) (hw : w < 64) :
    b64decode [b64Digit v, b64Digit w, '=', '='] = some [UInt8.ofNat ((v * 64 + w) / 16)] := by
  rw [b64decode, b64Value_digit hv, b64Value_digit hw]
  rfl

theorem b64decode_two {v w x : ℕ} (hv : v < 64) (hw : w < 64) (hx : x < 64) :
    b64decode [b64Digit v, b64Digit w, b64Digit x, '='] =
      some [UInt8.ofNat ((v * 64 + w) / 16), UInt8.ofNat ((w * 64 + x) / 4)] := by
  rw [b64decode, b64Value_digit hv, b64Value_digit hw]
  simp only [Option.bind_eq_bind, Option.bind_some, b64Digit_ne hx, b64Value_digit hx, if_false, if_true]

theorem b64decode_three {v w x y : ℕ} (hv : v < 64) (hw : w < 64) (hx : x < 64) (hy : y < 64) {rest : List Char}
    {bs : Bytes} (hrest : b64decode rest = some bs) :
    b64decode (b64Digit v :: b64Digit w :: b64Digit x :: b64Digit y :: rest) =
      some (UInt8.ofNat ((v * 64 + w) / 16) :: UInt8.ofNat ((w * 64 + x) / 4) :: UInt8.ofNat (x * 64 + y) :: bs) := by
  rw [b64decode, b64Value_digit hv, b64Value_digit hw]
  simp only [Option.bind_eq_bind, Option.bind_some, b64Digit_ne hx, b64Value_digit hx, b64Digit_ne hy,
    b64Value_digit hy, hrest, if_false]
  rfl

/-- **Base64 is read back.** -/
theorem b64decode_b64encode (bs : Bytes) : b64decode (b64encode bs) = some bs := by
  induction bs using b64encode.induct with
  | case1 => rfl
  | case2 a =>
    have ha := a.toNat_lt
    refine (b64decode_one (by omega) (by omega)).trans ?_
    rw [ofNat_eq_of_mod (b := a) (by omega)]
  | case3 a b =>
    have ha := a.toNat_lt
    have hb := b.toNat_lt
    refine (b64decode_two (by omega) (by omega) (by omega)).trans ?_
    rw [ofNat_eq_of_mod (b := a) (by omega), ofNat_eq_of_mod (b := b) (by omega)]
  | case4 a b c rest ih =>
    have ha := a.toNat_lt
    have hb := b.toNat_lt
    have hc := c.toNat_lt
    refine (b64decode_three (by omega) (by omega) (by omega) (by omega) ih).trans ?_
    rw [ofNat_eq_of_mod (b := a) (by omega), ofNat_eq_of_mod (b := b) (by omega), ofNat_eq_of_mod (b := c) (by omega)]

theorem b64encode_plain (bs : Bytes) : ∀ c ∈ b64encode bs, c.toNat < 128 ∧ UInt8.ofNat c.toNat ≠ 10 := by
  have hdigit : ∀ n < 64, (b64Digit n).toNat < 128 ∧ UInt8.ofNat (b64Digit n).toNat ≠ 10 := by
    have hall : ∀ n : Fin 64, (b64Digit n).toNat < 128 ∧ UInt8.ofNat (b64Digit n).toNat ≠ 10 := by decide +kernel
    exact fun n hn => hall ⟨n, hn⟩
  have hpad : '='.toNat < 128 ∧ UInt8.ofNat '='.toNat ≠ 10 := by decide
  induction bs using b64encode.induct with
  | case1 => exact fun c hc => (List.not_mem_nil hc).elim
  | case2 a =>
    have ha := a.toNat_lt
    have hall : ∀ c ∈ [b64Digit (a.toNat * 16 / 64), b64Digit (a.toNat * 16 % 64), '=', '='],
        c.toNat < 128 ∧ UInt8.ofNat c.toNat ≠ 10 := by
      simp only [List.forall_mem_cons, List.not_mem_nil, false_imp_iff, implies_true, and_true]
      exact ⟨hdigit _ (by omega), hdigit _ (by omega), hpad, hpad⟩
    exact hall
  | case3 a b =>
    have ha := a.toNat_lt
    have hb := b.toNat_lt
    rw [b64encode]
    simp only [List.forall_mem_cons, List.not_mem_nil, false_imp_iff, implies_true, and_true]
    exact ⟨hdigit _ (by omega), hdigit _ (by omega), hdigit _ (by omega), hpad⟩
  | case4 a b c rest ih =>
    have ha := a.toNat_lt
    have hb := b.toNat_lt
    have hc := c.toNat_lt
    rw [b64encode]
    simp only [List.cons_append, List.nil_append, List.forall_mem_cons]
    exact ⟨hdigit _ (by omega), hdigit _ (by omega), hdigit _ (by omega), hdigit _ (by omega), ih⟩

/-- The data of a server-sent event with one line. -/
def eventData (line : Bytes) : Option Bytes :=
  if (encodeAscii "data: ").isPrefixOf line then b64decode (decodeAscii (line.drop 6)) else none

/-- A server-sent event: what its data is the base64 of. -/
def readEvent : Reader UInt8 Bytes :=
  (readUntil 10).bind fun line => (expect 10).bind fun _ => ret (eventData line)

theorem incremental_readEvent : readEvent.Incremental :=
  (Incremental.readUntil 10).bind fun _ => (Incremental.expect 10).bind fun _ => Incremental.ret _

theorem audioChunk_eq (data : Bytes) :
    audioChunk data = encodeAscii ("data: " ++ String.ofList (b64encode data)) ++ 10 :: 10 :: [] := by
  unfold audioChunk
  rw [encodeAscii_append]
  rfl

/-- **A browser reads the audio** of the events. -/
theorem framing_audio : Framing audioChunk readEvent where
  toIncremental := incremental_readEvent
  round data := by
    have hplain := b64encode_plain data
    have hline : 10 ∉ encodeAscii ("data: " ++ String.ofList (b64encode data)) := by
      rw [encodeAscii_append, List.mem_append, not_or]
      refine ⟨by decide, fun h => ?_⟩
      obtain ⟨c, hc, hbyte⟩ := List.mem_map.1 h
      rw [String.toList_ofList] at hc
      exact (hplain c hc).2 hbyte
    have hdata : eventData (encodeAscii ("data: " ++ String.ofList (b64encode data))) = some data := by
      have hdrop : (encodeAscii ("data: " ++ String.ofList (b64encode data))).drop 6 =
          encodeAscii (String.ofList (b64encode data)) := by
        rw [encodeAscii_append]
        exact List.drop_left' (by decide)
      have hstarts : (encodeAscii "data: ").isPrefixOf
          (encodeAscii ("data: " ++ String.ofList (b64encode data))) = true := by
        rw [encodeAscii_append]
        exact List.isPrefixOf_iff_prefix.2 (List.prefix_append _ _)
      unfold eventData
      rw [if_pos hstarts, hdrop, decodeAscii_encodeAscii, String.toList_ofList, b64decode_b64encode]
      rw [String.toList_ofList]
      exact fun c hc => (hplain c hc).1
    rw [audioChunk_eq]
    unfold readEvent
    rw [bind_some (readUntil_append hline _), bind_some (expect_cons 10 []), hdata]
    rfl
  nonempty data := by
    rw [audioChunk_eq]
    exact List.append_ne_nil_of_right_ne_nil _ (List.cons_ne_nil _ _)

/-! ### What is emitted -/

def Media.chunk : Media → Bytes → Bytes
  | .video => frameChunk
  | .audio => audioChunk

def Media.reader : Media → Reader UInt8 Bytes
  | .video => readPart
  | .audio => readEvent

theorem framing_media (media : Media) : Framing media.chunk media.reader := by
  cases media with
  | video => exact framing_frames
  | audio => exact framing_audio

/-- What a session's listeners make of an event: an assembled frame, or the audio as it is. -/
def Camera.payloadOf (cam : Camera) (config : Config) : Event → Option (Media × Bytes)
  | .frame image =>
    if cam.attached then
      match assembleFrame config cam.devId image with
      | .ok assembled => some (.video, assembled)
      | .error _ => none
    else none
  | .audio data => if cam.audioAttached then some (.audio, data) else none
  | _ => none

theorem chunkOf_eq (cam : Camera) (config : Config) (ev : Event) :
    cam.chunkOf config ev = (cam.payloadOf config ev).map fun payload => (payload.1, payload.1.chunk payload.2) := by
  cases ev with
  | frame image =>
    unfold Camera.chunkOf Camera.payloadOf
    dsimp only
    split_ifs
    · cases assembleFrame config cam.devId image <;> rfl
    · rfl
  | audio data =>
    unfold Camera.chunkOf Camera.payloadOf
    dsimp only
    split_ifs <;> rfl
  | _ => rfl

/-- The frames or the audio for a stream that the session `k` emits in a step. -/
def Server.payloadsOf (srv : Server) (media : Media) (devId : String) (step : ServerStep) : List Bytes :=
  match srv.sessionOf step with
  | none => []
  | some k =>
    match srv.cameras[k]? with
    | none => []
    | some cam => ((srv.emitted (srv.step step) k).filterMap (cam.payloadOf srv.web.config)).flatMap fun payload =>
      if payload.1 = media ∧ cam.devId = devId then [payload.2] else []

theorem chunksOf_eq (srv : Server) (media : Media) (devId : String) (step : ServerStep) :
    srv.chunksOf media devId step = (srv.payloadsOf media devId step).map media.chunk := by
  unfold Server.chunksOf Server.payloadsOf Server.chunksBy Camera.chunksFor
  cases srv.sessionOf step with
  | none => rfl
  | some k =>
    dsimp only
    cases srv.cameras[k]? with
    | none => rfl
    | some cam =>
      dsimp only
      induction srv.emitted (srv.step step) k with
      | nil => rfl
      | cons ev evs ih =>
        rw [List.filterMap_cons, List.filterMap_cons, chunkOf_eq]
        cases cam.payloadOf srv.web.config ev with
        | none => exact ih
        | some payload =>
          rw [Option.map_some, List.flatMap_cons, List.flatMap_cons, List.map_append, ih]
          congr 1
          dsimp only
          split_ifs with h
          · rw [h.1]
            rfl
          · rfl

/-- The frames or the audio for a stream that are emitted in a run. -/
def Server.payloads (srv : Server) (media : Media) (devId : String) (steps : List ServerStep) : List Bytes :=
  Runs.outputs Server.step (fun srv step => srv.payloadsOf media devId step) srv steps

theorem emits_eq (srv : Server) (media : Media) (devId : String) (steps : List ServerStep) :
    srv.emits media devId steps = (srv.payloads media devId steps).map media.chunk := by
  unfold Server.emits Server.payloads
  induction steps generalizing srv with
  | nil => rfl
  | cons step steps ih => rw [Runs.outputs, Runs.outputs, List.map_append, ih, chunksOf_eq]

/-! ### What a client gets -/

theorem offers_fst (queue : ChunkQueue) (chunks : List Bytes) : (queue.offers chunks).map Prod.fst = chunks := by
  unfold ChunkQueue.offers
  induction chunks generalizing queue with
  | nil => rfl
  | cons chunk chunks ih =>
    rw [Runs.outputs, List.map_append, ih]
    rfl

theorem Server.Shows.offers_sublist {srv : Server} (hinv : QueuesInv srv) (hlisted : srv.Listed) {i k : ℕ}
    {media : Media} {devId : String} {v : Viewer} (h : srv.Shows i media devId v) {steps : List ServerStep}
    (hplace : Runs.Guarded Server.step (Server.InPlace devId k) srv steps) :
    ((srv.offers i steps).map Prod.fst).Sublist (srv.emits media devId steps) := by
  unfold Server.offers Server.emits
  induction steps generalizing srv v with
  | nil => exact List.Sublist.refl _
  | cons step steps ih =>
    have hplaced : (srv.web.sessions.find? devId).isSome := by
      rw [show srv.web.sessions.find? devId = some k from hplace.1]
      rfl
    have hrest := ih (hinv.step step) (hlisted.step step) (h.step hinv hlisted step (.inr hplaced)) hplace.2
    rw [Runs.outputs, Runs.outputs, List.map_append]
    refine List.Sublist.append ?_ hrest
    obtain ⟨phase, hclient⟩ := h.client
    unfold Server.offersTo
    rw [hclient]
    cases srv.queueOf i with
    | none => exact List.nil_sublist _
    | some queue =>
      dsimp only
      rw [offers_fst]

/-- What a client takes while the session of its camera stays carries frames or audio that are emitted meanwhile, in
their order. -/
theorem taken_payloads (config : Config) {seen steps : List ServerStep} {i k : ℕ} {media : Media} {devId : String}
    (hclient : ((Server.start config).run seen).clients[i]? = some ⟨media, devId, .preparing⟩)
    (hplace : Runs.Guarded Server.step (Server.InPlace devId k) ((Server.start config).run seen) steps) :
    ∃ got : List Bytes, got.Sublist (((Server.start config).run seen).payloads media devId steps) ∧
      ((Server.start config).run seen).taken i steps = got.map media.chunk := by
  obtain ⟨hinv, hlisted⟩ := queuesInv_listed_run config seen
  have hshows : ((Server.start config).run seen).Shows i media devId .preparing := hclient
  obtain ⟨v, -, hplaced⟩ := hshows.run hinv hlisted hplace
  rw [show Viewer.preparing.items = [] from rfl, List.nil_append] at hplaced
  have htaken : (((Server.start config).run seen).taken i steps).Sublist
      ((((Server.start config).run seen).payloads media devId steps).map media.chunk) := by
    rw [← emits_eq]
    refine List.Sublist.trans ?_ (hshows.offers_sublist hinv hlisted hplace)
    refine List.Sublist.trans ?_ (Mailbox.placed_sublist _)
    rw [hplaced]
    exact List.sublist_append_left _ _
  obtain ⟨got, hgot, heq⟩ := List.sublist_map_iff.1 htaken
  exact ⟨got, hgot, heq⟩

/-- **What a browser gets.** While the session of a camera stays, the response to a client that joins is made of frames
that were emitted while it was registered, or of the audio, in their order and each at most once; and of whatever part
of it has arrived, the browser reads exactly the frames or the audio that have arrived completely. -/
theorem stream_decodes (config : Config) {seen steps : List ServerStep} {i k : ℕ} {media : Media} {devId : String}
    (hclient : ((Server.start config).run seen).clients[i]? = some ⟨media, devId, .preparing⟩)
    (hplace : Runs.Guarded Server.step (Server.InPlace devId k) ((Server.start config).run seen) steps) :
    ∃ got : List Bytes, got.Sublist (((Server.start config).run seen).payloads media devId steps) ∧
      ((Server.start config).run seen).taken i steps = got.map media.chunk ∧
      ∀ body, body <+: (((Server.start config).run seen).taken i steps).flatten →
        (media.reader.readAll body).1 <+: got ∧
        body = (media.reader.readAll body).1.flatMap media.chunk ++ (media.reader.readAll body).2 ∧
        ∀ front, front <+: got → front.flatMap media.chunk <+: body → front <+: (media.reader.readAll body).1 := by
  obtain ⟨got, hgot, heq⟩ := taken_payloads config hclient hplace
  refine ⟨got, hgot, heq, fun body hbody => (framing_media media).readAll_arrived ?_⟩
  rw [heq, ← List.flatMap_def] at hbody
  exact hbody

/-- The first client gets two frames. -/
theorem stream_decodes_twoFrames :
    ∃ got : List Bytes, got.length = 2 ∧
      ((Server.start defaultConfig).run twoClients).taken 0 bothWatch = got.map frameChunk ∧
      (readPart.readAll (((Server.start defaultConfig).run twoClients).taken 0 bothWatch).flatten).1 <+: got := by
  have hclient : ((Server.start defaultConfig).run twoClients).clients[0]? =
      some ⟨.video, aCamera.devId, .preparing⟩ := by decide +kernel
  have hplace : Runs.Guarded Server.step (Server.InPlace aCamera.devId 0)
      ((Server.start defaultConfig).run twoClients) bothWatch := by decide +kernel
  have hlength : (((Server.start defaultConfig).run twoClients).taken 0 bothWatch).length = 2 := by decide +kernel
  obtain ⟨got, -, htaken, hread⟩ := stream_decodes defaultConfig hclient hplace
  refine ⟨got, ?_, htaken, (hread _ List.prefix_rfl).1⟩
  rw [htaken, List.length_map] at hlength
  exact hlength

end CamReverse
