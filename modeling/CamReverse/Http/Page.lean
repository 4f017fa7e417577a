import CamReverse.Control.Punch
import CamReverse.Http.Requests
import CamReverse.Http.Sessions
import CamReverse.Http.Template
import Mathlib.Algebra.Order.BigOperators.Group.List
import Mathlib.Algebra.Order.Group.Nat

/-!
# Names on the page of a camera

`_handle_ui` puts the id of a camera, its name and whether it has audio into the template by three replacements, one
after the other, and escapes nothing. A replacement finds the placeholders of the template and those that came in
with an earlier text (`replace_fill`). So the texts are treated as data exactly as long as they have no markup and
no placeholder that a later replacement looks for (`page_as_data_iff`).
-/

namespace CamReverse

open Bytes Effect Replace

/-! ### `_handle_ui` -/

/-- `s.replace(old, new)`. -/
def strReplace (old new s : String) : String := String.ofList (replace old.toList new.toList s.toList)

def htmlTemplate : String := String.ofList (asdHtml.fill fun hole => hole.text.toList)

structure Response where
  status : ℕ
  text : String
  contentType : String
  deriving DecidableEq, Repr

/-- The condition `_handle_ui` puts into the script. -/
def audioText (audio : Bool) : String := if audio then "true" else "false"

def handleUi (srv : Server) (devId : String) : Except PyErr Response :=
  match (srv.web.sessions.find? devId).bind fun k => srv.cameras[k]? with
  | none => return ⟨400, "invalid ID", "text/plain"⟩
  | some cam =>
    if !cam.session.connected then return ⟨400, "Nothing online", "text/plain"⟩
    else do
      match ← cameraName srv.web.config devId with
      | .str name =>
        let ui := strReplace Hole.name.text name (strReplace Hole.id.text devId htmlTemplate)
        let audio ← cameraAudio srv.web.config devId
        return ⟨200, strReplace Hole.audio.text (audioText audio) ui, "text/html"⟩
      | _ => throw .typeError

/-! ### Filled templates -/

/-- The placeholders of the template, in their order. -/
def Template.holes (t : Template) : List Hole := t.parts.map Prod.snd

theorem dollar_notMem_chars {lines : List String} (h : ∀ line ∈ lines, '$' ∉ line.toList) : '$' ∉ chars lines := by
  intro hmem
  obtain ⟨line, hline, hchar⟩ := List.mem_flatMap.1 hmem
  exact h line hline hchar

theorem replace_parts {word : List Char} (hword : ∀ c ∈ word, c ∈ holeChars) (new : List Char) {rest : List String}
    (texts : Hole → List Char) {parts : List (List String × Hole)}
    (hplain : ∀ lines ∈ parts.map Prod.fst ++ [rest], ∀ line ∈ lines, '$' ∉ line.toList)
    (hfollows : ∀ lines ∈ parts.map Prod.fst ++ [rest], ∃ c s, chars lines = c :: s ∧ c ∉ holeChars)
    (x : List Char) :
    replace ('$' :: word) new (x ++ (parts.flatMap (fun part => chars part.1 ++ texts part.2) ++ chars rest)) =
      replace ('$' :: word) new x ++
        (parts.flatMap (fun part => chars part.1 ++ replace ('$' :: word) new (texts part.2)) ++ chars rest) := by
  have hcut : ∀ lines ∈ parts.map Prod.fst ++ [rest], ∀ x y, replace ('$' :: word) new (x ++ (chars lines ++ y)) =
      replace ('$' :: word) new x ++ (chars lines ++ replace ('$' :: word) new y) := by
    intro lines hlines x y
    obtain ⟨c, s, hchars, hc⟩ := hfollows lines hlines
    have hhead : ∀ a ∈ (chars lines ++ y).head?, a ∉ word := by
      intro a ha hmem
      rw [hchars, List.cons_append, List.head?_cons] at ha
      obtain rfl := Option.some.inj ha
      exact hc (hword c hmem)
    rw [replace_append_right hhead, replace_append_left (dollar_notMem_chars (hplain lines hlines))]
  induction parts generalizing x with
  | nil =>
    have hrest := hcut rest (List.mem_singleton_self rest) x []
    rwa [replace_nil, List.append_nil] at hrest
  | cons part parts ih =>
    have hmem : ∀ lines ∈ parts.map Prod.fst ++ [rest], lines ∈ (part :: parts).map Prod.fst ++ [rest] :=
      fun lines hlines => List.mem_cons_of_mem _ hlines
    have hrest := ih (fun lines hlines => hplain lines (hmem lines hlines))
      (fun lines hlines => hfollows lines (hmem lines hlines)) (texts part.2)
      (fun lines hlines => hcut lines (hmem lines hlines))
    rw [List.flatMap_cons, List.flatMap_cons, List.append_assoc, List.append_assoc, List.append_assoc,
      List.append_assoc, hcut part.1 List.mem_cons_self, hrest]

/-- **A replacement in a filled template** is one in the texts it is filled with. -/
theorem Template.replace_fill (t : Template) {word : List Char} (hword : ∀ c ∈ word, c ∈ holeChars)
    (new : List Char) (texts : Hole → List Char) :
    replace ('$' :: word) new (t.fill texts) = t.fill fun hole => replace ('$' :: word) new (texts hole) := by
  obtain ⟨parts, rest, hplain, hfollows⟩ := t
  unfold Template.fill
  cases parts with
  | nil =>
    have hrest : replace ('$' :: word) new (chars rest ++ []) = chars rest ++ replace ('$' :: word) new [] :=
      replace_append_left (dollar_notMem_chars (hplain rest (List.mem_singleton_self rest))) []
    rwa [replace_nil, List.append_nil] at hrest
  | cons part parts =>
    have hfirst := dollar_notMem_chars (hplain part.1 List.mem_cons_self)
    have hrest := replace_parts hword new texts
      (fun lines hlines => hplain lines (List.mem_cons_of_mem _ hlines)) hfollows (texts part.2)
    dsimp only
    rw [List.flatMap_cons, List.flatMap_cons, List.append_assoc, List.append_assoc, List.append_assoc,
      List.append_assoc, replace_append_left hfirst, hrest]

/-! ### Sums over a filled template -/

def weight (f : Char → ℕ) (s : List Char) : ℕ := (s.map f).sum

theorem weight_append (f : Char → ℕ) (s s' : List Char) : weight f (s ++ s') = weight f s + weight f s' := by
  rw [weight, List.map_append, List.sum_append_nat, weight, weight]

theorem Template.weight_fill (t : Template) (f : Char → ℕ) (texts : Hole → List Char) :
    weight f (t.fill texts) =
      weight f (t.fill fun _ => []) + (t.holes.map fun hole => weight f (texts hole)).sum := by
  obtain ⟨parts, rest, hplain, hfollows⟩ := t
  unfold Template.fill Template.holes
  dsimp only
  clear hplain hfollows
  induction parts with
  | nil => rfl
  | cons part parts ih =>
    simp only [List.flatMap_cons, List.append_assoc, weight_append, List.map_cons, List.sum_cons,
      List.nil_append] at ih ⊢
    omega

theorem eq_of_sum_eq {α : Type} {l : List α} {f g : α → ℕ} (hle : ∀ a ∈ l, f a ≤ g a)
    (hsum : (l.map f).sum = (l.map g).sum) : ∀ a ∈ l, f a = g a := by
  induction l with
  | nil => exact fun _ ha => absurd ha List.not_mem_nil
  | cons b l ih =>
    have hrest : (l.map f).sum ≤ (l.map g).sum := List.sum_le_sum fun a ha => hle a (List.mem_cons_of_mem b ha)
    have hb := hle b List.mem_cons_self
    rw [List.map_cons, List.map_cons, List.sum_cons, List.sum_cons] at hsum
    intro a ha
    rcases List.mem_cons.1 ha with rfl | ha
    · omega
    · exact ih (fun a ha => hle a (List.mem_cons_of_mem b ha)) (by omega) a ha

/-- Texts that fill a template with the same result weigh the same if one is at most as heavy as the other. -/
theorem Template.weight_eq {t : Template} {texts texts' : Hole → List Char} (hfill : t.fill texts = t.fill texts')
    {f : Char → ℕ} (hle : ∀ hole, weight f (texts hole) ≤ weight f (texts' hole)) :
    ∀ hole ∈ t.holes, weight f (texts hole) = weight f (texts' hole) := by
  refine eq_of_sum_eq (fun hole _ => hle hole) ?_
  have hsum := congrArg (weight f) hfill
  rw [t.weight_fill f texts, t.weight_fill f texts'] at hsum
  omega

theorem Template.texts_eq {t : Template} {texts texts' : Hole → List Char} (hfill : t.fill texts = t.fill texts')
    (hlen : ∀ hole, (texts hole).length = (texts' hole).length) : ∀ hole ∈ t.holes, texts hole = texts' hole := by
  obtain ⟨parts, rest, hplain, hfollows⟩ := t
  unfold Template.fill at hfill
  unfold Template.holes
  dsimp only at hfill ⊢
  clear hplain hfollows
  induction parts with
  | nil => exact fun _ hmem => absurd hmem List.not_mem_nil
  | cons part parts ih =>
    rw [List.flatMap_cons, List.flatMap_cons, List.append_assoc, List.append_assoc, List.append_assoc,
      List.append_assoc] at hfill
    obtain ⟨htext, hrest⟩ := List.append_inj (List.append_cancel_left hfill) (hlen part.2)
    intro hole hmem
    rcases List.mem_cons.1 hmem with rfl | hmem
    · exact htext
    · exact ih hrest hole hmem

/-! ### Texts as data -/

def marks : List Char := ['<', '>', '"']

/-- The page is the template with its placeholders replaced at once, and has the markup of the template only. -/
structure AsData (t : Template) (texts : Hole → List Char) (page : List Char) : Prop where
  simultaneous : page = t.fill texts
  markup : ∀ c ∈ marks, page.count c = (t.fill fun _ => []).count c

/-- The texts have no markup, and no placeholder that is looked for behind them; a name that is just `${name}` does
not count. -/
structure PlainTexts (devId name : List Char) : Prop where
  devId_marks : ∀ c ∈ marks, c ∉ devId
  name_marks : ∀ c ∈ marks, c ∉ name
  devId_name : ¬Hole.name.text.toList <:+: devId ∨ name = Hole.name.text.toList
  devId_audio : ¬Hole.audio.text.toList <:+: devId
  name_audio : ¬Hole.audio.text.toList <:+: name

def texts (devId name : List Char) (audio : Bool) : Hole → List Char
  | .id => devId
  | .name => name
  | .audio => (audioText audio).toList

/-- The page as the three replacements make it. -/
def chained (t : Template) (devId name : List Char) (audio : Bool) : List Char :=
  replace Hole.audio.text.toList (audioText audio).toList
    (replace Hole.name.text.toList name
      (replace Hole.id.text.toList devId (t.fill fun hole => hole.text.toList)))

def Hole.word : Hole → List Char
  | .id => ['\x7b', 'i', 'd', '\x7d']
  | .name => ['\x7b', 'n', 'a', 'm', 'e', '\x7d']
  | .audio => ['\x7b', 'a', 'u', 'd', 'i', 'o', '\x7d']

theorem Hole.text_eq (hole : Hole) : hole.text.toList = '$' :: hole.word := by
  cases hole <;> decide +kernel

theorem Hole.text_ne (hole : Hole) : hole.text.toList ≠ [] := by
  rw [hole.text_eq]
  exact List.cons_ne_nil _ _

theorem Hole.word_subset (hole : Hole) : ∀ c ∈ hole.word, c ∈ holeChars := by
  cases hole <;> simp [Hole.word, holeChars]

theorem Template.replace_hole (t : Template) (hole : Hole) (new : List Char) (texts : Hole → List Char) :
    replace hole.text.toList new (t.fill texts) = t.fill fun hole' => replace hole.text.toList new (texts hole') := by
  rw [hole.text_eq, t.replace_fill hole.word_subset]

theorem replace_own (hole : Hole) (new : List Char) : replace hole.text.toList new hole.text.toList = new := by
  have hown : replace hole.text.toList new (hole.text.toList ++ []) = new ++ replace hole.text.toList new [] :=
    replace_occurrence hole.text_ne []
  rwa [List.append_nil, replace_nil, List.append_nil] at hown

theorem replace_other {hole hole' : Hole} (h : hole' ≠ hole) (new : List Char) :
    replace hole.text.toList new hole'.text.toList = hole'.text.toList := by
  refine replace_of_absent ?_
  rw [hole.text_eq, hole'.text_eq]
  revert h
  cases hole <;> cases hole' <;> decide

/-- **The chain of replacements** fills the template with the id and the name that went through the replacements
behind their own. -/
theorem chained_eq (t : Template) (devId name : List Char) (audio : Bool) :
    chained t devId name audio =
      t.fill (texts
        (replace Hole.audio.text.toList (audioText audio).toList (replace Hole.name.text.toList name devId))
        (replace Hole.audio.text.toList (audioText audio).toList name) audio) := by
  unfold chained
  rw [t.replace_hole, t.replace_hole, t.replace_hole]
  congr 1
  funext hole
  cases hole with
  | id => rw [replace_own, texts]
  | name => rw [replace_other (by decide), replace_own, texts]
  | audio => rw [replace_other (by decide), replace_other (by decide), replace_own, texts]

theorem count_eq_sum (c : Char) (s : List Char) : s.count c = (s.map fun a => if a == c then 1 else 0).sum := by
  induction s with
  | nil => rfl
  | cons a s ih => rw [List.count_cons, ih, List.map_cons, List.sum_cons, Nat.add_comm]

theorem count_le_replace {c : Char} {old : List Char} (hold : old ≠ []) (hc : c ∉ old) (new s : List Char) :
    s.count c ≤ (replace old new s).count c := by
  obtain ⟨k, -, hsum⟩ := exists_count hold new s
  have hcount := hsum fun a => if a == c then 1 else 0
  simp only [← count_eq_sum, List.count_eq_zero_of_not_mem hc] at hcount
  omega

theorem not_infix_of_count_eq {c : Char} {old new s : List Char} (hold : old ≠ []) (hc : c ∉ old) (hnew : c ∈ new)
    (heq : s.count c = (replace old new s).count c) : ¬old <:+: s := by
  obtain ⟨k, hk, hsum⟩ := exists_count hold new s
  have hcount := hsum fun a => if a == c then 1 else 0
  simp only [← count_eq_sum, List.count_eq_zero_of_not_mem hc, ← heq] at hcount
  have hzero : k * new.count c = 0 := by omega
  exact hk.1 ((Nat.mul_eq_zero.1 hzero).resolve_right (Nat.ne_of_gt (List.count_pos_iff.2 hnew)))

theorem exists_audio_letter (audio : Bool) :
    ∃ c ∈ (audioText audio).toList, ∀ hole : Hole, c ∉ hole.text.toList := by
  cases audio with
  | false => exact ⟨'f', by decide +kernel, fun hole => by cases hole <;> decide +kernel⟩
  | true => exact ⟨'t', by decide +kernel, fun hole => by cases hole <;> decide +kernel⟩

theorem marks_notMem_audio (audio : Bool) : ∀ c ∈ marks, c ∉ (audioText audio).toList := by
  simp only [marks, List.forall_mem_cons, List.not_mem_nil, false_imp_iff, implies_true, and_true]
  cases audio <;> decide +kernel

theorem Template.count_eq {t : Template} {texts texts' : Hole → List Char} (hfill : t.fill texts = t.fill texts')
    {c : Char} (hle : ∀ hole, (texts hole).count c ≤ (texts' hole).count c) :
    ∀ hole ∈ t.holes, (texts hole).count c = (texts' hole).count c := by
  simp only [count_eq_sum] at hle ⊢
  exact t.weight_eq hfill hle

theorem weight_one (s : List Char) : weight (fun _ => 1) s = s.length := by
  rw [weight, List.map_const', List.sum_replicate_nat, Nat.mul_one]

theorem Template.devId_eq {t : Template} (hid : .id ∈ t.holes) {devId devId' name : List Char} {audio : Bool}
    (hfill : t.fill (texts devId name audio) = t.fill (texts devId' name audio)) : devId = devId' := by
  have hlen : devId.length = devId'.length := by
    have hweigh : ∀ {a b : List Char}, t.fill (texts a name audio) = t.fill (texts b name audio) →
        a.length ≤ b.length → a.length = b.length := by
      intro a b hfill hle
      have hsame := t.weight_eq hfill (f := fun _ => 1) (fun hole => by
        cases hole with
        | id => simpa only [weight_one, texts] using hle
        | name => exact Nat.le_refl _
        | audio => exact Nat.le_refl _) .id hid
      simpa only [weight_one, texts] using hsame
    rcases Nat.le_total devId.length devId'.length with hle | hle
    · exact hweigh hfill hle
    · exact (hweigh hfill.symm hle).symm
  refine t.texts_eq hfill (fun hole => ?_) .id hid
  cases hole with
  | id => exact hlen
  | name => rfl
  | audio => rfl

/-- The chain of replacements is the simultaneous one exactly if no text has a placeholder of a later one. -/
theorem chained_eq_fill_iff {t : Template} (hid : .id ∈ t.holes) (hname : .name ∈ t.holes) (devId name : List Char)
    (audio : Bool) :
    chained t devId name audio = t.fill (texts devId name audio) ↔
      (¬Hole.name.text.toList <:+: devId ∨ name = Hole.name.text.toList) ∧
        ¬Hole.audio.text.toList <:+: devId ∧ ¬Hole.audio.text.toList <:+: name := by
  rw [chained_eq]
  constructor
  · intro hfill
    obtain ⟨c, hc, hplaceholder⟩ := exists_audio_letter audio
    have hle := fun s => count_le_replace Hole.audio.text_ne (hplaceholder .audio) (audioText audio).toList s
    have hidLe := count_le_replace Hole.name.text_ne (hplaceholder .name) name devId
    have hcount := t.count_eq hfill.symm (c := c) fun hole => by
      cases hole with
      | id => exact hidLe.trans (hle _)
      | name => exact hle name
      | audio => exact Nat.le_refl _
    have hidCount := hcount .id hid
    have hnameCount := hcount .name hname
    dsimp only [texts] at hidCount hnameCount
    have haudioId := not_infix_of_count_eq Hole.audio.text_ne (hplaceholder .audio) hc
      (Nat.le_antisymm (hle _) (hidCount ▸ hidLe))
    have haudioName := not_infix_of_count_eq Hole.audio.text_ne (hplaceholder .audio) hc hnameCount
    rw [replace_of_absent haudioId, replace_of_absent haudioName] at hfill
    have hsame := t.devId_eq hid hfill
    rw [hsame] at haudioId
    exact ⟨(replace_eq_self_iff Hole.name.text_ne devId).1 hsame, haudioId, haudioName⟩
  · rintro ⟨hplain, haudioId, haudioName⟩
    rw [(replace_eq_self_iff Hole.name.text_ne devId).2 hplain, replace_of_absent haudioId,
      replace_of_absent haudioName]

theorem Template.count_fill_eq_iff (t : Template) (c : Char) (texts : Hole → List Char) :
    (t.fill texts).count c = (t.fill fun _ => []).count c ↔ ∀ hole ∈ t.holes, c ∉ texts hole := by
  have hfill := t.weight_fill (fun a => if a == c then 1 else 0) texts
  simp only [weight, ← count_eq_sum] at hfill
  rw [hfill, Nat.add_eq_left, List.sum_eq_zero_iff]
  simp only [List.forall_mem_map, List.count_eq_zero]

theorem asData_iff {t : Template} (hid : .id ∈ t.holes) (hname : .name ∈ t.holes) (devId name : List Char)
    (audio : Bool) :
    AsData t (texts devId name audio) (chained t devId name audio) ↔ PlainTexts devId name := by
  constructor
  · rintro ⟨hfill, hmarkup⟩
    obtain ⟨hdevIdName, hdevIdAudio, hnameAudio⟩ := (chained_eq_fill_iff hid hname devId name audio).1 hfill
    rw [hfill] at hmarkup
    have hplain := fun c hc => (t.count_fill_eq_iff c _).1 (hmarkup c hc)
    exact ⟨fun c hc => hplain c hc .id hid, fun c hc => hplain c hc .name hname, hdevIdName, hdevIdAudio, hnameAudio⟩
  · intro h
    have hfill := (chained_eq_fill_iff hid hname devId name audio).2 ⟨h.devId_name, h.devId_audio, h.name_audio⟩
    refine ⟨hfill, fun c hc => ?_⟩
    rw [hfill, t.count_fill_eq_iff]
    intro hole _
    cases hole with
    | id => exact h.devId_marks c hc
    | name => exact h.name_marks c hc
    | audio => exact marks_notMem_audio audio c hc

/-! ### The page of `_handle_ui` -/

theorem handleUi_ok {srv : Server} {devId : String} {cam : Camera} {name : String} {audio : Bool}
    (hcam : (srv.web.sessions.find? devId).bind (fun k => srv.cameras[k]?) = some cam)
    (hconnected : cam.session.connected = true) (hname : cameraName srv.web.config devId = .ok (.str name))
    (haudio : cameraAudio srv.web.config devId = .ok audio) :
    handleUi srv devId =
      .ok ⟨200, String.ofList (chained asdHtml devId.toList name.toList audio), "text/html"⟩ := by
  unfold handleUi
  rw [hcam]
  dsimp only
  rw [hconnected, hname, haudio]
  unfold strReplace htmlTemplate chained
  simp only [Bool.not_true, Bool.false_eq_true, if_false, except_ok_bind, String.toList_ofList]
  rfl

/-- The alias of a camera, unless there is none or it is empty. -/
def shownName (devId : String) : Option String → String
  | some cameraAlias => if cameraAlias = "" then devId else cameraAlias
  | none => devId

theorem HasEntry.cameraName {config : Config} {devId : String} {kvs : List (String × PyVal)}
    (h : HasEntry config devId kvs) {cameraAlias : Option String}
    (halias : kvs.lookup "alias" = cameraAlias.map .str) :
    cameraName config devId = .ok (.str (shownName devId cameraAlias)) := by
  unfold CamReverse.cameraName
  rw [h.cameraConfig]
  simp only [except_ok_bind, PyVal.get, halias]
  cases cameraAlias with
  | none => rfl
  | some cameraAlias => by_cases hempty : cameraAlias = "" <;> simp [PyVal.truthy, shownName, hempty] <;> rfl

theorem asdHtml_holes : .id ∈ asdHtml.holes ∧ .name ∈ asdHtml.holes := by
  constructor <;> decide

/-- **Names are data on the page of a camera** exactly if its id and its name have no markup and no placeholder that
is looked for after them. -/
theorem page_as_data_iff {srv : Server} {devId : String} {kvs : List (String × PyVal)}
    {cameraAlias : Option String}
    (hcam : ∃ cam ∈ (srv.web.sessions.find? devId).bind (fun k => srv.cameras[k]?), cam.session.connected = true)
    (hentry : HasEntry srv.web.config devId kvs) (halias : kvs.lookup "alias" = cameraAlias.map .str) :
    ∃ page audio, handleUi srv devId = .ok ⟨200, page, "text/html"⟩ ∧
      cameraAudio srv.web.config devId = .ok audio ∧
      (AsData asdHtml (texts devId.toList (shownName devId cameraAlias).toList audio) page.toList ↔
        PlainTexts devId.toList (shownName devId cameraAlias).toList) := by
  obtain ⟨cam, hfound, hconnected⟩ := hcam
  obtain ⟨audio, haudio⟩ := hentry.cameraAudio
  refine ⟨_, audio, handleUi_ok hfound hconnected (hentry.cameraName halias) haudio, haudio, ?_⟩
  rw [String.toList_ofList]
  exact asData_iff asdHtml_holes.1 asdHtml_holes.2 _ _ _

/-- A camera without an alias, whose stream is ready. -/
theorem page_as_data_iff_ready :
    ∃ page audio,
      handleUi ((Server.start defaultConfig).run [aDiscovery, .ready 0 7000]) aCamera.devId =
          .ok ⟨200, page, "text/html"⟩ ∧
        cameraAudio ((Server.start defaultConfig).run [aDiscovery, .ready 0 7000]).web.config aCamera.devId =
          .ok audio ∧
        (AsData asdHtml (texts aCamera.devId.toList (shownName aCamera.devId none).toList audio) page.toList ↔
          PlainTexts aCamera.devId.toList (shownName aCamera.devId none).toList) :=
  page_as_data_iff (by decide +kernel) (⟨_, rfl, rfl⟩ : HasEntry _ _ cameraDefaults) rfl

/-- A PunchPkt with the prefix `<i>` and the serial number 1. -/
def markedPunch : Bytes :=
  be 2 Command.punchPkt.code ++ be 2 0x14 ++ [0x3c, 0x69, 0x3e, 0] ++ be 8 1 ++ padded 8 []

def markedCamera : DevSerial := ⟨"<i>", "1", "", 1, "<i>1"⟩

/-- The camera of that packet puts an element into its page. -/
theorem page_with_markup :
    parsePunchPkt (DV.ofBytes markedPunch) = .ok markedCamera ∧
      ∃ page audio,
        handleUi ((Server.start defaultConfig).run [.discover ("192.168.1.5", 32108) markedCamera, .ready 0 7000])
            markedCamera.devId = .ok ⟨200, page, "text/html"⟩ ∧
          ¬AsData asdHtml (texts markedCamera.devId.toList markedCamera.devId.toList audio) page.toList := by
  have hparse : punchSerial markedPunch = markedCamera := by decide +kernel
  have hentry : HasEntry ((Server.start defaultConfig).run
      [.discover ("192.168.1.5", 32108) markedCamera, .ready 0 7000]).web.config markedCamera.devId cameraDefaults :=
    ⟨_, rfl, rfl⟩
  have halias : cameraDefaults.lookup "alias" = (none : Option String).map .str := rfl
  obtain ⟨audio, haudio⟩ := hentry.cameraAudio
  refine ⟨hparse ▸ parsePunchPkt_ok (by decide), _, audio,
    handleUi_ok rfl rfl (hentry.cameraName halias) haudio, fun hdata => ?_⟩
  rw [String.toList_ofList] at hdata
  have hplain := (asData_iff asdHtml_holes.1 asdHtml_holes.2 _ _ _).1 hdata
  exact hplain.devId_marks '<' (by decide) (by decide +kernel)

end CamReverse
