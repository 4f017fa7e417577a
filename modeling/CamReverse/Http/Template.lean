import CamReverse.Lib.Replace

/-!
# The page of a camera

`asd.html` is a text with the placeholders `${id}`, `${name}` and `${audio}`. Outside of them it has no `$`, and what
follows a placeholder is no character of one, so the placeholders are the only places a replacement finds in it.
-/

namespace CamReverse

inductive Hole where
  | id
  | name
  | audio
  deriving DecidableEq, Repr

def Hole.text : Hole → String
  | .id => "${id}"
  | .name => "${name}"
  | .audio => "${audio}"

/-- The characters of the placeholders behind the `$`. -/
def holeChars : List Char := ['\x7b', 'i', 'd', 'n', 'a', 'm', 'e', 'u', 'o', '\x7d']

def chars (lines : List String) : List Char := lines.flatMap String.toList

/-- A text with placeholders: the lines in front of each, and those behind the last. -/
structure Template where
  parts : List (List String × Hole)
  rest : List String
  plain : ∀ lines ∈ parts.map Prod.fst ++ [rest], ∀ line ∈ lines, '$' ∉ line.toList
  follows : ∀ lines ∈ (parts.map Prod.fst ++ [rest]).tail, ∃ c s, chars lines = c :: s ∧ c ∉ holeChars

/-- The template with a text in the place of each placeholder. -/
def Template.fill (t : Template) (texts : Hole → List Char) : List Char :=
  t.parts.flatMap (fun part => chars part.1 ++ texts part.2) ++ chars t.rest

/-! ### `asd.html` -/

def asdParts : List (List String × Hole) :=
  [(["<!doctype html>\n",
      "<html lang=\"en\">\n",
      "<head>\n",
      "  <meta charset=\"utf-8\">\n",
      "  <meta name=\"viewport\" content=\"width=device-width, initial-scale=1\">\n",
      "  <link rel=\"shortcut icon\" href=\"/favicon.ico\">\n",
      "  <link rel=\"stylesheet\" href=\"/style.css\">\n",
      "  <title>"], .name),
    ([" — cam-reverse</title>\n",
      "  <script>(function()\x7bvar t=localStorage.getItem('cam-theme');if(t)document.documentElement.setAttribute('data-theme',t);\x7d)();</script>\n",
      "</head>\n",
      "<body>\n",
      "  <header class=\"topbar\">\n",
      "    <div class=\"brand\"><a href=\"/\">📷 cam-reverse</a> <span style=\"color:var(--muted)\">/ "], .name),
    (["</span></div>\n",
      "    <div class=\"actions\">\n",
      "      <a class=\"btn\" href=\"/\">← All cameras</a>\n",
      "      <button class=\"btn\" id=\"theme-btn\" onclick=\"cycleTheme()\">🌗 Auto</button>\n",
      "    </div>\n",
      "  </header>\n",
      "  <main class=\"container\">\n",
      "    <div class=\"stage\"><img src=\"/camera/"], .id),
    (["\" alt=\""], .name),
    (["\"></div>\n",
      "    <div class=\"toolbar\">\n",
      "      <button class=\"btn\" onclick=\"toggle_audio()\" id=\"audio\" disabled>🔇 Audio: disabled</button>\n",
      "      <button class=\"btn\" onclick=\"fetch('/rotate/"], .id),
    (["')\">⟳ Rotate</button>\n",
      "      <button class=\"btn\" onclick=\"fetch('/mirror/"], .id),
    (["')\">⇋ Mirror</button>\n",
      "      <button class=\"btn\" onclick=\"reconnect()\">↻ Reconnect</button>\n",
      "      <button class=\"btn primary\" onclick=\"save_settings()\">💾 Save settings</button>\n",
      "    </div>\n",
      "\n",
      "    <div class=\"panel\" style=\"margin-top:18px\">\n",
      "      <h2>Integration URLs</h2>\n",
      "      <p class=\"hint\">Add these to an NVR such as Frigate, Blue Iris or ZoneMinder.</p>\n",
      "      <div class=\"field\">\n",
      "        <label>MJPEG stream</label>\n",
      "        <div style=\"display:flex;gap:8px\">\n",
      "          <input type=\"text\" id=\"url-stream\" readonly style=\"flex:1\">\n",
      "          <button class=\"btn\" onclick=\"copy_url('url-stream')\">Copy</button>\n",
      "        </div>\n",
      "      </div>\n",
      "      <div class=\"field\">\n",
      "        <label>Snapshot (single JPEG)</label>\n",
      "        <div style=\"display:flex;gap:8px\">\n",
      "          <input type=\"text\" id=\"url-snapshot\" readonly style=\"flex:1\">\n",
      "          <button class=\"btn\" onclick=\"copy_url('url-snapshot')\">Copy</button>\n",
      "        </div>\n",
      "      </div>\n",
      "    </div>\n",
      "  </main>\n",
      "\n",
      "  <script src=\"/app.js\"></script>\n",
      "  <script>\n",
      "    const alaw_to_s16_table = [\n",
      "      -5504, -5248, -6016, -5760, -4480, -4224, -4992, -4736, -7552, -7296, -8064, -7808, -6528, -6272, -7040, -6784, -2752,\n",
      "      -2624, -3008, -2880, -2240, -2112, -2496, -2368, -3776, -3648, -4032, -3904, -3264, -3136, -3520, -3392, -22016,\n",
      "      -20992, -24064, -23040, -17920, -16896, -19968, -18944, -30208, -29184, -32256, -31232, -26112, -25088, -28160,\n",
      "      -27136, -11008, -10496, -12032, -11520, -8960, -8448, -9984, -9472, -15104, -14592, -16128, -15616, -13056, -12544,\n",
      "      -14080, -13568, -344, -328, -376, -360, -280, -264, -312, -296, -472, -456, -504, -488, -408, -392, -440, -424, -88,\n",
      "      -72, -120, -104, -24, -8, -56, -40, -216, -200, -248, -232, -152, -136, -184, -168, -1376, -1312, -1504, -1440, -1120,\n",
      "      -1056, -1248, -1184, -1888, -1824, -2016, -1952, -1632, -1568, -1760, -1696, -688, -656, -752, -720, -560, -528, -624,\n",
      "      -592, -944, -912, -1008, -976, -816, -784, -880, -848, 5504, 5248, 6016, 5760, 4480, 4224, 4992, 4736, 7552, 7296,\n",
      "      8064, 7808, 6528, 6272, 7040, 6784, 2752, 2624, 3008, 2880, 2240, 2112, 2496, 2368, 3776, 3648, 4032, 3904, 3264,\n",
      "      3136, 3520, 3392, 22016, 20992, 24064, 23040, 17920, 16896, 19968, 18944, 30208, 29184, 32256, 31232, 26112, 25088,\n",
      "      28160, 27136, 11008, 10496, 12032, 11520, 8960, 8448, 9984, 9472, 15104, 14592, 16128, 15616, 13056, 12544, 14080,\n",
      "      13568, 344, 328, 376, 360, 280, 264, 312, 296, 472, 456, 504, 488, 408, 392, 440, 424, 88, 72, 120, 104, 24, 8, 56,\n",
      "      40, 216, 200, 248, 232, 152, 136, 184, 168, 1376, 1312, 1504, 1440, 1120, 1056, 1248, 1184, 1888, 1824, 2016, 1952,\n",
      "      1632, 1568, 1760, 1696, 688, 656, 752, 720, 560, 528, 624, 592, 944, 912, 1008, 976, 816, 784, 880, 848,\n",
      "    ];\n",
      "\n",
      "    const alaw_to_s16 = (a_val) => \x7b\n",
      "      return alaw_to_s16_table[a_val];\n",
      "    \x7d;\n",
      "\n",
      "    var audio_context;\n",
      "    const audio_button = document.getElementById('audio');\n",
      "    audio_button.disabled = !"], .audio),
    ([";\n",
      "    update_audio_button();\n",
      "\n",
      "    function setup_audio() \x7b\n",
      "      audio_context = new AudioContext();\n",
      "      const gain_node = audio_context.createGain(); // Declare gain node\n",
      "      const channels = 1;\n",
      "      const sample_rate = 8000;\n",
      "      const audioBuffer = audio_context.createBuffer(channels, 960, sample_rate); // 960??\n",
      "\n",
      "      audio_context.onstatechange = () => \x7b\n",
      "        console.log(\"Audio state is now \", audio_context.state);\n",
      "        update_audio_button(audio_context.state == \"running\");\n",
      "      \x7d;\n",
      "\n",
      "      gain_node.connect(audio_context.destination); // Connect gain node to speakers\n",
      "      audio_context.resume();\n",
      "\n",
      "      const evtSource = new EventSource(\"/audio/"], .id),
    (["\");\n",
      "      evtSource.onopen = (e) => \x7b\n",
      "        console.log(\"evtsource open\");\n",
      "      \x7d\n",
      "      evtSource.onerror = (e) => \x7b\n",
      "        console.log(\"evtsource error\", e);\n",
      "      \x7d\n",
      "      let endsAt = 0;\n",
      "      let startAt = 0;\n",
      "      evtSource.onmessage = (e) => \x7b\n",
      "        const nowBuffering = audioBuffer.getChannelData(0);\n",
      "        const u8 = Uint8Array.from(atob(e.data), c => c.charCodeAt(0));\n",
      "        new Int16Array(u8).map(alaw_to_s16).forEach((el, i) => nowBuffering[i] = el / 0x8000);\n",
      "\n",
      "        const source_node = audio_context.createBufferSource();\n",
      "        source_node.buffer = audioBuffer;\n",
      "        source_node.connect(gain_node);\n",
      "        const now = Date.now();\n",
      "        if (now > endsAt) \x7b // lost packets\n",
      "          startAt = 0;\n",
      "        \x7d else \x7b\n",
      "          startAt += audioBuffer.duration;\n",
      "        \x7d\n",
      "        source_node.start(startAt);\n",
      "        endsAt = now + audioBuffer.duration * 1000;\n",
      "      \x7d;\n",
      "    \x7d\n",
      "\n",
      "    function update_audio_button(on) \x7b\n",
      "      if ("], .audio),
    ([") \x7b\n",
      "        audio_button.innerText = on ? \"🔊 Audio: on\" : \"🔇 Audio: off\";\n",
      "      \x7d\n",
      "    \x7d\n",
      "\n",
      "    const origin = window.location.origin;\n",
      "    document.getElementById(\"url-stream\").value = origin + \"/camera/"], .id),
    (["\";\n",
      "    document.getElementById(\"url-snapshot\").value = origin + \"/snapshot/"], .id),
    (["\";\n",
      "\n",
      "    function copy_url(elId) \x7b\n",
      "      const el = document.getElementById(elId);\n",
      "      el.select();\n",
      "      if (navigator.clipboard) \x7b\n",
      "        navigator.clipboard.writeText(el.value).then(() => toast(\"Copied\")).catch(() => toast(\"Copy failed\", true));\n",
      "      \x7d else \x7b\n",
      "        document.execCommand(\"copy\");\n",
      "        toast(\"Copied\");\n",
      "      \x7d\n",
      "    \x7d\n",
      "\n",
      "    async function reconnect() \x7b\n",
      "      try \x7b\n",
      "        const r = await fetch(\"/api/cameras/"], .id),
    (["/reconnect\", \x7b method: \"POST\" \x7d);\n",
      "        if (!r.ok) throw new Error(await r.text());\n",
      "        toast(\"Reconnecting… reloading shortly\");\n",
      "        setTimeout(() => location.reload(), 4000);\n",
      "      \x7d catch (e) \x7b\n",
      "        toast(\"Reconnect failed: \" + e.message, true);\n",
      "      \x7d\n",
      "    \x7d\n",
      "\n",
      "    async function save_settings() \x7b\n",
      "      try \x7b\n",
      "        const r = await fetch(\"/api/cameras/"], .id)]

def asdRest : List String :=
  ["/save\", \x7b method: \"POST\" \x7d);\n",
    "        if (!r.ok) throw new Error(await r.text());\n",
    "        const j = await r.json();\n",
    "        toast(\"Saved to \" + j.saved);\n",
    "      \x7d catch (e) \x7b\n",
    "        toast(\"Save failed: \" + e.message, true);\n",
    "      \x7d\n",
    "    \x7d\n",
    "\n",
    "    function toggle_audio() \x7b\n",
    "      if (audio_context == undefined) \x7b\n",
    "        setup_audio();\n",
    "        return;\n",
    "      \x7d\n",
    "      if (audio_context.state == \"running\") \x7b\n",
    "        audio_context.suspend();\n",
    "        return;\n",
    "      \x7d\n",
    "      if (audio_context.state == \"suspended\") \x7b\n",
    "        audio_context.resume();\n",
    "        return;\n",
    "      \x7d\n",
    "      console.log(\"Unknown audio stream status\");\n",
    "    \x7d\n",
    "  </script>\n",
    "</body>\n",
    "</html>\n"]

theorem dollar_notMem {line : String} {cs : List Char} (h : line = String.ofList cs)
    (hcs : cs.all (· != '$') = true) : '$' ∉ line.toList := by
  rw [h, String.toList_ofList]
  exact fun hmem => absurd (List.all_eq_true.1 hcs _ hmem) (by decide)

theorem chars_cons {line : String} {c : Char} {cs : List Char} (h : line = String.ofList (c :: cs))
    (hc : c ∉ holeChars) (lines : List String) : ∃ c s, chars (line :: lines) = c :: s ∧ c ∉ holeChars := by
  refine ⟨c, cs ++ chars lines, ?_, hc⟩
  rw [chars, List.flatMap_cons, h, String.toList_ofList]
  rfl

set_option maxRecDepth 4000 in
theorem asd_plain : ∀ lines ∈ asdParts.map Prod.fst ++ [asdRest], ∀ line ∈ lines, '$' ∉ line.toList := by
  simp only [asdParts, asdRest, List.map_cons, List.map_nil, List.cons_append, List.nil_append,
    List.forall_mem_cons, List.not_mem_nil, false_imp_iff, implies_true, and_true]
  repeat' apply And.intro
  all_goals exact dollar_notMem rfl rfl

theorem asd_follows : ∀ lines ∈ (asdParts.map Prod.fst ++ [asdRest]).tail,
    ∃ c s, chars lines = c :: s ∧ c ∉ holeChars := by
  simp only [asdParts, asdRest, List.map_cons, List.map_nil, List.cons_append, List.nil_append, List.tail_cons,
    List.forall_mem_cons, List.not_mem_nil, false_imp_iff, implies_true, and_true]
  repeat' apply And.intro
  all_goals exact chars_cons rfl (by decide) _

/-- The template of the page. -/
def asdHtml : Template where
  parts := asdParts
  rest := asdRest
  plain := asd_plain
  follows := asd_follows

end CamReverse
