import CamReverse.Settings
import Mathlib.Data.List.Infix

/-!
# Frames and audio for the browser

`assembleFrame` joins a session's image into one JPEG, with the orientation from the camera's configuration
in an EXIF segment; `frameChunk` and `audioChunk` are what a viewer's queue is offered.
-/

namespace CamReverse

/-! ### EXIF -/

def createExifOrientation (orientation : ℕ) : Bytes :=
  let tiffHeader : Bytes := [0x49, 0x49, 0x2A, 0x00, 0x08, 0x00, 0x00, 0x00]
  let ifdEntry : Bytes := [0x01, 0x00] ++ [0x12, 0x01, 0x03, 0x00, 0x01, 0x00, 0x00, 0x00] ++
    [UInt8.ofNat (orientation &&& 0xFF)] ++ [0x00, 0x00] ++ [0x00, 0x00, 0x00, 0x00, 0x00]
  let exifData : Bytes := [0x45, 0x78, 0x69, 0x66, 0x00, 0x00] ++ tiffHeader ++ ifdEntry
  let segLen := exifData.length + 2
  ([0xFF, 0xE1] : Bytes) ++ [UInt8.ofNat ((segLen >>> 8) &&& 0xFF), UInt8.ofNat (segLen &&& 0xFF)] ++ exifData

/-- `add_exif_to_jpeg`: the segment goes after the two bytes of the start marker. -/
def addExifToJpeg (jpegData exifSegment : Bytes) : Except PyErr Bytes :=
  if [0xFF, 0xE1] <:+: jpegData then .error .valueError
  else .ok (jpegData.take 2 ++ exifSegment ++ jpegData.drop 2)

/-! ### Frames -/

def oMap : List ℕ := [1, 8, 3, 6]

def oMapMirror : List ℕ := [2, 7, 4, 5]

def listIndex {α : Type} (xs : List α) (i : PyVal) : Except PyErr α := do
  let i ← i.asIndex
  let k := if i < 0 then i + xs.length else i
  if k < 0 then .error .indexError
  else
    match xs[k.toNat]? with
    | some x => .ok x
    | none => .error .indexError

/-- The orientation of a camera's frames. -/
def frameOrientation (cam : PyVal) : Except PyErr ℕ := do
  let orientation ← cam.get "rotate" (.int 0)
  let mirror ← cam.get "mirror" .none
  if mirror.truthy then listIndex oMapMirror orientation else listIndex oMap orientation

/-- `_assemble_frame`, for a session with this `cur_image`. -/
def assembleFrame (config : Config) (devId : String) (curImage : List Bytes) : Except PyErr Bytes := do
  let cam ← cameraConfig config devId
  let orientation ← frameOrientation cam
  match curImage with
  | [] => .error .indexError
  | first :: rest =>
    let jpegHeader ← addExifToJpeg first (createExifOrientation orientation)
    return jpegHeader ++ rest.flatten

def BOUNDARY : String := "a very good boundary line"

/-- The part of the MJPEG stream `on_frame` makes of an assembled frame. -/
def frameChunk (assembled : Bytes) : Bytes :=
  let header := encodeAscii ("\r\n--" ++ BOUNDARY ++ "\r\n" ++
    "Content-Length: " ++ toString assembled.length ++ "\r\n" ++ "Content-Type: image/jpeg\r\n\r\n")
  header ++ assembled

/-! ### Audio -/

def b64Digit (n : ℕ) : Char :=
  "ABCDEFGHIJKLMNOPQRSTUVWXYZabcdefghijklmnopqrstuvwxyz0123456789+/".toList.getD n '='

/-- `base64.b64encode`. -/
def b64encode : Bytes → List Char
  | [] => []
  | [a] =>
    let n := a.toNat * 16
    [b64Digit (n / 64), b64Digit (n % 64), '=', '=']
  | [a, b] =>
    let n := a.toNat * 1024 + b.toNat * 4
    [b64Digit (n / 4096), b64Digit (n / 64 % 64), b64Digit (n % 64), '=']
  | a :: b :: c :: rest =>
    let n := a.toNat * 65536 + b.toNat * 256 + c.toNat
    [b64Digit (n / 262144), b64Digit (n / 4096 % 64), b64Digit (n / 64 % 64), b64Digit (n % 64)] ++
      b64encode rest

/-- The server-sent event `on_audio` makes of an audio payload. -/
def audioChunk (data : Bytes) : Bytes :=
  encodeAscii ("data: " ++ String.ofList (b64encode data) ++ "\n\n")

example : b64encode [0x4d, 0x61, 0x6e, 0x4d] = "TWFuTQ==".toList := by decide

/-! ### The configuration of a camera -/

/-- `settings.config["cameras"][dev_id] = v`. -/
def setCameraConfig (config : Config) (devId : String) (v : PyVal) : Except PyErr Config := do
  match ← configCameras config with
  | .dict cameras => return Table.put config "cameras" (.dict (Table.put cameras devId v))
  | _ => .error .typeError

/-- The defaults of a discovered camera, below what the configuration says. -/
def withCameraDefaults (config : Config) (devId : String) : Except PyErr Config := do
  match ← cameraConfig config devId with
  | .dict kvs =>
    let defaults := [("rotate", .int 0), ("mirror", .bool false), ("audio", .bool true)]
    setCameraConfig config devId (.dict (kvs.foldl (fun d kv => Table.put d kv.1 kv.2) defaults))
  | _ => .error .typeError

/-- `settings.config["cameras"][dev_id].get("audio")`, as a condition. -/
def cameraAudio (config : Config) (devId : String) : Except PyErr Bool := do
  match ← configCameras config with
  | .dict cameras =>
    match cameras.lookup devId with
    | some cam => return (← cam.get "audio" .none).truthy
    | none => .error .keyError
  | _ => .error .typeError

end CamReverse
