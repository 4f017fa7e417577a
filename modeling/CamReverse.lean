import CamReverse.Frames.Lossless
import CamReverse.Frames.Loss
import CamReverse.Frames.Refused
import CamReverse.Frames.Interleaved
import CamReverse.Frames.Cropped
import CamReverse.Control.Shared
import CamReverse.Control.Wifi
import CamReverse.Control.Scan
import CamReverse.Control.Punch
import CamReverse.LateAcks
import CamReverse.Timeout
import CamReverse.Closing
import CamReverse.Acks
import CamReverse.Ticket
import CamReverse.Http.Viewers
import CamReverse.Http.Discovery
import CamReverse.Http.Usable
import CamReverse.Http.RefusedConfig
import CamReverse.Http.Overlay
import CamReverse.Http.Logs
import CamReverse.Http.Template
import CamReverse.Http.Page
import CamReverse.Http.Independence
import CamReverse.Control.Bijection
import CamReverse.Control.Decoders
import CamReverse.Control.Identity
import CamReverse.Credentials
import CamReverse.Http.Service
import CamReverse.Http.Alone
import CamReverse.Http.Streams
import CamReverse.Http.NextFrame
import CamReverse.Http.Turning
import CamReverse.Http.Tickets
import CamReverse.Http.Watching
import CamReverse.Captured
import CamReverse.Http.Remembered
import CamReverse.Http.Answered
import CamReverse.Http.Silence
