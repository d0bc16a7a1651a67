import SscOnWindows.Pipeline.FlushInvariant

/-!
# The flush of a reconnect

Behind a reconnect the ring holds no more than its capacity, the packets begin with the
timestamp 0, and the audio captured before is gone, in every run in which the reconnect
sequence lands where it may.  An encoder that returns late is enough for a run in which the
audio of the old link is sent on the new one.
-/

namespace Ssc

open Machine

namespace StreamingContext

/-- One captured frame that the encode thread takes up to its encoder. -/
def frame : List FlushAction :=
  List.flatten [[.capture 2, .copyIn, .copyIn, .publishHead], List.replicate 8 .thread,
    [.loadTransport 0, .thread]]

/-- The connection is lost and comes up again; the ring is flushed. -/
def flush : List FlushAction :=
  List.flatten [[.disconnected, .worker, .worker, .reconnected], List.replicate 4 .worker]

end StreamingContext

end Ssc
