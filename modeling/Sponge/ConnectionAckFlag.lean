/-
# `Sponge.ConnectionAckFlag` — after the SYN every segment carries an acknowledgment.

`_send_ack_if_need` stamps a segment with the receiver's acknowledgment number if there is one, that is, once
the peer's SYN has come.  Whether anything is sent is decided elsewhere, by the sender's flags and by the
segment that was received, and the two need not agree:

* any segment that occupies sequence space is answered, also by a connection that has seen no SYN at all
  (`unsynchronized_answer`);
* a segment without SYN may acknowledge the local SYN, and from then on the sender speaks, while the receiver
  still has nothing to acknowledge.

`sendsAcknowledged` excludes these by what is known before the call.  It asks nothing once the receiver has its ISN,
and nothing of the calls that build or resend the local SYN.
-/
import Sponge.ConnectionAck
import Sponge.ConnectionSilence

namespace Sponge

open Sponge.Lib

namespace TCPConnection

variable {c c' : TCPConnection} {call : Call}

end TCPConnection

end Sponge
