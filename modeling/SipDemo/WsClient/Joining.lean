import SipDemo.WsClient.Lifecycle

/-!
# SipDemo.WsClient.Joining

How `close()` comes to its end.  It sets `readerStop_`, closes the descriptor and
then waits for the reader.  From there the reader has a few steps left and at
most one receipt among them (`left`, `awaited`); it waits for nothing but the
return of the `::recv` that it is in.
-/

namespace SipDemo

namespace WsClient

namespace Threads

variable {s : Threads} {a : Action}

/-- A reader that has to stop makes at most so many steps. -/
def left : Reader → Nat
  | .none | .finished => 0
  | .leaving => 1
  | .testing => 2
  | .answering _ => 3
  | .receiving _ => 4
  | .loaded _ => 5

end Threads

end WsClient

end SipDemo
