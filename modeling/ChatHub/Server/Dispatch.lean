import ChatHub.Server.HandlerFrame

namespace ChatHub

/-!
# Dispatch by the number of a message

The type of a message is a `double` of the JSON text, cut to an `int`.  The
`default` branch of the switch is meant for every number without a handler,
but the line before the switch reads the name of the type from a table, and
the table ends with the last type.
-/

namespace Dispatch

open Parson

/-- A message with this text as the number of its type. -/
def typed (number : String) : Bytes :=
  ascii "\x7b\"senderName\":\"bob\",\"msg\":\"hello\",\"type\":" ++ ascii number ++ ascii "\x7d"

end Dispatch
end ChatHub
