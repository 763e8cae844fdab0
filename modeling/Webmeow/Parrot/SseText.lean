import Webmeow.Parrot.Chat
import Webmeow.Lib.EventStream
import Webmeow.Lib.JsonDumps

/-!
# The texts of a chat stream

What `chat_stream` yields for its events, the reading of these texts as an event stream, and the order in
which the events come: tokens and tool calls with their results, then the reply and the marker, or an
error.
-/

namespace Parrot

open JsonText

/-- A string of Python in a JSON value. -/
def strValue (s : String) : Value := .str (Utf16.ofString s)

/-- A member of an event. -/
def entry (key : String) (v : Value) : List UInt16 × Value := (Utf16.ofString key, v)

/-- `_sse` -/
def sse (event : String) (data : Value) : String :=
  "event: " ++ event ++ "\ndata: " ++ String.ofList (dumps data) ++ "\n\n"

/-- The name of a tool, which is `None` when it was never sent. -/
def nameValue (name : Option String) : Value := (name.map strValue).getD .null

/-- The type and the data of an event, `data: [DONE]` having neither. -/
def Sse.payload : Sse → Option (String × Value)
  | .token delta => some ("token", .obj [entry "delta" (strValue delta)])
  | .toolCall name =>
    some ("status", .obj [entry "type" (strValue "tool_call"), entry "name" (nameValue name)])
  | .toolResult name =>
    some ("status", .obj [entry "type" (strValue "tool_result"), entry "name" (nameValue name)])
  | .done reply => some ("done", .obj [entry "reply" (strValue reply)])
  | .doneMarker => none
  | .error detail => some ("error", .obj [entry "detail" (strValue detail)])

/-- What the generator yields for an event. -/
def Sse.text (e : Sse) : String :=
  match e.payload with
  | some (event, data) => sse event data
  | none => "data: [DONE]\n\n"

/-- The body of a response that has yielded these events. -/
def streamText (events : List Sse) : List Char := events.flatMap fun e => e.text.toList

/-! ## Reading -/

/-- A string property. -/
def stringField (v : Value) (key : String) : Option String :=
  (stringOf (v.get key)).bind Utf16.toString?

/-- The name of a tool, which may be null. -/
def nameField (v : Value) : Option (Option String) :=
  match v.get "name" with
  | some .null => some none
  | some (.str us) => (Utf16.toString? us).map some
  | _ => none

/-- The event of a message whose data is this value. -/
def readPayload (type : List Char) (v : Value) : Option Sse :=
  if type = "token".toList then (stringField v "delta").map .token
  else if type = "done".toList then (stringField v "reply").map .done
  else if type = "error".toList then (stringField v "detail").map .error
  else if type = "status".toList then
    if stringField v "type" = some "tool_call" then (nameField v).map .toolCall
    else if stringField v "type" = some "tool_result" then (nameField v).map .toolResult
    else none
  else none

/-- What a client makes of a message. -/
def readSse (m : EventStream.Message) : Option Sse :=
  if m.type = "message".toList then
    if m.data = "[DONE]".toList then some .doneMarker else none
  else (JsonText.parse m.data).bind (readPayload m.type)

/-- What a client reads from the part of a body that has arrived. -/
def readStream (text : List Char) : Option (List Sse) :=
  (EventStream.parse text).mapM readSse

/-! ## The order of the events -/

/-- How far a stream has come. -/
inductive Phase where
  /-- The reply is streamed. -/
  | talking
  /-- A tool is being called. -/
  | calling (name : Option String)
  /-- The whole reply was sent. -/
  | answered
  /-- Nothing follows. -/
  | closed
deriving DecidableEq, Repr

/-- The phase after an event, if the event may come. -/
def Phase.next : Phase → Sse → Option Phase
  | .talking, .token _ => some .talking
  | .talking, .toolCall name => some (.calling name)
  | .talking, .done _ => some .answered
  | .talking, .error _ => some .closed
  | .calling name, .toolResult name' => if name' = name then some .talking else none
  | .calling _, .error _ => some .closed
  | .answered, .doneMarker => some .closed
  | _, _ => none

/-- The phase after some events, if they come in the right order. -/
def follow (events : List Sse) : Option Phase := events.foldlM Phase.next .talking

end Parrot
