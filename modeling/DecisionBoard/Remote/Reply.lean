import DecisionBoard.Json.Access

/-!
# Exchanges with connected servers

What is sent to a connected tool server and what comes back: a response, or no response for one of
the reasons there are. A network is the replies that servers have in store for the requests that
reach them. Where a request goes and how a response is decoded is left to the HTTP package.
-/

namespace DecisionBoard.Remote

/-- A request to a server: a body posted to its address. -/
structure Request where
  url : String
  body : Json

/-- A response as it comes in. -/
structure Response where
  status : Int := 200
  contentType : Option String := none
  body : ByteArray

/-- What comes of a request. -/
inductive Reply where
  | response (r : Response)
  /-- No connection could be made. -/
  | refused (reason : String)
  | timedOut
  /-- The exchange broke off in some other way. -/
  | broken (reason : String)

/-- The replies still to come from each address, in order, and the requests sent so far. -/
structure Network where
  replies : Entries String (List Reply) := []
  sent : List Request := []

/-- Sends a request. An address without replies left refuses the connection. -/
def Network.send (network : Network) (request : Request) : Reply × Network :=
  let sent := network.sent ++ [request]
  match Entries.get? network.replies request.url with
  | some (reply :: rest) => (reply, ⟨Entries.put network.replies request.url rest, sent⟩)
  | _ => (.refused "refused", { network with sent })

/-! ## The HTTP package -/

/-- Where a request goes. -/
structure Address where
  text : String
  /-- Why responses from there cannot be taken in, if they cannot. -/
  refusal : Option String := none
  deriving DecidableEq, Repr

/-- What is used of the HTTP package. -/
structure Http where
  /-- The address that requests to a URL go to, or what is raised because they go nowhere. -/
  target : Json → Except String Address
  /-- The decoded text of a response. -/
  text : Response → Except ForeignError String
  /-- The JSON value of a response, or what is raised because it has none. -/
  json : Response → Except String Json

end DecisionBoard.Remote
