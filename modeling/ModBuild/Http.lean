/-!
# HTTP answers

A request to a server fails, or it gets a response.  The body of a response
comes in pieces, and reading it can fail at any of them.
-/

namespace ModBuild.Http

/-- Why a request gets no response. -/
inductive RequestFault where
  /-- The server did not answer in time. -/
  | timedOut
  /-- The request failed in another way that HTTP knows. -/
  | failed (message : String)
  | system (message : String)
  /-- Something that has nothing to do with the request went wrong. -/
  | foreign (message : String)
deriving DecidableEq, Repr

/-- A piece of a body. -/
inductive Piece where
  /-- Some octets.  A piece without octets looks like the end of the body. -/
  | octets (bs : List UInt8)
  | broken (message : String)
  /-- Something that has nothing to do with the connection goes wrong. -/
  | foreign (message : String)
deriving DecidableEq, Repr

/-- What a server sends. -/
structure Response where
  status : Int
  /-- The wording of the status. -/
  reason : String
  body : List Piece
deriving DecidableEq, Repr

/-- What comes of a request. -/
inductive Answer where
  | failed (fault : RequestFault)
  | response (r : Response)
deriving DecidableEq, Repr

/-- The wording for the status of a refusal.  Statuses from 400 to 599 are
refusals, and no other is. -/
def Response.refusal? (r : Response) (url : String) : Option String :=
  let text (whose : String) :=
    toString r.status ++ " " ++ whose ++ " Error: " ++ r.reason ++ " for url: " ++ url
  if 400 ≤ r.status ∧ r.status < 500 then some (text "Client")
  else if 500 ≤ r.status ∧ r.status < 600 then some (text "Server")
  else none

end ModBuild.Http
