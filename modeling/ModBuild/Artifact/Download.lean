import ModBuild.Failure
import ModBuild.Http

/-!
# Downloads

The body of a response is read through a *buffer* of one block.  What was fetched
and not yet asked for waits there.  A request that the buffer can answer asks
nothing of the server.  Any other empties the buffer first, then fetches whole
blocks directly, and last fills the buffer to take the rest from it.

A fetch gets at most one piece of the body.  A piece without octets ends the
request, and so does the end of the body.  A piece at which the connection breaks
makes the request fail.
-/

namespace ModBuild

/-- The number of octets in a block. -/
def blockSize : Nat := 8192

/-- A body that is being downloaded. -/
structure Download where
  /-- The URL that it comes from. -/
  url : String
  /-- What the server has still to send. -/
  body : List Http.Piece
  /-- What was fetched and not yet asked for. -/
  buffer : List UInt8
deriving DecidableEq, Repr

namespace Download

/-- Fetch at most `limit` octets. -/
def fetch (d : Download) (limit : Nat) : Except Failure (List UInt8 × Download) :=
  match d.body with
  | [] => .ok ([], d)
  | .octets bs :: rest =>
    if bs.length ≤ limit then
      .ok (bs, { d with body := rest })
    else
      .ok (bs.take limit, { d with body := .octets (bs.drop limit) :: rest })
  | .broken message :: _ => .error (.downloadInterrupted d.url message)
  | .foreign message :: _ => .error (.foreign message)

/-- What a part of a request gave. -/
structure Progress where
  octets : List UInt8
  /-- How many are still missing. -/
  missing : Nat
  /-- Whether there are no more. -/
  ended : Bool

/-- Fetch whole blocks while the missing octets fill one. -/
def fetchBlocks (d : Download) (p : Progress) : (fuel : Nat) → Except Failure (Progress × Download)
  | 0 => .ok (p, d)
  | fuel + 1 =>
    let limit := p.missing / blockSize * blockSize
    if limit = 0 then
      .ok (p, d)
    else do
      let (bs, d) ← d.fetch limit
      if bs = [] then
        return ({ p with ended := true }, d)
      else
        d.fetchBlocks ⟨p.octets ++ bs, p.missing - bs.length, false⟩ fuel

/-- Fill the buffer, which has some room left, and take the missing octets from
it. -/
def fill (d : Download) (room : Nat) (p : Progress) :
    (fuel : Nat) → Except Failure (Progress × Download)
  | 0 => .ok (p, d)
  | fuel + 1 =>
    if p.missing = 0 then
      .ok (p, d)
    else do
      let (bs, d) ← d.fetch room
      if bs = [] then
        return ({ p with ended := true }, d)
      else
        let d := { d with buffer := bs.drop p.missing }
        d.fill (room - bs.length) ⟨p.octets ++ bs.take p.missing, p.missing - bs.length, false⟩ fuel

/-- Read a number of octets, or fewer if the body ends. -/
def read (d : Download) (count : Nat) : Except Failure (List UInt8 × Download) :=
  if count ≤ d.buffer.length then
    .ok (d.buffer.take count, { d with buffer := d.buffer.drop count })
  else do
    let start : Progress := ⟨d.buffer, count - d.buffer.length, false⟩
    let (p, d) ← { d with buffer := [] }.fetchBlocks start count
    if p.ended then
      return (p.octets, d)
    else
      let (p, d) ← d.fill blockSize p count
      return (p.octets, d)

/-- Fetch blocks to the end of the body. -/
def fetchAll (d : Download) (before : List UInt8) : (fuel : Nat) → Except Failure (List UInt8 × Download)
  | 0 => .ok (before, d)
  | fuel + 1 => do
    let (bs, d) ← d.fetch blockSize
    if bs = [] then
      return (before, d)
    else
      d.fetchAll (before ++ bs) fuel

/-- The number of octets that the server has still to send. -/
def size (d : Download) : Nat :=
  d.body.foldl
    (fun n piece =>
      match piece with
      | .octets bs => n + bs.length
      | _ => n)
    0

/-- Read all octets to the end of the body. -/
def readAll (d : Download) : Except Failure (List UInt8 × Download) :=
  { d with buffer := [] }.fetchAll d.buffer (d.size + 1)

end Download

end ModBuild
