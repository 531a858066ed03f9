import CanvasLink.Json.Value
import CanvasLink.Rehearsal.Agenda
import CanvasLink.Wire.Message

/-!
# CanvasLink — a line to a peer with a script

A `Line` joins one who is under rehearsal, its near end, with a peer that has a script, on a clock
of its own that jumps from one event to the next. The n-th entry of the script answers the n-th
request: frames without a delay at once and in order, the others so long after the request.

Everything that takes no time is done in turns. In a turn (`Line.turn`) the peer takes all requests
that were written, and then the near end receives the frames that have come, at most `share` of
them. Between turns the near end acts. Whatever it finds when it acts has therefore come in as a
whole, and nothing that comes at an instant is received before it has acted at that instant.
-/

namespace CanvasLink.Rehearsal

open CanvasLink.Json CanvasLink.Wire

/-- A frame of a peer's answer. -/
structure Reply where
  /-- Milliseconds after the request; at once if there are none. -/
  after : Nat
  message : Value

/-- What a peer answers to each request. -/
abbrev Script := List (List Reply)

/-- The near end of a line: what a frame and the end of all frames do to it. -/
class Receiver (σ : Type) where
  receive : σ → Value → σ
  hangUp : σ → σ

/-- A line between its near end and a peer. -/
structure Line (σ : Type) where
  near : σ
  now : Nat
  script : Script
  /-- Whether the peer is still there. -/
  attended : Bool
  /-- Requests that the peer has not taken yet. -/
  requests : List Request
  /-- Requests that the peer has taken and nobody has looked at. -/
  taken : List Request
  /-- Frames that have come and are not received. -/
  arrived : List Value
  /-- Frames on their way with the instant at which they come. -/
  inTransit : Agenda Value
  /-- The last share was used up, so that receiving goes on first in the next turn. -/
  interrupted : Bool
  /-- Whether the near end still waits for frames. -/
  isOpen : Bool

namespace Line

variable {σ : Type}

/-- A line on which nothing has been said. -/
def idle (near : σ) (script : Script) : Line σ :=
  { near := near, now := 0, script := script, attended := true, requests := [], taken := []
    arrived := [], inTransit := [], interrupted := false, isOpen := true }

/-- Lets the near end act: it becomes another and writes requests. -/
def act (line : Line σ) (result : σ × List Request) : Line σ :=
  { line with near := result.1, requests := line.requests ++ result.2 }

/-! ## The peer -/

/-- Text that stands for the id of the request in an answer. -/
def idMark : String := "$id"

/-- The frame with the id of the request in place of the mark. -/
def withId (id : UInt64) : Value → Value
  | .object members => .object (members.map fun member =>
      match member with
      | ("id", .string s) => ("id", if s = idMark then .int id.toNat else .string s)
      | member => member)
  | v => v

/-- Sends a frame that answers a request. -/
def send (request : Request) (line : Line σ) (reply : Reply) : Line σ :=
  let frame := withId request.id reply.message
  if reply.after = 0 then { line with arrived := line.arrived ++ [frame] }
  else { line with inTransit := line.inTransit.add (line.now + reply.after) frame }

/-- Lets the peer take a request. -/
def take (line : Line σ) (request : Request) : Line σ :=
  let line := { line with taken := line.taken ++ [request] }
  match line.script with
  | [] => line
  | replies :: script => replies.foldl (send request) { line with script := script }

/-- Lets the peer take all requests that were written. -/
def serve (line : Line σ) : Line σ :=
  line.requests.foldl take { line with requests := [] }

/-- The line without its peer. Frames on their way still come. -/
def leave (line : Line σ) : Line σ :=
  { line with attended := false, requests := [] }

/-! ## Turns -/

/-- Most frames that are received in one go. -/
def share : Nat := 128

/-- Whether no frame can come any more and the near end does not know it yet. -/
def isEnding (line : Line σ) : Bool :=
  line.isOpen && !line.attended && line.inTransit.isEmpty && line.arrived.isEmpty

/-- Lets the near end learn that no frame can come any more, if that is so. -/
def finish [Receiver σ] (line : Line σ) : Line σ :=
  if line.isEnding then { line with near := Receiver.hangUp line.near, isOpen := false } else line

/-- Lets the near end receive frames. -/
def receive [Receiver σ] (line : Line σ) : Line σ :=
  let line :=
    { line with
      near := (line.arrived.take share).foldl Receiver.receive line.near
      arrived := line.arrived.drop share
      interrupted := share ≤ line.arrived.length }
  if line.interrupted then line else line.finish

/-- One turn of the peer and the near end. -/
def turn [Receiver σ] (line : Line σ) : Line σ :=
  let line := if line.interrupted then line.receive else line
  let line := line.serve
  if line.interrupted then line else line.receive

/-- Whether a turn would change nothing. -/
def isQuiet (line : Line σ) : Bool :=
  line.requests.isEmpty && line.arrived.isEmpty && !line.interrupted && !line.isEnding

/-! ## Time -/

/-- The line at a later instant. -/
def advance (line : Line σ) (now : Nat) : Line σ :=
  { line with
    now := now
    arrived := line.arrived ++ line.inTransit.upTo now
    inTransit := line.inTransit.after now }

/-- Number of frames that have not been received or may still be sent. -/
def frames (line : Line σ) : Nat :=
  line.arrived.length + line.inTransit.length + line.script.flatten.length

/-- What somebody at the near end does when it is time to act: either it is done, or it waits for an
instant or for frames, whichever comes first. -/
inductive Move (σ α : Type) where
  | done (line : Line σ) (result : α)
  | wait (line : Line σ) (alarm : Nat)

/-- Runs the line until the near end is done, for at most so many turns and events. -/
def run {α : Type} [Receiver σ] (move : Line σ → Move σ α) :
    Nat → Line σ → Line σ × Option α
  | 0, line => (line, none)
  | rounds + 1, line =>
    match move line with
    | .done line result => (line, some result)
    | .wait line alarm =>
      if line.isQuiet then
        run move rounds (line.advance ((line.inTransit.next?.map (min alarm)).getD alarm))
      else run move rounds line.turn

/-- Runs the line until the near end is done. A turn takes a frame or a request, ends an
interruption or the line, and an event is a frame or the end of a wait; every request but the first
comes after a frame. -/
def play {α : Type} [Receiver σ] (line : Line σ) (move : Line σ → Move σ α) :
    Line σ × Option α :=
  run move (4 * line.frames + 16) line

/-- Lets so many milliseconds pass. -/
def pass [Receiver σ] (line : Line σ) (span : Nat) : Line σ :=
  let last := line.now + span
  (line.play fun line => if last ≤ line.now then .done line () else .wait line last).1

end Line

end CanvasLink.Rehearsal
