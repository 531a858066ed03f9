/-!
# CanvasLink — what comes when

An agenda lists what is to come with the instants at which it comes, soonest first. Of things that
come at one instant, the one that was put down first comes first.
-/

namespace CanvasLink.Rehearsal

/-- Things to come with their instants. -/
abbrev Agenda (α : Type) := List (Nat × α)

namespace Agenda

variable {α : Type}

/-- Puts a thing behind all that come no later. -/
def add (due : Nat) (thing : α) (agenda : Agenda α) : Agenda α :=
  match agenda with
  | [] => [(due, thing)]
  | (d, t) :: rest =>
    if due < d then (due, thing) :: (d, t) :: rest else (d, t) :: add due thing rest

/-- The instant of what comes first. -/
def next? (agenda : Agenda α) : Option Nat :=
  agenda.head?.map (·.1)

/-- What has come by an instant. -/
def upTo (now : Nat) (agenda : Agenda α) : List α :=
  (agenda.takeWhile (·.1 ≤ now)).map (·.2)

/-- What comes after an instant. -/
def after (now : Nat) (agenda : Agenda α) : Agenda α :=
  agenda.dropWhile (·.1 ≤ now)

end Agenda

end CanvasLink.Rehearsal
