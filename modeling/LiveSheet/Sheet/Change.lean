import LiveSheet.Sheet.Cell

namespace LiveSheet

inductive CellEvent
  | valueChanged (value : Value)
  | errorChanged (error : Option CellError)
  | formulaChanged (formula : String)
  | tableChanged (rows cols : Nat)
  | nameChanged (old new : String)
  | deleteRequested
  deriving DecidableEq, Repr

structure Change where
  cell : CellId
  event : CellEvent
  deriving DecidableEq, Repr

/-- The identity under which a subscriber was registered. -/
abbrev Handle := Nat

/-- Who is told of the changes of which cell, in order of registration. -/
structure Subscriptions where
  lastHandle : Handle
  live : List (CellId × Handle)
  deriving DecidableEq, Repr

namespace Subscriptions

def none : Subscriptions :=
  ⟨0, []⟩

/-- A new subscription comes last and has the next handle. -/
def add (s : Subscriptions) (id : CellId) : Subscriptions :=
  ⟨s.lastHandle + 1, s.live ++ [(id, s.lastHandle + 1)]⟩

def remove (s : Subscriptions) (id : CellId) (handle : Handle) : Subscriptions :=
  { s with live := s.live.filter (· != (id, handle)) }

def dropCell (s : Subscriptions) (id : CellId) : Subscriptions :=
  { s with live := s.live.filter fun entry => entry.1 != id }

def handlesOf (s : Subscriptions) (id : CellId) : List Handle :=
  (s.live.filter fun entry => entry.1 == id).map Prod.snd

/-- What the subscribers are told of some changes, in the order in which they are told. -/
def deliver (s : Subscriptions) (changes : List Change) : List (Handle × CellEvent) :=
  changes.flatMap fun change => (s.handlesOf change.cell).map fun handle => (handle, change.event)

end Subscriptions

end LiveSheet
