import LiveSheet.Command.Plan

namespace LiveSheet

/-- What runs a plan: a file system and a database engine, by their answers and how they change. -/
structure Host (σ : Type) where
  find : String → σ → Bool
  read : String → σ → Except String String
  write : String → String → σ → Except String Unit × σ
  remove : String → σ → Except String Unit × σ
  query : String → σ → Option (Document × List (String × Float × Float)) × σ
  insert : String → Document → Positions → σ → Bool × σ

/-- The report of a plan on a host, and the state of the host after it. -/
def Plan.runOn {σ : Type} (host : Host σ) : Plan → σ → Report × σ
  | .finish report, s => (report, s)
  | .find path next, s => (next (host.find path s)).runOn host s
  | .read path next, s => (next (host.read path s)).runOn host s
  | .write path text next, s =>
    (next (host.write path text s).1).runOn host (host.write path text s).2
  | .remove path next, s => (next (host.remove path s).1).runOn host (host.remove path s).2
  | .query path next, s => (next (host.query path s).1).runOn host (host.query path s).2
  | .insert path document positions next, s =>
    (next (host.insert path document positions s).1).runOn host
      (host.insert path document positions s).2

end LiveSheet
