import RobotPuzzle.Record.Field
import RobotPuzzle.Run.Outcome

/-!
# Progress on levels

The best results for a level. Outcomes are merged into it: a level once completed stays completed,
stars and counts keep the best, and only completed runs count for the best blocks and time.
-/

namespace RobotPuzzle

/-- What has been achieved on a level. -/
structure Progress where
  levelId : Int
  completed : Bool
  stars : Int
  bestBlocks : Option Int
  bestTime : Option Int
  timesPlayed : Int
  unlocked : Bool
  deriving DecidableEq, Repr

namespace Progress

/-- An open level that has not been played. -/
def opened (levelId : Int) : Progress := ⟨levelId, false, 0, none, none, 0, true⟩

/-- The smaller of a number and one that may be missing. -/
def best (old : Option Int) (new : Int) : Option Int :=
  match old with
  | none => some new
  | some n => some (min n new)

/-- Merges an outcome into the progress on its level. -/
def merge (p : Progress) (o : Outcome) : Progress :=
  { p with
    completed := p.completed || o.completed
    stars := max p.stars o.stars
    bestBlocks := if o.completed then best p.bestBlocks o.blocksUsed else p.bestBlocks
    bestTime := if o.completed then best p.bestTime o.time else p.bestTime
    timesPlayed := p.timesPlayed + 1
    unlocked := true }

/-- Merges an outcome into the progress, if there is any, on its level. -/
def mergeInto (current : Option Progress) (o : Outcome) : Progress :=
  (current.getD (opened o.levelId)).merge o

/-- Merges outcomes one after the other, and returns the progress after each. -/
def mergeEach (current : Option Progress) : List Outcome → List Progress
  | [] => []
  | o :: rest => let p := mergeInto current o; p :: mergeEach (some p) rest

/-- The record of progress. -/
def toJson (p : Progress) : Json :=
  .obj [("level_id", .int p.levelId), ("completed", .bool p.completed), ("stars", .int p.stars),
    ("best_blocks", Json.orNull .int p.bestBlocks), ("best_time", Json.orNull .int p.bestTime),
    ("times_played", .int p.timesPlayed), ("unlocked", .bool p.unlocked)]

/-- Checks the record of progress. -/
def check : Field.Check Progress := Field.record fun f =>
  mk <$> f.required "level_id" Field.integer
    <*> f.optional "completed" false Field.boolean
    <*> f.optional "stars" 0 (Field.between 0 3)
    <*> f.optional "best_blocks" none (Field.nullable Field.integer)
    <*> f.optional "best_time" none (Field.nullable Field.integer)
    <*> f.optional "times_played" 0 Field.integer
    <*> f.optional "unlocked" false Field.boolean

end Progress

end RobotPuzzle
