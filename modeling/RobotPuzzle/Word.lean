import RobotPuzzle.Text.Basic

/-!
# Closed vocabularies

Directions, tile kinds, commands and the like are closed vocabularies: finitely many words, each
with one spelling, by which level files and answers name them.

* `spelling_of_ofSpelling?`: a word that was found by a spelling has that spelling.
* `LawfulWord`: every word is found by its spelling.
-/

namespace RobotPuzzle

/-- A type of finitely many words, each with its spelling. -/
class Word (α : Type) where
  /-- Every word, in the order of its vocabulary. -/
  all : List α
  /-- How a word is spelled. -/
  spelling : α → String

namespace Word

variable {α : Type} [Word α]

/-- The word with a spelling. -/
def ofSpelling? (s : Text) : Option α :=
  all.find? fun word => Text.ofString (spelling word) == s

theorem spelling_of_ofSpelling? {s : Text} {word : α} (h : ofSpelling? s = some word) :
    spelling word = s := by
  have := List.find?_some h
  simpa using this

end Word

/-- A vocabulary in which every word is found by its spelling. -/
class LawfulWord (α : Type) [Word α] : Prop where
  ofSpelling?_spelling : ∀ word : α,
    Word.ofSpelling? (Text.ofString (Word.spelling word)) = some word

end RobotPuzzle
