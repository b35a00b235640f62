import QueryCode.Text.Basic
import QueryCode.Text.Capital
import QueryCode.Text.Fold

/-!
# Nouns

Tables are named in the plural and models in the singular. The singular of a word comes from a short list
of irregular words or else from the first rule whose ending it has; letter case makes no difference.
-/

namespace QueryCode
set_option autoImplicit false

namespace Naming

/-- Words that are their own singular. -/
def uncountable : List String := [
  "equipment", "information", "rice", "money", "species", "series", "fish", "sheep", "jeans", "police",
  "news", "metadata"]

/-- Plurals that follow no rule, with their singulars. -/
def irregular : List (String × String) := [
  ("people", "person"), ("men", "man"), ("women", "woman"), ("children", "child"), ("sexes", "sex"),
  ("moves", "move"), ("zombies", "zombie"), ("teeth", "tooth"), ("feet", "foot"), ("geese", "goose")]

/-- What stands before an ending. -/
inductive Stem where
  /-- These letters. -/
  | letters (t : String)
  /-- One of these letters. -/
  | oneOf (t : String)
  /-- Any character but these letters. -/
  | noneOf (t : String)
  deriving Repr

/-- How a plural is made singular. -/
inductive Rule where
  /-- A word that ends in a stem and an ending changes the ending; if `whole`, the stem is all that stands
  before it. -/
  | ending (whole : Bool) (stems : List Stem) (endings : List String) (singular : String)
  /-- A word that starts with a stem and an ending drops that ending. -/
  | start (stem ending : String)
  deriving Repr

/-- The rules, of which the first that applies is used. -/
def rules : List Rule := [
  .ending false [.letters "database"] ["s"] "",
  .ending false [.letters "quiz"] ["zes"] "",
  .ending false [.letters "matr"] ["ices"] "ix",
  .ending false [.letters "vert", .letters "ind"] ["ices"] "ex",
  .start "ox" "en",
  .ending false [.letters "alias", .letters "status"] ["es", ""] "",
  .ending false [.letters "octop", .letters "vir"] ["us", "i"] "us",
  .ending true [.letters "a"] ["xis", "xes"] "xis",
  .ending false [.letters "cris", .letters "test"] ["is", "es"] "is",
  .ending false [.letters "shoe"] ["s"] "",
  .ending false [.letters "o"] ["es"] "",
  .ending false [.letters "bus"] ["es", ""] "",
  .ending true [.letters "m", .letters "l"] ["ice"] "ouse",
  .ending false [.letters "x", .letters "ch", .letters "ss", .letters "sh"] ["es"] "",
  .ending false [.letters "m"] ["ovies"] "ovie",
  .ending false [.letters "s"] ["eries"] "eries",
  .ending false [.noneOf "aeiouy", .letters "qu"] ["ies"] "y",
  .ending false [.oneOf "lr"] ["ves"] "f",
  .ending false [.letters "tive"] ["s"] "",
  .ending false [.letters "hive"] ["s"] "",
  .ending false [.noneOf "f"] ["ves"] "fe",
  .ending true [.letters "analy"] ["sis", "ses"] "sis",
  .ending false
    [.letters "analy", .letters "ba", .letters "diagno", .letters "parenthe", .letters "progno",
      .letters "synop", .letters "the"]
    ["sis", "ses"] "sis",
  .ending false [.oneOf "ti"] ["a"] "um",
  .ending false [.letters "ss"] [""] "",
  .ending false [.letters ""] ["s"] ""]

/-- The folded text ends in the stem; if `whole`, it is the stem. -/
def Stem.fits (whole : Bool) (head : Text) : Stem → Bool
  | .letters t => if whole then head == t.toList else t.toList.isSuffixOf head
  | .oneOf t => head.getLast?.any (t.toList.contains ·) && (!whole || head.length == 1)
  | .noneOf t => head.getLast?.any (!t.toList.contains ·) && (!whole || head.length == 1)

/-- The singular by one rule, if it applies. -/
def Rule.singular? (word : Text) : Rule → Option Text
  | .ending whole stems endings singular =>
    let folded := word.map Text.fold
    endings.findSome? fun last =>
      if last.toList.isSuffixOf folded then
        let n := word.length - last.toList.length
        if stems.any (Stem.fits whole (folded.take n)) then some (word.take n ++ singular.toList) else none
      else none
  | .start stem last =>
    if (stem.toList ++ last.toList).isPrefixOf (word.map Text.fold) then
      some (word.take stem.toList.length ++ word.drop (stem.toList.length + last.toList.length))
    else none

/-- The singular of one word. -/
def singularWord (word : Text) : Text :=
  let lower := String.ofList (Text.lower word)
  if word.isEmpty || uncountable.contains lower then word
  else
    match irregular.lookup lower with
    | some singular =>
      if word.head?.any Char.isUpper then Text.capitalize singular else singular
    | none => (rules.findSome? (Rule.singular? word)).getD word

/-- The singular of a name: its last word, after the last underscore, is made singular. -/
def singular (name : Text) : Text :=
  let last := (name.reverse.takeWhile (· != '_')).reverse
  name.take (name.length - last.length) ++ singularWord last

/-- The model of a table: the words of its singular, each capitalised, without underscores. -/
def modelName (table : Text) : Text :=
  ((Text.pieces '_' (singular table)).filter (!·.isEmpty)).flatMap fun part =>
    Text.capitalize (Text.lower part)

end Naming
end QueryCode
