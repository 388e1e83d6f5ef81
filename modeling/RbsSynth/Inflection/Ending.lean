/-!
Rules that change the ending of a word.

A rule keeps some letters, drops those behind them and adds new ones.  Letters are compared without
regard to case; what is kept stays as it is written, what is added is in lower case.
-/

namespace RbsSynth.Inflection

/-- A place for one letter. -/
inductive Letter
  | one (c : Char)
  | anyOf (cs : List Char)
  | noneOf (cs : List Char)

def Letter.admits : Letter → Char → Bool
  | one c, d => d.toLower == c
  | anyOf cs, d => cs.contains d.toLower
  | noneOf cs, d => !cs.contains d.toLower

def letters (s : String) : List Letter := s.toList.map .one

/-- Which part of a word a rule's letters are. -/
inductive Place
  | atEnd | whole | atStart
  deriving DecidableEq

structure Ending where
  place : Place
  kept : List Letter
  dropped : List Letter
  added : String

namespace Ending

/-- Words that end in `kept ++ dropped`. -/
def atEnd (kept dropped added : String) : Ending := ⟨.atEnd, letters kept, letters dropped, added⟩

/-- The word `kept ++ dropped`. -/
def whole (kept dropped added : String) : Ending := ⟨.whole, letters kept, letters dropped, added⟩

/-- Words that end in a letter of a class and `dropped`. -/
def behind (letter : Letter) (dropped added : String) : Ending :=
  ⟨.atEnd, [letter], letters dropped, added⟩

end Ending

/-- Whether letters stand for the start of a word. -/
def fits : List Letter → List Char → Bool
  | [], _ => true
  | _ :: _, [] => false
  | l :: ls, c :: cs => l.admits c && fits ls cs

/-- The word that a rule makes, if it fits. -/
def Ending.apply? (e : Ending) (word : List Char) : Option (List Char) :=
  let letters := e.kept ++ e.dropped
  match e.place with
  | .atStart =>
    if fits letters word then
      some (word.take e.kept.length ++ e.added.toList ++ word.drop letters.length)
    else none
  | .atEnd | .whole =>
    let before := word.length - letters.length
    if letters.length ≤ word.length && fits letters (word.drop before)
        && (e.place = .atEnd || before == 0) then
      some (word.take (before + e.kept.length) ++ e.added.toList)
    else none

/-- What the first rule that fits makes of a word. -/
def applyFirst? : List Ending → List Char → Option (List Char)
  | [], _ => none
  | e :: es, word =>
    match e.apply? word with
    | some w => some w
    | none => applyFirst? es word

open Ending

/-- From one to many. -/
def plurals : List Ending :=
  [atEnd "quiz" "" "zes", whole "oxen" "" "", whole "ox" "" "en",
   whole "m" "ice" "ice", whole "l" "ice" "ice", whole "m" "ouse" "ice", whole "l" "ouse" "ice",
   atEnd "matr" "ix" "ices", atEnd "matr" "ex" "ices", atEnd "vert" "ix" "ices",
   atEnd "vert" "ex" "ices", atEnd "ind" "ix" "ices", atEnd "ind" "ex" "ices",
   atEnd "x" "" "es", atEnd "ch" "" "es", atEnd "ss" "" "es", atEnd "sh" "" "es",
   atEnd "qu" "y" "ies", behind (.noneOf ['a', 'e', 'i', 'o', 'u', 'y']) "y" "ies",
   atEnd "hive" "" "s", behind (.noneOf ['f']) "fe" "ves", behind (.anyOf ['l', 'r']) "f" "ves",
   atEnd "" "sis" "ses", behind (.anyOf ['t', 'i']) "a" "a", behind (.anyOf ['t', 'i']) "um" "a",
   atEnd "buffal" "o" "oes", atEnd "tomat" "o" "oes", atEnd "bu" "s" "ses",
   atEnd "alias" "" "es", atEnd "status" "" "es", atEnd "octop" "i" "i", atEnd "vir" "i" "i",
   atEnd "octop" "us" "i", atEnd "vir" "us" "i", whole "ax" "is" "es", whole "test" "is" "es",
   atEnd "" "s" "s", atEnd "" "" "s"]

/-- From many to one. -/
def singulars : List Ending :=
  [atEnd "database" "s" "", atEnd "quiz" "zes" "", atEnd "matr" "ices" "ix",
   atEnd "vert" "ices" "ex", atEnd "ind" "ices" "ex",
   ⟨.atStart, letters "ox", letters "en", ""⟩,
   atEnd "alias" "es" "", atEnd "alias" "" "", atEnd "status" "es" "", atEnd "status" "" "",
   atEnd "octop" "us" "us", atEnd "octop" "i" "us", atEnd "vir" "us" "us", atEnd "vir" "i" "us",
   whole "a" "xis" "xis", whole "a" "xes" "xis", atEnd "cris" "is" "is", atEnd "cris" "es" "is",
   atEnd "test" "is" "is", atEnd "test" "es" "is", atEnd "shoe" "s" "", atEnd "o" "es" "",
   atEnd "bus" "es" "", atEnd "bus" "" "", whole "m" "ice" "ouse", whole "l" "ice" "ouse",
   atEnd "x" "es" "", atEnd "ch" "es" "", atEnd "ss" "es" "", atEnd "sh" "es" "",
   atEnd "m" "ovies" "ovie", atEnd "s" "eries" "eries",
   atEnd "qu" "ies" "y", behind (.noneOf ['a', 'e', 'i', 'o', 'u', 'y']) "ies" "y",
   behind (.anyOf ['l', 'r']) "ves" "f", atEnd "tive" "s" "", atEnd "hive" "s" "",
   behind (.noneOf ['f']) "ves" "fe", whole "analy" "sis" "sis", whole "analy" "ses" "sis",
   atEnd "analy" "sis" "sis", atEnd "analy" "ses" "sis", atEnd "ba" "sis" "sis",
   atEnd "ba" "ses" "sis", atEnd "diagno" "sis" "sis", atEnd "diagno" "ses" "sis",
   atEnd "parenthe" "sis" "sis", atEnd "parenthe" "ses" "sis", atEnd "progno" "sis" "sis",
   atEnd "progno" "ses" "sis", atEnd "synop" "sis" "sis", atEnd "synop" "ses" "sis",
   atEnd "the" "sis" "sis", atEnd "the" "ses" "sis", behind (.anyOf ['t', 'i']) "a" "um",
   atEnd "n" "ews" "ews", atEnd "ss" "" "", atEnd "" "s" ""]

/-- Words with a plural of their own. -/
def irregulars : List (String × String) :=
  [("person", "people"), ("man", "men"), ("child", "children"), ("sex", "sexes"),
   ("move", "moves"), ("zombie", "zombies")]

/-- Words that are the same for one and many. -/
def uncountables : List String :=
  ["equipment", "information", "rice", "money", "species", "series", "fish", "sheep", "jeans",
   "police"]

end RbsSynth.Inflection
