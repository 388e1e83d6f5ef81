import RbsSynth.Inflection.Ending
import RbsSynth.Text.Case
import RbsSynth.Text.Printable
import RbsSynth.Text.Split

/-!
Inflections of names.

`pluralize` and `singularize` change the letters at the end of a name, so of a phrase only its last
word; `camelize` and `underscore` go between the names of classes and those of files and tables, and
`classify` and `tableize` do both.
-/

namespace RbsSynth.Inflection

/-! ## One and many -/

/-- The letters at the end of a name, and what stands before them.  A line feed at the end is passed
over and lost. -/
def lastWord (word : List Char) : List Char × List Char :=
  let tail := word.reverse.takeWhile Char.isAlpha
  if tail.isEmpty then
    match word.reverse with
    | '\n' :: before => ((before.dropWhile Char.isAlpha).reverse,
        (before.takeWhile Char.isAlpha).reverse)
    | _ => (word, [])
  else ((word.reverse.dropWhile Char.isAlpha).reverse, tail.reverse)

/-- A replacement that starts with the source's own capital. -/
def matchCase (source replacement : List Char) : List Char :=
  match source, replacement with
  | c :: _, _ :: rest => if c.isUpper then c :: rest else replacement
  | _, _ => replacement

/-- Inflects the last word of a name by what it is paired with, or else by the first rule that
fits; some words stay as they are. -/
def inflect? (pairs : List (String × String)) (rules : List Ending) (word : List Char) :
    Option (List Char) :=
  let (head, tail) := lastWord word
  let plain := tail.map Char.toLower
  if tail.isEmpty || uncountables.any (·.toList == plain) then none
  else match pairs.find? (·.1.toList == plain) with
    | some (_, other) => some (head ++ matchCase tail other.toList)
    | none => (applyFirst? rules tail).map (head ++ ·)

/-- The name for many, if it is another one. -/
def pluralize? : List Char → Option (List Char) :=
  inflect? (irregulars ++ irregulars.map fun (_, many) => (many, many)) plurals

/-- The name for one, if it is another one. -/
def singularize? : List Char → Option (List Char) :=
  inflect? (irregulars.map (fun (one, many) => (many, one)) ++ irregulars.map fun (one, _) =>
    (one, one)) singulars

def pluralize (word : List Char) : List Char := (pluralize? word).getD word

def singularize (word : List Char) : List Char := (singularize? word).getD word

/-! ## Classes and files -/

def isLowerOrDigit (c : Char) : Bool := c.isLower || Text.isDecimal c

/-- A letter that is a plain one in some case, or a digit. -/
def isPlainOrDigit (c : Char) : Bool :=
  c.isAlpha || Text.isDecimal c || c == '\u0130' || c == '\u0131' || c == '\u017f' || c == '\u212a'

/-- The end of a run that was being read, if one was; it is kept with the last character first. -/
def closeRun : Option (List Char) → List Char
  | none => []
  | some run => Text.capitalize run.reverse

/-- Capitalizes the run of letters and digits behind each underscore or slash; the underscore goes,
and the slash becomes `::`. -/
def joinWords : Option (List Char) → List Char → List Char
  | run, [] => closeRun run
  | run, '_' :: cs => closeRun run ++ joinWords (some []) cs
  | run, '/' :: cs => closeRun run ++ ':' :: ':' :: joinWords (some []) cs
  | none, c :: cs => c :: joinWords none cs
  | some run, c :: cs =>
    if isPlainOrDigit c then joinWords (some (c :: run)) cs
    else closeRun (some run) ++ c :: joinWords none cs

/-- The name of a class for that of a file. -/
def camelize (term : List Char) : List Char :=
  joinWords none (Text.capitalize (term.takeWhile isLowerOrDigit) ++ term.dropWhile isLowerOrDigit)

/-- The same with a small letter at the start. -/
def camelizeLower (term : List Char) : List Char :=
  joinWords none (Text.lower (term.take 1) ++ term.drop 1)

def isCapitalOrDigit (c : Char) : Bool := c.isUpper || Text.isDecimal c

/-- Puts an underscore before the last capital of a run when a small letter follows it. -/
def splitRuns : List Char → List Char
  | a :: b :: c :: cs =>
    if isCapitalOrDigit a && b.isUpper && c.isLower then a :: '_' :: splitRuns (b :: c :: cs)
    else a :: splitRuns (b :: c :: cs)
  | cs => cs

/-- Puts an underscore between a small letter or digit and a capital. -/
def splitWords : List Char → List Char
  | a :: b :: cs =>
    if isLowerOrDigit a && b.isUpper then a :: '_' :: splitWords (b :: cs)
    else a :: splitWords (b :: cs)
  | cs => cs

def replaceChar (a b : Char) (cs : List Char) : List Char := cs.map fun c => if c = a then b else c

/-- A slash in place of each `::`. -/
def slashPath : List Char → List Char
  | ':' :: ':' :: cs => '/' :: slashPath cs
  | c :: cs => c :: slashPath cs
  | [] => []

/-- The name of a file for that of a class. -/
def underscore (word : List Char) : List Char :=
  Text.lower (replaceChar '-' '_' (splitWords (splitRuns (slashPath word))))

/-- What stands behind the last dot. -/
def behindLastDot (cs : List Char) : List Char :=
  (cs.reverse.takeWhile (· != '.')).reverse

/-- The name of a class for that of a table. -/
def classify (table : List Char) : List Char := camelize (singularize (behindLastDot table))

/-- The name of a table for that of a class. -/
def tableize (name : List Char) : List Char := pluralize (underscore name)

end RbsSynth.Inflection
