import RbsSynth.Text.Split

/-!
Names of classes, modules, interfaces and aliases, such as `Foo::Bar` and `::Baz`.

A name has a last part, the path before it, and says whether it starts at the top.  `qualified` is
the name without a leading `::`; it is how declarations are indexed.
-/

namespace RbsSynth.Signature

structure TypeName where
  name : String
  path : List String := []
  absolute : Bool := false
  deriving DecidableEq

namespace TypeName

/-- Reads a name; a text without any part is none. -/
def parse? (text : String) : Option TypeName :=
  let parts := (Text.splitOn "::".toList text.toList).filter (!·.isEmpty)
  match parts.reverse with
  | [] => none
  | last :: path => some
    { name := .ofList last
      path := path.reverse.map .ofList
      absolute := "::".toList.isPrefixOf text.toList }

def relative (n : TypeName) : TypeName := { n with absolute := false }

/-- The name without a leading `::`. -/
def qualified (n : TypeName) : String := Text.join "::" (n.path ++ [n.name])

def render (n : TypeName) : String := (if n.absolute then "::" else "") ++ n.qualified

/-- The innermost first of the names that a qualified name lies in, itself included. -/
def nesting (qualified : String) : List String :=
  if qualified.isEmpty then []
  else
    let parts := (Text.splitOn "::".toList qualified.toList).map String.ofList
    ((List.range parts.length).map fun i => Text.join "::" (parts.take (i + 1))).reverse

end TypeName

end RbsSynth.Signature
