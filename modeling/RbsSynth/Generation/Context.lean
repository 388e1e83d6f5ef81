import RbsSynth.Index
import RbsSynth.Program.Node
import RbsSynth.Program.Resolution
import RbsSynth.Template.Value

/-!
Contexts of templates: what their names stand for.

The arguments of a call stand under the names of the required parameters they are given for.  Those
of the calls around it stand together as a record, under the name of the method that was called; the
call's own arguments win over a record of the same name, and an inner record over an outer one.
-/

namespace RbsSynth

inductive Binding
  | scalar (text : String)
  | record (fields : List (String × Binding))

abbrev Context := Index Binding

mutual

/-- A binding as a value of templates. -/
def Binding.value : Binding → Template.Value
  | .scalar text => .bound text
  | .record fields => .record (bindingValues fields)
termination_by structural b => b

def bindingValues : List (String × Binding) → List (String × Template.Value)
  | [] => []
  | (name, b) :: rest => (name, b.value) :: bindingValues rest
termination_by structural fields => fields

end

namespace Context

/-- The names of required parameters with the values of the arguments given for them, in order.
Parameters without a name take their argument too. -/
def pairs (required : List (Option String)) (values : List String) : List (String × String) :=
  (required.zip values).filterMap fun (name, value) => name.map (·, value)

/-- Binds names to values; of two values for one name the last counts. -/
def bindAll (pairs : List (String × String)) (context : Context) : Context :=
  pairs.foldl (fun context (name, value) => context.put name (.scalar value)) context

/-- The arguments of a call, by the parameters of a declared method. -/
def arguments (c : Call) (d : MatchedMethod) : List (String × String) :=
  pairs d.required c.values

/-- One more call around. -/
def enter (context : Context) (outer : Call × Resolution) : Context :=
  match outer.2.declarations with
  | [] => context
  | d :: _ => context.put outer.2.method (.record (bindAll (arguments outer.1 d) []))

/-- The context of a call for one of its declared methods; the calls around it come outermost
first. -/
def ofCall (stack : List (Call × Resolution)) (c : Call) (d : MatchedMethod) : Context :=
  bindAll (arguments c d) (stack.foldl enter [])

end Context

end RbsSynth
