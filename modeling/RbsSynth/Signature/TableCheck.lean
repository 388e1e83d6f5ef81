import RbsSynth.Lr.Automaton
import RbsSynth.Signature.Grammar
import RbsSynth.Signature.Table

/-!
The table is the automaton of the grammar.
-/

namespace RbsSynth.Signature

set_option maxRecDepth 1000000 in
theorem automaton_grammar : grammar.automaton = table.toList := by decide +kernel

end RbsSynth.Signature
