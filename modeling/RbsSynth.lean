import RbsSynth.Main
import RbsSynth.Environment.Loading
import RbsSynth.Environment.Methods
import RbsSynth.Inflection.Words
import RbsSynth.Lr.Automaton
import RbsSynth.Lr.Machine
import RbsSynth.Signature.Grammar
import RbsSynth.Signature.TableCheck
import RbsSynth.Proofs.Environment.Additions
import RbsSynth.Proofs.Environment.IndexNames
import RbsSynth.Proofs.Generation.Fragments
import RbsSynth.Proofs.Merge.Visibility
import RbsSynth.Proofs.Engine.Runs
import RbsSynth.Proofs.Engine.BlankLines
import RbsSynth.Proofs.Pieces
import RbsSynth.Proofs.Reading.Methods
import RbsSynth.Proofs.Analysis.Throughout
import RbsSynth.Proofs.Generation.Hygiene
import RbsSynth.Proofs.Merge.Groups
import RbsSynth.Proofs.Environment.Merged
import RbsSynth.Proofs.Analysis.Isolation
import RbsSynth.Proofs.Environment.Independent
import RbsSynth.Proofs.Reading.Reserved
import RbsSynth.Proofs.Reading.WordsAsNames
import RbsSynth.Proofs.Environment.AncestorOrder
import RbsSynth.Proofs.Environment.Repeated
import RbsSynth.Proofs.Environment.Owners
import RbsSynth.Proofs.Environment.Prepended
import RbsSynth.Proofs.Analysis.UnionCalls
import RbsSynth.Proofs.Analysis.AliasCycles
import RbsSynth.Proofs.Analysis.TextOrder
import RbsSynth.Proofs.Analysis.TypeVariables
import RbsSynth.Proofs.Analysis.CallArguments
import RbsSynth.Proofs.Environment.Redefinitions
import RbsSynth.Proofs.Environment.Subclasses
import RbsSynth.Proofs.Environment.Searches
import RbsSynth.Proofs.Writing.CommentsKept
import RbsSynth.Proofs.Writing.SameText
import RbsSynth.Proofs.Reading.ParameterLists
import RbsSynth.Proofs.Inflection.Paths
import RbsSynth.Proofs.Inflection.ClassNames
import RbsSynth.Proofs.Inflection.PluralsAgain
