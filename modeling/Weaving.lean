import Weaving.Cursor.Dump
import Weaving.Edit.CallSite
import Weaving.Edit.Require
import Weaving.Edit.Label
import Weaving.Edit.Push
import Weaving.Edit.ForEach
import Weaving.Proofs.Outcome
import Weaving.Proofs.Jumps
import Weaving.Proofs.Compile
import Weaving.Proofs.Push
import Weaving.Proofs.CompileRules
import Weaving.Proofs.Invariant
import Weaving.Proofs.LabelSafety
import Weaving.Proofs.Atomic
import Weaving.Proofs.StackBalance
import Weaving.Proofs.Change
import Weaving.Proofs.Run
import Weaving.Proofs.FreshLabels
import Weaving.Proofs.StackWalk
import Weaving.Proofs.Declarations
import Weaving.Proofs.Registry
import Weaving.Proofs.PushedCall
import Weaving.Proofs.Removal
import Weaving.Proofs.Redirection
import Weaving.Proofs.Places
import Weaving.Proofs.Match
import Weaving.Proofs.Repetition
import Weaving.Proofs.Visits
import Weaving.Proofs.Sweep
import Weaving.Proofs.Nearest
import Weaving.Proofs.Guards
import Weaving.Proofs.LabelCheck
import Weaving.Proofs.Ranges
import Weaving.Proofs.Insertion
import Weaving.Proofs.Occurrence
import Weaving.Proofs.Fitting
import Weaving.Proofs.CallSearch
import Weaving.Proofs.ArgumentStart
import Weaving.Proofs.CallSequence
import Weaving.Proofs.TypeNames
import Weaving.Proofs.Rendering
import Weaving.Proofs.Overloads
import Weaving.Proofs.FieldLookup
import Weaving.Proofs.JumpPatterns
import Weaving.Proofs.LabelSupply
