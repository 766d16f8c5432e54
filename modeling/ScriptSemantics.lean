import ScriptSemantics.Session
import ScriptSemantics.Proofs.Declarations
import ScriptSemantics.Proofs.Knowledge
import ScriptSemantics.Proofs.Requests
import ScriptSemantics.Proofs.ReferenceLogs
import ScriptSemantics.Proofs.Renaming.Session
import ScriptSemantics.Proofs.Reports
import ScriptSemantics.Proofs.Reflexivity
import ScriptSemantics.Proofs.DepthLimit
import ScriptSemantics.Proofs.NormalForm
import ScriptSemantics.Proofs.SubstitutedCall
import ScriptSemantics.Proofs.UnknownArguments
import ScriptSemantics.Proofs.Visibility
import ScriptSemantics.Proofs.Paths
import ScriptSemantics.Proofs.ExplicitConstruction
import ScriptSemantics.Proofs.Instantiation
import ScriptSemantics.Proofs.Positions
import ScriptSemantics.Proofs.BuiltinNames
import ScriptSemantics.Proofs.Namesakes
import ScriptSemantics.Proofs.UniqueReading
