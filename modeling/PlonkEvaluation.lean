import PlonkEvaluation.Rotation
import PlonkEvaluation.Syntax
import PlonkEvaluation.Graph.Build
import PlonkEvaluation.Graph.WellFormed
import PlonkEvaluation.Graph.Evaluate
import PlonkEvaluation.Graph.Sharing
import PlonkEvaluation.Graph.Selectors
import PlonkEvaluation.Evaluator
import PlonkEvaluation.Parallel
import PlonkEvaluation.Quotient.Keys
import PlonkEvaluation.Quotient.Permutation
import PlonkEvaluation.Quotient.Lookup
import PlonkEvaluation.Quotient.CpuOnly
import PlonkEvaluation.Quotient.Cuda
import PlonkEvaluation.Quotient.Locality
import PlonkEvaluation.Reference
