import LogicGraph.Main
import LogicGraph.Service
import LogicGraph.Proofs.Compile
import LogicGraph.Proofs.Graph.StepRoots
import LogicGraph.Proofs.Emission.Coverage
import LogicGraph.Proofs.Emission.Members
import LogicGraph.Proofs.Emission.GivenNames
import LogicGraph.Proofs.Emission.Independence
import LogicGraph.Proofs.Emission.Presentation
import LogicGraph.Proofs.Emission.BranchPorts
import LogicGraph.Proofs.Emission.Cycles
import LogicGraph.Proofs.Emission.Nesting
import LogicGraph.Proofs.Emission.Shadowing
import LogicGraph.Proofs.Emission.CaseLiterals
import LogicGraph.Proofs.Reading.Descriptions
import LogicGraph.Proofs.Workspace
import LogicGraph.Proofs.Command.Failures
import LogicGraph.Proofs.Service
import LogicGraph.Proofs.Document.Conversion
import LogicGraph.Proofs.Document.Pruning
import LogicGraph.Proofs.Reading.Literals
import LogicGraph.Proofs.Reading.Operations
import LogicGraph.Proofs.Reading.SafeNames
