import BuildMatrix.Main
import BuildMatrix.Proofs.Resolution.Run
import BuildMatrix.Proofs.Version.Texts
import BuildMatrix.Proofs.Resolution.Access
import BuildMatrix.Proofs.Resolution.Decision
import BuildMatrix.Proofs.Resolution.Growth
import BuildMatrix.Proofs.Manifest.Layout
import BuildMatrix.Proofs.Manifest.Declaration
import BuildMatrix.Proofs.Manifest.Listing
import BuildMatrix.Proofs.Command.Session
import BuildMatrix.Proofs.Registry.Payload
import BuildMatrix.Proofs.Registry.Host
import BuildMatrix.Proofs.Report.Lines
import BuildMatrix.Proofs.Constraint.Conjunction
import BuildMatrix.Proofs.Constraint.NormalForm
import BuildMatrix.Proofs.Constraint.Edits
import BuildMatrix.Proofs.Candidates.Shape
import BuildMatrix.Proofs.Policy.LaterDays
