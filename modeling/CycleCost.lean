import CycleCost.Accuracy
import CycleCost.Assembly.Machine
import CycleCost.Calibration.Rehearsal
import CycleCost.Calibration.Suite
import CycleCost.Command.Execution
import CycleCost.Counter
import CycleCost.Document.Json.Reader
import CycleCost.Document.Json.Writer
import CycleCost.Host.Bench
import CycleCost.Main
import CycleCost.Report.Forms
import CycleCost.Synthetic
import CycleCost.Proofs.Accuracy.Expression
import CycleCost.Proofs.Assembly.Encoding
import CycleCost.Proofs.Calibration.Estimate
import CycleCost.Proofs.Calibration.Gate
import CycleCost.Proofs.Calibration.Influence
import CycleCost.Proofs.Calibration.Isolation
import CycleCost.Proofs.Calibration.Kernel
import CycleCost.Proofs.Calibration.Mirror
import CycleCost.Proofs.Calibration.Overhead
import CycleCost.Proofs.Calibration.Schedule
import CycleCost.Proofs.Calibration.Verdict
import CycleCost.Proofs.Counter
import CycleCost.Proofs.Host.Executable
import CycleCost.Proofs.Host.KernelScript
import CycleCost.Proofs.Measurement.Average
import CycleCost.Proofs.Measurement.Course
import CycleCost.Proofs.Measurement.Equal
import CycleCost.Proofs.Measurement.Outliers
import CycleCost.Proofs.Regression.LeastSquares
import CycleCost.Proofs.Regression.Ordering
import CycleCost.Proofs.Regression.Range
import CycleCost.Proofs.Regression.Rotation
import CycleCost.Proofs.Report.Algebra
import CycleCost.Proofs.Report.Consistency
import CycleCost.Proofs.Report.Provenance
import CycleCost.Proofs.Report.Readback
import CycleCost.Proofs.Synthetic
import CycleCost.Proofs.Workload.Branches
import CycleCost.Proofs.Workload.Run
import CycleCost.Proofs.Workload.Source
