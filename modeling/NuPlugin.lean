import NuPlugin.Main
import NuPlugin.Proofs.Binary
import NuPlugin.Proofs.Coherence
import NuPlugin.Proofs.CommandLine.DryRun
import NuPlugin.Proofs.CommandLine.ExitCode
import NuPlugin.Proofs.CommandLine.Installation
import NuPlugin.Proofs.CommandLine.Verbosity
import NuPlugin.Proofs.Dependence
import NuPlugin.Proofs.PackageFile
import NuPlugin.Proofs.Precedence
import NuPlugin.Proofs.Roundtrip
import NuPlugin.Proofs.Text.Utf8Fault
import NuPlugin.Proofs.CommandLine.Group
import NuPlugin.Proofs.CommandLine.Home
import NuPlugin.Proofs.Toml.Control
import NuPlugin.Proofs.Toml.Line
import NuPlugin.Proofs.Toml.Writing
import NuPlugin.Proofs.Layout
import NuPlugin.Proofs.Log
import NuPlugin.Proofs.Malformed
import NuPlugin.Proofs.CommandLine.Report
