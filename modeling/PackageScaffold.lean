import PackageScaffold.CommandLine.Run
import PackageScaffold.CommandLine.Usage
import PackageScaffold.Files.Changes
import PackageScaffold.Main
import PackageScaffold.Review
import PackageScaffold.Proofs.Template.Line
import PackageScaffold.Proofs.Template.Marker
import PackageScaffold.Proofs.Template.Nesting
import PackageScaffold.Proofs.Template.Scopes
import PackageScaffold.Proofs.Template.Section
import PackageScaffold.Proofs.Catalogue.Rendering
import PackageScaffold.Proofs.Files.Computation
import PackageScaffold.Proofs.CommandLine.Misconfiguration
import PackageScaffold.Proofs.Metadata.Description
import PackageScaffold.Proofs.Path
import PackageScaffold.Proofs.Plan.CarryOut
import PackageScaffold.Proofs.Plan.Interruption
import PackageScaffold.Proofs.Plan.Layout
import PackageScaffold.Proofs.Review.Accounting
import PackageScaffold.Proofs.Review.Check
import PackageScaffold.Proofs.Review.Ending
import PackageScaffold.Proofs.Review.Findings
import PackageScaffold.Proofs.Review.Readme
import PackageScaffold.Proofs.Review.Soundness
import PackageScaffold.Proofs.Session
import PackageScaffold.Proofs.Template.Agreement
import PackageScaffold.Proofs.Template.Inert
import PackageScaffold.Proofs.Plan.Ancestors
import PackageScaffold.Proofs.Plan.Assembly
import PackageScaffold.Proofs.Plan.PrefixTree
import PackageScaffold.Proofs.Template.Mention
import PackageScaffold.Proofs.Template.Occurrence
import PackageScaffold.Proofs.Template.Unbound
import PackageScaffold.Proofs.Project.Preview
import PackageScaffold.Proofs.Project.Unhindered
import PackageScaffold.Proofs.Review.NewProject
import PackageScaffold.Proofs.Review.Restoration
import PackageScaffold.Proofs.Yaml.Node
import PackageScaffold.Proofs.Plan.Bookkeeping
import PackageScaffold.Proofs.Retrofit.Review
import PackageScaffold.Proofs.Settings.Keeping
import PackageScaffold.Proofs.Project.Grammar
import PackageScaffold.Proofs.Review.AndroidPackage
import PackageScaffold.Proofs.Plan.Finished
import PackageScaffold.Proofs.CommandLine.SettingsFile
import PackageScaffold.Proofs.Review.Derivation
import PackageScaffold.Proofs.Review.Page
import PackageScaffold.Proofs.Review.LibraryHead
import PackageScaffold.Proofs.Review.NativePart
