import Coverage.Analysis
import Coverage.Collector
import Coverage.ExecutableFiles
import Coverage.Plugin.Recorded
import Coverage.PluginOptions
import Coverage.Registry.Load
import Coverage.Report
import Coverage.Proofs.Activation.Context
import Coverage.Proofs.Analysis.WithoutArcs
import Coverage.Proofs.Collector.Routing
import Coverage.Proofs.Activation.Listing
import Coverage.Proofs.Collector.Branches
import Coverage.Proofs.Recorder.Raised
import Coverage.Proofs.Registry.Steady
import Coverage.Proofs.Collector.Silence
import Coverage.Proofs.Collector.Protocol
import Coverage.Proofs.Activation.Coordinates
import Coverage.Proofs.Collector.Provenance
import Coverage.Proofs.Registry.Loading
import Coverage.Proofs.Analysis.Accounting
import Coverage.Proofs.Analysis.Partial
import Coverage.Proofs.Analysis.Runs
import Coverage.Proofs.Analysis.Merging
import Coverage.Proofs.Analysis.Exits
import Coverage.Proofs.Analysis.Reports
import Coverage.Proofs.Registry.Offers
import Coverage.Proofs.Host.Canonical
import Coverage.Proofs.Path.Normal
import Coverage.Proofs.FileTree.RealLocations
import Coverage.Proofs.Host.DisplayNames
import Coverage.Proofs.Token.PlainLines
import Coverage.Proofs.Data.Reordering
import Coverage.Proofs.Config.Exchanges
import Coverage.Proofs.Reporter.Order
import Coverage.Proofs.Registry.SystemInfo
import Coverage.Proofs.Walk.Searches
