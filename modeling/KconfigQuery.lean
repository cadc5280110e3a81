import KconfigQuery.Main
import KconfigQuery.Store.Run
import KconfigQuery.Proofs.StoreQueries
import KconfigQuery.Proofs.ArchitectureSearch
import KconfigQuery.Proofs.StoreHistory
import KconfigQuery.Proofs.Listing
import KconfigQuery.Proofs.WrittenFiles
import KconfigQuery.Proofs.FieldRoundTrip
import KconfigQuery.Proofs.RenderedSettings
import KconfigQuery.Proofs.SettingsRoundTrip
import KconfigQuery.Proofs.ReadAccounting
import KconfigQuery.Proofs.SetCommand
import KconfigQuery.Proofs.SettingsLocation
import KconfigQuery.Proofs.SettingsValidity
import KconfigQuery.Proofs.SettingsIsolation
import KconfigQuery.Proofs.ParsedOptions
import KconfigQuery.Proofs.InquirySteps
import KconfigQuery.Proofs.AskedInquiries
import KconfigQuery.Proofs.QuietRuns
import KconfigQuery.Proofs.InquiryOutcomes
import KconfigQuery.Proofs.InquiryAgreement
import KconfigQuery.Proofs.LineGrammar
import KconfigQuery.Proofs.SettingsComposition
import KconfigQuery.Proofs.NormalPaths
import KconfigQuery.Proofs.KernelDirectories
import KconfigQuery.Proofs.SettingsSelection
import KconfigQuery.Proofs.Fragments
import KconfigQuery.Proofs.Spacing
import KconfigQuery.Proofs.ArchitectureProbes
import KconfigQuery.Proofs.ArchitectureChoice
