import InstallManifest.Description.Storage
import InstallManifest.Logging
import InstallManifest.Proofs.Builder.Runs
import InstallManifest.Proofs.Description.Building
import InstallManifest.Proofs.Description.Reproducibility
import InstallManifest.Proofs.Description.YamlRoundTrip
import InstallManifest.Proofs.FileSet.Failing
import InstallManifest.Proofs.Markup.Escaping
import InstallManifest.Proofs.Repository.AttributeLists
import InstallManifest.Proofs.Repository.Complaints
import InstallManifest.Proofs.Repository.Insertion
import InstallManifest.Proofs.Repository.Legality
import InstallManifest.Proofs.Repository.Rewriting
import InstallManifest.Proofs.Repository.Roots
import InstallManifest.Proofs.Repository.TreeReading
import InstallManifest.Proofs.Repository.Truncation
import InstallManifest.Proofs.Repository.Validity
import InstallManifest.Proofs.Uuid.Forms
import InstallManifest.Repository.Storage
