import Gatehouse.Credentials.Scripted
import Gatehouse.Proofs.Credentials.Registrations
import Gatehouse.Proofs.Http.Continuity
import Gatehouse.Proofs.Todo.JsonFile
import Gatehouse.Proofs.Site.History
import Gatehouse.Proofs.Site.Overlap
import Gatehouse.Proofs.Site.Rotation
import Gatehouse.Session.Faults
import Gatehouse.Settings.Load
import Gatehouse.Site.Startup
import Gatehouse.Proofs.Credentials.Interchange
import Gatehouse.Proofs.Site.Registration
import Gatehouse.Proofs.Html.Reading
import Gatehouse.Proofs.Session.Interchange
import Gatehouse.Proofs.Site.Notices
import Gatehouse.Proofs.Site.Crashes
import Gatehouse.Proofs.Session.Confinement
import Gatehouse.Proofs.Site.Isolation
import Gatehouse.Proofs.Site.StoredSessions
import Gatehouse.Proofs.Site.Rejection
import Gatehouse.Proofs.Session.Interleaving
import Gatehouse.Proofs.Http.Failures
import Gatehouse.Proofs.Site.Damage
import Gatehouse.Proofs.Username
import Gatehouse.Proofs.Site.SigningIn
import Gatehouse.Proofs.Site.SigningUp
import Gatehouse.Proofs.Site.Vanished
import Gatehouse.Proofs.Credentials.Verification
import Gatehouse.Proofs.Persistence
import Gatehouse.Proofs.Session.Changes
import Gatehouse.Proofs.Records
import Gatehouse.Proofs.Settings.Load
import Gatehouse.Proofs.Site.Untold
import Gatehouse.Proofs.Site.Spelling
