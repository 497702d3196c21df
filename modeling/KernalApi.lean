import KernalApi.Hub.TransferBound
import KernalApi.Hub.Handles
import KernalApi.Hub.Terminal
import KernalApi.Worker.Receive
import KernalApi.Worker.Assembler
import KernalApi.Worker.Limits
import KernalApi.Hub.Teardown
import KernalApi.Crash.RoundTrip
import KernalApi.Crash.Stability
import KernalApi.Crash.Registrations
import KernalApi.Epoch.Verdict
import KernalApi.Guest.Accounts
import KernalApi.Hash.Selection
import KernalApi.Archive.Budget
import KernalApi.Archive.Confinement
import KernalApi.Webview.Load
import KernalApi.Profile.Firefox
import KernalApi.Symbols.Verified
import KernalApi.Terminal.Tokens
import KernalApi.Crash.Handoff
import KernalApi.Guest.Roots
import KernalApi.Preflight.Features
import KernalApi.TaskLocal.Scope
import KernalApi.Snapshot.Unwind
import KernalApi.Platform.KillTree
import KernalApi.Profile.Ingest
import KernalApi.Symbols.Servers
import KernalApi.Symbols.Lines
import KernalApi.Profile.Collapsed
import KernalApi.Http.Query
import KernalApi.Platform.Cmdline
import KernalApi.Profile.Tasks
import KernalApi.Hash.Reader
import KernalApi.Platform.Dacl
import KernalApi.Platform.FileTime
import KernalApi.Symbols.DebugLink
