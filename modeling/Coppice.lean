import Coppice.Collections.Additions
import Coppice.CrossPoint.Protocol
import Coppice.Ingest.Approved
import Coppice.Ingest.Coordinator
import Coppice.Ingest.Ownership
import Coppice.Ingest.Pending
import Coppice.Ingest.Progress
import Coppice.Kepub.Archive
import Coppice.Kepub.CacheKey
import Coppice.Kepub.Forest
import Coppice.Kepub.Serialize
import Coppice.Kindle.Links
import Coppice.Kindle.Navigation
import Coppice.Kobo.Entitlements
import Coppice.Kobo.Paging
import Coppice.Kobo.Shelves
import Coppice.Kobo.Windows
import Coppice.LiseurSync.Completeness
import Coppice.LiseurSync.Identity
import Coppice.LiseurSync.Pairing
import Coppice.LiseurSync.Placement
import Coppice.LiseurSync.Settings
import Coppice.LiseurSync.Stored
import Coppice.LiseurSync.Sweep
import Coppice.Models.ChapterMap
import Coppice.Models.Provenance
import Coppice.Provider.Identity
import Coppice.Provider.Verification
import Coppice.Server.Streams
import Coppice.Watcher.Listener
import Coppice.Worker.Manifest
