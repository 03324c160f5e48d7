import Holo.Changer.Crash
import Holo.Control.Lease
import Holo.Drive.MarkSpacing
import Holo.Drive.ModeSelect
import Holo.Drive.NexusAccess
import Holo.Shared.Usage
import Holo.Storage.LayoutRuns
import Holo.Storage.LookupRuns
import Holo.Storage.Parts
import Holo.Storage.RecordIndex
import Holo.Storage.RefCounts
import Holo.Storage.SegmentRuns
import Holo.Storage.SegmentScan
import Holo.Storage.SpaceRuns
import Holo.Tape.Overwrite
import Holo.Tape.RoundTrip
import Holo.Wire.Retry
import Holo.Wire.Ring
