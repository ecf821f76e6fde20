import Xlibre.Dix.Resource.ReentrantClient
import Xlibre.Dix.Colormap.NextBits
import Xlibre.Dix.Colormap.SharedRun
import Xlibre.Record.Lists
import Xlibre.Dix.Grabs.Range
import Xlibre.Dix.Crossing.FocusChanges
import Xlibre.Dix.Freeze.Queue
import Xlibre.Mi.CopyRegion
import Xlibre.Mi.EventFifo
import Xlibre.Xinput.WellFormed
import Xlibre.Xinput.CombinedSteps
import Xlibre.Os.Session
import Xlibre.Dix.Region.Stack
import Xlibre.Dix.Atom.Intern
import Xlibre.Dix.Touch.Unique
import Xlibre.Dix.Touch.Listeners
import Xlibre.Os.Timer.Runs
import Xlibre.Xf86.Linear.Divided
import Xlibre.Exa.Defragment
import Xlibre.Dix.Pointer.Crowd
import Xlibre.Xf86.Areas.Partition
import Xlibre.Xkb.Buttons
import Xlibre.Xkb.GroupRuns
import Xlibre.Xinput.ButtonCounts
import Xlibre.Dix.Colormap.Complete
import Xlibre.Mi.Poly.Runs
import Xlibre.Present.TargetMsc
import Xlibre.Dix.Region.FromRects
import Xlibre.Dix.Resource.XidSpace
import Xlibre.Os.Reset
import Xlibre.Sync.Wakeups
import Xlibre.Sync.FailedChange
import Xlibre.Sync.FireOnce
import Xlibre.Present.FenceTriggers
import Xlibre.Dix.Window.Circulate
import Xlibre.Xkb.GetMap
import Xlibre.Xkb.ClearAll
import Xlibre.Dix.Pointer.History
import Xlibre.Xkb.Indicators
import Xlibre.Xkb.Pools
import Xlibre.Xkb.CompatChanges
import Xlibre.Fb.Tile
import Xlibre.Fb.BltOne
import Xlibre.Dix.Property
import Xlibre.Xkb.CoreTrip
import Xlibre.Dix.Schedule
import Xlibre.Fb.Segment
