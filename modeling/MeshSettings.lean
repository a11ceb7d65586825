import MeshSettings.Foundation.Bytes
import MeshSettings.Foundation.Store
import MeshSettings.Foundation.Slots
import MeshSettings.Foundation.Tables
import MeshSettings.Records
import MeshSettings.Runtime
import MeshSettings.State
import MeshSettings.Save
import MeshSettings.KeyUpdates
import MeshSettings.KeyRefinement
import MeshSettings.NodeUpdates
import MeshSettings.Pending
import MeshSettings.Load
import MeshSettings.RoundTrip
import MeshSettings.Labels
import MeshSettings.Seq
import MeshSettings.Refusals
import MeshSettings.RecordKeys
import MeshSettings.LoadView
import MeshSettings.LoadRefinement
import MeshSettings.LoadOrder
import MeshSettings.Tracker
import MeshSettings.RplStore
import MeshSettings.LoadSafety
import MeshSettings.Footprint
import MeshSettings.ModelData
import MeshSettings.ModelDataLoad
