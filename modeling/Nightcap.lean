import Nightcap.Jni.RoundTrip
import Nightcap.Cookies.Restart
import Nightcap.Session.Present
import Nightcap.Payload.Publication
import Nightcap.Payload.Staging
import Nightcap.Graphics.EtcRefinement
import Nightcap.Text.Safety
import Nightcap.Text.DisplaySafety
import Nightcap.Input.Balance
import Nightcap.Launch.Fifo
import Nightcap.Audio.Accounting
import Nightcap.Payload.Retention
import Nightcap.Payload.AssetSound
import Nightcap.Launch.RequestRoundTrip
import Nightcap.Launch.UriSecrecy
import Nightcap.Window.CaptureSafety
import Nightcap.Compat.RwlockSafety
import Nightcap.Compat.PthreadKeySafety
import Nightcap.Audio.FmodJavaSafety
import Nightcap.Graphics.EtcDispatchSafety
import Nightcap.Compat.SemaphoreSafety
import Nightcap.Window.TextInputSafety
import Nightcap.Graphics.EtcBudgetSafety
import Nightcap.WebView.BridgeSafety
import Nightcap.Window.SurfaceSafety
import Nightcap.Update.CoordinatorSafety
import Nightcap.Config.EditorSafety
import Nightcap.Graphics.EtcBounds
import Nightcap.Graphics.EtcEquivalence
import Nightcap.Graphics.ResampleBoxes
import Nightcap.Update.ManifestSafety
import Nightcap.Update.ApkSafety
import Nightcap.Update.ZipSafety
import Nightcap.WebView.HelperDelivery
import Nightcap.Cookies.Startup
import Nightcap.Compat.BionicSocketSafety
import Nightcap.Update.Aps2Safety
import Nightcap.Graphics.EtcLevels
import Nightcap.Graphics.EtcGpuLayout
import Nightcap.Update.SignatureSafety
import Nightcap.Graphics.EtcKeptBlocks
import Nightcap.Launch.Utf8Check
import Nightcap.Jni.LocalStorageSafety
import Nightcap.Update.Derivations
import Nightcap.Update.ApkContent
import Nightcap.Jni.ReferenceCounts
import Nightcap.Update.DownloadResult
import Nightcap.Jni.Reachability
import Nightcap.Graphics.LodSafety
import Nightcap.Graphics.TopLevelsSafety
import Nightcap.Graphics.EtcReplaySafety
import Nightcap.Graphics.EtcOrders
