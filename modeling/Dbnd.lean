import Dbnd.Tracking.Python
import Dbnd.Tracking.TryRunHandler
import Dbnd.Tracking.Composite
import Dbnd.Tracking.Dispatch
import Dbnd.Tracking.Invoke
import Dbnd.Tracking.FanOut
import Dbnd.Tracking.Run
import Dbnd.Tracking.Isolation
import Dbnd.Tracking.Budget
import Dbnd.Plugin.Registry
