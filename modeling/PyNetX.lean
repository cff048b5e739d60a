import PyNetX.Basic
import PyNetX.EditConfig.Notification
import PyNetX.EditConfig.Devices
import PyNetX.EditConfig.Logged
import PyNetX.EditConfig.Calls
import PyNetX.EditConfig.Isolation
import PyNetX.GetMultiple.HealthCheck
import PyNetX.GetMultiple.Threads
import PyNetX.GetMultiple.Refinement
import PyNetX.GetMultiple.Sessions
import PyNetX.GetMultiple.Keys
import PyNetX.GetMultiple.Progress
import PyNetX.Get.Gather
