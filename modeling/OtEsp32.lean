import OtEsp32.Lib.Lts
import OtEsp32.Lib.Nor
import OtEsp32.Lib.WrapClock
import OtEsp32.Platform
import OtEsp32.Flash
import OtEsp32.FlashCorrect
import OtEsp32.Alarm
import OtEsp32.AlarmRun
import OtEsp32.VfsEvent
import OtEsp32.EventSelect
import OtEsp32.Resources
import OtEsp32.PseudoReset
import OtEsp32.ApiLock
import OtEsp32.Mainloop
import OtEsp32.RadioLoop
import OtEsp32.MainloopSleep
import OtEsp32.HdlcWait
import OtEsp32.HdlcSend
import OtEsp32.EventCounter
import OtEsp32.DiagProcess
import OtEsp32.AlarmTimeout
import OtEsp32.UartReceive
import OtEsp32.UartSend
import OtEsp32.EventLinear
import OtEsp32.EventLive
import OtEsp32.LockRefine
import OtEsp32.MainloopLive
import OtEsp32.FlashRegions
import OtEsp32.LoopRuns
import OtEsp32.RunCli
import OtEsp32.HdlcTime
import OtEsp32.LineEndings
import OtEsp32.RadioDrain
import OtEsp32.AlarmLive
import OtEsp32.LoopRefine
