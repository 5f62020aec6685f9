import Pr2Ethercat.Attribution
import Pr2Ethercat.OobExchange
import Pr2Ethercat.Startup
import Pr2Ethercat.MonitorRuns
import Pr2Ethercat.Process
import Pr2Ethercat.Session
import Pr2Ethercat.Shutdown
import Pr2Ethercat.Windows
import Pr2Ethercat.CommandImage
import Pr2Ethercat.Current
import Pr2Ethercat.MonitorPointer
import Pr2Ethercat.MonitorReports
import Pr2Ethercat.Checksum
import Pr2Ethercat.Lib.PeriodicWait
import Pr2Ethercat.ThreadLoops
import Pr2Ethercat.Lib.Runs
import Pr2Ethercat.Threads
import Pr2Ethercat.Atomicity
import Pr2Ethercat.Stopping
import Pr2Ethercat.OobRetry
import Pr2Ethercat.OobService
import Pr2Ethercat.Boards
import Pr2Ethercat.CommandAge
import Pr2Ethercat.DrivenBoards
import Pr2Ethercat.LoopTiming
import Pr2Ethercat.ReportsReceived
import Pr2Ethercat.Lib.Codec
import Pr2Ethercat.NetworkOrder
import Pr2Ethercat.Lib.Scanner
import Pr2Ethercat.Console
import Pr2Ethercat.MotorsLeftOn
import Pr2Ethercat.Reinitialised
import Pr2Ethercat.ImageOverrun
import Pr2Ethercat.ProgramExit
