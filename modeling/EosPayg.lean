import EosPayg.WordArithmetic
import EosPayg.GuardedRun
import EosPayg.ErrorBudget
import EosPayg.RecordList
import EosPayg.PaygCodes
import EosPayg.CodeAcceptance
import EosPayg.CodeStrings
import EosPayg.MultiTask
import EosPayg.TaskValues
import EosPayg.ProviderLoader
import EosPayg.ProviderSelection
import EosPayg.ManagerState
import EosPayg.ManagerCode
import EosPayg.TokenLedger
import EosPayg.SlidingWindow
import EosPayg.CodeLedger
import EosPayg.AddCodeOutcome
import EosPayg.RateLimit
import EosPayg.ManagerFiles
import EosPayg.MachineRuns
import EosPayg.CreditBalance
import EosPayg.PermanentUnlock
import EosPayg.SaveCrash
import EosPayg.ManagerService
import EosPayg.PeriodicTimer
import EosPayg.ExpiryTimer
import EosPayg.SaveQueue
import EosPayg.SaveProgress
import EosPayg.Shutdown
import EosPayg.ShutdownDurability
import EosPayg.LoadCallback
import EosPayg.Initialisation
import EosPayg.InitTask
import EosPayg.InitProgress
import EosPayg.HardwareClock
import EosPayg.InitFault
import EosPayg.Startup
import EosPayg.EfiVariables
import EosPayg.RootPivot
import EosPayg.SlotArray
import EosPayg.DryRunStore
import EosPayg.SecurityLevel
import EosPayg.ProvisioningCsv
import EosPayg.FactoryCodes
import EosPayg.BulkCodes
import EosPayg.Lifecycle
import EosPayg.ShutdownRefinement
import EosPayg.ShutdownRequests
import EosPayg.ShutdownRendezvous
import EosPayg.RateLimitEnd
import EosPayg.InitOutcome
import EosPayg.ExpiryLoad
import EosPayg.ExpiryDecision
import EosPayg.ServiceShutdown
import EosPayg.ShutdownTimer
import EosPayg.Clocks
import EosPayg.SaveReload
import EosPayg.LegacyMigration
import EosPayg.ClientProperties
import EosPayg.SelfHealing
import EosPayg.ServiceStartup
import EosPayg.ServiceOutcome
import EosPayg.ManagerEnabled
import EosPayg.DebugFlags
import EosPayg.DaemonMain
import EosPayg.DaemonEnd
import EosPayg.DaemonWatch
import EosPayg.DaemonEfi
import EosPayg.DaemonBoots
import EosPayg.BrokenDownTime
import EosPayg.HardwareClockUpdate
import EosPayg.SheetRedeemed
import EosPayg.PaidTime
import EosPayg.ShutdownNotice
import EosPayg.PowerOff
import EosPayg.Guessing
import EosPayg.EarlyGuesses
import EosPayg.EfiListing
import EosPayg.ClockCorrections
import EosPayg.JumpSource
import EosPayg.FairMeter
import EosPayg.ProvisioningRuns
import EosPayg.ProvisionedDevice
