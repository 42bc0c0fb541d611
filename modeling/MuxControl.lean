import MuxControl.Main
import MuxControl.Service.Client
import MuxControl.Service.Signal
import MuxControl.Proofs.HandoffHistory
import MuxControl.Proofs.ServiceRun
import MuxControl.Proofs.LiveDocument
import MuxControl.Proofs.RosterHistory
import MuxControl.Proofs.HealthHistory
import MuxControl.Proofs.ServerStatus
import MuxControl.Proofs.OverlappingRestarts
import MuxControl.Proofs.WireLines
import MuxControl.Proofs.CompactLine
import MuxControl.Proofs.RosterRenders
import MuxControl.Proofs.SessionErrand
import MuxControl.Proofs.SessionTransaction
import MuxControl.Proofs.HealthPolling
import MuxControl.Proofs.NumberText
import MuxControl.Proofs.Rounding
import MuxControl.Proofs.FloatText
import MuxControl.Proofs.ReadBack
import MuxControl.Proofs.ReadShape
import MuxControl.Proofs.DocumentRoundTrip
import MuxControl.Proofs.TextLines
import MuxControl.Proofs.DocumentSessions
import MuxControl.Proofs.DocumentPath
import MuxControl.Proofs.ReplyFraming
import MuxControl.Proofs.LateRetirement
import MuxControl.Proofs.ServerEffects
import MuxControl.Proofs.ListeningPort
import MuxControl.Proofs.LifecycleFrame
import MuxControl.Proofs.HotReload
import MuxControl.Proofs.LineFraming
import MuxControl.Proofs.RosterInputs
import MuxControl.Proofs.SelfListing
import MuxControl.Proofs.RosterActivity
import MuxControl.Proofs.BulkRender
import MuxControl.Proofs.RenderedValues
import MuxControl.Proofs.SessionCounts
import MuxControl.Proofs.VisitBalance
import MuxControl.Proofs.VisitBooks
import MuxControl.Proofs.HealthDecay
import MuxControl.Proofs.ForwardedChanges
import MuxControl.Proofs.ListedGauge
import MuxControl.Proofs.SpontaneousExit
import MuxControl.Proofs.ExitWhileStopping
import MuxControl.Proofs.ReadProgress
import MuxControl.Proofs.PeakLevels
import MuxControl.Proofs.DeadAir
import MuxControl.Proofs.PeakMetering
import MuxControl.Proofs.RestartSpacing
import MuxControl.Proofs.StopListeners
import MuxControl.Proofs.TableKeys
import MuxControl.Proofs.SettingsFields
import MuxControl.Proofs.PartialSettings
