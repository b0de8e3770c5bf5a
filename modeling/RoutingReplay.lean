import RoutingReplay.Main
import RoutingReplay.Ospf.Database.Operation
import RoutingReplay.Ospf.Router.Operation
import RoutingReplay.Damping.Damper.Operation
import RoutingReplay.Proofs.Ospf.Lifecycle
import RoutingReplay.Proofs.Ospf.Flooding
import RoutingReplay.Proofs.Damping.Hysteresis
import RoutingReplay.Proofs.Damping.Transparency
import RoutingReplay.Proofs.Ospf.RecordView
import RoutingReplay.Proofs.Ospf.TimelyRefresh
import RoutingReplay.Proofs.Ospf.Freshness
import RoutingReplay.Proofs.Ospf.Areas
import RoutingReplay.Proofs.Replay.Refusal
import RoutingReplay.Proofs.Ospf.AreaView
import RoutingReplay.Proofs.Ospf.AreaTypes
import RoutingReplay.Proofs.Ospf.RouterRoles
import RoutingReplay.Proofs.Ospf.Redistribution
import RoutingReplay.Proofs.Ospf.Content
import RoutingReplay.Proofs.Ospf.Aging
import RoutingReplay.Proofs.Ospf.Refresh
import RoutingReplay.Proofs.Ospf.Reception
import RoutingReplay.Proofs.Replay.Independence
import RoutingReplay.Proofs.Ospf.SideBySide
import RoutingReplay.Proofs.Ospf.Ticks
import RoutingReplay.Proofs.Damping.Ceiling
import RoutingReplay.Proofs.Damping.ExactArithmetic
import RoutingReplay.Proofs.Damping.ReuseTime
import RoutingReplay.Proofs.Binary64.Rounding
import RoutingReplay.Proofs.Binary64.Magnitude
import RoutingReplay.Proofs.Binary64.Functions
import RoutingReplay.Proofs.Damping.ReuseRange
import RoutingReplay.Proofs.Damping.Isolation
import RoutingReplay.Proofs.Ospf.Isolation
import RoutingReplay.Proofs.Damping.PenaltyBounds
import RoutingReplay.Proofs.Replay.RoundTrip
import RoutingReplay.Proofs.Replay.ClockSteps
import RoutingReplay.Proofs.Damping.Coherence
import RoutingReplay.Proofs.Damping.Withdrawal
import RoutingReplay.Proofs.Damping.Purge
import RoutingReplay.Proofs.Ospf.TickCharges
import RoutingReplay.Proofs.Ospf.ChangeLog
import RoutingReplay.Proofs.Ospf.Views
import RoutingReplay.Proofs.Ospf.EventMirror
import RoutingReplay.Proofs.Replay.FlapTotals
