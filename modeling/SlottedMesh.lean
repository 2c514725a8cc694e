import SlottedMesh.Main
import SlottedMesh.Proofs.Radio.Order
import SlottedMesh.Proofs.Radio.Answers
import SlottedMesh.Proofs.Radio.Holding
import SlottedMesh.Proofs.Schedule.Table
import SlottedMesh.Proofs.Schedule.WellFormed
import SlottedMesh.Proofs.Schedule.CellMap
import SlottedMesh.Proofs.Time.Elapsed
import SlottedMesh.Proofs.Routing.Table
import SlottedMesh.Proofs.Cells.Sweep
import SlottedMesh.Proofs.Cells.Merge
import SlottedMesh.Proofs.Cells.Events
import SlottedMesh.Proofs.Cells.Layout
import SlottedMesh.Proofs.Cells.Orderly
import SlottedMesh.Proofs.Cells.Lent
import SlottedMesh.Proofs.Cells.Persistence
import SlottedMesh.Proofs.Schedule.Current
import SlottedMesh.Proofs.Cells.Rendezvous
import SlottedMesh.Proofs.Station.Run
import SlottedMesh.Proofs.Station.LeaseLifetime
import SlottedMesh.Proofs.Routing.Choice
import SlottedMesh.Proofs.Routing.Standing
import SlottedMesh.Proofs.Station.Routing
import SlottedMesh.Proofs.Text.Numeral
import SlottedMesh.Proofs.Cells.Permanent
import SlottedMesh.Proofs.Cells.Beacons
import SlottedMesh.Proofs.Station.Calls
import SlottedMesh.Proofs.Station.Beacons
import SlottedMesh.Proofs.Checked.Arithmetic
import SlottedMesh.Proofs.Checked.Lookup
import SlottedMesh.Proofs.Checked.Routing
import SlottedMesh.Proofs.Checked.Gate
import SlottedMesh.Proofs.Checked.Schedule
import SlottedMesh.Proofs.Checked.Planner
import SlottedMesh.Proofs.Checked.Station
import SlottedMesh.Proofs.Schedule.Rotation
import SlottedMesh.Proofs.Cells.Dedicated
import SlottedMesh.Proofs.Cells.InitialCells
import SlottedMesh.Proofs.Routing.LoopFree
import SlottedMesh.Proofs.Settings.Sound
import SlottedMesh.Proofs.Station.BringUp
import SlottedMesh.Proofs.Time.Separation
import SlottedMesh.Proofs.Cells.Pruning
import SlottedMesh.Proofs.Schedule.Handles
import SlottedMesh.Proofs.Station.Idle
import SlottedMesh.Proofs.Station.Trials
import SlottedMesh.Proofs.Schedule.Extensional
import SlottedMesh.Proofs.Routing.Hysteresis
import SlottedMesh.Proofs.Cells.Sweeps
import SlottedMesh.Proofs.Cells.Packets
import SlottedMesh.Proofs.Cells.Combined
import SlottedMesh.Proofs.Cells.Visits
import SlottedMesh.Proofs.Cells.Commuting
import SlottedMesh.Proofs.Routing.Ties
import SlottedMesh.Proofs.Routing.Stability
import SlottedMesh.Proofs.Schedule.Turns
import SlottedMesh.Proofs.Cells.FixedLinks
import SlottedMesh.Proofs.Cells.Moves
import SlottedMesh.Proofs.Cells.Peers
import SlottedMesh.Proofs.Station.Statistics
import SlottedMesh.Proofs.Routing.Feedback
import SlottedMesh.Proofs.Routing.LossRank
import SlottedMesh.Proofs.Routing.Rounding
import SlottedMesh.Proofs.Routing.PathCost
import SlottedMesh.Proofs.Routing.Average
import SlottedMesh.Proofs.Routing.Convergence
import SlottedMesh.Proofs.Routing.Merit
import SlottedMesh.Proofs.Time.Walk
import SlottedMesh.Proofs.Time.WholeSlots
import SlottedMesh.Proofs.Text.Pieces
import SlottedMesh.Proofs.Identity.AddressText
