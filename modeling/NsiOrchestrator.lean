import NsiOrchestrator.Auth
import NsiOrchestrator.Ero.Monotone
import NsiOrchestrator.Ero.RouteLength
import NsiOrchestrator.Ero.Stps
import NsiOrchestrator.Ero.Symmetry
import NsiOrchestrator.Ero.Turns
import NsiOrchestrator.Ero.Walks
import NsiOrchestrator.Forms.Booking
import NsiOrchestrator.Forms.Choices
import NsiOrchestrator.Forms.Claimed
import NsiOrchestrator.Forms.Connection
import NsiOrchestrator.Forms.Fields
import NsiOrchestrator.Forms.Generators
import NsiOrchestrator.Forms.Offered
import NsiOrchestrator.Forms.Pinning
import NsiOrchestrator.Forms.Relaxed
import NsiOrchestrator.Forms.Retry
import NsiOrchestrator.Forms.SdpVlans
import NsiOrchestrator.Forms.Topology
import NsiOrchestrator.Lib.Dict
import NsiOrchestrator.Lib.Grouping
import NsiOrchestrator.Lib.HeldOnce
import NsiOrchestrator.Lib.Outcome
import NsiOrchestrator.Lib.Pattern
import NsiOrchestrator.Lib.Repr
import NsiOrchestrator.Lib.Runs
import NsiOrchestrator.Lib.Search
import NsiOrchestrator.Lib.SearchLoop
import NsiOrchestrator.Lib.SetOrder
import NsiOrchestrator.Lib.Text
import NsiOrchestrator.Lib.Transition
import NsiOrchestrator.Mdp2p.Aggregator
import NsiOrchestrator.Mdp2p.Booking
import NsiOrchestrator.Mdp2p.Closing
import NsiOrchestrator.Mdp2p.Estate
import NsiOrchestrator.Mdp2p.Fleet
import NsiOrchestrator.Mdp2p.Fsm
import NsiOrchestrator.Mdp2p.Lifecycle
import NsiOrchestrator.Mdp2p.Placing
import NsiOrchestrator.Mdp2p.Reporting
import NsiOrchestrator.Mdp2p.Reserve
import NsiOrchestrator.Mdp2p.Retry
import NsiOrchestrator.Mdp2p.Steps
import NsiOrchestrator.Mdp2p.Storing
import NsiOrchestrator.Mdp2p.Stranding
import NsiOrchestrator.Mdp2p.Tracking
import NsiOrchestrator.Mdp2p.Validate
import NsiOrchestrator.Mdp2p.Workflows
import NsiOrchestrator.Products
import NsiOrchestrator.Py
import NsiOrchestrator.Sdps.Validate
import NsiOrchestrator.Stps.Reconcile
import NsiOrchestrator.Stps.Validate
import NsiOrchestrator.Subscriptions.Creates
import NsiOrchestrator.Subscriptions.Inventory
import NsiOrchestrator.Subscriptions.Links
import NsiOrchestrator.Subscriptions.Loaded
import NsiOrchestrator.Subscriptions.Table
import NsiOrchestrator.Subscriptions.Validate
import NsiOrchestrator.Tasks.Drift
import NsiOrchestrator.Tasks.Findings
import NsiOrchestrator.Tasks.Reservations
import NsiOrchestrator.Tasks.Upas
import NsiOrchestrator.Vlans.Attribution
import NsiOrchestrator.Vlans.Codec
import NsiOrchestrator.Vlans.Grouping
import NsiOrchestrator.Vlans.Held
import NsiOrchestrator.Vlans.Label
import NsiOrchestrator.Vlans.Ranges
import NsiOrchestrator.Vlans.Stored
