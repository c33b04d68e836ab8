import LiveCache.Blocking
import LiveCache.Fault.Catalogue
import LiveCache.Inspection
import LiveCache.Session.Run
import LiveCache.Settings.Adjustment
import LiveCache.Testing.Trial
import LiveCache.Proofs.Entry.Soundness
import LiveCache.Proofs.Cache.Parts
import LiveCache.Proofs.Cache.Coherence
import LiveCache.Proofs.Cache.Course
import LiveCache.Proofs.Cache.Passage
import LiveCache.Proofs.Cache.Freshness
import LiveCache.Proofs.Entry.Lateness
import LiveCache.Proofs.Entry.Memory
import LiveCache.Proofs.Entry.Publication
import LiveCache.Proofs.Timed.Arming
import LiveCache.Proofs.Timed.Coalescing
import LiveCache.Proofs.Session.Commands
import LiveCache.Proofs.Session.Polls
import LiveCache.Proofs.Timed.Cancelling
import LiveCache.Proofs.Timed.Observing
import LiveCache.Proofs.Timed.Firing
import LiveCache.Proofs.Cache.Perusal
import LiveCache.Proofs.Timed.Rereading
import LiveCache.Proofs.Cache.Holders
import LiveCache.Proofs.Cache.Sweeping
import LiveCache.Proofs.Guise.Cache
import LiveCache.Proofs.Guise.Run
import LiveCache.Proofs.Timed.Counting
import LiveCache.Proofs.Session.Holding
import LiveCache.Proofs.Session.Policies
import LiveCache.Proofs.Session.Retention
import LiveCache.Proofs.Session.Ending
import LiveCache.Proofs.Session.Books
import LiveCache.Proofs.Transparency.Run
import LiveCache.Proofs.Blocking.Refinement
import LiveCache.Proofs.Timed.Deliveries
import LiveCache.Proofs.Timed.Waits
import LiveCache.Proofs.Timed.Filled
import LiveCache.Proofs.Timed.Paths
import LiveCache.Proofs.Cache.Apart
import LiveCache.Proofs.Cache.Commuting
import LiveCache.Proofs.Entry.Surplus
import LiveCache.Proofs.Cache.Excess
import LiveCache.Proofs.Timed.Reactions
import LiveCache.Proofs.Timed.Expiring
import LiveCache.Proofs.Entry.Resting
import LiveCache.Proofs.Timed.Lookups
import LiveCache.Proofs.Session.Logging
import LiveCache.Proofs.Session.Panics
