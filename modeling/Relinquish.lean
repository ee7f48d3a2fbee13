import Relinquish.Script.Play
import Relinquish.Proofs.Agreement
import Relinquish.Proofs.Enclosing
import Relinquish.Proofs.Unheard
import Relinquish.Proofs.Routes
import Relinquish.Proofs.Reactions
import Relinquish.Proofs.Origins
import Relinquish.Proofs.Adoption
import Relinquish.Proofs.Deadlocks
import Relinquish.Proofs.Causes
import Relinquish.Proofs.Heeding
import Relinquish.Proofs.Reporting
import Relinquish.Proofs.Exhaustion
import Relinquish.Proofs.Queues
import Relinquish.Proofs.Turns
import Relinquish.Proofs.Wrappings
import Relinquish.Proofs.Independence
import Relinquish.Proofs.Accessors
import Relinquish.Proofs.Settings
import Relinquish.Proofs.Typed
import Relinquish.Proofs.Guards
