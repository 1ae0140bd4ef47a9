import Casewise.Main
import Casewise.Proofs.Names
import Casewise.Proofs.Rows
import Casewise.Proofs.Expansion
import Casewise.Proofs.Injection
import Casewise.Proofs.History
import Casewise.Proofs.Building
import Casewise.Proofs.Outcome
import Casewise.Proofs.Reading
import Casewise.Proofs.Repeats
import Casewise.Proofs.JsonText
import Casewise.Proofs.RoundTrip
import Casewise.Proofs.Discovery
import Casewise.Proofs.Violations
import Casewise.Proofs.IndentedText
import Casewise.Proofs.Policies
import Casewise.Proofs.Commands
import Casewise.Proofs.Joining
import Casewise.Proofs.Lookup
import Casewise.Proofs.Independence
import Casewise.Proofs.Siblings
import Casewise.Proofs.Paths
import Casewise.Proofs.Warnings
import Casewise.Proofs.Trees
import Casewise.Proofs.DataFiles
import Casewise.Proofs.Checking
import Casewise.Proofs.Rendering
import Casewise.Proofs.Members
import Casewise.Proofs.Printable
import Casewise.Proofs.Listings
