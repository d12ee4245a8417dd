import Dtn.Proof.Bp7.Reencode
import Dtn.Proof.Bp7.Hostile
import Dtn.Proof.Tcpcl.Wire
import Dtn.Proof.Tcpcl.Segments
import Dtn.Proof.Tcpcl.Buffer
import Dtn.Proof.Tcpcl.Handshake
import Dtn.Proof.Tcpcl.Tls
import Dtn.Proof.Tcpcl.Items
import Dtn.Proof.Bp7.HopLimit
import Dtn.Proof.Bp7.Records
import Dtn.Proof.Dtrd.Requests
import Dtn.Proof.Dtrd.Frame
import Dtn.Proof.Dtrd.Identity
import Dtn.Proof.Dtrd.Directory
import Dtn.Proof.Dtrd.Startup
import Dtn.Proof.Dtrd.Routes
import Dtn.Proof.Dtrd.Listeners
import Dtn.Proof.Dtrd.Commands
import Dtn.Proof.Dtrd.Peers
import Dtn.Proof.Replistore.Listing
import Dtn.Proof.Replistore.Versions
import Dtn.Proof.Replistore.Replication
import Dtn.Proof.Replistore.Creation
import Dtn.Proof.Dtrd.Rejoin
import Dtn.Proof.Dtrd.Stranded
import Dtn.Proof.Dtrd.NodeIds
