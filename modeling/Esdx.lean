import Esdx.GoClient.Goroutines
import Esdx.Market.Acceptance
import Esdx.Market.Binding
import Esdx.Market.BrokerCache
import Esdx.Market.Conflicts
import Esdx.Market.Derived
import Esdx.Market.Ledger
import Esdx.Market.Sealed
import Esdx.Market.Selling
import Esdx.Monitor.Agreement
import Esdx.Monitor.Counting
import Esdx.Monitor.PortFilter
import Esdx.Monitor.Totals
import Esdx.Monitor.Tracking
import Esdx.Reloader.File
import Esdx.Reloader.Locking
import Esdx.Reloader.Remotes
import Esdx.Util.AddressGrammar
import Esdx.Util.IaGrammar
import Esdx.Util.Unambiguous
