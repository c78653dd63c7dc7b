import BitCrawler.Python.Text
import BitCrawler.Python.Literal
import BitCrawler.Store
import BitCrawler.Config
import BitCrawler.Exclusion
import BitCrawler.Peers
import BitCrawler.Keys
import BitCrawler.System.State
import BitCrawler.System.Worker
import BitCrawler.System.Master
import BitCrawler.System.Run
import BitCrawler.Passes
import BitCrawler.Mempool
import BitCrawler.Naming
import BitCrawler.Rules
import BitCrawler.RuleMatch
import BitCrawler.PeerCache
import BitCrawler.Failures
import BitCrawler.Stored
import BitCrawler.Raises
import BitCrawler.History
import BitCrawler.UpKeys
