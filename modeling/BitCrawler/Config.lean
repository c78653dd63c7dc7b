import BitCrawler.Store

/-! # Configuration and the library functions `crawl.py` calls

`Conf` is the part of `CONF` (filled by `init_conf`) that the modelled functions read. The
keys no modelled function reads (`logfile`, `magic_number`, `db`, `debug`, `source_address`,
`protocol_version`, `user_agent`, `services`, `relay`, `crawl_dir`, `cron_delay`,
`snapshot_delay`, `workers`) are left out: the model has no clock and no files, and the number
of workers is the length of the system's worker list. The TTLs `addr_ttl`, `addr_ttl_var` and
`max_age` are read only for whether Redis accepts them: when a key expires is left to the
store's own steps.

`Lib` collects what `crawl.py` takes from outside the repository's source: Python's
`ipaddress` and `socket` address parsing, the Unicode table `repr` uses, `utils.ip_to_network`
and `protocol.TO_SERVICES`. Every result below holds for every `Lib`.
-/

namespace BitCrawler
set_option autoImplicit false

/-- A compiled exclusion rule list of one family: `(int(network_address), int(netmask))`. -/
abbrev Rules := List (Nat × Nat)

/-- The number of bits of an address of the family: 128 for IPv6, 32 for IPv4. -/
def addrBits (v6 : Bool) : Nat := if v6 then 128 else 32

/-- A network `ip_network` returns: its family, its prefix length, and its network address,
whose host bits are zero (`ip_network` is strict). -/
structure IpNetwork where
  v6 : Bool
  prefixlen : Nat
  address : Nat
  prefixlen_le : prefixlen ≤ addrBits v6
  address_lt : address < 2 ^ addrBits v6
  host_bits : address % 2 ^ (addrBits v6 - prefixlen) = 0

/-- `int(network.netmask)`: the top `prefixlen` bits of the family's width. -/
def IpNetwork.netmask (n : IpNetwork) : Nat := 2 ^ addrBits n.v6 - 2 ^ (addrBits n.v6 - n.prefixlen)

/-- `(int(network.network_address), int(network.netmask))`, the pair `list_excluded_networks`
stores for a network. -/
def IpNetwork.pair (n : IpNetwork) : Nat × Nat := (n.address, n.netmask)

/-- The configuration values the modelled functions read. -/
structure Conf where
  /-- `port`: the network's default port. -/
  port : Nat
  /-- `max_nodes`: with this many reachable nodes every worker asks for mempools. -/
  maxNodes : Nat
  /-- `socket_timeout`: also the number of polls `getaddr` waits for. -/
  socketTimeout : Nat
  /-- `max_age`: the oldest peer timestamp `get_peers` keeps, in seconds, and the TTL of the
  `height:*` and `version:*` keys. -/
  maxAge : Int
  /-- `addr_ttl` and `addr_ttl_var`: the TTL of a `peer:*` key and its random percentage. -/
  addrTtl : Int
  addrTtlVar : Int
  peersPerNode : Nat
  ipv6 : Bool
  ipv6Prefix : Nat
  nodesPerIpv6Prefix : Nat
  /-- The text of `exclude_ipv4_networks` and `exclude_ipv6_networks`. -/
  excludeIpv4Networks : String
  excludeIpv6Networks : String
  excludeIpv4BogonsFromUrls : List String
  excludeIpv6BogonsFromUrls : List String
  /-- `exclude_ipv4_networks_from_url`; the empty string when unset. -/
  excludeIpv4NetworksFromUrl : String
  excludeIpv6NetworksFromUrl : String
  onion : Bool
  torProxies : List (String × Nat)
  onionNodes : List String
  includeChecked : Bool
  seeders : List String

/-- The functions `crawl.py` imports from outside the repository's source. -/
structure Lib where
  /-- Python's `Py_UNICODE_ISPRINTABLE`, which decides how `repr` writes a character. -/
  printable : Char → Bool
  /-- `ip_address(a).is_private`; `none` when `ip_address` raises `ValueError`. -/
  isPrivate : String → Option Bool
  /-- `int(hexlify(socket.inet_pton(AF_INET, a)), 16)`; `none` when `inet_pton` raises. -/
  inetPton4 : String → Option Nat
  /-- The same for `AF_INET6`. -/
  inetPton6 : String → Option Nat
  /-- `ip_network(line)`; `none` on `ValueError`. -/
  ipNetwork : String → Option IpNetwork
  /-- `utils.ip_to_network(address, prefix)`. -/
  ipToNetwork : String → Nat → String
  /-- `protocol.TO_SERVICES`. -/
  toServices : Nat

end BitCrawler
