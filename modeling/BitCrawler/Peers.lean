import BitCrawler.Exclusion

/-! # Peer lists: `getaddr`, `get_peers` and the peer cache

`getaddr` sends one `getaddr` request and then polls for replies; `get_peers` keeps the entries
of those replies that are recent, have an address and pass `is_excluded`; `get_cached_peers`
stores that list under `peer:<address>-<port>` with `str` and reads it back with `eval`.
Everything the peer sends, and when, is input: the polls' answers are a list.
-/

namespace BitCrawler
set_option autoImplicit false
open Python

/-- One entry of an `addr` or `addrv2` message, as the codec decodes it. -/
structure PeerEntry where
  timestamp : Int
  ipv4 : String
  ipv6 : String
  onion : String
  port : Nat
  services : Nat
  deriving DecidableEq, Repr

/-- One message of `conn.get_messages`: its `count` and, when present, its `addr_list`. -/
structure AddrMsg where
  count : Nat
  addrList : Option (List PeerEntry)
  deriving DecidableEq, Repr

/-- The wait loop of `getaddr`: at most `n` polls, each answered by the messages it returned,
or by `none` when `get_messages` raised. Polls past the end of the list return nothing. -/
def pollAddr : Nat → List (Option (List AddrMsg)) → List AddrMsg
  | 0, _ => []
  | _ + 1, [] => []
  | _ + 1, none :: _ => []
  | n + 1, some msgs :: polls =>
    if msgs ≠ [] ∧ msgs.any (·.count > 1) then msgs else pollAddr n polls

/-- `getaddr(conn)`; `sent` says whether `conn.getaddr(block=False)` returned without raising. -/
def getaddr (conf : Conf) (sent : Bool) (polls : List (Option (List AddrMsg))) : List AddrMsg :=
  if sent then pollAddr conf.socketTimeout polls else []

/-- A peer as `get_peers` keeps it: `(address, port, services, timestamp)`. -/
abbrev Peer := String × Nat × Nat × Int

/-- `peer['ipv4'] or peer['ipv6'] or peer['onion']`. -/
def PeerEntry.address (p : PeerEntry) : String :=
  if p.ipv4 ≠ "" then p.ipv4 else if p.ipv6 ≠ "" then p.ipv6 else p.onion

/-- The tuple `get_peers` builds from an entry that passes the age check and has an address. -/
def candidate (conf : Conf) (now : Int) (p : PeerEntry) : Option Peer :=
  if now - p.timestamp < 0 ∨ now - p.timestamp > conf.maxAge then none
  else if p.address = "" then none
  else some (p.address, if p.port > 0 then p.port else conf.port, p.services, p.timestamp)

/-- The candidates of every message that has an `addr_list`, in order. -/
def candidates (conf : Conf) (now : Int) (msgs : List AddrMsg) : List Peer :=
  msgs.flatMap fun m => (m.addrList.getD []).filterMap (candidate conf now)

/-- The `is_excluded` loop of `get_peers`, with `excluded` the instance's `is_excluded`: the
addresses it evaluated with their answers, and the set of kept peers, or `none` once
`is_excluded` raised. -/
def keepPeers (excluded : String → Option Bool) :
    List Peer → List Peer → List (String × Bool) × Option (List Peer)
  | kept, [] => ([], some kept)
  | kept, p :: ps =>
    match excluded p.1 with
    | none => ([], none)
    | some true => ((p.1, true) :: (keepPeers excluded kept ps).1, (keepPeers excluded kept ps).2)
    | some false =>
      ((p.1, false) :: (keepPeers excluded (kept.insert p) ps).1,
        (keepPeers excluded (kept.insert p) ps).2)

/-- The end of `get_peers`: no peers when there are more than 1000, else the first
`peers_per_node`. -/
def capPeers (conf : Conf) (peers : List Peer) : List Peer :=
  (if peers.length > 1000 then [] else peers).take conf.peersPerNode

/-- The value `str(peers)` writes into the peer cache. -/
def peersValue (peers : List Peer) : Value :=
  .list (peers.map fun p => .tuple [.str p.1, .int p.2.1, .int p.2.2.1, .int p.2.2.2])

/-- An endpoint triple as the crawler queues it. -/
abbrev Triple := Atom × Atom × Atom

/-- `(address, port, services)` of a kept peer. -/
def peerTriple (p : Peer) : Triple := (.str p.1, .int p.2.1, .int p.2.2.1)

/-- The 4-tuples of a list read back from the cache, without their timestamps; `none` when an
element does not unpack into four. -/
def stripItems : List Item → Option (List Triple)
  | [] => some []
  | .tuple [a, b, c, _] :: xs => (stripItems xs).map ((a, b, c) :: ·)
  | _ :: _ => none

/-- The set comprehension of `get_cached_peers` over what it read back from the cache (a list or
a set of 4-tuples; anything else does not unpack). -/
def stripTimestamps : Value → Option (List Triple)
  | .list xs | .set xs => (stripItems xs).map fun ts => ts.foldl (fun acc t => acc.insert t) []
  | _ => none

/-- The same comprehension over the list `get_peers` just returned. -/
def stripPeers (peers : List Peer) : List Triple :=
  (peers.map peerTriple).foldl (fun acc t => acc.insert t) []

theorem stripTimestamps_peersValue (peers : List Peer) :
    stripTimestamps (peersValue peers) = some (stripPeers peers) := by
  have h : ∀ ps : List Peer, stripItems (ps.map fun p : Peer => Item.tuple [.str p.1, .int p.2.1,
      .int p.2.2.1, .int p.2.2.2]) = some (ps.map peerTriple) := by
    intro ps
    induction ps with
    | nil => rfl
    | cons p ps ih => simp [stripItems, ih, peerTriple]
  simp [stripTimestamps, peersValue, h, stripPeers]

end BitCrawler
