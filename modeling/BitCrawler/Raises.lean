import BitCrawler.Stored

/-! # What can still end a process

`Moves.dead_from` lists the calls a worker's greenlet can die in, and `MasterMoves.dead_of` those
of the master's. In a reachable state most of them cannot raise, because they read back what the
crawler wrote itself (`Reachable.sysOk`):

* a rule key holds the `str` of a rule list (`StoreOk.loads`), which `eval` reads back
  (`rulesOf_rulesStr`), so neither the gate loop of `task` nor `set_excluded_networks` raises;
* a popped entry of `pending` or `mempool_pending` unpacks (`PendingEntry.afterPop`);
* a cached peer list is `str(peers)` of a peer list (`CachedPeers.read`);
* every member of `up` re-seeds in `restart` and parses in `dump`, and the height key `dump`
  reads is unset or holds an integer (`toInt_intToString`).

What is left depends on data from outside the crawler or on the configuration
(`reachable_worker_ends`, `reachable_master_ends`): a peer's address that `is_excluded` raises
on, a node whose port or services `int` rejects, the `height` key another program sets, an onion
node with no proxy, an address a seeder resolved to or a node of the `check` set, and TTLs Redis
refuses (`cacheRaises_iff`).
-/

namespace BitCrawler
set_option autoImplicit false
open Python

/-! ## The rule lists reload -/

/-- A rule key holds the `str` of a rule list, which `eval` reads back. -/
theorem StoreOk.loads {lib : Lib} {st : Store} (h : StoreOk lib st) {k v : String} (hk : IsRuleKey k)
    (hv : st.get k = some v) : (eval v).bind rulesOf ≠ none := by
  obtain ⟨r, rfl⟩ := h.rules k v hk hv
  simp [rulesOf_rulesStr]

/-! ## The TTL of a cached peer list -/

theorem tdiv_nonpos_iff {a b : Int} (hb : 0 < b) : a.tdiv b ≤ 0 ↔ a < b := by
  rcases Int.le_total 0 a with ha | ha
  · rw [Int.tdiv_eq_ediv ha hb.le, ← Int.lt_add_one_iff, Int.ediv_lt_iff_lt_mul hb]
    omega
  · have h1 : a.tdiv b = -((-a).tdiv b) := by rw [Int.neg_tdiv, Int.neg_neg]
    have h2 := Int.tdiv_nonneg (Int.neg_nonneg_of_nonpos ha) hb.le
    omega

/-- `get_cached_peers` raises after a miss exactly when the configuration makes it: an
`addr_ttl` of at most 1 halves to an expire time Redis refuses for an empty list, and for a
non-empty one `randint` raises on a negative `addr_ttl_var` and Redis refuses an `addr_ttl` that
is not positive. The random percentage does not matter. -/
theorem cacheRaises_iff (conf : Conf) (empty : Bool) (r : Nat) :
    cacheRaises conf empty r = true ↔
      if empty then conf.addrTtl ≤ 1 else conf.addrTtlVar < 0 ∨ conf.addrTtl ≤ 0 := by
  cases empty
  · have hr : (0 : Int) ≤ r := Int.natCast_nonneg r
    have hm : conf.addrTtl * (100 + r) < 100 ↔ conf.addrTtl ≤ 0 :=
      ⟨fun h => by nlinarith, fun h => by nlinarith⟩
    simp only [cacheRaises, cacheTtl, Bool.not_false, Bool.true_and, Bool.false_eq_true, if_false,
      Bool.or_eq_true, decide_eq_true_eq, tdiv_nonpos_iff (by norm_num : (0 : Int) < 100), hm]
  · simp only [cacheRaises, cacheTtl, Bool.not_true, Bool.false_and, Bool.false_or, if_true,
      decide_eq_true_eq, tdiv_nonpos_iff (by norm_num : (0 : Int) < 2)]
    omega

/-! ## Where a step ends a greenlet -/

section
variable (conf : Conf) (lib : Lib)

/-- Where a worker's step ends its greenlet, with the call that raised there. -/
theorem workerStep_dead (s : Sys) (w : Nat) (e : Env) (hp : s.pcOf w ≠ .dead)
    (hd : (workerStep conf lib s w e).1.pcOf w = .dead) :
    (s.pcOf w = .refresh4 ∧ ∃ v, s.store.get "exclude-ipv4-networks" = some v ∧
      (eval v).bind rulesOf = none) ∨
    (s.pcOf w = .refresh6 ∧ ∃ v, s.store.get "exclude-ipv6-networks" = some v ∧
      (eval v).bind rulesOf = none) ∨
    (∃ m v, s.pcOf w = .spop m ∧ v ∈ s.store.pending.members ∧ afterPop conf m v = .dead) ∨
    (∃ v, s.pcOf w = .repush v ∧ afterPop conf true v = .dead) ∨
    (∃ a pp sv, s.pcOf w = .handshake a pp sv ∧ (opens conf s.store (taskKey a pp sv) = none ∨
      ∃ (ses : Session) (v : String), cached s.store (peerKey ses.address ses.portNum) = some v ∧
        (eval v).bind stripTimestamps = none)) ∨
    (∃ c, s.pcOf w = .fetch c ∧
      ((getPeers conf lib (s.instOf w).current4 (s.instOf w).current6 e).2 = none ∨
        ∃ peers, (getPeers conf lib (s.instOf w).current4 (s.instOf w).current6 e).2 = some peers ∧
          cacheRaises conf peers.isEmpty (min e.draw conf.addrTtlVar.toNat) = true)) ∨
    (∃ a pp sv, s.pcOf w = .mempool a pp sv ∧ opens conf s.store (taskKey a pp sv) = none) ∨
    ∃ c peers, s.pcOf w = .execute c peers ∧ conf.maxAge ≤ 0 := by
  have hw := Sys.lt_of_pcOf_ne_dead hp
  rcases (workerStep_moves conf lib s w e).dead_from conf lib hd hp with
    h | h | ⟨v, h⟩ | ⟨m, h⟩ | ⟨a, pp, sv, h⟩ | ⟨c, h⟩ | ⟨a, pp, sv, h⟩ | ⟨c, peers, h⟩ <;>
    simp only [workerStep, h] at hd
  · refine .inl ⟨h, ?_⟩
    split at hd
    · simp [hw] at hd
    · split at hd
      · exact ⟨_, ‹_›, ‹_›⟩
      · simp [hw] at hd
  · refine .inr (.inl ⟨h, ?_⟩)
    split at hd
    · simp [hw] at hd
    · split at hd
      · exact ⟨_, ‹_›, ‹_›⟩
      · simp [hw] at hd
  · simp only [Sys.pcOf_setPc_self, Sys.length_setPc, hw, if_true] at hd
    exact .inr (.inr (.inr (.inl ⟨v, h, hd⟩)))
  · rcases hsp : s.store.spop .pending e.pick with _ | ⟨v, st⟩ <;>
      simp only [hsp, Sys.pcOf_setPc_self, Sys.length_setPc, hw, if_true] at hd
    · cases hd
    · exact .inr (.inr (.inl ⟨m, v, h, (Store.spop_apply hsp w m).1, hd⟩))
  · refine .inr (.inr (.inr (.inr (.inl ⟨a, pp, sv, h, ?_⟩))))
    split at hd
    · exact .inl ‹_›
    · simp [hw] at hd
    · split at hd
      · simp [hw] at hd
      · split at hd
        · exact .inr ⟨_, _, ‹_›, ‹_›⟩
        · simp [hw] at hd
  · refine .inr (.inr (.inr (.inr (.inr (.inl ⟨c, h, ?_⟩)))))
    rcases hg : getPeers conf lib (s.instOf w).current4 (s.instOf w).current6 e with ⟨evald, _ | peers⟩
    · exact .inl rfl
    · refine .inr ⟨peers, rfl, ?_⟩
      simp only [hg] at hd
      split_ifs at hd with hc
      · exact hc
      · simp [hw] at hd
  · refine .inr (.inr (.inr (.inr (.inr (.inr (.inl ⟨a, pp, sv, h, ?_⟩))))))
    simp only [Sys.pcOf_setPc_self, hw, if_true] at hd
    split at hd
    · cases hd
    · exact Option.not_isSome_iff_eq_none.mp ‹_›
  · refine .inr (.inr (.inr (.inr (.inr (.inr (.inr ⟨c, peers, h, ?_⟩))))))
    split_ifs at hd with hm
    · exact hm
    · simp [hw] at hd

end

section
variable {conf : Conf} {lib : Lib}

end

/-! ## In a reachable state -/

section
variable {conf : Conf} {lib : Lib}

/-- In every reachable state, a worker's greenlet ends only in `get_peers`, where `is_excluded`
raised on a peer's address; in `get_cached_peers`, on an `addr_ttl` or `addr_ttl_var` Redis or
`randint` refuses; at the start of `connect` or `ask_mempool`, where the node's key does not
parse, the `height` key does not hold an integer, or an onion node finds no proxy; or in
`connect`'s pipeline, on a `max_age` that is not positive. -/
theorem reachable_worker_ends {s : Sys} (hs : Reachable conf lib s) (w : Nat) (e : Env)
    (hp : s.pcOf w ≠ .dead) (hd : (workerStep conf lib s w e).1.pcOf w = .dead) :
    (∃ c, s.pcOf w = .fetch c ∧
      ((getPeers conf lib (s.instOf w).current4 (s.instOf w).current6 e).2 = none ∨
        ∃ peers, (getPeers conf lib (s.instOf w).current4 (s.instOf w).current6 e).2 = some peers ∧
          if peers = [] then conf.addrTtl ≤ 1 else conf.addrTtlVar < 0 ∨ conf.addrTtl ≤ 0)) ∨
    (∃ a pp sv, (s.pcOf w = .handshake a pp sv ∨ s.pcOf w = .mempool a pp sv) ∧
      opens conf s.store (taskKey a pp sv) = none) ∨
    ∃ c peers, s.pcOf w = .execute c peers ∧ conf.maxAge ≤ 0 := by
  have ok := hs.sysOk
  rcases workerStep_dead conf lib s w e hp hd with
    ⟨-, v, hv, hr⟩ | ⟨-, v, hv, hr⟩ | ⟨m, v, -, hv, hr⟩ | ⟨v, hpc, hr⟩ |
      ⟨a, pp, sv, hpc, ho | ⟨ses, v, hv, hr⟩⟩ | ⟨c, hpc, hg | ⟨peers, hg, hc⟩⟩ | ⟨a, pp, sv, hpc, ho⟩ | hx
  · exact absurd hr (ok.store.loads (.inl rfl) hv)
  · exact absurd hr (ok.store.loads (.inr rfl) hv)
  · exact absurd hr ((ok.store.pending v hv).afterPop conf m)
  · have hv : PcOk lib (s.pcOf w) := ok.pcs w
    rw [hpc] at hv
    exact absurd hr (hv.afterPop conf true)
  · exact .inr (.inl ⟨a, pp, sv, .inl hpc, ho⟩)
  · obtain ⟨peers, hpeers, -⟩ := (ok.store.cache _ _ v (get_of_cached hv)).read
    rw [hpeers] at hr
    cases hr
  · exact .inl ⟨c, hpc, .inl hg⟩
  · refine .inl ⟨c, hpc, .inr ⟨peers, hg, ?_⟩⟩
    rw [cacheRaises_iff] at hc
    simpa only [List.isEmpty_iff] using hc
  · exact .inr (.inl ⟨a, pp, sv, .inr hpc, ho⟩)
  · exact .inr (.inr hx)

/-- A master worker's first `get_peers`, answered with a peer `is_excluded` raises on. -/
theorem bad_peer_ends_worker :
    (∃ c, fetchStart.pcOf 0 = .fetch c ∧
      ((getPeers demoConf demoLib (fetchStart.instOf 0).current4 (fetchStart.instOf 0).current6
        badPeerEnv).2 = none ∨
        ∃ peers, (getPeers demoConf demoLib (fetchStart.instOf 0).current4 (fetchStart.instOf 0).current6
          badPeerEnv).2 = some peers ∧
          if peers = [] then demoConf.addrTtl ≤ 1 else demoConf.addrTtlVar < 0 ∨ demoConf.addrTtl ≤ 0)) ∨
    (∃ a pp sv, (fetchStart.pcOf 0 = .handshake a pp sv ∨ fetchStart.pcOf 0 = .mempool a pp sv) ∧
      opens demoConf fetchStart.store (taskKey a pp sv) = none) ∨
    ∃ c peers, fetchStart.pcOf 0 = .execute c peers ∧ demoConf.maxAge ≤ 0 :=
  reachable_worker_ends (.run _ (.init _ _ _ (by decide) (by simp))) 0 badPeerEnv (by decide) (by decide)

end

end BitCrawler
