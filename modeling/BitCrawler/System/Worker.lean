import BitCrawler.System.State

/-! # One step of a worker

`task`, `connect`, `get_cached_peers`, `get_peers` and `ask_mempool`, cut at their store
commands. `workerStep` takes the worker from one command to the next; the parts of `task` that
decide where a popped entry goes are `afterPop` (`eval`, then the IPv6 and onion gates) and
`session` (after the claim check and the CIDR gate).

What a worker step can do is said once, in the last section: its writes are exactly its events
(`workerStep_store`), it changes no other process's program counter, and every event it
reports is one a worker can send (`WorkerEvent`). The properties of the system are derived from
these.
-/

namespace BitCrawler
set_option autoImplicit false
open Python

section
variable (conf : Conf) (lib : Lib)

/-! ## `task` -/

/-- `node = eval(node)` and the gates that skip IPv6 and onion nodes. A value that does not
index as `node[0]`, `node[1]`, `node[2]`, with a string first, raises. -/
def afterPop (mode : Bool) (entry : String) : Pc :=
  match (eval entry).bind entryNode with
  | none => .dead
  | some (a, p, s) =>
    if ':' ∈ a.data ∧ conf.ipv6 = false then .top
    else if endsWith a ".onion" = true ∧ conf.onion = false then .top
    else .claimCheck mode a p s

/-- The session a node that passed every gate gets: `ask_mempool` in mempool mode, `connect`
otherwise. -/
def session (mode : Bool) (a : String) (p s : Atom) : Pc :=
  if mode then .mempool a p s else .claim a p s

/-- `f'crawl:cidr:{ip_to_network(node[0], ipv6_prefix)}'`. -/
def cidrOf (a : String) : String := cidrKey (lib.ipToNetwork a conf.ipv6Prefix)

/-- `mempool_ask_mode = redis_conn.scard('up') >= CONF['max_nodes'] or` the coin. -/
def choose (s : Sys) (w : Nat) (e : Env) : Sys × List Event :=
  (s.setPc w (if decide (s.store.up.scard ≥ conf.maxNodes) || e.coin then .lpop else .spop false), [])

/-! ## `connect` and `ask_mempool` -/

/-- `random.choice(CONF['tor_proxies'])` raises on an onion node when no proxy is configured. -/
def proxyRaises (address : String) : Bool :=
  endsWith address ".onion" && conf.onion && conf.torProxies.isEmpty

/-- `height = redis_conn.get('height')` and `if height: height = int(height)` raises. -/
def heightRaises (st : Store) : Bool :=
  match st.get "height" with
  | some v => v ≠ "" && (toInt v).isNone
  | none => false

/-- The common start of `connect` and `ask_mempool`, up to the connection: the key taken apart,
or `none` where one of the steps raises. -/
def opens (st : Store) (key : String) : Option Session :=
  (sessionParse key).bind fun ses =>
    if heightRaises st || proxyRaises conf ses.address then none else some ses

/-- `peers = redis_conn.get(key)` and `if peers:` in `get_cached_peers`. -/
def cached (st : Store) (key : String) : Option String :=
  match st.get key with
  | some v => if v = "" then none else some v
  | none => none

/-- `get_peers(conn)` on an instance with the rule lists `r4`, `r6`: the `is_excluded` answers
it got, and the peers it returns, or `none` once `is_excluded` raised. -/
def getPeers (r4 r6 : Option Rules) (e : Env) : List (String × Bool) × Option (List Peer) :=
  let r := keepPeers (isExcluded lib r4 r6) [] (candidates conf e.now (getaddr conf e.sent e.polls))
  (r.1, r.2.map (capPeers conf))

/-- `int(ttl)` in `get_cached_peers` after a miss: `addr_ttl / 2` for an empty peer list,
otherwise `addr_ttl` raised by `r` percent, `r` being `random.randint(0, addr_ttl_var)`. The
float product is taken exactly; only whether it is positive matters below, and it is the same. -/
def cacheTtl (empty : Bool) (r : Nat) : Int :=
  if empty then conf.addrTtl.tdiv 2 else (conf.addrTtl * (100 + r)).tdiv 100

/-- `get_cached_peers` raises after `get_peers` returned: `random.randint(0, addr_ttl_var)` on
an empty range, or the `SET peer:* ex=int(ttl)` that Redis answers with an error for an
expire time that is not positive. -/
def cacheRaises (empty : Bool) (r : Nat) : Bool :=
  (!empty && decide (conf.addrTtlVar < 0)) || decide (cacheTtl conf empty r ≤ 0)

/-! ## The step -/

/-- One step of worker `w`: the next store command of `task` (or of the function it is in),
with the local work up to the command after it. `connect`'s pipeline sets the height and the
version keys with `ex=max_age`: for a `max_age` that is not positive Redis refuses those two,
runs the others, and `execute()` raises. -/
def workerStep (s : Sys) (w : Nat) (e : Env) : Sys × List Event :=
  match s.pcOf w with
  | .spawn | .dead => (s, [])
  | .top =>
    if (s.worker w).inst = 0 then choose conf s w e
    else
      (s.setPc w (if s.store.get "crawl:master:state" = some "running" then .choose else .refresh4),
        [])
  | .choose => choose conf s w e
  | .refresh4 =>
    match s.store.get "exclude-ipv4-networks" with
    | none => (s.setPc w .refresh6, [])
    | some v =>
      match (eval v).bind rulesOf with
      | none => (s.setPc w .dead, [])
      | some r =>
        ((s.setInst (s.worker w).inst fun x => { x with current4 := some r }).setPc w .refresh6, [])
  | .refresh6 =>
    match s.store.get "exclude-ipv6-networks" with
    | none => (s.setPc w .top, [])
    | some v =>
      match (eval v).bind rulesOf with
      | none => (s.setPc w .dead, [])
      | some r =>
        ((s.setInst (s.worker w).inst fun x => { x with current6 := some r }).setPc w .top, [])
  | .lpop =>
    match s.store.lpop .mempoolPending with
    | none => (s.setPc w (.spop true), [])
    | some (v, st) => ({ s with store := st }.setPc w (.repush v), [.lpop w v])
  | .repush v =>
    ({ s with store := s.store.lpush .mempoolPending v }.setPc w (afterPop conf true v),
      [.cmd (.worker w) (.lpush .mempoolPending v)])
  | .spop mode =>
    match s.store.spop .pending e.pick with
    | none => (s.setPc w .top, [])
    | some (v, st) => ({ s with store := st }.setPc w (afterPop conf mode v), [.spop w mode v])
  | .claimCheck mode a p sv =>
    if s.store.exists (taskKey a p sv) = true ∧ mode = false then
      (s.setPc w .top, [.exists w (taskKey a p sv) (s.store.exists (taskKey a p sv))])
    else if ':' ∈ a.data ∧ conf.ipv6Prefix < 128 then
      (s.setPc w (.cidr mode a p sv), [.exists w (taskKey a p sv) (s.store.exists (taskKey a p sv))])
    else (s.setPc w (session mode a p sv), [.exists w (taskKey a p sv) (s.store.exists (taskKey a p sv))])
  | .cidr mode a p sv =>
    ({ s with store := (s.store.incr (cidrOf conf lib a)).2 }.setPc w
      (if (s.store.incr (cidrOf conf lib a)).1 > conf.nodesPerIpv6Prefix then .top
        else session mode a p sv),
      [.incr w (cidrOf conf lib a) (s.store.incr (cidrOf conf lib a)).1])
  | .claim a p sv =>
    ({ s with store := s.store.set (taskKey a p sv) "" }.setPc w (.handshake a p sv),
      [.connect w (taskKey a p sv), .cmd (.worker w) (.set (taskKey a p sv) "")])
  | .handshake a p sv =>
    match opens conf s.store (taskKey a p sv), e.hello with
    | none, _ => (s.setPc w .dead, [])
    | some _, none => (s.setPc w .top, [])
    | some ses, some h =>
      match cached s.store (ConnectPipe.mk (a, p, sv) ses h).peerKey with
      | none => (s.setPc w (.fetch ⟨(a, p, sv), ses, h⟩), [])
      | some v =>
        match (eval v).bind stripTimestamps with
        | none => (s.setPc w .dead, [])
        | some peers => (s.setPc w (.execute ⟨(a, p, sv), ses, h⟩ peers), [])
  | .fetch c =>
    match getPeers conf lib (s.instOf w).current4 (s.instOf w).current6 e with
    | (evald, none) =>
      (s.setPc w .dead, evald.map fun x =>
        .exclusion (.worker w) (s.instOf w).current4 (s.instOf w).current6 x.1 x.2)
    | (evald, some peers) =>
      if cacheRaises conf peers.isEmpty (min e.draw conf.addrTtlVar.toNat) then
        (s.setPc w .dead, evald.map fun x =>
          .exclusion (.worker w) (s.instOf w).current4 (s.instOf w).current6 x.1 x.2)
      else
        ({ s with store := s.store.set c.peerKey ((peersValue peers).str lib.printable) }.setPc w
            (.execute c (stripPeers peers)),
          evald.map (fun x => .exclusion (.worker w) (s.instOf w).current4 (s.instOf w).current6 x.1 x.2)
            ++ [.cmd (.worker w) (.set c.peerKey ((peersValue peers).str lib.printable))])
  | .execute c peers =>
    if conf.maxAge ≤ 0 then
      ({ s with store := s.store.execAll (c.adds lib peers) }.setPc w .dead,
        [.pipe (.worker w) (c.adds lib peers)])
    else
      ({ s with store := s.store.execAll (c.cmds lib peers) }.setPc w .top,
        [.pipe (.worker w) (c.cmds lib peers)])
  | .mempool a p sv =>
    (s.setPc w (if (opens conf s.store (taskKey a p sv)).isSome then .top else .dead),
      [.ask w (taskKey a p sv)])

/-! ## What a worker step can do -/

theorem replay_exclusions (st : Store) (a : Actor) (r4 r6 : Option Rules) (l : List (String × Bool)) :
    st.replay (l.map fun x => Event.exclusion a r4 r6 x.1 x.2) = st := by
  induction l with
  | nil => rfl
  | cons x l ih => simpa [Store.apply] using ih

/-- A worker's writes are its events. -/
theorem workerStep_store (s : Sys) (w : Nat) (e : Env) :
    (workerStep conf lib s w e).1.store = s.store.replay (workerStep conf lib s w e).2 := by
  unfold workerStep
  split
  all_goals (repeat' split) <;> first
    | rfl
    | exact (Store.lpop_apply ‹_› w).2
    | exact Store.spop_replay ‹_› w _
    | exact (replay_exclusions _ _ _ _ _).symm
    | (simp only [Store.replay_append, replay_exclusions]; rfl)

theorem workerStep_master (s : Sys) (w : Nat) (e : Env) :
    (workerStep conf lib s w e).1.master = s.master := by
  unfold workerStep
  split
  all_goals (repeat' split) <;> rfl

/-- A worker's step changes nothing of the others: only its own program counter, and its own
instance's loaded lists when it refreshes them. -/
theorem workerStep_frame (s : Sys) (w : Nat) (e : Env) :
    (workerStep conf lib s w e).1.workers = (s.setPc w ((workerStep conf lib s w e).1.pcOf w)).workers ∧
      ((workerStep conf lib s w e).1.insts = s.insts ∨
        ((s.pcOf w = .refresh4 ∨ s.pcOf w = .refresh6) ∧
          ∃ f, (workerStep conf lib s w e).1.insts = s.insts.modify f (s.worker w).inst)) := by
  by_cases hw : w < s.workers.length
  · unfold workerStep
    split <;> rename_i heq
    all_goals (repeat' split) <;> simp only [choose, Sys.pcOf_setPc_self, Sys.pcOf_setInst]
    all_goals try simp only [Sys.setInst_workers]
    all_goals try simp only [hw, if_true]
    all_goals refine ⟨?_, ?_⟩
    all_goals first
      | exact True.intro | rfl | exact (Sys.setPc_pcOf s w).symm | exact .inl trivial | exact .inl rfl
      | exact .inr ⟨.inl heq, _, rfl⟩ | exact .inr ⟨.inr heq, _, rfl⟩
  · have := Sys.pcOf_of_le s w (Nat.le_of_not_lt hw)
    simp only [workerStep, this, ← Sys.setPc_pcOf s w, true_or, and_self]

/-- The events a step of worker `w` can report. -/
inductive WorkerEvent (w : Nat) : Event → Prop
  | lpop (v : String) : WorkerEvent w (.lpop w v)
  | repush (v : String) : WorkerEvent w (.cmd (.worker w) (.lpush .mempoolPending v))
  | spop (m : Bool) (v : String) : WorkerEvent w (.spop w m v)
  | incr (k : String) (n : Nat) : WorkerEvent w (.incr w k n)
  | connect (a : String) (p s : Atom) : WorkerEvent w (.connect w (taskKey a p s))
  | claim (a : String) (p s : Atom) : WorkerEvent w (.cmd (.worker w) (.set (taskKey a p s) ""))
  | exclusion (r4 r6 : Option Rules) (x : String) (b : Bool) :
      WorkerEvent w (.exclusion (.worker w) r4 r6 x b)
  | cache (c : ConnectPipe) (v : String) : WorkerEvent w (.cmd (.worker w) (.set c.peerKey v))
  | pipe (c : ConnectPipe) (peers : List Triple) : WorkerEvent w (.pipe (.worker w) (c.cmds lib peers))
  | adds (c : ConnectPipe) (peers : List Triple) : WorkerEvent w (.pipe (.worker w) (c.adds lib peers))
  | ask (a : String) (p s : Atom) : WorkerEvent w (.ask w (taskKey a p s))
  | exists (k : String) (b : Bool) : WorkerEvent w (.exists w k b)

theorem WorkerEvent.writes_no_del {w : Nat} {ev : Event} (h : WorkerEvent lib w ev) (k : String) :
    .del k ∉ ev.writes := by
  cases h <;> simp [Event.writes, ConnectPipe.cmds, ConnectPipe.adds]

/-- How a step of worker `w` from the state `s` moves its own program counter, with everything
it reports: `task` as a control-flow graph over the store commands, with the guards it reads. -/
inductive Moves (s : Sys) (w : Nat) : Pc → Pc → List Event → Prop
  /-- An unspawned or ended greenlet does nothing. -/
  | idle (p : Pc) (h : p = .spawn ∨ p = .dead) : Moves s w p p []
  /-- The mode choice of a master worker, or of a slave that saw `running`. -/
  | choose (p : Pc) (h : p = .top ∧ (s.worker w).inst = 0 ∨ p = .choose) (ask : Bool) :
      Moves s w p (if ask then .lpop else .spop false) []
  /-- The state check of a slave: on to the choice, or into the refresh of its rules. -/
  | gate (p : Pc) (hi : (s.worker w).inst ≠ 0) (h : p = .choose ∨ p = .refresh4) :
      Moves s w .top p []
  /-- A refresh goes on, or raises on a rule list `eval` cannot read. -/
  | refresh4 (p' : Pc) (h : p' = .refresh6 ∨ p' = .dead) : Moves s w .refresh4 p' []
  | refresh6 (p' : Pc) (h : p' = .top ∨ p' = .dead) : Moves s w .refresh6 p' []
  | lpopEmpty : Moves s w .lpop (.spop true) []
  /-- `lpop` takes the head of `mempool_pending`. -/
  | lpop (v : String) (rest : List String) (h : s.store.mempoolPending = v :: rest) :
      Moves s w .lpop (.repush v) [.lpop w v]
  | repush (v : String) :
      Moves s w (.repush v) (afterPop conf true v) [.cmd (.worker w) (.lpush .mempoolPending v)]
  | spopEmpty (m : Bool) : Moves s w (.spop m) .top []
  | spop (m : Bool) (v : String) : Moves s w (.spop m) (afterPop conf m v) [.spop w m v]
  /-- The claim check skips a claimed node in discover mode. -/
  | claimed (a : String) (p sv : Atom) (h : s.store.exists (taskKey a p sv) = true) :
      Moves s w (.claimCheck false a p sv) .top [.exists w (taskKey a p sv) true]
  /-- Past the claim check: to the CIDR gate for an IPv6 node, else to the session. -/
  | claimCheck (m : Bool) (a : String) (p sv : Atom) (p' : Pc)
      (hg : ¬ (s.store.exists (taskKey a p sv) = true ∧ m = false))
      (h : (':' ∈ a.data ∧ conf.ipv6Prefix < 128) ∧ p' = .cidr m a p sv ∨
        ¬ (':' ∈ a.data ∧ conf.ipv6Prefix < 128) ∧ p' = session m a p sv) :
      Moves s w (.claimCheck m a p sv) p' [.exists w (taskKey a p sv) (s.store.exists (taskKey a p sv))]
  /-- The CIDR gate: its `INCR` answers the counter's next value, and past the cap the node is
  skipped. -/
  | cidr (m : Bool) (a : String) (p sv : Atom) (p' : Pc)
      (h : conf.nodesPerIpv6Prefix < s.store.counter (cidrOf conf lib a) + 1 ∧ p' = .top ∨
        s.store.counter (cidrOf conf lib a) + 1 ≤ conf.nodesPerIpv6Prefix ∧ p' = session m a p sv) :
      Moves s w (.cidr m a p sv) p' [.incr w (cidrOf conf lib a) (s.store.counter (cidrOf conf lib a) + 1)]
  | claim (a : String) (p sv : Atom) :
      Moves s w (.claim a p sv) (.handshake a p sv)
        [.connect w (taskKey a p sv), .cmd (.worker w) (.set (taskKey a p sv) "")]
  /-- A raise before the handshake or on the cached peers, no handshake, or the peers from the
  cache or to be fetched. -/
  | handshake (a : String) (p sv : Atom) (p' : Pc)
      (h : p' = .dead ∨ p' = .top ∨ (∃ c : ConnectPipe, c.node = (a, p, sv) ∧ p' = .fetch c) ∨
        ∃ (c : ConnectPipe) (peers : List Triple), c.node = (a, p, sv) ∧ p' = .execute c peers) :
      Moves s w (.handshake a p sv) p' []
  /-- `get_peers` raised: the greenlet ends after the answers it got, with its instance's lists. -/
  | fetchRaise (c : ConnectPipe) (evald : List (String × Bool)) :
      Moves s w (.fetch c) .dead (evald.map fun x =>
        .exclusion (.worker w) (s.instOf w).current4 (s.instOf w).current6 x.1 x.2)
  | fetch (c : ConnectPipe) (evald : List (String × Bool)) (peers : List Peer) :
      Moves s w (.fetch c) (.execute c (stripPeers peers))
        (evald.map (fun x => .exclusion (.worker w) (s.instOf w).current4 (s.instOf w).current6 x.1 x.2) ++
          [.cmd (.worker w) (.set c.peerKey ((peersValue peers).str lib.printable))])
  | execute (c : ConnectPipe) (peers : List Triple) (h : 0 < conf.maxAge) :
      Moves s w (.execute c peers) .top [.pipe (.worker w) (c.cmds lib peers)]
  /-- Redis refuses the two `SET ... ex=max_age`: the rest runs, and `execute()` raises. -/
  | executeRaise (c : ConnectPipe) (peers : List Triple) (h : conf.maxAge ≤ 0) :
      Moves s w (.execute c peers) .dead [.pipe (.worker w) (c.adds lib peers)]
  | mempool (a : String) (p sv : Atom) (p' : Pc) (h : p' = .top ∨ p' = .dead) :
      Moves s w (.mempool a p sv) p' [.ask w (taskKey a p sv)]

/-- Every step of a worker is one of its `Moves`. -/
theorem workerStep_moves (s : Sys) (w : Nat) (e : Env) :
    Moves conf lib s w (s.pcOf w) ((workerStep conf lib s w e).1.pcOf w) (workerStep conf lib s w e).2 := by
  by_cases hw : w < s.workers.length
  · unfold workerStep
    split <;> rename_i heq <;> rw [heq]
    all_goals (repeat' split) <;> simp only [choose, Sys.pcOf_setPc_self, Sys.pcOf_setInst, heq]
    all_goals try simp only [Sys.setInst_workers]
    all_goals try simp only [hw, if_true]
    -- `spawn`, `dead`, `top`, `choose`
    · exact .idle _ (.inl rfl)
    · exact .idle _ (.inr rfl)
    · exact .choose _ (.inl ⟨rfl, ‹_›⟩) _
    · exact .gate _ ‹_› (.inl rfl)
    · exact .gate _ ‹_› (.inr rfl)
    · exact .choose _ (.inr rfl) _
    -- the refreshes
    · exact .refresh4 _ (.inl rfl)
    · exact .refresh4 _ (.inr rfl)
    · exact .refresh4 _ (.inl rfl)
    · exact .refresh6 _ (.inl rfl)
    · exact .refresh6 _ (.inr rfl)
    · exact .refresh6 _ (.inl rfl)
    -- the pops
    · exact .lpopEmpty
    · exact .lpop _ _ (Store.lpop_apply ‹_› w).1
    · exact .repush _
    · exact .spopEmpty _
    · exact .spop _ _
    -- the gates
    · obtain ⟨h, rfl⟩ := ‹_ = true ∧ _ = false›
      rw [h]
      exact .claimed _ _ _ h
    · exact .claimCheck _ _ _ _ _ ‹_› (.inl ⟨‹_›, rfl⟩)
    · exact .claimCheck _ _ _ _ _ ‹_› (.inr ⟨‹_›, rfl⟩)
    · exact .cidr _ _ _ _ _ (.inl ⟨‹_›, rfl⟩)
    · exact .cidr _ _ _ _ _ (.inr ⟨not_lt.mp ‹_›, rfl⟩)
    -- `connect`, `get_cached_peers` and `ask_mempool`
    · exact .claim _ _ _
    · exact .handshake _ _ _ _ (.inl rfl)
    · exact .handshake _ _ _ _ (.inr (.inl rfl))
    · exact .handshake _ _ _ _ (.inr (.inr (.inl ⟨_, rfl, rfl⟩)))
    · exact .handshake _ _ _ _ (.inl rfl)
    · exact .handshake _ _ _ _ (.inr (.inr (.inr ⟨_, _, rfl, rfl⟩)))
    · exact .fetchRaise _ _
    · exact .fetchRaise _ _
    · exact .fetch _ _ _
    · exact .executeRaise _ _ ‹_›
    · exact .execute _ _ (not_le.mp ‹_›)
    · exact .mempool _ _ _ _ (.inl rfl)
    · exact .mempool _ _ _ _ (.inr rfl)
  · have := Sys.pcOf_of_le s w (Nat.le_of_not_lt hw)
    simp only [workerStep, this]
    exact .idle _ (.inr rfl)

/-- Every event of a worker's move is one a worker sends. -/
theorem Moves.events {s : Sys} {w : Nat} {p p' : Pc} {evs : List Event}
    (h : Moves conf lib s w p p' evs) : ∀ ev ∈ evs, WorkerEvent lib w ev := by
  cases h <;> intro ev hev <;>
    simp only [List.mem_cons, List.mem_singleton, List.not_mem_nil, or_false, List.mem_append,
      List.mem_map] at hev
  all_goals first
    | (subst hev; constructor)
    | (rcases hev with rfl | rfl; exacts [.connect _ _ _, .claim _ _ _])
    | (rcases hev with ⟨_, -, rfl⟩ | rfl; exacts [.exclusion _ _ _ _, .cache _ _])
    | (obtain ⟨_, -, rfl⟩ := hev; exact .exclusion _ _ _ _)

theorem workerStep_events (s : Sys) (w : Nat) (e : Env) :
    ∀ ev ∈ (workerStep conf lib s w e).2, WorkerEvent lib w ev :=
  (workerStep_moves conf lib s w e).events conf lib

end

end BitCrawler
