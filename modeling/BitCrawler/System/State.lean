import BitCrawler.Keys

/-! # The crawler as a system of processes

One master instance and any number of slave instances share the store. Every instance runs
workers (`task`); the master also runs its start-up (the body of `main` under `if
CONF['master']`) and then `cron`. A worker's program counter `Pc` and the master's `MPc` stand
just before the next store command, so that one step of one of them sends one command, or
executes one pipeline, together with the local work up to the next command. Steps of different
processes interleave in any order. What the network, the clock, DNS and the random draws answer
at a step is the step's `Env`.

Each step reports `Event`s. Every write a step makes to the store is one of its events, and
`Store.replay` re-applies them: the step modules prove that this gives the step's new store,
so that facts about the store over a run are facts about its events. The other events are the
observable reads: `restart`'s `smembers('up')`, `task`'s claim check, every `is_excluded`
evaluation, the sessions started and the snapshots written.
-/

namespace BitCrawler
set_option autoImplicit false
open Python

/-- The version message of a successful handshake. `userAgent` is the text Python prints for
the codec's user agent value. -/
structure Hello where
  version : Int
  userAgent : String
  services : Nat
  height : Int
  deriving DecidableEq, Repr

/-- `str((version, user_agent, from_services))`. -/
def Hello.str (h : Hello) : String :=
  "(" ++ toString h.version ++ ", " ++ h.userAgent ++ ", " ++ toString h.services ++ ")"

/-- What `connect` knows once the handshake succeeded: the node `task` popped (whose key is the
claim), the key taken apart again, and the version message. -/
structure ConnectPipe where
  node : String × Atom × Atom
  session : Session
  hello : Hello
  deriving DecidableEq, Repr

namespace ConnectPipe

variable (c : ConnectPipe)

/-- The key `connect(key)` was called with. -/
def claimKey : String := taskKey c.node.1 c.node.2.1 c.node.2.2

/-- The key `connect` publishes: rewritten to the advertised services when they differ. -/
def key : String := upKey c.claimKey c.session.address c.session.port c.session.servicesNum
  c.hello.services

/-- `f'height:{address}-{port}-{from_services}'`. -/
def heightKey : String :=
  BitCrawler.heightKey c.session.address c.session.port (toString c.hello.services)

/-- `f'peer:{conn.to_addr[0]}-{conn.to_addr[1]}'`. -/
def peerKey : String := BitCrawler.peerKey c.session.address c.session.portNum

/-- `str(key_tuple)`: the key as `split` returned it. -/
def entry (lib : Lib) : String :=
  partsStr lib [c.session.address, c.session.port, c.session.services]

/-- The pipeline of `connect`, with the peers it re-seeds. -/
def cmds (lib : Lib) (peers : List Triple) : List Cmd :=
  [.set c.heightKey (toString c.hello.height),
    .set (versionKey c.session.address c.session.port) c.hello.str] ++
  peers.map (fun t => .sadd .pending (tripleStr lib t)) ++
  [.set c.key "", .sadd .up c.key, .lpush .mempoolPending (c.entry lib)]

/-- The pipeline's commands after its two `SET ... ex=max_age`: what Redis runs of it when it
refuses those two for an expire time that is not positive. -/
def adds (lib : Lib) (peers : List Triple) : List Cmd :=
  peers.map (fun t => .sadd .pending (tripleStr lib t)) ++
  [.set c.key "", .sadd .up c.key, .lpush .mempoolPending (c.entry lib)]

theorem cmds_eq (lib : Lib) (peers : List Triple) :
    c.cmds lib peers = [.set c.heightKey (toString c.hello.height),
      .set (versionKey c.session.address c.session.port) c.hello.str] ++ c.adds lib peers := by
  simp [cmds, adds]

end ConnectPipe

/-- Where a worker is in `task`, `connect` or `ask_mempool`. A node `(a, p, s)` is what
`eval` gave for the popped entry: `node[0]`, `node[1]`, `node[2]`. -/
inductive Pc
  /-- A master worker not yet spawned: `main` spawns them after the start-up. -/
  | spawn
  /-- The head of `task`'s loop. -/
  | top
  /-- A slave that saw a state other than `running`: `set_excluded_networks`, IPv4 then IPv6. -/
  | refresh4
  | refresh6
  /-- A slave that saw `running`: `redis_conn.scard('up')` and the coin. -/
  | choose
  /-- `redis_conn.lpop('mempool_pending')`. -/
  | lpop
  /-- `redis_conn.lpush('mempool_pending', node)`: the popped entry put back. -/
  | repush (entry : String)
  /-- `redis_conn.spop('pending')`, in mempool mode (the fallback) or in discover mode. -/
  | spop (mode : Bool)
  /-- `redis_conn.exists(key)`. -/
  | claimCheck (mode : Bool) (a : String) (p s : Atom)
  /-- `redis_conn.incr(f'crawl:cidr:{cidr}')`. -/
  | cidr (mode : Bool) (a : String) (p s : Atom)
  /-- `connect(key)` starts: `redis_conn.set(key, '')`. -/
  | claim (a : String) (p s : Atom)
  /-- `connect`: `get('height')`, open and handshake, then `get_cached_peers`' `GET`. -/
  | handshake (a : String) (p s : Atom)
  /-- `get_cached_peers` after a miss: `get_peers`, then `SET peer:*`. -/
  | fetch (c : ConnectPipe)
  /-- `redis_pipe.execute()` at the end of `connect`. -/
  | execute (c : ConnectPipe) (peers : List Triple)
  /-- `ask_mempool(key)`. -/
  | mempool (a : String) (p s : Atom)
  /-- The greenlet raised and ended. -/
  | dead
  deriving DecidableEq, Repr

/-- Where `update_excluded_networks` returns to. -/
inductive Ret
  | boot
  | restart (t : Int) (nodes : List String)
  deriving DecidableEq, Repr

/-- A row of a snapshot: `[address, port, services, height]`. -/
abbrev Row := String × Int × Int × Int

/-- Where the master is in its start-up, in `cron`, `restart`, `update_excluded_networks` and
`dump`. -/
inductive MPc
  /-- `redis_conn.set('crawl:master:state', 'starting')`, the first command of `main`. -/
  | start
  /-- `get_keys` of the start-up's next pattern; `dels` are the deletions buffered so far. -/
  | scan (patterns : List String) (dels : List String)
  /-- The start-up's `redis_pipe.execute()`. -/
  | wipe (dels : List String)
  /-- `update_excluded_networks`: fetch and compile the lists, `SET exclude-ipv4-networks`. -/
  | publish4 (ret : Ret)
  /-- `SET exclude-ipv6-networks`. -/
  | publish6 (ret : Ret) (v6 : Rules)
  /-- `set_excluded_networks`: `GET` of the IPv4 list, then of the IPv6 list. -/
  | reload4 (ret : Ret)
  | reload6 (ret : Ret)
  /-- `set_pending`: the seeders still to resolve, and the addresses of the current one. -/
  | seed (seeders : List String) (nodes : List String)
  /-- `set_pending`: the onion nodes still to add. -/
  | onionSeed (nodes : List String)
  /-- `redis_conn.set('crawl:master:state', 'running')`, then the workers are spawned. -/
  | launch
  /-- `cron`: `redis_conn.scard('pending')`. -/
  | cron (start : Int)
  /-- `cron`: `set('crawl:master:state', 'starting')`. -/
  | starting (start : Int)
  /-- `cron`: `set('elapsed', now - start)`; `now` is the restart's timestamp. -/
  | elapsed (start : Int)
  /-- `restart(t)`: `smembers('up')`. -/
  | members (t : Int)
  /-- `restart`: `get_keys('node:*')`, then `get_keys('crawl:cidr:*')`. -/
  | scanNodes (t : Int) (nodes reseeds : List String)
  | scanCidr (t : Int) (nodes reseeds dels : List String)
  /-- `restart`: `zrangebyscore('check', t - max_age, t)` and its filter. -/
  | checked (t : Int) (nodes reseeds dels : List String)
  /-- `restart`'s `redis_pipe.execute()`. -/
  | rotate (t : Int) (nodes reseeds dels adds : List String)
  /-- `restart`: `lpush('nodes', str((t, len(nodes))))`. -/
  | history (t : Int) (nodes : List String)
  /-- `dump`: the `GET` of the next node's height. -/
  | dump (t : Int) (todo : List String) (rows : List Row)
  /-- `cron`: `set('crawl:master:state', 'running')` after the snapshot delay. -/
  | resume
  /-- The master's greenlet raised and ended. -/
  | dead
  deriving DecidableEq, Repr

/-- The start-up's pipeline. -/
def wipeCmds (dels : List String) : List Cmd :=
  [.del "up", .del "mempool_pending"] ++ dels.map .del ++ [.del "pending"]

/-- `restart`'s pipeline: `up` dropped, its members re-seeded, the claims and CIDR counters
deleted, the checked nodes added. -/
def rotateCmds (reseeds dels adds : List String) : List Cmd :=
  [.del "up"] ++ reseeds.map (.sadd .pending) ++ dels.map .del ++ adds.map (.sadd .pending)

/-- The per-process part of `CONF` that changes: the static exclusion lists, which
`update_excluded_networks` adds into, and the lists `is_excluded` uses. -/
structure Inst where
  exclude4 : Rules
  exclude6 : Rules
  current4 : Option Rules
  current6 : Option Rules
  deriving DecidableEq, Repr, Inhabited

/-- A worker: the instance it runs in (0 is the master) and where it is. -/
structure Worker where
  inst : Nat
  pc : Pc
  deriving DecidableEq, Repr

/-- The whole deployment. `insts` has the master at index 0. -/
structure Sys where
  store : Store
  insts : List Inst
  workers : List Worker
  master : MPc
  deriving DecidableEq

/-- Who takes a step: the master's main greenlet (start-up, then `cron`), a worker, or the store
expiring a key whose TTL ran out. -/
inductive Actor
  | master
  | worker (w : Nat)
  | expire (key : String)
  deriving DecidableEq, Repr

/-- What the world answers during one step. -/
structure Env where
  /-- `random.randint(0, 3) % 2 == 0`. -/
  coin : Bool := false
  /-- Which member `SPOP` returns. -/
  pick : Nat := 0
  /-- The handshake's version message; `none` when it raised. -/
  hello : Option Hello := none
  /-- Whether `conn.getaddr(block=False)` returned without raising. -/
  sent : Bool := false
  /-- The answers to `getaddr`'s polls. -/
  polls : List (Option (List AddrMsg)) := []
  /-- `int(time.time())`. -/
  now : Int := 0
  /-- `random.randint(0, CONF['addr_ttl_var'])`, taken up to `addr_ttl_var`. -/
  draw : Nat := 0
  /-- `http_get_txt(url)`. -/
  fetch : String → String := fun _ => ""
  /-- The addresses `getaddrinfo` resolves the seeder to. -/
  resolve : List String := []

/-- What a step does and reports. -/
inductive Event
  /-- A write command sent on its own. -/
  | cmd (a : Actor) (c : Cmd)
  /-- A pipeline's `execute()`: its commands, run together. -/
  | pipe (a : Actor) (cmds : List Cmd)
  /-- Worker `w`'s `INCR key` answered `n`. -/
  | incr (w : Nat) (key : String) (n : Nat)
  /-- Worker `w`'s `EXISTS key`, the claim check of `task`, answered `found`. -/
  | exists (w : Nat) (key : String) (found : Bool)
  /-- Worker `w`'s `LPOP mempool_pending` returned `entry`. -/
  | lpop (w : Nat) (entry : String)
  /-- Worker `w`'s `SPOP pending` returned `entry`, in mempool mode or not. -/
  | spop (w : Nat) (mode : Bool) (entry : String)
  /-- `connect(key)` started: worker `w` claimed `key`. -/
  | connect (w : Nat) (key : String)
  /-- `ask_mempool(key)` started. -/
  | ask (w : Nat) (key : String)
  /-- `restart`'s `smembers('up')`. -/
  | members (ks : List String)
  /-- An `is_excluded(address)` by `a`, with the lists its instance held, and its answer. -/
  | exclusion (a : Actor) (r4 r6 : Option Rules) (address : String) (excluded : Bool)
  /-- `dump` wrote the snapshot `<t>.json`. -/
  | snapshot (t : Int) (rows : List Row)
  deriving DecidableEq

/-- The write commands an event sent. -/
def Event.writes : Event → List Cmd
  | .cmd _ c => [c]
  | .pipe _ cmds => cmds
  | _ => []

namespace Store

/-- The change an event made to the store. -/
def apply (st : Store) : Event → Store
  | .cmd _ c => st.exec c
  | .pipe _ cmds => st.execAll cmds
  | .incr _ k n => { st with counters := st.counters.set k n }
  | .lpop _ _ => { st with mempoolPending := st.mempoolPending.tail }
  | .spop _ _ m => { st with pending := st.pending.srem m }
  | _ => st

/-- The store after a list of events. -/
def replay (st : Store) (evs : List Event) : Store := evs.foldl apply st

@[simp] theorem replay_nil (st : Store) : st.replay [] = st := rfl

@[simp] theorem replay_cons (st : Store) (ev : Event) (evs : List Event) :
    st.replay (ev :: evs) = (st.apply ev).replay evs := rfl

theorem replay_append (st : Store) (l l' : List Event) :
    st.replay (l ++ l') = (st.replay l).replay l' := List.foldl_append _ _ _ _

/-- The value of a counter; a missing counter reads as 0, as `INCR` takes it. -/
def counter (st : Store) (k : String) : Nat := (st.counters.get k).getD 0

/-! ### What a command leaves alone -/

@[simp] theorem del_up (st : Store) (k : String) :
    (st.del k).up = if k = "up" then RSet.empty else st.up := by
  unfold del; split_ifs <;> simp_all

@[simp] theorem del_pending (st : Store) (k : String) :
    (st.del k).pending = if k = "pending" then RSet.empty else st.pending := by
  unfold del; split_ifs <;> simp_all

@[simp] theorem del_mempoolPending (st : Store) (k : String) :
    (st.del k).mempoolPending = if k = "mempool_pending" then [] else st.mempoolPending := by
  unfold del; split_ifs <;> simp_all

theorem get_del_ne (st : Store) {k k' : String} (h : k' ≠ k) : (st.del k).get k' = st.get k' := by
  unfold del
  repeat' split
  exacts [rfl, rfl, rfl, rfl, rfl, KMap.get_del_ne _ _ _ h]

theorem mem_up_exec {st : Store} {x : String} (c : Cmd) (hc : c ≠ .del "up")
    (h : x ∈ st.up.members) : x ∈ (st.exec c).up.members := by
  cases c with
  | sadd k m => cases k <;> simp [exec, sadd, h]
  | set k v => exact h
  | lpush k v => cases k <;> exact h
  | del k =>
    have hk : k ≠ "up" := fun e => hc (e ▸ rfl)
    simpa [exec, hk] using h

theorem mem_up_execAll {st : Store} {x : String} (cmds : List Cmd) (hc : .del "up" ∉ cmds)
    (h : x ∈ st.up.members) : x ∈ (st.execAll cmds).up.members := by
  induction cmds generalizing st with
  | nil => exact h
  | cons c cmds ih =>
    simp only [List.mem_cons, not_or] at hc
    exact ih hc.2 (mem_up_exec c (Ne.symm hc.1) h)

theorem mem_up_apply {st : Store} {x : String} (ev : Event) (hev : .del "up" ∉ ev.writes)
    (h : x ∈ st.up.members) : x ∈ (st.apply ev).up.members := by
  cases ev with
  | cmd a c => exact mem_up_exec c (by simpa [Event.writes, eq_comm] using hev) h
  | pipe a cmds => exact mem_up_execAll cmds hev h
  | _ => exact h

theorem mem_up_replay {st : Store} {x : String} (evs : List Event)
    (hevs : ∀ ev ∈ evs, .del "up" ∉ ev.writes) (h : x ∈ st.up.members) :
    x ∈ (st.replay evs).up.members := by
  induction evs generalizing st with
  | nil => exact h
  | cons ev evs ih =>
    exact ih (fun ev' h' => hevs ev' (List.mem_cons_of_mem _ h'))
      (mem_up_apply ev (hevs ev (List.mem_cons_self _ _)) h)

theorem get_isSome_exec {st : Store} {k : String} (c : Cmd) (hc : c ≠ .del k)
    (h : (st.get k).isSome) : ((st.exec c).get k).isSome := by
  cases c with
  | sadd k' m => cases k' <;> exact h
  | set k' v =>
    by_cases hk : k = k'
    · subst hk; simp [exec, set, get]
    · simpa [exec, set, get, KMap.get_set_ne _ _ _ _ hk] using h
  | lpush k' v => cases k' <;> exact h
  | del k' => simpa [exec, get_del_ne st fun e : k = k' => hc (e ▸ rfl)] using h

theorem get_isSome_execAll {st : Store} {k : String} (cmds : List Cmd) (hd : .del k ∉ cmds)
    (h : (st.get k).isSome) : ((st.execAll cmds).get k).isSome := by
  induction cmds generalizing st with
  | nil => exact h
  | cons c cmds ih =>
    simp only [List.mem_cons, not_or] at hd
    exact ih hd.2 (get_isSome_exec c (Ne.symm hd.1) h)

theorem get_isSome_apply {st : Store} {k : String} (ev : Event) (hd : .del k ∉ ev.writes)
    (h : (st.get k).isSome) : ((st.apply ev).get k).isSome := by
  cases ev with
  | cmd a c => exact get_isSome_exec c (by simpa [Event.writes, eq_comm] using hd) h
  | pipe a cmds => exact get_isSome_execAll cmds hd h
  | _ => exact h

theorem get_isSome_replay {st : Store} {k : String} (evs : List Event)
    (hd : ∀ ev ∈ evs, .del k ∉ ev.writes) (h : (st.get k).isSome) : ((st.replay evs).get k).isSome := by
  induction evs generalizing st with
  | nil => exact h
  | cons ev evs ih =>
    exact ih (fun ev' h' => hd ev' (List.mem_cons_of_mem _ h'))
      (get_isSome_apply ev (hd ev (List.mem_cons_self _ _)) h)

theorem lpop_apply {st st' : Store} {v : String} (h : st.lpop .mempoolPending = some (v, st'))
    (w : Nat) : st.mempoolPending = v :: st'.mempoolPending ∧ st' = st.apply (.lpop w v) := by
  cases hm : st.mempoolPending with
  | nil => simp [lpop, hm] at h
  | cons x rest =>
    simp only [lpop, hm, Option.some.injEq, Prod.mk.injEq] at h
    obtain ⟨rfl, rfl⟩ := h
    simp [apply, hm]

theorem spop_apply {st st' : Store} {pick : Nat} {v : String}
    (h : st.spop .pending pick = some (v, st')) (w : Nat) (m : Bool) :
    v ∈ st.pending.members ∧ st' = st.apply (.spop w m v) := by
  simp only [spop, setOf, Option.map_eq_some', Prod.mk.injEq] at h
  obtain ⟨⟨x, t⟩, hx, rfl, rfl⟩ := h
  obtain ⟨hmem, rfl⟩ := RSet.spop_some _ _ _ _ hx
  exact ⟨hmem, rfl⟩

theorem spop_replay {st st' : Store} {pick : Nat} {v : String}
    (h : st.spop .pending pick = some (v, st')) (w : Nat) (m : Bool) :
    st' = st.replay [.spop w m v] :=
  (spop_apply h w m).2

theorem incr_apply (st : Store) (k : String) (w : Nat) :
    (st.incr k).1 = st.counter k + 1 ∧ (st.incr k).2 = st.apply (.incr w k (st.incr k).1) :=
  ⟨rfl, rfl⟩

end Store

namespace Sys

/-- The worker `w`; a worker past the end of the list is dead. -/
def worker (s : Sys) (w : Nat) : Worker := s.workers.getD w ⟨0, .dead⟩

/-- The instance a worker runs in. -/
def instOf (s : Sys) (w : Nat) : Inst := s.insts.getD (s.worker w).inst default

def pcOf (s : Sys) (w : Nat) : Pc := (s.worker w).pc

def setPc (s : Sys) (w : Nat) (pc : Pc) : Sys :=
  { s with workers := s.workers.modify (fun wk => { wk with pc := pc }) w }

def setInst (s : Sys) (i : Nat) (f : Inst → Inst) : Sys := { s with insts := s.insts.modify f i }

@[simp] theorem setPc_store (s : Sys) (w : Nat) (pc : Pc) : (s.setPc w pc).store = s.store := rfl
@[simp] theorem setPc_master (s : Sys) (w : Nat) (pc : Pc) : (s.setPc w pc).master = s.master := rfl
@[simp] theorem setPc_insts (s : Sys) (w : Nat) (pc : Pc) : (s.setPc w pc).insts = s.insts := rfl
@[simp] theorem setInst_store (s : Sys) (i : Nat) (f : Inst → Inst) :
    (s.setInst i f).store = s.store := rfl
@[simp] theorem setInst_master (s : Sys) (i : Nat) (f : Inst → Inst) :
    (s.setInst i f).master = s.master := rfl
@[simp] theorem setInst_workers (s : Sys) (i : Nat) (f : Inst → Inst) :
    (s.setInst i f).workers = s.workers := rfl

theorem pcOf_of_le (s : Sys) (w : Nat) (h : s.workers.length ≤ w) : s.pcOf w = .dead := by
  simp [pcOf, worker, List.getD_eq_getElem?_getD, List.getElem?_eq_none_iff.mpr h]

/-- A worker whose greenlet has not ended is one of the deployment's workers. -/
theorem lt_of_pcOf_ne_dead {s : Sys} {w : Nat} (h : s.pcOf w ≠ .dead) : w < s.workers.length :=
  Nat.lt_of_not_le fun hl => h (pcOf_of_le s w hl)

@[simp] theorem pcOf_setPc_self (s : Sys) (w : Nat) (pc : Pc) :
    (s.setPc w pc).pcOf w = if w < s.workers.length then pc else .dead := by
  split
  · simp [pcOf, worker, setPc, List.getD_eq_getElem?_getD, List.getElem?_modify, *]
  · exact pcOf_of_le _ _ (by simpa [setPc] using Nat.le_of_not_lt ‹_›)

@[simp] theorem pcOf_setPc_ne (s : Sys) {w w' : Nat} (pc : Pc) (h : w' ≠ w) :
    (s.setPc w pc).pcOf w' = s.pcOf w' := by
  simp [pcOf, worker, setPc, List.getD_eq_getElem?_getD, List.getElem?_modify, Ne.symm h]

@[simp] theorem inst_setPc (s : Sys) (w w' : Nat) (pc : Pc) :
    ((s.setPc w pc).worker w').inst = (s.worker w').inst := by
  simp only [worker, setPc, List.getD_eq_getElem?_getD, List.getElem?_modify]
  split <;> cases s.workers[w']? <;> rfl

@[simp] theorem length_setPc (s : Sys) (w : Nat) (pc : Pc) :
    (s.setPc w pc).workers.length = s.workers.length := List.length_modify _ _ _

theorem setPc_pcOf (s : Sys) (w : Nat) : (s.setPc w (s.pcOf w)).workers = s.workers := by
  refine List.ext_getElem (by simp [setPc]) fun i _ h => ?_
  simp only [setPc, List.getElem_modify]
  split
  · subst_vars
    simp [pcOf, worker, List.getD_eq_getElem?_getD, h]
  · rfl

@[simp] theorem pcOf_setInst (s : Sys) (i w : Nat) (f : Inst → Inst) :
    (s.setInst i f).pcOf w = s.pcOf w := rfl

@[simp] theorem pcOf_mk (s : Sys) (st : Store) (m : MPc) (w : Nat) :
    (Sys.mk st s.insts s.workers m).pcOf w = s.pcOf w := rfl

end Sys

end BitCrawler
