import BitCrawler.System.Master

/-! # Runs of the deployment

A step is taken by the master, by a worker, or by the store when a key's TTL runs out
(`expireStep`). A run is a list of steps, each with what the world answered, and reports the
events of its steps in order. `Sys.init` is a fresh deployment: an empty store (but for `check`,
which another program fills), every instance with its static lists and no loaded rules, the
master at the top of `main`, its workers not yet spawned, the slaves' workers at the top of
`task`. `Sys.restart` is the process of one instance started again over the store the old one
left, as `main` is when a process is restarted: the store keeps the keys its start-up does not
delete (the state flag and the published lists among them).

The facts every property below starts from are here: the store after a run is its events
replayed (`run_store`), every event names the process that caused it (`step_by`), and a step of
one process leaves the others' program counters alone.
-/

namespace BitCrawler
set_option autoImplicit false
open Python

/-- The keys the crawler writes with a TTL: `height:*` and `version:*` (`ex=max_age`) and
`peer:*` (`ex=ttl`). -/
def expiring (k : String) : Bool :=
  ["height:", "version:", "peer:"].any fun p => p.data.isPrefixOf k.data

/-- The store drops a key whose TTL ran out. -/
def expireStep (s : Sys) (k : String) : Sys × List Event :=
  if expiring k = true ∧ (s.store.get k).isSome = true then
    ({ s with store := s.store.del k }, [.cmd (.expire k) (.del k)])
  else (s, [])

/-- The process an event comes from. -/
def Event.by : Event → Actor
  | .cmd a _ | .pipe a _ | .exclusion a _ _ _ _ => a
  | .incr w _ _ | .exists w _ _ | .lpop w _ | .spop w _ _ | .connect w _ | .ask w _ => .worker w
  | .members _ | .snapshot _ _ => .master

section
variable (conf : Conf) (lib : Lib)

/-- One step of the deployment. -/
def step (s : Sys) : Actor → Env → Sys × List Event
  | .master, e => masterStep conf lib s e
  | .worker w, e => workerStep conf lib s w e
  | .expire k, _ => expireStep s k

/-- A run: its steps in order, and everything they reported. -/
def run (s : Sys) : List (Actor × Env) → Sys × List Event
  | [] => (s, [])
  | (a, e) :: l =>
    match step conf lib s a e with
    | (s', evs) =>
      match run s' l with
      | (s'', evs') => (s'', evs ++ evs')

/-- A fresh instance: the static lists of its configuration, nothing loaded. -/
def Inst.init : Inst :=
  ⟨listExcludedNetworks lib conf.excludeIpv4Networks [],
    listExcludedNetworks lib conf.excludeIpv6Networks [], none, none⟩

/-- A fresh deployment of `n` instances, the master first, with a worker on instance `i` for
each `i` in `workers`. -/
def Sys.init (n : Nat) (workers : List Nat) (check : List (String × Int)) : Sys :=
  ⟨{ Store.empty with check := check }, List.replicate n (Inst.init conf lib),
    workers.map fun i => ⟨i, if i = 0 then .spawn else .top⟩, .start⟩

/-- The process of instance `i` started again over the store as the old process left it: the
instance's static lists read afresh and nothing loaded, its workers back at the top of `main`
(the master's, not yet spawned) or of `task` (a slave's), and the master at `main`'s first
command. -/
def Sys.restart (s : Sys) (i : Nat) : Sys :=
  { s with
    insts := s.insts.modify (fun _ => Inst.init conf lib) i
    workers := s.workers.map fun wk => if wk.inst = i then { wk with pc := if i = 0 then .spawn else .top } else wk
    master := if i = 0 then .start else s.master }

@[simp] theorem Sys.restart_store (s : Sys) (i : Nat) : (s.restart conf lib i).store = s.store := rfl

@[simp] theorem Sys.restart_master (s : Sys) (i : Nat) :
    (s.restart conf lib i).master = if i = 0 then .start else s.master := rfl

@[simp] theorem Sys.restart_inst (s : Sys) (i w : Nat) :
    ((s.restart conf lib i).worker w).inst = (s.worker w).inst := by
  simp only [Sys.worker, Sys.restart, List.getD_eq_getElem?_getD, List.getElem?_map]
  cases s.workers[w]? with
  | none => rfl
  | some wk => simp only [Option.map_some', Option.getD_some]; split_ifs <;> rfl

/-- A restart puts the instance's workers back at the top of `main` or `task`. -/
theorem Sys.restart_pcOf (s : Sys) (i w : Nat) :
    (s.restart conf lib i).pcOf w =
      if w < s.workers.length ∧ (s.worker w).inst = i then (if i = 0 then .spawn else .top)
      else s.pcOf w := by
  by_cases hw : w < s.workers.length
  · simp only [Sys.pcOf, Sys.worker, Sys.restart, List.getD_eq_getElem?_getD, List.getElem?_map,
      List.getElem?_eq_getElem hw, Option.map_some', Option.getD_some, hw, true_and]
    split_ifs <;> rfl
  · rw [if_neg (fun h => hw h.1), Sys.pcOf_of_le s w (Nat.le_of_not_lt hw)]
    exact Sys.pcOf_of_le _ w (by simpa [Sys.restart] using Nat.le_of_not_lt hw)

theorem Sys.restart_masterInst (s : Sys) (i : Nat) (h : 0 < s.insts.length) :
    (s.restart conf lib i).masterInst = if i = 0 then Inst.init conf lib else s.masterInst := by
  split
  · subst_vars
    exact masterInst_modify_zero _ _ h
  · exact masterInst_modify _ _ ‹_›

@[simp] theorem run_nil (s : Sys) : run conf lib s [] = (s, []) := rfl

theorem run_cons (s : Sys) (a : Actor) (e : Env) (l : List (Actor × Env)) :
    run conf lib s ((a, e) :: l) =
      ((run conf lib (step conf lib s a e).1 l).1,
        (step conf lib s a e).2 ++ (run conf lib (step conf lib s a e).1 l).2) := rfl

theorem run_append (s : Sys) (l l' : List (Actor × Env)) :
    run conf lib s (l ++ l') =
      ((run conf lib (run conf lib s l).1 l').1,
        (run conf lib s l).2 ++ (run conf lib (run conf lib s l).1 l').2) := by
  induction l generalizing s with
  | nil => rfl
  | cons x l ih =>
    obtain ⟨a, e⟩ := x
    simp only [List.cons_append, run_cons, ih, List.append_assoc]

/-! ## What every step does -/

theorem expireStep_store (s : Sys) (k : String) :
    (expireStep s k).1.store = s.store.replay (expireStep s k).2 := by
  unfold expireStep
  split <;> rfl

theorem step_store (s : Sys) (a : Actor) (e : Env) :
    (step conf lib s a e).1.store = s.store.replay (step conf lib s a e).2 := by
  cases a with
  | master => exact masterStep_store conf lib s e
  | worker w => exact workerStep_store conf lib s w e
  | expire k => exact expireStep_store s k

theorem step_master_ne (s : Sys) (a : Actor) (e : Env) (h : a ≠ .master) :
    (step conf lib s a e).1.master = s.master := by
  cases a with
  | master => exact absurd rfl h
  | worker w => exact workerStep_master conf lib s w e
  | expire k =>
    show (expireStep s k).1.master = s.master
    unfold expireStep; split <;> rfl

/-- What a step of each process can report. -/
theorem step_events (s : Sys) (a : Actor) (e : Env) (ev : Event) (h : ev ∈ (step conf lib s a e).2) :
    match a with
    | .master => MasterEvent ev
    | .worker w => WorkerEvent lib w ev
    | .expire k => expiring k = true ∧ ev = .cmd (.expire k) (.del k) := by
  cases a with
  | master => exact masterStep_events conf lib s e ev h
  | worker w => exact workerStep_events conf lib s w e ev h
  | expire k =>
    simp only [step, expireStep] at h
    split at h
    · exact ⟨‹_ ∧ _›.1, List.mem_singleton.mp h⟩
    · exact absurd h (List.not_mem_nil _)

theorem pcOf_spawnWorkers (s : Sys) (w : Nat) :
    (spawnWorkers s).pcOf w =
      if (s.worker w).inst = 0 ∧ s.pcOf w = .spawn then .top else s.pcOf w := by
  simp only [spawnWorkers, Sys.pcOf, Sys.worker, List.getD_eq_getElem?_getD, List.getElem?_map]
  cases s.workers[w]? <;> simp only [Option.map_none', Option.map_some', Option.getD_none,
    Option.getD_some] <;> split_ifs <;> simp_all

theorem inst_spawnWorkers (s : Sys) (w : Nat) :
    ((spawnWorkers s).worker w).inst = (s.worker w).inst := by
  simp only [spawnWorkers, Sys.worker, List.getD_eq_getElem?_getD, List.getElem?_map]
  cases s.workers[w]? with
  | none => rfl
  | some wk =>
    simp only [Option.map_some', Option.getD_some]
    split_ifs <;> rfl

theorem workerStep_pcOf_ne (s : Sys) {w w' : Nat} (e : Env) (h : w' ≠ w) :
    (workerStep conf lib s w e).1.pcOf w' = s.pcOf w' := by
  have hw := congrArg (fun l : List Worker => (l.getD w' ⟨0, .dead⟩).pc)
    (workerStep_frame conf lib s w e).1
  exact hw.trans (Sys.pcOf_setPc_ne _ _ h)

/-- A step of another process moves worker `w` only to spawn it. -/
theorem step_pcOf_other (s : Sys) (a : Actor) (e : Env) (w : Nat) (h : a ≠ .worker w) :
    (step conf lib s a e).1.pcOf w = s.pcOf w ∨
      (s.pcOf w = .spawn ∧ (step conf lib s a e).1.pcOf w = .top) := by
  cases a with
  | master =>
    rcases masterStep_workers conf lib s e with hw | ⟨-, hw⟩
    · exact .inl (by simp only [step, Sys.pcOf, Sys.worker, hw])
    · have : (step conf lib s .master e).1.pcOf w = (spawnWorkers s).pcOf w := by
        simp only [step, Sys.pcOf, Sys.worker, hw]
      rw [this, pcOf_spawnWorkers]
      split_ifs with hs
      · exact .inr ⟨hs.2, rfl⟩
      · exact .inl rfl
  | worker w' => exact .inl (workerStep_pcOf_ne conf lib s _ fun e => h (e ▸ rfl))
  | expire k =>
    left
    show (expireStep s k).1.pcOf w = s.pcOf w
    unfold expireStep; split <;> rfl

/-- The store after a run is its events replayed. -/
theorem run_store (s : Sys) (l : List (Actor × Env)) :
    (run conf lib s l).1.store = s.store.replay (run conf lib s l).2 := by
  induction l generalizing s with
  | nil => rfl
  | cons x l ih =>
    obtain ⟨a, e⟩ := x
    rw [run_cons, ih, Store.replay_append, ← step_store]

end

/-! ## An example deployment

The runs that show a property failing are runs of this deployment: one master instance with two
or three workers, one DNS seeder, and a bogon list fetched from one URL. `demoLib` answers as
Python's `ipaddress` and `socket` do on the addresses the runs use (`1.1.1.1`, `2.2.2.2`,
`3.3.3.3`, all public; any other text, such as `x`, is not an address) and on the networks
`2.2.2.2/32` and `::/96`, and prints ASCII as `repr` does. -/

/-- The library of the example deployment. -/
def demoLib : Lib where
  printable c := decide (0x20 ≤ c.toNat ∧ c.toNat < 0x7f)
  isPrivate a := if a ∈ ["1.1.1.1", "2.2.2.2", "3.3.3.3"] then some false else none
  inetPton4 a :=
    if a = "1.1.1.1" then some 0x01010101 else if a = "2.2.2.2" then some 0x02020202
    else if a = "3.3.3.3" then some 0x03030303 else none
  inetPton6 _ := none
  ipNetwork l :=
    if l = "2.2.2.2/32" then some ⟨false, 32, 0x02020202, by decide, by decide, by decide⟩
    else if l = "::/96" then some ⟨true, 96, 0, by decide, by decide, by decide⟩
    else none
  ipToNetwork _ _ := ""
  toServices := 1

/-- The configuration of the example deployment. -/
def demoConf : Conf where
  port := 8333
  maxNodes := 100
  socketTimeout := 1
  maxAge := 100
  addrTtl := 100
  addrTtlVar := 10
  peersPerNode := 10
  ipv6 := false
  ipv6Prefix := 64
  nodesPerIpv6Prefix := 1
  excludeIpv4Networks := ""
  excludeIpv6Networks := ""
  excludeIpv4BogonsFromUrls := ["bogons"]
  excludeIpv6BogonsFromUrls := []
  excludeIpv4NetworksFromUrl := ""
  excludeIpv6NetworksFromUrl := ""
  onion := false
  torProxies := []
  onionNodes := []
  includeChecked := false
  seeders := ["seed"]

/-- A step in which the world answers nothing: no handshake, no DNS, empty fetches. -/
def quiet : Env := { coin := false }

/-- The version message of the example's nodes, advertising `services`. -/
def demoHello (services : Nat) : Hello := ⟨70015, "b'/Satoshi:25.0.0/'", services, 800000⟩

/-- The master's start-up, with the seeder resolving to `seeds`: `main` up to the spawn of the
workers. -/
def bootSteps (seeds : List String) : List (Actor × Env) :=
  List.replicate 11 (.master, quiet) ++ [(.master, { resolve := seeds })] ++
    List.replicate (seeds.length + 2) (.master, quiet)

/-- A fresh example deployment with `n` master workers, and slave workers on the instances in
`slaves`. -/
def demoInit (n : Nat) (slaves : List Nat) : Sys :=
  Sys.init demoConf demoLib (1 + slaves.foldl max 0) (List.replicate n 0 ++ slaves) []

end BitCrawler
