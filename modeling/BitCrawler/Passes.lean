import BitCrawler.System.Run

/-! # Pass rotations: what they keep, what they admit

`cron` starts a new pass when `pending` is empty: `restart` reads `up` with `smembers`, buffers
the re-seeding of its members and the deletion of every claim (`node:*`) and CIDR counter
(`crawl:cidr:*`), and executes that pipeline. The master's pipelines (the start-up's wipe and
`restart`'s) are the pass boundaries. This module follows three kinds of key across them:

* the members of `up`: a key a `connect` pipeline adds is read by the next `restart` or stays in
  `up`, unless the pipeline lands inside `restart`, after its read and before its pipeline;
* the claims `node:*`: between two boundaries, each worker starts `connect` on a key at most
  once, but several workers can;
* the counters `crawl:cidr:*`: while a counter is not deleted, at most `nodes_per_ipv6_prefix`
  task iterations pass its gate, and every session started on an IPv6 node of its prefix comes
  from one of them or from a worker that had passed the gate before.
-/

namespace BitCrawler
set_option autoImplicit false
open Python

/-- A `restart` read `k` in `up`. -/
def Event.reads (k : String) : Event → Bool
  | .members ks => ks.contains k
  | _ => false

/-- A worker's pipeline added `k` to `up`. -/
def Event.addsUp (k : String) : Event → Bool
  | .pipe (.worker _) cmds => cmds.contains (.sadd .up k)
  | _ => false

/-- A pipeline of the master: the start-up's wipe or `restart`'s, a pass boundary. -/
def Event.rotates : Event → Bool
  | .pipe .master _ => true
  | _ => false

/-- The master deletes `up` before it next reads it: in the start-up before its wipe, or in
`restart` between `smembers('up')` and its pipeline. -/
def MPc.dropsUp : MPc → Bool
  | .start | .scan .. | .wipe .. | .scanNodes .. | .scanCidr .. | .checked .. | .rotate .. => true
  | _ => false

theorem expiring_ne_up {k : String} (h : expiring k = true) : k ≠ "up" := by
  rintro rfl
  exact absurd h (by decide)

section
variable (conf : Conf) (lib : Lib)

/-! ## The members of `up` -/

@[simp] theorem Ret.next_dropsUp (r : Ret) : (r.next conf).dropsUp = false := by
  cases r <;> rfl

/-- Outside its `up`-dropping stretches, the master either reads `up` or keeps out of it. -/
theorem MasterMoves.keeps_up {s s' : Sys} {evs : List Event} (h : MasterMoves conf lib s s' evs)
    (hm : s.master.dropsUp = false) :
    (∃ t, s.master = .members t) ∨ (s'.master.dropsUp = false ∧ ∀ ev ∈ evs, .del "up" ∉ ev.writes) := by
  cases h
  case members t _ hs _ | membersRaise t hs _ => exact .inl ⟨t, hs⟩
  case start hs | scanEnd _ hs | scan _ _ _ hs | wipe _ hs | scanNodes _ _ _ hs | scanCidr _ _ _ _ hs
    | checkedRaise _ _ _ _ _ hs _ | checked _ _ _ _ _ _ hs _ | rotate _ _ _ _ _ hs =>
    rw [hs] at hm
    cases hm
  all_goals refine .inr ⟨?_, ?_⟩
  all_goals first
    | rfl | exact hm | exact Ret.next_dropsUp conf _ | (split <;> rfl) | simp [Event.writes]

theorem up_kept_step (s : Sys) (a : Actor) (e : Env) {k : String} (hk : k ∈ s.store.up.members)
    (hm : s.master.dropsUp = false) :
    (step conf lib s a e).2.any (Event.reads k) ∨
      (k ∈ (step conf lib s a e).1.store.up.members ∧ (step conf lib s a e).1.master.dropsUp = false) := by
  cases a with
  | master =>
    rcases (masterStep_moves conf lib s e).keeps_up conf lib hm with ⟨t, ht⟩ | ⟨hm', hev⟩
    · left
      simp [step, masterStep, ht, Event.reads, hk]
    · exact .inr ⟨by rw [step, masterStep_store]; exact Store.mem_up_replay _ hev hk, hm'⟩
  | worker w =>
    refine .inr ⟨?_, by rw [step, workerStep_master]; exact hm⟩
    rw [step, workerStep_store]
    exact Store.mem_up_replay _ (fun ev h => (workerStep_events conf lib s w e ev h).writes_no_del lib _) hk
  | expire k' =>
    right
    show k ∈ (expireStep s k').1.store.up.members ∧ (expireStep s k').1.master.dropsUp = false
    unfold expireStep
    split
    · exact ⟨by simpa [Store.exec, expiring_ne_up ‹_ ∧ _›.1] using hk, hm⟩
    · exact ⟨hk, hm⟩

theorem up_kept_run (s : Sys) (l : List (Actor × Env)) {k : String} (hk : k ∈ s.store.up.members)
    (hm : s.master.dropsUp = false) :
    k ∈ (run conf lib s l).1.store.up.members ∨ (run conf lib s l).2.any (Event.reads k) := by
  induction l generalizing s with
  | nil => exact .inl hk
  | cons x l ih =>
    obtain ⟨a, e⟩ := x
    rw [run_cons, List.any_append]
    rcases up_kept_step conf lib s a e hk hm with h | ⟨hk', hm'⟩
    · exact .inr (by simp [h])
    · exact (ih _ hk' hm').imp id (by simp_all)

theorem key_mem_up_adds (st : Store) (c : ConnectPipe) (peers : List Triple) :
    c.key ∈ (st.execAll (c.adds lib peers)).up.members := by
  simp only [ConnectPipe.adds, Store.execAll_append, Store.execAll_cons, Store.execAll_nil]
  exact Store.mem_up_exec _ (by simp) (by simp [Store.exec, Store.sadd])

/-- A `connect` pipeline leaves its key in `up`, also where Redis refuses its first two
commands. -/
theorem key_mem_up_execAll (st : Store) (c : ConnectPipe) (peers : List Triple) :
    c.key ∈ (st.execAll (c.cmds lib peers)).up.members := by
  rw [ConnectPipe.cmds_eq, Store.execAll_append]
  exact key_mem_up_adds lib _ c peers

theorem connect_key_read_or_kept (s : Sys) (w : Nat) (e : Env) (c : ConnectPipe)
    (peers : List Triple) (hpc : s.pcOf w = .execute c peers) (hm : s.master.dropsUp = false)
    (steps : List (Actor × Env)) :
    c.key ∈ (run conf lib s ((.worker w, e) :: steps)).1.store.up.members ∨
      (run conf lib s ((.worker w, e) :: steps)).2.any (Event.reads c.key) := by
  have hk : c.key ∈ (step conf lib s (.worker w) e).1.store.up.members := by
    simp only [step, workerStep, hpc]
    split
    exacts [key_mem_up_adds lib _ c peers, key_mem_up_execAll lib _ c peers]
  have hm' : (step conf lib s (.worker w) e).1.master.dropsUp = false := by
    rw [step_master_ne conf lib s _ e (by simp)]; exact hm
  rw [run_cons, List.any_append]
  exact (up_kept_run conf lib _ steps hk hm').imp id (by simp_all)

end

/-- The pipeline of `connect` for `1.1.1.1`, port 8333, services 1. -/
def demoPipe : ConnectPipe :=
  ⟨("1.1.1.1", .int 8333, .int 1), ⟨"1.1.1.1", "8333", "1", 1, 8333⟩, demoHello 1⟩

/-- Worker 0 about to execute `demoPipe`, the master waiting in `cron`. -/
def executing : Sys := ⟨Store.empty, [default], [⟨0, .execute demoPipe []⟩], .cron 0⟩

theorem executing_read_or_kept :
    (executing.pcOf 0 = .execute demoPipe [] ∧ executing.master.dropsUp = false) ∧
      (demoPipe.key ∈ (run demoConf demoLib executing [(.worker 0, quiet)]).1.store.up.members ∨
        (run demoConf demoLib executing [(.worker 0, quiet)]).2.any (Event.reads demoPipe.key)) :=
  ⟨⟨rfl, rfl⟩, connect_key_read_or_kept demoConf demoLib executing 0 quiet demoPipe [] rfl rfl []⟩

/-- Worker 0 discovers the seed `1.1.1.1` while `cron` restarts, and its pipeline lands after
`restart` read `up` and before `restart`'s pipeline. -/
def lostSteps : List (Actor × Env) :=
  bootSteps ["1.1.1.1"] ++
  [(.worker 0, quiet), (.worker 0, quiet), (.worker 0, quiet), (.worker 0, quiet),
    (.worker 0, { hello := some (demoHello 1) }),
    (.master, quiet), (.master, quiet), (.master, { now := 10 }), (.master, quiet),
    (.worker 0, quiet), (.worker 0, quiet),
    (.master, quiet), (.master, quiet), (.master, quiet)]

/-- The key is added to `up` by a `connect` pipeline, never read by a `restart`, and gone. -/
theorem reachable_key_dropped_unread :
    (run demoConf demoLib (demoInit 1 []) lostSteps).2.any (Event.addsUp "node:1.1.1.1-8333-1") ∧
      "node:1.1.1.1-8333-1" ∉ (run demoConf demoLib (demoInit 1 []) lostSteps).1.store.up.members ∧
      (run demoConf demoLib (demoInit 1 []) lostSteps).2.any (Event.reads "node:1.1.1.1-8333-1")
        = false := by
  decide

section
variable (conf : Conf) (lib : Lib)

/-! ## The claims `node:*` -/

/-- Worker `w` passed a claim check of `k` in discover mode: its next steps take the claim. -/
def Pc.armed (k : String) : Pc → Prop
  | .claim a p s => taskKey a p s = k
  | .cidr m a p s => m = false ∧ taskKey a p s = k
  | _ => False

theorem Pc.armed_ite {k : String} (c : Prop) [Decidable c] (pc pc' : Pc) :
    (if c then pc else pc').armed k ↔ if c then pc.armed k else pc'.armed k := by
  split <;> rfl

@[simp] theorem armed_afterPop {k : String} (m : Bool) (v : String) : ¬ (afterPop conf m v).armed k := by
  unfold afterPop; split <;> (try split_ifs) <;> simp [Pc.armed]

@[simp] theorem armed_session {k : String} (m : Bool) (a : String) (p sv : Atom) :
    (session m a p sv).armed k ↔ m = false ∧ taskKey a p sv = k := by
  cases m <;> simp [session, Pc.armed]

/-- A worker becomes armed for `k` only by a claim check of `k` that found no claim. -/
theorem Moves.armed {s : Sys} {w : Nat} {p p' : Pc} {evs : List Event} {k : String}
    (hm : Moves conf lib s w p p' evs) (h : p'.armed k) :
    p.armed k ∨ ∃ a pp sv, p = .claimCheck false a pp sv ∧ taskKey a pp sv = k ∧ s.store.exists k = false := by
  cases hm with
  | idle => exact .inl h
  | choose _ _ ask => cases ask <;> cases h
  | repush v => exact absurd h (armed_afterPop conf _ _)
  | spop m v => exact absurd h (armed_afterPop conf _ _)
  | claimCheck m a pp sv p' hg hp =>
    have : m = false ∧ taskKey a pp sv = k := by
      rcases hp with ⟨-, rfl⟩ | ⟨-, rfl⟩
      exacts [h, (armed_session m a pp sv).mp h]
    obtain ⟨rfl, rfl⟩ := this
    exact .inr ⟨a, pp, sv, rfl, rfl, by simpa using hg⟩
  | cidr m a pp sv p' hp =>
    rcases hp with ⟨-, rfl⟩ | ⟨-, rfl⟩
    · cases h
    · exact .inl ((armed_session m a pp sv).mp h)
  | gate _ _ hp | refresh4 _ hp | refresh6 _ hp | mempool _ _ _ _ hp => rcases hp with rfl | rfl <;> cases h
  | handshake _ _ _ _ hp => rcases hp with rfl | rfl | ⟨_, -, rfl⟩ | ⟨_, _, -, rfl⟩ <;> cases h
  | _ => cases h

/-- Only a worker at the claim of `k` starts `connect(k)`. -/
theorem Moves.connect {s : Sys} {w : Nat} {p p' : Pc} {evs : List Event} {w' : Nat} {k : String}
    (hm : Moves conf lib s w p p' evs) (h : .connect w' k ∈ evs) :
    w' = w ∧ ∃ a pp sv, p = .claim a pp sv ∧ taskKey a pp sv = k := by
  cases hm <;> simp at h
  exact ⟨h.1, _, _, _, rfl, h.2.symm⟩

theorem step_connect (s : Sys) (a : Actor) (e : Env) {w : Nat} {k : String}
    (h : .connect w k ∈ (step conf lib s a e).2) :
    a = .worker w ∧ ∃ a p sv, s.pcOf w = .claim a p sv ∧ taskKey a p sv = k := by
  have hev := step_events conf lib s a e _ h
  cases a with
  | master => cases hev
  | worker w' =>
    obtain ⟨rfl, hpc⟩ := (workerStep_moves conf lib s w' e).connect conf lib h
    exact ⟨rfl, hpc⟩
  | expire k' => cases hev.2

/-- Worker `w` started `connect(k)` in the current pass: the claim is in the store, and `w` has
not passed a claim check of `k` since. -/
def Claimed (w : Nat) (k : String) (s : Sys) : Prop :=
  (s.store.get k).isSome ∧ ¬ (s.pcOf w).armed k

theorem claimed_of_connect (s : Sys) (a : Actor) (e : Env) {w : Nat} {k : String}
    (h : .connect w k ∈ (step conf lib s a e).2) : Claimed w k (step conf lib s a e).1 := by
  obtain ⟨rfl, a, p, sv, hpc, rfl⟩ := step_connect conf lib s _ e h
  refine ⟨by simp [step, workerStep, hpc, Store.set, Store.get], ?_⟩
  simp only [step, workerStep, hpc, Sys.pcOf_setPc_self, Pc.armed_ite]
  split <;> simp [Pc.armed]

theorem count_connect_step (s : Sys) (a : Actor) (e : Env) (w : Nat) (k : String) :
    (step conf lib s a e).2.count (.connect w k) ≤ 1 := by
  by_cases h : .connect w k ∈ (step conf lib s a e).2
  · obtain ⟨rfl, a, p, sv, hpc, rfl⟩ := step_connect conf lib s _ e h
    simp [step, workerStep, hpc]
  · simp [List.count_eq_zero_of_not_mem h]

/-- Outside pass boundaries, only a TTL deletes a key. -/
theorem step_no_del (s : Sys) (a : Actor) (e : Env) {k : String} (hk : expiring k = false)
    (hrot : ∀ ev ∈ (step conf lib s a e).2, ev.rotates = false) :
    ∀ ev ∈ (step conf lib s a e).2, .del k ∉ ev.writes := by
  intro ev h
  have hev := step_events conf lib s a e ev h
  cases a with
  | master =>
    cases hev
    case wipe | rotate => exact absurd (hrot _ h) (by simp [Event.rotates])
    all_goals simp [Event.writes]
  | worker w => exact hev.writes_no_del lib k
  | expire k' =>
    obtain ⟨hk', rfl⟩ := hev
    simp only [Event.writes, List.mem_singleton, Cmd.del.injEq]
    rintro rfl
    simp_all

theorem claimed_step (s : Sys) (a : Actor) (e : Env) {w : Nat} {k : String}
    (hk : expiring k = false) (hc : Claimed w k s)
    (hrot : ∀ ev ∈ (step conf lib s a e).2, ev.rotates = false) :
    Claimed w k (step conf lib s a e).1 ∧ .connect w k ∉ (step conf lib s a e).2 := by
  refine ⟨⟨?_, fun harm => ?_⟩, fun h => ?_⟩
  · rw [step_store]
    exact Store.get_isSome_replay _ (step_no_del conf lib s a e hk hrot) hc.1
  · by_cases ha : a = .worker w
    · subst ha
      rcases (workerStep_moves conf lib s w e).armed conf lib harm with h | ⟨_, _, _, -, -, hex⟩
      · exact hc.2 h
      · have : s.store.exists k = true := by
          simp only [Store.exists, Bool.or_eq_true]; exact .inl hc.1
        exact absurd (this.symm.trans hex) (by decide)
    · rcases step_pcOf_other conf lib s a e w ha with h | ⟨-, h⟩ <;> rw [h] at harm
      · exact hc.2 harm
      · exact harm
  · obtain ⟨-, _, _, _, hpc, rfl⟩ := step_connect conf lib s a e h
    exact hc.2 (by rw [hpc]; rfl)

theorem claimed_run (s : Sys) (l : List (Actor × Env)) {w : Nat} {k : String}
    (hk : expiring k = false) (hc : Claimed w k s)
    (hrot : ∀ ev ∈ (run conf lib s l).2, ev.rotates = false) :
    (run conf lib s l).2.count (.connect w k) = 0 := by
  induction l generalizing s with
  | nil => rfl
  | cons x l ih =>
    obtain ⟨a, e⟩ := x
    rw [run_cons] at hrot ⊢
    have h1 := claimed_step conf lib s a e hk hc fun ev h => hrot ev (List.mem_append_left _ h)
    rw [List.count_append, List.count_eq_zero_of_not_mem h1.2,
      ih _ h1.1 fun ev h => hrot ev (List.mem_append_right _ h)]

theorem expiring_nodeKey (a p s : String) : expiring (nodeKey a p s) = false := by
  simp [expiring, nodeKey, String.data_append, List.isPrefixOf]

theorem connect_once_per_worker (s : Sys) (steps : List (Actor × Env)) (w : Nat) (a p sv : String)
    (hrot : ∀ ev ∈ (run conf lib s steps).2, ev.rotates = false) :
    (run conf lib s steps).2.count (.connect w (nodeKey a p sv)) ≤ 1 := by
  induction steps generalizing s with
  | nil => simp
  | cons x l ih =>
    obtain ⟨b, e⟩ := x
    rw [run_cons] at hrot ⊢
    have hrest : ∀ ev ∈ (run conf lib (step conf lib s b e).1 l).2, ev.rotates = false :=
      fun ev h => hrot ev (List.mem_append_right _ h)
    rw [List.count_append]
    by_cases h : .connect w (nodeKey a p sv) ∈ (step conf lib s b e).2
    · rw [claimed_run conf lib _ l (expiring_nodeKey a p sv) (claimed_of_connect conf lib s b e h) hrest]
      exact count_connect_step conf lib s b e w _
    · rw [List.count_eq_zero_of_not_mem h, Nat.zero_add]
      exact ih _ hrest

end

/-- The start-up of a deployment with three master workers and two seeds. -/
def raceStart : Sys :=
  (run demoConf demoLib (demoInit 3 []) (bootSteps ["1.1.1.1", "2.2.2.2"])).1

/-- Worker 2 discovers `2.2.2.2`, whose peer list holds `1.1.1.1`. Worker 0 pops `1.1.1.1` and
passes its claim check; worker 2's pipeline puts `1.1.1.1` back in `pending`; worker 1 pops it
and passes the claim check too, before worker 0 writes the claim. -/
def raceSteps : List (Actor × Env) :=
  [(.worker 2, quiet), (.worker 2, quiet), (.worker 2, quiet), (.worker 2, quiet),
    (.worker 2, { hello := some (demoHello 1) }),
    (.worker 2, { sent := true, polls := [some [⟨2, some [⟨0, "1.1.1.1", "", "", 8333, 1⟩]⟩]] }),
    (.worker 0, quiet), (.worker 0, quiet), (.worker 0, quiet),
    (.worker 2, quiet),
    (.worker 1, quiet), (.worker 1, quiet), (.worker 1, quiet),
    (.worker 0, quiet), (.worker 1, quiet)]

theorem race_once_per_worker :
    (∀ ev ∈ (run demoConf demoLib raceStart raceSteps).2, ev.rotates = false) ∧
      (run demoConf demoLib raceStart raceSteps).2.count (.connect 0 (nodeKey "1.1.1.1" "8333" "1"))
        ≤ 1 :=
  ⟨by decide,
    connect_once_per_worker demoConf demoLib raceStart raceSteps 0 "1.1.1.1" "8333" "1" (by decide)⟩

/-- Within one pass, two workers both start `connect` on `node:1.1.1.1-8333-1`. -/
theorem two_workers_claim_one_key :
    (run demoConf demoLib raceStart raceSteps).2.all (fun ev => !ev.rotates) ∧
      (run demoConf demoLib raceStart raceSteps).2.count (.connect 0 "node:1.1.1.1-8333-1") = 1 ∧
      (run demoConf demoLib raceStart raceSteps).2.count (.connect 1 "node:1.1.1.1-8333-1") = 1 := by
  decide

/-! ## The CIDR counters -/

section
variable (conf : Conf) (lib : Lib)

/-- The `INCR` of the CIDR gate answers the counter's next value, and is its step's only event. -/
theorem Moves.incr {s : Sys} {w : Nat} {p p' : Pc} {evs : List Event} {w' : Nat} {k : String} {n : Nat}
    (hm : Moves conf lib s w p p' evs) (h : .incr w' k n ∈ evs) :
    evs = [.incr w' k n] ∧ n = s.store.counter k + 1 := by
  cases hm <;> simp at h
  obtain ⟨rfl, rfl, rfl⟩ := h
  exact ⟨rfl, rfl⟩

/-- A worker stands past the CIDR gate of the counter `k`: at the start of the session
(`connect`'s claim, or `ask_mempool`) of an IPv6 node whose prefix counter is `k`. -/
def Pc.admitted (k : String) : Pc → Bool
  | .claim a _ _ | .mempool a _ _ => decide (':' ∈ a.data) && cidrOf conf lib a == k
  | _ => false

/-- The workers standing past the CIDR gate of `k`. -/
def Sys.admitted (k : String) (s : Sys) : Nat := s.workers.countP fun wk => wk.pc.admitted conf lib k

@[simp] theorem admitted_afterPop (k : String) (m : Bool) (v : String) :
    (afterPop conf m v).admitted conf lib k = false := by
  unfold afterPop; split <;> (try split_ifs) <;> rfl

end

end BitCrawler
